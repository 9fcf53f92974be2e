import NodeGraph.Proofs.Permission
import NodeGraph.Proofs.Run.Nodes

namespace NodeGraph

/-! Initializing again. Some nodes write their outputs when they are initialized,
from whatever their inputs hold by then. If such a node makes nothing known and
would do the same again at once, then a graph of such nodes is settled after one
pass: every node runs after the nodes that it reads from, so no later one unsettles
it. A second pass changes nothing. -/

namespace Processor

/-- A node with the property makes nothing known when it is initialized, takes no
notice of the context, and is settled afterwards: to initialize it again at once
changes nothing. -/
structure Settles [Processor ν] (holds : ν → Prop) : Prop where
  keeps : ∀ context node panel, holds node →
    holds ((Processor.init context node).run panel).1
  emitted : ∀ context node panel, holds node →
    ((Processor.init context node).run panel).2.emitted = panel.emitted
  journal : ∀ context node panel, holds node →
    ((Processor.init context node).run panel).2.journal = panel.journal
  contextFree : ∀ first second node panel, holds node →
    (Processor.init first node).run panel = (Processor.init second node).run panel
  again : ∀ context node panel, holds node → panel.OwnsOutputs →
    let ran := (Processor.init context node).run panel
    (Processor.init context ran.1).run ran.2 = ran

variable [Processor ν] [Processor μ]

theorem Settles.sum {left : ν → Prop} {right : μ → Prop} (leftSettles : Settles left)
    (rightSettles : Settles right) : Settles (Sum.elim left right) where
  keeps context node panel before := by
    cases node with
    | inl node => simpa [Processor.init] using leftSettles.keeps context node panel before
    | inr node => simpa [Processor.init] using rightSettles.keeps context node panel before
  emitted context node panel before := by
    cases node with
    | inl node => simpa [Processor.init] using leftSettles.emitted context node panel before
    | inr node => simpa [Processor.init] using rightSettles.emitted context node panel before
  journal context node panel before := by
    cases node with
    | inl node => simpa [Processor.init] using leftSettles.journal context node panel before
    | inr node => simpa [Processor.init] using rightSettles.journal context node panel before
  contextFree first second node panel before := by
    cases node with
    | inl node =>
        simp only [Processor.init, Program.run_map, leftSettles.contextFree first second node
          panel before]
    | inr node =>
        simp only [Processor.init, Program.run_map, rightSettles.contextFree first second node
          panel before]
  again context node panel before owns := by
    cases node with
    | inl node =>
        simp only [Processor.init, Program.run_map, leftSettles.again context node panel before owns]
    | inr node =>
        simp only [Processor.init, Program.run_map,
          rightSettles.again context node panel before owns]

end Processor

/-! ## Nodes at rest -/

namespace State

variable {circuit : Circuit} {index other : Nat} {program : Cell ν → Program (Cell ν)}
  {state : State ν}

/-- The program changes nothing when it runs on the node. -/
def Rests (circuit : Circuit) (program : Cell ν → Program (Cell ν)) (state : State ν)
    (index : Nat) : Prop :=
  (state.runCell circuit index program).1 = state

theorem rests_iff {placement : Placement} {cell : Cell ν}
    (placed : circuit.placements[index]? = some placement)
    (present : state.cells[index]? = some cell) :
    state.Rests circuit program index ↔
      let ran := (program cell).run (placement.window state.values)
      ran.1 = cell ∧ ran.2.values = state.values := by
  have bound := (Array.getElem?_eq_some_iff.mp present).1
  rw [Rests, runCell_window placed present]
  generalize (program cell).run (placement.window state.values) = ran
  constructor
  · intro rests
    have cells : state.cells.setIfInBounds index ran.1 = state.cells := congrArg State.cells rests
    have here := congrArg (fun cells => cells[index]?) cells
    rw [Array.getElem?_setIfInBounds_self_of_lt bound, present, Option.some.injEq] at here
    exact ⟨here, congrArg State.values rests⟩
  · intro same
    have cells : state.cells.setIfInBounds index ran.1 = state.cells := by
      apply Array.ext_getElem?
      intro position
      by_cases here : index = position
      · rw [← here, Array.getElem?_setIfInBounds_self_of_lt bound, present, same.1]
      · exact Array.getElem?_setIfInBounds_ne here
    exact congrArg₂ (fun cells values => ({ state with cells, values } : State ν)) cells same.2

/-- Two states in which a node reads the same. -/
theorem readsAlike_window {placement : Placement} {left right : Array Value}
    (inputs : ∀ slot ∈ placement.inputs, left[slot]? = right[slot]?)
    (outputs : ∀ slot ∈ placement.outputs, left[slot]? = right[slot]?) :
    (placement.window left).ReadsAlike (placement.window right) where
  input plug := by
    rw [Panel.input, Panel.input, Panel.valueAt_eq, Panel.valueAt_eq]
    exact congrArg (fun values => values[plug]?.getD Value.void) (readSlots_congr inputs)
  output plug := by
    rw [Panel.output, Panel.output, Panel.valueAt_eq, Panel.valueAt_eq]
    exact congrArg (fun values => values[plug]?.getD Value.void) (readSlots_congr outputs)
  width := rfl
  emitted := rfl
  journal := rfl

/-- A node at rest stays so while a node runs that it does not read from. -/
theorem Rests.runCell (flows : circuit.FlowsForward) (fits : state.Fits circuit)
    (rests : state.Rests circuit program index) (different : index ≠ other)
    (apart : ¬ circuit.Feeds other index) (running : Cell ν → Program (Cell ν)) :
    (state.runCell circuit other running).1.Rests circuit program index := by
  have fitsAfter := fits.runCell other running
  have cells : (state.runCell circuit other running).1.cells[index]? = state.cells[index]? :=
    state.runCell_other different
  have unwritten (slot : Slot) (elsewhere : slot ∉ circuit.outputsAt other) :
      (state.runCell circuit other running).1.values[slot]? = state.values[slot]? :=
    state.runCell_unwritten elsewhere
  generalize (state.runCell circuit other running).1 = after at fitsAfter cells unwritten ⊢
  obtain ⟨placement, cell, placed, present⟩ | unchanged :=
    after.runCell_cases circuit index program
  · obtain ⟨sameCell, sameValues⟩ := (rests_iff placed (cells ▸ present)).mp rests
    have owns : (placement.window state.values).OwnsOutputs :=
      flows.ownsOutputs placed fits.values
    have ownsAfter : (placement.window after.values).OwnsOutputs :=
      flows.ownsOutputs placed fitsAfter.values
    have alike : (placement.window after.values).ReadsAlike (placement.window state.values) := by
      apply readsAlike_window
      · intro slot read
        apply unwritten
        intro written
        exact apart ⟨slot, written, by rwa [Circuit.inputsAt_eq placed]⟩
      · intro slot owned
        apply unwritten
        exact flows.outputs_apart index other different slot
          (by rwa [Circuit.outputsAt_eq placed])
    obtain ⟨ranCell, ranAlike⟩ := (program cell).run_alike ownsAfter owns alike
    refine (rests_iff placed present).mpr ⟨ranCell.trans sameCell, ?_⟩
    apply Panel.values_eq_of_outputs ownsAfter (Program.run_outputs _ _) (Program.run_size _ _)
    · intro slot elsewhere
      exact Program.run_unwritten (program cell) elsewhere
    · intro plug
      rw [ranAlike.output, alike.output]
      unfold Panel.output Panel.valueAt
      rw [sameValues, Program.run_outputs]
      rfl
  · exact congrArg Prod.fst unchanged

end State

/-! ## Passes -/

section
variable [Processor ν] {circuit : Circuit} {holds : ν → Prop} {state : State ν}

/-- What initializing does to a node in its cell. -/
theorem Happening.init_run (context : Context) (cell : Cell ν) (panel : Panel) :
    ((Happening.init context).program cell).run panel =
      let ran := (Processor.init context cell.node).run panel
      ({ cell with node := ran.1 }, ran.2) := by
  simp [Happening.program]

/-- The state once the nodes at some positions have been initialized, one after the
other. -/
def State.initAll (circuit : Circuit) (context : Context) : List Nat → State ν → State ν
  | [], state => state
  | index :: indices, state =>
      initAll circuit context indices
        (state.runCell circuit index (Happening.init context).program).1

/-- A state of a graph with that circuit whose nodes all have the property. -/
structure State.Readied (circuit : Circuit) (holds : ν → Prop) (state : State ν) : Prop where
  fits : state.Fits circuit
  every : state.Every fun _ => holds

namespace Processor.Settles

theorem runCell (settles : Settles holds) (readied : state.Readied circuit holds)
    (context : Context) (index : Nat) :
    (state.runCell circuit index (Happening.init context).program).1.Readied circuit holds where
  fits := readied.fits.runCell index _
  every := by
    apply State.runCell_every _ readied.every
    intro cell panel kept
    rw [Happening.init_run]
    exact settles.keeps context cell.node panel kept

theorem initAll (settles : Settles holds) (readied : state.Readied circuit holds)
    (context : Context) (indices : List Nat) :
    (State.initAll circuit context indices state).Readied circuit holds := by
  induction indices generalizing state with
  | nil => exact readied
  | cons index indices induction => exact induction (settles.runCell readied context index)

/-- Nothing becomes known of a node that is initialized. -/
theorem runCell_quiet (settles : Settles holds) (readied : state.Readied circuit holds)
    (context : Context) (index : Nat) :
    (state.runCell circuit index (Happening.init context).program).2 = (#[], #[]) := by
  obtain ⟨placement, cell, placed, present⟩ | unchanged :=
    state.runCell_cases circuit index (Happening.init context).program
  · have kept := readied.every index cell present
    rw [State.runCell_fired placed present, Happening.init_run]
    exact Prod.ext (settles.emitted context cell.node _ kept)
      (settles.journal context cell.node _ kept)
  · exact congrArg Prod.snd unchanged

theorem runCell_contextFree (settles : Settles holds) (readied : state.Readied circuit holds)
    (first second : Context) (index : Nat) :
    state.runCell circuit index (Happening.init first).program =
      state.runCell circuit index (Happening.init second).program := by
  unfold State.runCell
  split
  next placement cell placed present =>
    have kept := readied.every index cell present
    rw [Happening.init_run, Happening.init_run, settles.contextFree first second _ _ kept]
  next => rfl

/-- A node that has just been initialized is at rest. -/
theorem rests (settles : Settles holds) (flows : circuit.FlowsForward)
    (readied : state.Readied circuit holds) (context : Context) (index : Nat) :
    (state.runCell circuit index (Happening.init context).program).1.Rests circuit
      (Happening.init context).program index := by
  obtain ⟨placement, cell, placed, present⟩ | unchanged :=
    state.runCell_cases circuit index (Happening.init context).program
  · have kept := readied.every index cell present
    have owns : (placement.window state.values).OwnsOutputs :=
      flows.ownsOutputs placed readied.fits.values
    have again := settles.again context cell.node _ kept owns
    have emitted := settles.emitted context cell.node (placement.window state.values) kept
    have journal := settles.journal context cell.node (placement.window state.values) kept
    have inputs := Program.run_inputs (Processor.init context cell.node)
      (placement.window state.values)
    have outputs := Program.run_outputs (Processor.init context cell.node)
      (placement.window state.values)
    rw [State.runCell_window placed present, Happening.init_run]
    generalize (Processor.init context cell.node).run (placement.window state.values) = ran at *
    have window : placement.window ran.2.values = ran.2 :=
      Panel.eq_of_fields rfl inputs.symm outputs.symm emitted.symm journal.symm
    have bound := (Array.getElem?_eq_some_iff.mp present).1
    apply (State.rests_iff placed (Array.getElem?_setIfInBounds_self_of_lt bound)).mpr
    simp only [Happening.init_run, window, again, and_self]
  · simp only [State.Rests, unchanged]

/-- Where values flow forward, nodes that are initialized in order are all at rest
in the end, and so are those that were at rest before and read from none of them. -/
theorem initAll_rests (settles : Settles holds) (flows : circuit.FlowsForward)
    (readied : state.Readied circuit holds) (context : Context) {indices : List Nat}
    (nodup : indices.Nodup)
    (forward : indices.Pairwise fun earlier later => ¬ circuit.Feeds later earlier) :
    (∀ index ∈ indices, (State.initAll circuit context indices state).Rests circuit
      (Happening.init context).program index) ∧
    ∀ index, state.Rests circuit (Happening.init context).program index →
      index ∉ indices → (∀ later ∈ indices, ¬ circuit.Feeds later index) →
      (State.initAll circuit context indices state).Rests circuit
        (Happening.init context).program index := by
  induction indices generalizing state with
  | nil => exact ⟨fun _ member => absurd member List.not_mem_nil, fun _ rests _ _ => rests⟩
  | cons first indices induction =>
      obtain ⟨fresh, nodup⟩ := List.nodup_cons.mp nodup
      obtain ⟨apart, forward⟩ := List.pairwise_cons.mp forward
      obtain ⟨done, kept⟩ := induction (settles.runCell readied context first) nodup forward
      constructor
      · intro index member
        obtain rfl | later := List.mem_cons.mp member
        · exact kept index (settles.rests flows readied context index) fresh apart
        · exact done index later
      · intro index rests notMember unfed
        obtain ⟨different, notLater⟩ := List.ne_and_not_mem_of_not_mem_cons notMember
        obtain ⟨unfedFirst, unfedLater⟩ := List.forall_mem_cons.mp unfed
        exact kept index (rests.runCell flows readied.fits different unfedFirst _) notLater
          unfedLater

end Processor.Settles

/-- Initializing nodes at rest changes nothing. -/
theorem State.initAll_eq_self {context : Context} {indices : List Nat}
    (rests : ∀ index ∈ indices, state.Rests circuit (Happening.init context).program index) :
    State.initAll circuit context indices state = state := by
  induction indices with
  | nil => rfl
  | cons index indices induction =>
      obtain ⟨first, later⟩ := List.forall_mem_cons.mp rests
      have unchanged : (state.runCell circuit index (Happening.init context).program).1 = state :=
        first
      rw [State.initAll, unchanged]
      exact induction later

theorem State.initAll_outgoing (context : Context) (indices : List Nat) :
    (State.initAll circuit context indices state).outgoing = state.outgoing := by
  induction indices generalizing state with
  | nil => rfl
  | cons index indices induction =>
      rw [State.initAll, induction, State.runCell_outgoing]

/-- No event comes of initializing nodes, so it takes no deliveries and leaves
nothing on record. -/
theorem Processor.Settles.visits (settles : Processor.Settles holds) {turn : Turn ν}
    (readied : turn.state.Readied circuit holds) (context : Context) (indices : List Nat) :
    indices.foldl (Turn.visit circuit (Happening.init context).program) turn =
      { turn with state := State.initAll circuit context indices turn.state } := by
  induction indices generalizing turn with
  | nil => rfl
  | cons index indices induction =>
      have quiet := settles.runCell_quiet readied context index
      have visited : Turn.visit circuit (Happening.init context).program turn index =
          { turn with
            state := (turn.state.runCell circuit index (Happening.init context).program).1 } := by
        rw [Turn.visit_eq, Turn.settle_nothing]
        · simp [Turn.runCell, quiet]
        · simp [Turn.runCell, quiet, Parcel.deliveries]
      rw [List.foldl_cons, visited, induction (settles.runCell readied context index)]
      rfl

/-! ## Graphs -/

/-- Initializing the graph takes no notice of the context, makes nothing known,
queues no event, and done again changes nothing. -/
structure Graph.Settled (graph : Graph ν) : Prop where
  contextFree : ∀ first second, graph.init first = graph.init second
  journal : ∀ context, (graph.init context).2 = #[]
  outgoing : ∀ context, (graph.init context).1.state.outgoing = graph.state.outgoing
  again : ∀ first second, (graph.init first).1.init second = graph.init second

namespace Processor.Settles

variable {graph : Graph ν}

theorem graph_init (settles : Settles holds) (readied : graph.state.Readied graph.circuit holds)
    (context : Context) :
    graph.init context =
      (⟨graph.circuit, State.initAll graph.circuit context graph.circuit.order graph.state⟩,
        #[]) := by
  have swept : graph.sweep (Happening.init context).program =
      { graph.begin with
        state := State.initAll graph.circuit context graph.circuit.order graph.state } :=
    settles.visits readied context graph.circuit.order
  exact congrArg (fun turn => (graph.finish turn, turn.journal)) swept

theorem initAll_contextFree (settles : Settles holds) (readied : state.Readied circuit holds)
    (first second : Context) (indices : List Nat) :
    State.initAll circuit first indices state = State.initAll circuit second indices state := by
  induction indices generalizing state with
  | nil => rfl
  | cons index indices induction =>
      rw [State.initAll, State.initAll, induction (settles.runCell readied first index),
        settles.runCell_contextFree readied first second]

/-- A graph of nodes that settle, in which values flow forward, settles. -/
theorem graph_settled (settles : Settles holds) (flows : graph.circuit.FlowsForward)
    (readied : graph.state.Readied graph.circuit holds) : graph.Settled where
  contextFree first second := by
    rw [settles.graph_init readied, settles.graph_init readied,
      settles.initAll_contextFree readied first second]
  journal context := congrArg Prod.snd (settles.graph_init readied context)
  outgoing context := by
    rw [settles.graph_init readied]
    exact State.initAll_outgoing context graph.circuit.order
  again first second := by
    have rests := (settles.initAll_rests flows readied second flows.order_nodup flows.forward).1
    have after := settles.initAll readied second graph.circuit.order
    rw [settles.graph_init readied first, settles.graph_init readied second,
      settles.initAll_contextFree readied first second]
    exact (settles.graph_init after second).trans
      (congrArg (fun state => ((⟨graph.circuit, state⟩ : Graph ν), #[]))
        (State.initAll_eq_self rests))

end Processor.Settles

end

end NodeGraph
