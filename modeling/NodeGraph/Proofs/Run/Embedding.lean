import NodeGraph.Proofs.Compile.Relocation
import NodeGraph.Proofs.Run.Reachable

namespace NodeGraph

/-! Runs of a circuit that is part of a larger one. States of the two match if
the same nodes stand in corresponding places and slots that meet hold the same.
What a node does in either place is the same, and afterwards the states match
again. -/

/-! ## Slots that meet -/

section
variable {meets : Slot → Slot → Prop}

/-- Of slots that meet, the first ones of a name meet. -/
theorem Circuit.NamesMeet.find? {entries others : List (Identifier × Slot)}
    (meet : NamesMeet meets entries others) (id : Identifier) :
    Option.Rel meets ((entries.find? fun entry => entry.1 == id).map Prod.snd)
      ((others.find? fun entry => entry.1 == id).map Prod.snd) := by
  induction meet with
  | nil => exact .none
  | @cons entry other entries others first rest induction =>
      rw [List.find?_cons, List.find?_cons, ← first.1]
      cases entry.1 == id with
      | true => exact .some first.2
      | false => exact induction

theorem Circuit.NamesMeet.lastSlot? {entries others : List (Identifier × Slot)}
    (meet : NamesMeet meets entries others) (id : Identifier) :
    Option.Rel meets (Circuit.lastSlot? entries id) (Circuit.lastSlot? others id) :=
  NamesMeet.find? (List.forall₂_reverse_iff.mpr meet) id

theorem readSlots_eq_of_meets {slots others : List Slot} {values otherValues : Array Value}
    (meet : List.Forall₂ meets slots others)
    (same : ∀ {slot other}, slot ∈ slots → meets slot other →
      otherValues[other]? = values[slot]?) :
    readSlots otherValues others = readSlots values slots := by
  induction meet with
  | nil => rfl
  | cons first _ induction =>
      simp only [readSlots, List.map_cons, same (.head _) first, List.cons.injEq, true_and]
      exact induction fun member => same (.tail _ member)

/-- If slots that meet hold the same, nodes that lie alike read the same. -/
theorem Circuit.PlugsMeet.readsAlike {placement otherPlacement : Placement}
    (meet : PlugsMeet meets placement otherPlacement) {values otherValues : Array Value}
    (same : ∀ {slot other}, meets slot other → otherValues[other]? = values[slot]?) :
    Panel.ReadsAlike (placement.window values) (otherPlacement.window otherValues) := by
  have inputs := readSlots_eq_of_meets meet.inputs fun _ => same
  have outputs := readSlots_eq_of_meets meet.outputs fun _ => same
  exact {
    input := fun plug => by
      simp only [Panel.input, Panel.valueAt_eq, Placement.window, inputs]
    output := fun plug => by
      simp only [Panel.output, Panel.valueAt_eq, Placement.window, outputs]
    width := meet.outputs.length_eq
    emitted := rfl
    journal := rfl }

end

theorem getElem?_eq_of_getD {values others : Array Value} {slot other : Slot}
    (bound : slot < values.size) (otherBound : other < others.size)
    (same : others[other]?.getD .void = values[slot]?.getD .void) :
    others[other]? = values[slot]? := by
  rw [Array.getElem?_eq_getElem bound, Array.getElem?_eq_getElem otherBound] at same ⊢
  exact congrArg some same

namespace Circuit.Embeds

variable {node : Nat → Nat} {meets : Slot → Slot → Prop} {small large : Circuit}

/-- Where slots meet one by one, either of two that meet is among them if the other
is. -/
theorem mem_iff (embeds : small.Embeds node meets large) {slots others : List Slot}
    (meet : List.Forall₂ meets slots others) {slot other : Slot} (here : meets slot other) :
    slot ∈ slots ↔ other ∈ others := by
  induction meet with
  | nil => simp
  | cons first _ induction => rw [List.mem_cons, List.mem_cons, embeds.unique here first, induction]

/-- Where slots hold the same one by one, two that meet hold the same. -/
theorem value_eq (embeds : small.Embeds node meets large) {slots others : List Slot}
    {values otherValues : Array Value} (meet : List.Forall₂ meets slots others)
    (same : readSlots otherValues others = readSlots values slots) {slot other : Slot}
    (here : meets slot other) (member : slot ∈ slots) :
    otherValues[other]?.getD .void = values[slot]?.getD .void := by
  induction meet with
  | nil => cases member
  | @cons head otherHead _ _ first _ induction =>
      rcases (List.cons.injEq ..).mp same with ⟨sameHead, sameTail⟩
      by_cases isHead : slot = head
      · rw [(embeds.unique here first).mp isHead, isHead]
        exact sameHead
      · exact induction sameTail ((List.mem_cons.mp member).resolve_left isHead)

/-- A program that runs in either place leaves the same in slots that meet. -/
theorem run_values (embeds : small.Embeds node meets large)
    {placement otherPlacement : Placement} (meet : PlugsMeet meets placement otherPlacement)
    {values otherValues : Array Value}
    (same : ∀ {slot other}, meets slot other → otherValues[other]? = values[slot]?)
    (owns : (placement.window values).OwnsOutputs)
    (otherOwns : (otherPlacement.window otherValues).OwnsOutputs) (program : Program α)
    {slot other : Slot} (here : meets slot other) :
    (program.run (otherPlacement.window otherValues)).2.values[other]? =
      (program.run (placement.window values)).2.values[slot]? := by
  by_cases written : slot ∈ placement.outputs
  · have otherWritten := (embeds.mem_iff meet.outputs here).mp written
    have shown := (program.run_alike owns otherOwns (meet.readsAlike same)).2.outputValues_eq
    simp only [Panel.outputValues, Program.run_outputs] at shown
    refine getElem?_eq_of_getD ?_ ?_ (embeds.value_eq meet.outputs shown.symm here written)
    · rw [Program.run_size]
      exact owns.bounded slot written
    · rw [Program.run_size]
      exact otherOwns.bounded other otherWritten
  · have otherUnwritten := mt (embeds.mem_iff meet.outputs here).mpr written
    have kept : (program.run (placement.window values)).2.values[slot]? = values[slot]? :=
      program.run_unwritten written
    have otherKept : (program.run (otherPlacement.window otherValues)).2.values[other]? =
        otherValues[other]? := program.run_unwritten otherUnwritten
    rw [kept, otherKept, same here]

end Circuit.Embeds

/-! ## States that match -/

/-- The nodes of the small circuit and the slots that meet those of the large one
are in the same state. -/
structure State.Matches (node : Nat → Nat) (meets : Slot → Slot → Prop) (small large : Circuit)
    (state other : State ν) : Prop where
  fits : state.Fits small
  otherFits : other.Fits large
  cells : ∀ index, other.cells[node index]? = state.cells[index]?
  values : ∀ {slot otherSlot}, meets slot otherSlot →
    other.values[otherSlot]? = state.values[slot]?

namespace State.Matches

variable {node : Nat → Nat} {meets : Slot → Slot → Prop} {small large : Circuit}
  {state other : State ν}

/-- Running a node in either place does the same, and the states match
afterwards. -/
theorem runCell (same : state.Matches node meets small large other)
    (embeds : small.Embeds node meets large) (flows : small.FlowsForward)
    (otherFlows : large.FlowsForward) (index : Nat) (program : Cell ν → Program (Cell ν)) :
    State.Matches node meets small large (state.runCell small index program).1
        (other.runCell large (node index) program).1 ∧
      (other.runCell large (node index) program).2 = (state.runCell small index program).2 := by
  have plugs := embeds.placements index
  have held := same.cells index
  cases placed : small.placements[index]? <;>
    cases otherPlaced : large.placements[node index]? <;>
    rw [placed, otherPlaced] at plugs
  case none.some => cases plugs
  case some.none => cases plugs
  case none.none => exact ⟨by simpa [State.runCell, placed, otherPlaced] using same,
      by simp [State.runCell, placed, otherPlaced]⟩
  case some.some placement otherPlacement =>
    have meet := Option.rel_some_some.mp plugs
    cases present : state.cells[index]? with
    | none =>
        rw [present] at held
        exact ⟨by simpa [State.runCell, present, held] using same,
          by simp [State.runCell, present, held]⟩
    | some cell =>
        rw [present] at held
        have owns := flows.ownsOutputs placed same.fits.values
        have otherOwns := otherFlows.ownsOutputs otherPlaced same.otherFits.values
        rcases (program cell).run_alike owns otherOwns (meet.readsAlike same.values) with
          ⟨sameCell, after⟩
        refine ⟨{
          fits := same.fits.runCell index program
          otherFits := same.otherFits.runCell (node index) program
          cells := fun position => ?_
          values := fun here => ?_ }, ?_⟩
        · rw [runCell_eq placed present, runCell_eq otherPlaced held]
          by_cases isIndex : position = index
          · subst isIndex
            rw [Array.getElem?_setIfInBounds_self_of_lt (Array.getElem?_eq_some_iff.mp held).1,
              Array.getElem?_setIfInBounds_self_of_lt (Array.getElem?_eq_some_iff.mp present).1]
            exact congrArg some sameCell.symm
          · rw [Array.getElem?_setIfInBounds_ne (Ne.symm isIndex),
              Array.getElem?_setIfInBounds_ne (embeds.injective.ne (Ne.symm isIndex)),
              same.cells]
        · rw [runCell_eq placed present, runCell_eq otherPlaced held]
          exact embeds.run_values meet same.values owns otherOwns (program cell) here
        · rw [runCell_fired placed present, runCell_fired otherPlaced held]
          exact congrArg₂ Prod.mk after.emitted.symm after.journal.symm

/-- Setting slots that meet keeps states matching. -/
theorem setSlot (same : state.Matches node meets small large other)
    (embeds : small.Embeds node meets large) {slot otherSlot : Slot}
    (here : meets slot otherSlot) (value : Value) :
    State.Matches node meets small large
      { state with values := state.values.setIfInBounds slot value }
      { other with values := other.values.setIfInBounds otherSlot value } where
  fits := ⟨same.fits.cells, by simpa using same.fits.values⟩
  otherFits := ⟨same.otherFits.cells, by simpa using same.otherFits.values⟩
  cells := same.cells
  values {next nextOther} there := by
    have before := same.values here
    by_cases isSlot : slot = next
    · subst isSlot
      have isOther := (embeds.unique here there).mp rfl
      subst isOther
      have bounds : otherSlot < other.values.size ↔ slot < state.values.size := by
        rw [← Nat.not_le, ← Nat.not_le, ← Array.getElem?_eq_none_iff,
          ← Array.getElem?_eq_none_iff, before]
      simp only [Array.getElem?_setIfInBounds, if_true, bounds]
    · have different := mt (embeds.unique here there).mpr isSlot
      rw [Array.getElem?_setIfInBounds_ne isSlot, Array.getElem?_setIfInBounds_ne different,
        same.values there]

/-- Output events that wait do not matter. -/
theorem withOutgoing (same : state.Matches node meets small large other)
    (outgoing otherOutgoing : OutgoingQueue) :
    State.Matches node meets small large { state with outgoing }
      { other with outgoing := otherOutgoing } :=
  ⟨⟨same.fits.cells, same.fits.values⟩, ⟨same.otherFits.cells, same.otherFits.values⟩,
    same.cells, same.values⟩

theorem reset [Processor ν] (same : state.Matches node meets small large other)
    (embeds : small.Embeds node meets large) :
    State.Matches node meets small large (Graph.reset ⟨small, state⟩).state
      (Graph.reset ⟨large, other⟩).state where
  fits := small.keeps_fits.resets state same.fits
  otherFits := large.keeps_fits.resets other same.otherFits
  cells index := by simp [Graph.reset, same.cells]
  values here := embeds.defaults here

end State.Matches

/-! ## Graphs that match -/

/-- The one circuit is part of the other, and their states match. -/
structure Graph.Matches (node : Nat → Nat) (meets : Slot → Slot → Prop) (graph other : Graph ν) :
    Prop where
  embeds : graph.circuit.Embeds node meets other.circuit
  flows : graph.circuit.FlowsForward
  otherFlows : other.circuit.FlowsForward
  states : graph.state.Matches node meets graph.circuit other.circuit other.state

namespace Graph.Matches

variable {node : Nat → Nat} {meets : Slot → Slot → Prop} {graph other : Graph ν}

/-- Outputs show the same. -/
theorem readOutput? (same : graph.Matches node meets other) (id : Identifier) :
    other.readOutput? id = graph.readOutput? id := by
  have meet := Circuit.NamesMeet.find? same.embeds.outputs id
  unfold Graph.readOutput? Circuit.outputSlot?
  generalize (graph.circuit.outputs.find? _).map Prod.snd = slot? at meet ⊢
  generalize (other.circuit.outputs.find? _).map Prod.snd = otherSlot? at meet ⊢
  cases meet with
  | none => rfl
  | some here => rw [Option.map_some, Option.map_some, same.states.values here]

theorem consumedBy (same : graph.Matches node meets other) (index : Nat) :
    other.state.consumedBy (node index) = graph.state.consumedBy index := by
  rw [State.consumedBy, State.consumedBy, same.states.cells]

/-- What is done to matching graphs keeps them matching if it leaves matching
states. -/
theorem of_states (same : graph.Matches node meets other) {after otherAfter : Graph ν}
    (circuit : after.circuit = graph.circuit) (otherCircuit : otherAfter.circuit = other.circuit)
    (states : after.state.Matches node meets graph.circuit other.circuit otherAfter.state) :
    after.Matches node meets otherAfter := by
  rcases after with ⟨_, state⟩
  rcases otherAfter with ⟨_, otherState⟩
  subst circuit otherCircuit
  exact ⟨same.embeds, same.flows, same.otherFlows, states⟩

/-- Setting slots that meet keeps states matching, and setting what is nowhere is
refused by both. -/
theorem setSlot? [Processor ν] (same : graph.Matches node meets other)
    {slot? otherSlot? : Option Slot} (meet : Option.Rel meets slot? otherSlot?)
    (refusal otherRefusal : Entry) (value : Value) :
    let set := graph.settled refusal
      ((slot?.map fun slot => graph.setSlot slot value).map fun after => (after, #[]))
    let otherSet := other.settled otherRefusal
      ((otherSlot?.map fun slot => other.setSlot slot value).map fun after => (after, #[]))
    set.1.state.Matches node meets graph.circuit other.circuit otherSet.1.state ∧
      otherSet.2.1 = set.2.1 := by
  cases meet with
  | none => exact ⟨same.states, rfl⟩
  | some here => exact ⟨same.states.setSlot same.embeds here value, rfl⟩

/-- Calls keep graphs matching if sweeps and posted events do. -/
theorem perform [Processor ν] (same : graph.Matches node meets other)
    (sweeps : ∀ happening : Happening, (graph.sweep happening.program).state.Matches node meets
      graph.circuit other.circuit (other.sweep happening.program).state)
    (posts : ∀ id, (graph.perform (.post id)).1.state.Matches node meets graph.circuit
      other.circuit (other.perform (.post id)).1.state) (call : Call) :
    (graph.perform call).1.Matches node meets (other.perform call).1 := by
  refine same.of_states (by simp) (by simp) ?_
  cases call with
  | setInput id value =>
      exact (same.setSlot? (Circuit.NamesMeet.lastSlot? same.embeds.inputs id) _ _ value).1
  | setLocal id value =>
      exact (same.setSlot? (Circuit.NamesMeet.lastSlot? same.embeds.locals id) _ _ value).1
  | process timeStep => exact sweeps (.process timeStep)
  | post id => exact posts id
  | drain => exact same.states.withOutgoing _ _
  | reset => exact same.states.reset same.embeds
  | init context => exact sweeps (.init context)

end Graph.Matches

/-! ## Compiled graphs -/

namespace Compile

variable [Processor κ] {registry : Registry κ} {config : Config} {small large : Prototype}
  {room : Nat}

/-- A graph finds its nodes where they are listed. -/
theorem Reachable.position?_eq {graph : Graph (Nested κ room)}
    (reachable : Reachable registry config small graph) (id : NodeId) :
    graph.circuit.position? id = (endpointsOf registry small).position? id := by
  rcases reachable.circuit_eq with ⟨wires, order, -, equal⟩
  have ids : graph.circuit.placements.toList.map Placement.id = small.ids := by
    apply List.ext_getElem?
    intro index
    rw [List.getElem?_map, Array.getElem?_toList, equal,
      Assembly.circuit_ids (endpointsOf_complete registry small), ← List.getElem?_map]
    rfl
  have found := congrArg (List.findIdx? fun other => other == id) ids
  rw [List.findIdx?_map, List.findIdx?_map, ← List.findIdx?_toArray, Array.toArray_toList] at found
  exact found

omit [Processor κ] in
theorem position?_eq_none_iff {endpoints : Endpoints} {id : NodeId} :
    endpoints.position? id = none ↔ id ∉ endpoints.prototype.ids := by
  simp [Endpoints.position?, List.findIdx?_eq_none_iff]

/-- Nodes made of the same in both places are the same. -/
theorem created_getElem? {node : Nat → Nat} (sits : small.SitsIn node large)
    {nodes others : List (Nested κ room)}
    (created : List.Forall₂ (fun placed made =>
      (createNode registry config room placed).outcome = .ok made) small.nodes nodes)
    (otherCreated : List.Forall₂ (fun placed made =>
      (createNode registry config room placed).outcome = .ok made) large.nodes others)
    (index : Nat) : others[node index]? = nodes[index]? := by
  have listed := sits.nodes index
  cases found : small.nodes[index]? with
  | none =>
      rw [found] at listed
      rw [List.getElem?_eq_none_iff, created.length_eq, ← List.getElem?_eq_none_iff] at found
      rw [List.getElem?_eq_none_iff, otherCreated.length_eq, ← List.getElem?_eq_none_iff] at listed
      rw [found, listed]
  | some placed =>
      rw [found] at listed
      have bound := (List.getElem?_eq_some_iff.mp found).1
      have otherBound := (List.getElem?_eq_some_iff.mp listed).1
      rw [created.length_eq] at bound
      rw [otherCreated.length_eq] at otherBound
      have made := forall₂_getElem? created found (List.getElem?_eq_getElem bound)
      have otherMade := forall₂_getElem? otherCreated listed (List.getElem?_eq_getElem otherBound)
      rw [List.getElem?_eq_getElem bound, List.getElem?_eq_getElem otherBound]
      exact congrArg some (Except.ok.inj (otherMade.symm.trans made))

/-- A graph matches the graph that is compiled of a larger prototype. -/
theorem matches_of_build {node : Nat → Nat} (sits : small.SitsIn node large)
    {graph other : Graph (Nested κ room)}
    (built : (build registry config room small).outcome = .ok graph)
    (otherBuilt : (build registry config room large).outcome = .ok other) :
    graph.Matches node (graph.circuit.Meets node other.circuit) other := by
  have reachable : Reachable registry config small graph := ⟨graph, [], built, rfl⟩
  have otherReachable : Reachable registry config large other := ⟨other, [], otherBuilt, rfl⟩
  have fits := reachable.fits
  have otherFits := otherReachable.fits
  rcases build_eq_ok_iff.mp built with ⟨nodes, wires, order, created, wired, rfl⟩
  rcases build_eq_ok_iff.mp otherBuilt with
    ⟨others, largeWires, largeOrder, otherCreated, largeWired, rfl⟩
  have embeds : (Assembly.circuit config (endpointsOf registry small) wires order).Embeds node _
      (Assembly.circuit config (endpointsOf registry large) largeWires largeOrder) :=
    sits.embeds rfl rfl wired largeWired
  exact {
    embeds
    flows := reachable.flowsForward
    otherFlows := otherReachable.flowsForward
    states := {
      fits
      otherFits
      cells := fun index => by
        simp only [Graph.pristine, List.getElem?_toArray, List.getElem?_map,
          created_getElem? sits created otherCreated]
      values := fun here => embeds.defaults here } }

/-- No events wait in a fresh graph. -/
theorem build_outgoing {graph : Graph (Nested κ room)}
    (built : (build registry config room small).outcome = .ok graph) :
    graph.state.outgoing = { capacity := config.eventQueueCapacity.toNat } := by
  rcases build_eq_ok built with ⟨_, _, _, -, -, rfl⟩
  rfl

/-- Of nodes that both graphs have or lack, the same is used up. -/
theorem consumed?_eq {node : Nat → Nat} (sits : small.SitsIn node large)
    {meets : Slot → Slot → Prop} {graph other : Graph (Nested κ room)}
    (reachable : Reachable registry config small graph)
    (otherReachable : Reachable registry config large other)
    (same : graph.Matches node meets other) {id : NodeId}
    (known : id ∈ large.ids → id ∈ small.ids) : other.consumed? id = graph.consumed? id := by
  rw [Graph.consumed?, Graph.consumed?, reachable.position?_eq, otherReachable.position?_eq]
  cases found : (endpointsOf registry small).position? id with
  | some index =>
      rcases otherReachable.circuit_eq with ⟨_, _, wired, -⟩
      rw [sits.position? wired.idsDistinct found, Option.map_some, Option.map_some,
        same.consumedBy]
  | none =>
      have absent := mt known (position?_eq_none_iff.mp found)
      rw [position?_eq_none_iff.mpr absent]
      rfl

end Compile

end NodeGraph
