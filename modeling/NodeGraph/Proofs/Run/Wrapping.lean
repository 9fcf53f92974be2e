import NodeGraph.Proofs.Compile.Wrapping
import NodeGraph.Proofs.Run.Coherence
import NodeGraph.Proofs.Run.Room

namespace NodeGraph

/-! Wrapping a graph is invisible. A graph that only values enter and leave may
run on its own or as the only node of a graph around it. The inputs of the one
hold at once what they are set to, those of the other only when the next tick
copies them in. So the two are compared as they would be if values were copied in
now; then they never differ, and after a tick they do not differ at all. -/

/-- The calls by which a host passes values in and lets the graph run. -/
def Call.OnValues : Call → Prop
  | .setInput .. | .process _ | .reset => True
  | .setLocal .. | .post _ | .drain | .init _ => False

/-- Arrays that agree at two positions still do once the same is put at one of
them. -/
theorem setIfInBounds_congr {left right : Array α} {index other : Nat}
    (same : left[index]? = right[index]?) (sameOther : left[other]? = right[other]?) (item : α) :
    (left.setIfInBounds index item)[other]? = (right.setIfInBounds index item)[other]? := by
  have within : index < left.size ↔ index < right.size := by
    rw [← not_iff_not, Nat.not_lt, Nat.not_lt, ← Array.getElem?_eq_none_iff,
      ← Array.getElem?_eq_none_iff, same]
  simp only [Array.getElem?_setIfInBounds, within, sameOther]

/-! ## Graphs of one node -/

section
variable [Processor ν]

/-- Where no events are led anywhere, a turn of a graph of one node is what that
node does. -/
theorem Graph.sweep_single {graph : Graph ν} (order : graph.circuit.order = [0])
    (silent : ∀ target, ¬ graph.circuit.LeadsTo target) (happening : Happening) :
    (graph.sweep happening.program).state =
      (graph.state.runCell graph.circuit 0 happening.program).1 := by
  have nothing : Parcel.deliveries
      (graph.begin.runCell graph.circuit 0 happening.program).2 = [] := by
    apply List.eq_nil_iff_forall_not_mem.mpr
    intro delivery member
    exact silent _ (Turn.runCell_routes _ _ _ _ delivery member)
  rw [sweep, order]
  exact congrArg Turn.state (Turn.settle_nothing _ _ _ _ nothing)

end

/-! ## A subroutine that runs -/

section
variable [Processor κ] {circuit : Circuit} {index : Nat} {placement : Placement}
  {state : State (Nested κ (room + 1))} {subroutine : Subroutine (Nested κ room)}
  {consumed : Binary32}

theorem Nested.init_run (context : Context) (subroutine : Subroutine (Nested κ room))
    (panel : Panel) :
    (Processor.init (ν := Nested κ (room + 1)) context (.inr subroutine)).run panel =
      (.inr ((subroutine.init context).run panel).1, ((subroutine.init context).run panel).2) :=
  Program.run_map Sum.inr (subroutine.init context) panel

theorem Nested.process_run (timeStep : Binary32) (subroutine : Subroutine (Nested κ room))
    (panel : Panel) :
    (Processor.process (ν := Nested κ (room + 1)) timeStep (.inr subroutine)).run panel =
      let ran := (subroutine.process timeStep).run panel
      ((.inr ran.1.1, ran.1.2), ran.2) :=
  Program.run_map (Prod.map Sum.inr id) (subroutine.process timeStep) panel

theorem State.runCell_init (placed : circuit.placements[index]? = some placement)
    (present : state.cells[index]? = some { node := .inr subroutine, consumed })
    (context : Context) :
    (state.runCell circuit index (Happening.init context).program).1 =
      { state with
        cells := state.cells.setIfInBounds index
          { node := .inr { subroutine with
              graph := subroutine.graph.afterCalls [.init context, .drain] }
            consumed } } := by
  rw [runCell_eq placed present]
  simp only [Happening.program, Program.run_bind, Nested.init_run, Program.run_pure,
    Subroutine.init_result, Subroutine.init_values]

theorem State.runCell_process (placed : circuit.placements[index]? = some placement)
    (present : state.cells[index]? = some { node := .inr subroutine, consumed })
    (timeStep : Binary32) :
    (state.runCell circuit index (Happening.process timeStep).program).1 =
      let ran := (subroutine.process timeStep).run (placement.window state.values)
      { state with
        cells := state.cells.setIfInBounds index { node := .inr ran.1.1, consumed := ran.1.2 }
        values := ran.2.values } := by
  rw [runCell_eq placed present]
  simp only [Happening.program, Program.run_bind, Nested.process_run, Program.run_pure]
  rfl

end

namespace Compile

variable [Processor κ] {registry : Registry κ} {config : Config} {prototype : Prototype}
  {room : Nat}

/-! ## Graphs that only values enter and leave -/

section
variable {graph : Graph (Nested κ room)}

/-- No event ever waits for the host. -/
theorem Reachable.nothing_waits (reachable : Reachable registry config prototype graph)
    (valueOnly : prototype.ValueOnly) : graph.state.outgoing.waiting = [] := by
  rcases reachable with ⟨built, calls, compiled, rfl⟩
  have fresh : Reachable registry config prototype built := ⟨built, [], compiled, rfl⟩
  have stays (id : Identifier) : ¬ built.circuit.LeadsTo (.graphOutput id) := by
    intro leads
    rcases fresh.exists_of_leadsTo leads with ⟨connection, listed, isEvent, ends⟩
    rw [valueOnly.kind_eq listed isEvent] at ends
    simp [Endpoints.eventTarget, ConnectionKind.destinationScope, except_bind_eq_ok_iff, pure,
      Except.pure] at ends
  have keeps : built.circuit.Keeps fun state : State (Nested κ room) =>
      state.outgoing.waiting = [] :=
    { runs := fun index happening state before => by rwa [State.runCell_outgoing]
      queues := fun state id outgoing leads _ _ => absurd leads (stays id)
      sets := fun state slot value before => before
      drains := fun state _ => rfl
      resets := fun state _ => rfl }
  refine Graph.afterCalls_keeps keeps ?_ calls
  rcases build_eq_ok compiled with ⟨nodes, wires, order, -, -, rfl⟩
  rfl

/-- So draining the graph changes nothing. -/
theorem Reachable.drain_eq (reachable : Reachable registry config prototype graph)
    (valueOnly : prototype.ValueOnly) : graph.drain.2 = graph := by
  have nothing := reachable.nothing_waits valueOnly
  rcases graph with ⟨circuit, ⟨cells, values, ⟨waiting, capacity⟩⟩⟩
  simp only at nothing
  rw [nothing]
  rfl

end

/-! ## Graphs around a subroutine -/

variable {outer inner : Prototype} {placed : PrototypeNode}

/-- `outside` has been compiled from `outer`, which hands values on to
`subroutine`, a graph that has been compiled from `inner`. -/
structure Encloses (registry : Registry κ) (config : Config) (outer inner : Prototype)
    (outside : Graph (Nested κ (room + 1))) (placement : Placement)
    (subroutine : Subroutine (Nested κ room)) : Prop where
  reachable : Reachable registry config outer outside
  handsOn : outside.circuit.HandsOn inner placement
  present : outside.state.subroutine? 0 = some subroutine
  plugs : subroutine.layout = Subroutine.layoutOf inner
  nested : Reachable registry config inner subroutine.graph

section
variable {outside : Graph (Nested κ (room + 1))} {placement : Placement}
  {subroutine : Subroutine (Nested κ room)}

theorem Reachable.encloses (reachable : Reachable registry config outer outside)
    (wraps : outer.Wraps placed inner) (handsOn : outside.circuit.HandsOn inner placement)
    (present : outside.state.subroutine? 0 = some subroutine) :
    Encloses registry config outer inner outside placement subroutine := by
  rcases State.subroutine?_eq_some_iff.mp present with ⟨consumed, held⟩
  rcases reachable.suits held with ⟨other, listed, nested, composite, plugs, inside⟩
  rw [wraps.eq_of_mem (List.mem_of_getElem? listed), wraps.subroutine, Option.some.injEq]
    at composite
  subst composite
  exact ⟨reachable, handsOn, present, plugs, inside⟩

/-- No events are led anywhere in the graph around. -/
theorem Reachable.silent (reachable : Reachable registry config outer outside)
    (wraps : outer.Wraps placed inner) (target : Target) :
    ¬ outside.circuit.LeadsTo target := by
  intro leads
  rcases reachable.exists_of_leadsTo leads with ⟨connection, listed, isEvent, -⟩
  rw [wraps.isEvent_eq_false listed] at isEvent
  cases isEvent

theorem Encloses.copied (encloses : Encloses registry config outer inner outside placement
    subroutine) (wraps : outer.Wraps placed inner) (valueOnly : inner.ValueOnly) (slot : Slot) :
    (subroutine.entered (placement.window outside.state.values)).state.values[slot]? =
      if slot < inner.inputs.length then outside.state.values[slot]?
      else subroutine.graph.state.values[slot]? := by
  have plugs : subroutine.layout.inputs = inner.inputs := by
    rw [encloses.plugs, valueOnly.layoutOf]
  split
  next bound =>
    obtain ⟨input, found⟩ : ∃ input, inner.inputs[slot]? = some input :=
      ⟨_, List.getElem?_eq_getElem bound⟩
    have located := encloses.nested.inputSlot?_eq valueOnly.inputs found
    rw [← plugs] at found
    rcases encloses.nested.entered_mirrors encloses.plugs valueOnly.inputs
      (placement.window outside.state.values) slot _ found with ⟨other, otherLocated, mirrors⟩
    rw [plugs] at found
    rw [located, Option.some.injEq] at otherLocated
    subst otherLocated
    have present : slot < outside.state.values.size := by
      rw [encloses.reachable.fits.values]
      exact encloses.reachable.inputs_bounded (wraps.inputs ▸ bound)
    rw [mirrors]
    simp [Panel.input, Panel.valueAt, Placement.window, encloses.handsOn.inputs _ _ found,
      present]
  next beyond =>
    apply Subroutine.settings_values_other
    intro endpoint listed same
    rw [plugs] at listed
    rcases List.mem_iff_getElem?.mp listed with ⟨index, found⟩
    rw [encloses.nested.inputSlot?_eq valueOnly.inputs found, Option.some.injEq] at same
    subst same
    exact beyond (List.getElem?_eq_some_iff.mp found).1

end

/-! ## Lockstep -/

/-- What is inside is the same as `inside` but for the inputs, and those are the
same around it. -/
structure Follows (registry : Registry κ) (config : Config) (outer inner : Prototype)
    (outside : Graph (Nested κ (room + 1))) (inside : Graph (Nested κ otherRoom))
    (placement : Placement) (subroutine : Subroutine (Nested κ room)) : Prop
    extends Encloses registry config outer inner outside placement subroutine where
  circuit : subroutine.graph.circuit = inside.circuit
  cells : subroutine.graph.state.cells.map (Cell.map Nested.view) =
    inside.state.cells.map (Cell.map Nested.view)
  outgoing : subroutine.graph.state.outgoing = inside.state.outgoing
  inputs : ∀ slot < inner.inputs.length,
    outside.state.values[slot]? = inside.state.values[slot]?
  others : ∀ slot, inner.inputs.length ≤ slot →
    subroutine.graph.state.values[slot]? = inside.state.values[slot]?

section
variable {otherRoom : Nat} {outside : Graph (Nested κ (room + 1))}
  {inside : Graph (Nested κ otherRoom)} {placement : Placement}
  {subroutine : Subroutine (Nested κ room)}

/-- Once values have been copied in, what is inside looks the same. -/
theorem Follows.entered_view (follows : Follows registry config outer inner outside inside
    placement subroutine) (wraps : outer.Wraps placed inner) (valueOnly : inner.ValueOnly) :
    (subroutine.entered (placement.window outside.state.values)).view = inside.view := by
  have rest := Subroutine.settings_rest (placement.window outside.state.values) 0
    subroutine.layout.inputs subroutine.graph
  rw [Graph.view_eq_iff]
  refine ⟨?_, ?_, ?_, ?_⟩
  · rw [Subroutine.entered, Graph.afterCalls_circuit, follows.circuit]
  · rw [Subroutine.entered, rest.1, follows.cells]
  · apply Array.ext_getElem?
    intro slot
    rw [follows.copied wraps valueOnly]
    split
    next bound => exact follows.inputs slot bound
    next beyond => exact follows.others slot (Nat.not_lt.mp beyond)
  · rw [Subroutine.entered, rest.2, follows.outgoing]

/-- What looks the same inside, follows if the inputs inside hold what those
around it hold. -/
theorem Encloses.follows (encloses : Encloses registry config outer inner outside placement
    subroutine) (same : subroutine.graph.view = inside.view)
    (inputs : ∀ slot < inner.inputs.length,
      outside.state.values[slot]? = subroutine.graph.state.values[slot]?) :
    Follows registry config outer inner outside inside placement subroutine := by
  rcases Graph.view_eq_iff.mp same with ⟨circuit, cells, values, outgoing⟩
  refine ⟨encloses, circuit, cells, outgoing, ?_, ?_⟩
  · intro slot bound
    rw [inputs slot bound, values]
  · intro slot _
    rw [values]

theorem Follows.setInput (follows : Follows registry config outer inner outside inside placement
    subroutine) (wraps : outer.Wraps placed inner) (id : Identifier) (value : Value) :
    Follows registry config outer inner (outside.perform (.setInput id value)).1
      (inside.perform (.setInput id value)).1 placement subroutine := by
  have sameSlot : inside.circuit.inputSlot? id = outside.circuit.inputSlot? id := by
    rw [← follows.circuit, Circuit.inputSlot?, Circuit.inputSlot?, follows.nested.inputs_eq,
      follows.reachable.inputs_eq, Assembly.inputSlots, Assembly.inputSlots, wraps.inputs]
  have reachable := follows.reachable.afterCalls [.setInput id value]
  rw [Graph.afterCalls_cons, Graph.afterCalls_nil] at reachable
  cases located : outside.circuit.inputSlot? id with
  | none =>
      rw [Graph.perform_setInput, Graph.perform_setInput, Graph.setInput?, Graph.setInput?,
        sameSlot, located]
      exact follows
  | some slot =>
      have bound : slot < inner.inputs.length :=
        wraps.inputs ▸ follows.reachable.inputSlot?_lt located
      rw [Graph.perform_setInput_eq located] at reachable ⊢
      rw [Graph.perform_setInput_eq (sameSlot.trans located)]
      -- What is inside does not change: it is not told before the next tick.
      refine ⟨⟨reachable, follows.handsOn, follows.present, follows.plugs, follows.nested⟩,
        follows.circuit, follows.cells, follows.outgoing, ?_, ?_⟩
      · intro other otherBound
        exact setIfInBounds_congr (follows.inputs slot bound) (follows.inputs other otherBound)
          value
      · intro other beyond
        have different : slot ≠ other := Nat.ne_of_lt (Nat.lt_of_lt_of_le bound beyond)
        rw [follows.others other beyond]
        exact (Array.getElem?_setIfInBounds_ne different).symm

theorem Follows.reset (follows : Follows registry config outer inner outside inside placement
    subroutine) (wraps : outer.Wraps placed inner) (valueOnly : inner.ValueOnly) :
    Follows registry config outer inner outside.reset inside.reset placement
      { subroutine with graph := subroutine.graph.reset } := by
  have present : outside.reset.state.subroutine? 0 =
      some { subroutine with graph := subroutine.graph.reset } := by
    rcases State.subroutine?_eq_some_iff.mp follows.present with ⟨consumed, held⟩
    rw [State.subroutine?, Graph.reset, Array.getElem?_map, held]
    rfl
  have around : Encloses registry config outer inner outside.reset placement
      { subroutine with graph := subroutine.graph.reset } :=
    ⟨follows.reachable.afterCalls [.reset], follows.handsOn, present, follows.plugs,
      follows.nested.afterCalls [.reset]⟩
  apply around.follows
  · have same := Graph.reset_alike (Nested.alike room otherRoom)
      (follows.entered_view wraps valueOnly)
    rwa [Subroutine.entered_reset] at same
  · intro slot bound
    have around := follows.reachable.defaults_input (wraps.inputs ▸ bound)
    rw [wraps.inputs] at around
    exact around.trans (follows.nested.defaults_input bound).symm

/-! ## Ticks -/

/-- A tick of the graph around is a tick of its node. -/
theorem Encloses.process_state (encloses : Encloses registry config outer inner outside placement
    subroutine) (wraps : outer.Wraps placed inner) (timeStep : Binary32) :
    (outside.process timeStep).1.state =
      let ran := (subroutine.process timeStep).run (placement.window outside.state.values)
      { outside.state with
        cells := outside.state.cells.setIfInBounds 0
          { node := .inr ran.1.1, consumed := ran.1.2 }
        values := ran.2.values } := by
  rcases State.subroutine?_eq_some_iff.mp encloses.present with ⟨consumed, held⟩
  exact (Graph.sweep_single encloses.handsOn.order (encloses.reachable.silent wraps)
    (.process timeStep)).trans (State.runCell_process encloses.handsOn.placed held timeStep)

/-- And that is a tick of the graph inside, once values have been copied in. -/
theorem Encloses.process_result (encloses : Encloses registry config outer inner outside placement
    subroutine) (valueOnly : inner.ValueOnly) (timeStep : Binary32) :
    let entered := subroutine.entered (placement.window outside.state.values)
    ((subroutine.process timeStep).run (placement.window outside.state.values)).1 =
      ({ subroutine with graph := (entered.process timeStep).1 },
        (entered.process timeStep).1.mostConsumed) := by
  intro entered
  have ticked : Reachable registry config inner (entered.process timeStep).1 :=
    (encloses.nested.afterCalls _).afterCalls [.process timeStep]
  apply Prod.ext
  · rw [Subroutine.process_result]
    exact congrArg (fun graph => { subroutine with graph }) (ticked.drain_eq valueOnly)
  · exact subroutine.process_consumed timeStep _

/-- After a tick an output around shows what the output inside shows. -/
theorem Encloses.process_output (encloses : Encloses registry config outer inner outside placement
    subroutine) (wraps : outer.Wraps placed inner) (valueOnly : inner.ValueOnly)
    (timeStep : Binary32) {output : Endpoint} (listed : output ∈ inner.outputs) :
    (outside.process timeStep).1.readOutput? output.id =
      ((subroutine.entered (placement.window outside.state.values)).process
        timeStep).1.readOutput? output.id := by
  rcases List.mem_iff_getElem?.mp listed with ⟨index, found⟩
  rcases encloses.handsOn.outputs index output found with ⟨slot, plug, located⟩
  have owns : (placement.window outside.state.values).OwnsOutputs :=
    encloses.reachable.flowsForward.ownsOutputs encloses.handsOn.placed
      encloses.reachable.fits.values
  have present : outer.nodes[0]? = some placed := by
    rw [wraps.nodes]
    rfl
  have known : layout? registry placed = some subroutine.layout := by
    rw [encloses.plugs, layout?, wraps.subroutine]
  have plugs : subroutine.layout.outputs[index]? = some output := by
    rw [encloses.plugs, valueOnly.layoutOf]
    exact found
  have shown := encloses.nested.process_shows encloses.plugs owns
    (encloses.reachable.outputs_length encloses.handsOn.placed present known) timeStep index output
  rw [encloses.process_result valueOnly] at shown
  have sameSlot : (outside.process timeStep).1.circuit.outputSlot? output.id = some slot := located
  rw [shown plugs, Graph.readOutput?, sameSlot, encloses.process_state wraps]
  simp [Panel.output, Panel.valueAt, Program.run_outputs, Placement.window, plug]

/-- So whatever is asked for, both have the same answer. -/
theorem Encloses.process_outputs (encloses : Encloses registry config outer inner outside
    placement subroutine) (wraps : outer.Wraps placed inner) (valueOnly : inner.ValueOnly)
    (timeStep : Binary32) (id : Identifier) :
    (outside.process timeStep).1.readOutput? id =
      ((subroutine.entered (placement.window outside.state.values)).process
        timeStep).1.readOutput? id := by
  by_cases declared : ∃ output ∈ inner.outputs, (output.id == id) = true
  · rcases declared with ⟨output, listed, same⟩
    rw [← Graph.readOutput?_congr _ same, ← Graph.readOutput?_congr _ same]
    exact encloses.process_output wraps valueOnly timeStep listed
  · have undeclared : ∀ output ∈ inner.outputs, ¬ (output.id == id) = true :=
      fun output listed same => declared ⟨output, listed, same⟩
    have ticked : Reachable registry config inner
        ((subroutine.entered (placement.window outside.state.values)).process timeStep).1 :=
      (encloses.nested.afterCalls _).afterCalls [.process timeStep]
    rw [ticked.readOutput?_eq_none undeclared]
    exact (encloses.reachable.afterCalls [.process timeStep]).readOutput?_eq_none
      (wraps.outputs ▸ undeclared)

theorem Encloses.process_cell (encloses : Encloses registry config outer inner outside placement
    subroutine) (wraps : outer.Wraps placed inner) (valueOnly : inner.ValueOnly)
    (timeStep : Binary32) :
    let entered := subroutine.entered (placement.window outside.state.values)
    (outside.process timeStep).1.state.cells[0]? = some
      { node := .inr { subroutine with graph := (entered.process timeStep).1 }
        consumed := (entered.process timeStep).1.mostConsumed } := by
  rcases State.subroutine?_eq_some_iff.mp encloses.present with ⟨_, before⟩
  rw [encloses.process_state wraps]
  simp only [encloses.process_result valueOnly]
  exact Array.getElem?_setIfInBounds_self_of_lt (Array.getElem?_eq_some_iff.mp before).1

/-- After a tick the inputs inside hold what those around hold. -/
theorem Encloses.process_input (encloses : Encloses registry config outer inner outside placement
    subroutine) (wraps : outer.Wraps placed inner) (valueOnly : inner.ValueOnly)
    (timeStep : Binary32) {slot : Slot} (bound : slot < inner.inputs.length) :
    (outside.process timeStep).1.state.values[slot]? =
      ((subroutine.entered (placement.window outside.state.values)).process
        timeStep).1.state.values[slot]? := by
  have entered : Reachable registry config inner
      (subroutine.entered (placement.window outside.state.values)) :=
    encloses.nested.afterCalls _
  have around := encloses.reachable.sweep_input (wraps.inputs ▸ valueOnly.inputs)
    (.process timeStep) (wraps.inputs ▸ bound)
  have within := entered.sweep_input valueOnly.inputs (.process timeStep) bound
  have copied := encloses.copied wraps valueOnly slot
  rw [if_pos bound] at copied
  exact around.trans (copied.symm.trans within.symm)

/-- After a tick, what is inside looks the same, inputs and all, and the outputs
around show the same. -/
theorem Follows.process (follows : Follows registry config outer inner outside inside placement
    subroutine) (wraps : outer.Wraps placed inner) (valueOnly : inner.ValueOnly)
    (timeStep : Binary32) :
    ∃ after : Subroutine (Nested κ room),
      Follows registry config outer inner (outside.process timeStep).1
        (inside.process timeStep).1 placement after ∧
      after.graph.view = (inside.process timeStep).1.view ∧
      (outside.process timeStep).1.state.cells[0]? = some
        { node := .inr after, consumed := (inside.process timeStep).1.mostConsumed } ∧
      ∀ id, (outside.process timeStep).1.readOutput? id =
        (inside.process timeStep).1.readOutput? id := by
  have same : ((subroutine.entered (placement.window outside.state.values)).process
      timeStep).1.view = (inside.process timeStep).1.view :=
    (Graph.process_alike (Nested.alike room otherRoom) (follows.entered_view wraps valueOnly)
      timeStep).1
  have consumed := congrArg Graph.mostConsumed same
  rw [Graph.view, Graph.view, Graph.mostConsumed_map, Graph.mostConsumed_map] at consumed
  have held := follows.process_cell wraps valueOnly timeStep
  have around := (follows.reachable.afterCalls [.process timeStep]).encloses wraps
    follows.handsOn (State.subroutine?_eq_some_iff.mpr ⟨_, held⟩)
  refine ⟨_, around.follows same ?_, same, consumed ▸ held, ?_⟩
  · intro slot bound
    exact follows.process_input wraps valueOnly timeStep bound
  · intro id
    rw [follows.process_outputs wraps valueOnly]
    exact congrArg (fun graph => graph.readOutput? id) same

end

/-! ## Whole runs -/

theorem Reachable.handsOn {outside : Graph (Nested κ room)}
    (reachable : Reachable registry config outer outside) (wraps : outer.Wraps placed inner)
    (valueOnly : inner.ValueOnly) : ∃ placement, outside.circuit.HandsOn inner placement := by
  rcases reachable.circuit_eq with ⟨wires, order, wired, equal⟩
  rw [equal]
  exact circuit_handsOn wraps valueOnly wired

/-- The only node of a fresh graph around is a fresh graph. -/
theorem exists_wrapped_of_build {outside : Graph (Nested κ (room + 1))}
    (wraps : outer.Wraps placed inner)
    (built : (build registry config (room + 1) outer).outcome = .ok outside) :
    ∃ graph, (build registry config room inner).outcome = .ok graph ∧
      outside.state.cells[0]? = some { node := .inr (Subroutine.ofPrototype inner graph) } := by
  rcases build_eq_ok_iff.mp built with ⟨nodes, _, _, created, -, rfl⟩
  rw [wraps.nodes] at created
  cases created with
  | cons first _ =>
      rcases createNested_eq_ok_iff.mp first with
        ⟨plain, -⟩ | ⟨nested, graph, composite, compiled, rfl⟩
      · rw [wraps.subroutine] at plain
        cases plain
      · rw [wraps.subroutine, Option.some.injEq] at composite
        subst composite
        exact ⟨graph, compiled, Graph.pristine_cell.mpr ⟨_, rfl, rfl⟩⟩

section
variable {otherRoom : Nat} {otherConfig : Config} {outside : Graph (Nested κ (room + 1))}
  {inside : Graph (Nested κ otherRoom)}

/-- Compiled and initialized, both start out the same. -/
theorem exists_follows_init (wraps : outer.Wraps placed inner) (valueOnly : inner.ValueOnly)
    (limits : SameLimits config otherConfig)
    (outsideBuilt : (build registry otherConfig (room + 1) outer).outcome = .ok outside)
    (insideBuilt : (build registry config otherRoom inner).outcome = .ok inside)
    (context : Context) :
    ∃ placement subroutine, Follows registry otherConfig outer inner (outside.init context).1
      (inside.init context).1 placement subroutine := by
  have reachable : Reachable registry otherConfig outer outside := ⟨outside, [], outsideBuilt, rfl⟩
  rcases reachable.handsOn wraps valueOnly with ⟨placement, handsOn⟩
  rcases exists_wrapped_of_build wraps outsideBuilt with ⟨graph, graphBuilt, held⟩
  have nested : Reachable registry otherConfig inner graph := ⟨graph, [], graphBuilt, rfl⟩
  have initialized : Reachable registry otherConfig inner (graph.init context).1 :=
    nested.afterCalls [.init context]
  have same : graph.view = inside.view := (build_view limits insideBuilt graphBuilt).symm
  have turn : (outside.init context).1.state = { outside.state with
      cells := outside.state.cells.setIfInBounds 0
        { node := .inr (Subroutine.ofPrototype inner (graph.init context).1) } } := by
    rw [← initialized.drain_eq valueOnly]
    exact (Graph.sweep_single handsOn.order (reachable.silent wraps) (.init context)).trans
      (State.runCell_init handsOn.placed held context)
  have present : (outside.init context).1.state.subroutine? 0 =
      some (Subroutine.ofPrototype inner (graph.init context).1) := by
    apply State.subroutine?_eq_some_iff.mpr
    refine ⟨.zero, ?_⟩
    rw [turn]
    exact Array.getElem?_setIfInBounds_self_of_lt (Array.getElem?_eq_some_iff.mp held).1
  have around : Encloses registry otherConfig outer inner (outside.init context).1 placement _ :=
    (reachable.afterCalls [.init context]).encloses wraps handsOn present
  refine ⟨placement, _, around.follows ?_ ?_⟩
  · exact (Graph.init_alike (Nested.alike room otherRoom) same context).1
  · intro slot bound
    have within := nested.sweep_input valueOnly.inputs (.init context) bound
    have outsideDefault := reachable.defaults_input (wraps.inputs ▸ bound)
    rw [wraps.inputs] at outsideDefault
    rw [build_values graphBuilt, nested.defaults_input bound] at within
    rw [turn]
    exact (build_values outsideBuilt ▸ outsideDefault).trans within.symm

theorem Follows.afterCalls {placement : Placement} {subroutine : Subroutine (Nested κ room)}
    (follows : Follows registry config outer inner outside inside placement subroutine)
    (wraps : outer.Wraps placed inner) (valueOnly : inner.ValueOnly) {calls : List Call}
    (onValues : ∀ call ∈ calls, call.OnValues) :
    ∃ after, Follows registry config outer inner (outside.afterCalls calls)
      (inside.afterCalls calls) placement after := by
  induction calls generalizing outside inside subroutine with
  | nil => exact ⟨subroutine, follows⟩
  | cons call calls induction =>
      rcases List.forall_mem_cons.mp onValues with ⟨allowed, later⟩
      cases call with
      | setInput id value => exact induction (follows.setInput wraps id value) later
      | process timeStep =>
          rcases follows.process wraps valueOnly timeStep with ⟨_, ticked, -⟩
          exact induction ticked later
      | reset => exact induction (follows.reset wraps valueOnly) later
      | setLocal | post | drain | init => cases allowed

/-- After each tick both show the same, and what is inside is the same. -/
theorem Follows.after_tick {placement : Placement} {subroutine : Subroutine (Nested κ room)}
    (follows : Follows registry config outer inner outside inside placement subroutine)
    (wraps : outer.Wraps placed inner) (valueOnly : inner.ValueOnly) (timeStep : Binary32) :
    (∀ id, (outside.process timeStep).1.readOutput? id =
      (inside.process timeStep).1.readOutput? id) ∧
    (outside.process timeStep).1.view.state.cells =
      #[{ node := .composite ⟨(inside.process timeStep).1.view, Subroutine.layoutOf inner⟩
          consumed := (inside.process timeStep).1.mostConsumed }] := by
  rcases follows.process wraps valueOnly timeStep with ⟨after, ticked, same, held, shown⟩
  refine ⟨shown, ?_⟩
  have single : (outside.process timeStep).1.state.cells.size = 1 := by
    rw [ticked.reachable.fits.cells, ticked.reachable.placements_size, wraps.nodes]
    rfl
  apply Array.ext_getElem?
  intro index
  show ((outside.process timeStep).1.state.cells.map (Cell.map Nested.view))[index]? = _
  rw [Array.getElem?_map]
  cases index with
  | zero =>
      rw [held, ← same, ← ticked.plugs]
      rfl
  | succ index => simp [single]

end

end Compile

open Compile

variable [Processor κ] {registry : Registry κ} {config outerConfig : Config} {context : Context}
  {outer inner : Prototype} {placed : PrototypeNode}

/-- Wrapping a graph that only values enter and leave is invisible. The graph
around it can be created if it may nest one level deeper. Once both are created,
and whatever values are passed in, however often the graphs are reset and run:
after each tick every output shows the same on both, and all that is inside the
only node of the graph around looks like the graph that runs on its own, and like
no other graph. -/
theorem Prototype.Wraps.invisible (wraps : outer.Wraps placed inner) (valueOnly : inner.ValueOnly)
    (limits : SameLimits config outerConfig) {inside : Instance κ config}
    (created : (Instance.create registry config context inner).outcome = .ok inside) :
    (config.maxSubroutineDepth < outerConfig.maxSubroutineDepth → ∃ outside,
      (Instance.create registry outerConfig context outer).outcome = .ok outside) ∧
    ∀ outside, (Instance.create registry outerConfig context outer).outcome = .ok outside →
      ∀ calls : List Call, (∀ call ∈ calls, call.OnValues) → ∀ timeStep,
        let insideAfter := inside.afterCalls (calls ++ [.process timeStep])
        let outsideAfter := outside.afterCalls (calls ++ [.process timeStep])
        (∀ id, outsideAfter.readOutput? id = insideAfter.readOutput? id) ∧
        outsideAfter.view.state.cells =
          #[{ node := .composite ⟨insideAfter.view, Subroutine.layoutOf inner⟩
              consumed := insideAfter.mostConsumed }] ∧
        ∀ (other : Instance κ config) (consumed : Binary32), outsideAfter.view.state.cells =
          #[{ node := .composite ⟨other.view, Subroutine.layoutOf inner⟩, consumed }] →
          other = insideAfter := by
  rcases Instance.create_eq_ok_iff.mp created with ⟨insideBuilt, insideCompiled, rfl⟩
  constructor
  · intro deeper
    rcases exists_build_of_wraps wraps valueOnly insideCompiled
      (UInt64.lt_iff_toNat_lt.mp deeper) with ⟨built, compiled⟩
    exact ⟨_, Instance.create_eq_ok_iff.mpr ⟨built, compiled, rfl⟩⟩
  · intro outside outsideCreated calls onValues timeStep
    rcases Instance.create_eq_ok_iff.mp outsideCreated with ⟨built, compiled, rfl⟩
    clear outsideCreated
    rw [Graph.afterCalls_append, Graph.afterCalls_append]
    -- Compiling without room for subroutines has failed, so one level can be split off.
    revert built
    generalize outerConfig.maxSubroutineDepth.toNat = room
    intro built compiled
    cases room with
    | zero => exact absurd compiled (not_build_of_wraps wraps)
    | succ room =>
        rcases exists_follows_init wraps valueOnly limits compiled insideCompiled context with
          ⟨placement, subroutine, start⟩
        rcases start.afterCalls wraps valueOnly onValues with ⟨_, follows⟩
        rcases follows.after_tick wraps valueOnly timeStep with ⟨shown, held⟩
        refine ⟨shown, held, fun other consumed otherHeld => Graph.view_injective ?_⟩
        have cells := List.singleton_inj.mp (Array.mk.inj (otherHeld.symm.trans held))
        exact congrArg Subroutine.graph (Tree.composite.inj (congrArg Cell.node cells))

/-- A graph that counts the ticks in which its input is true. -/
def tally : Prototype where
  name := "Tally"
  id := 1
  inputs := [⟨.named "Value", .bool false⟩]
  outputs := [⟨.named "Count", .int32 0⟩]
  locals := []
  nodes := [⟨.named "Bool Trigger", 1, [], none⟩, ⟨.named "Trigger Counter", 2, [], none⟩]
  connections := [
    ⟨⟨graphNodeId, .named "Value"⟩, ⟨1, .named "Value"⟩, .graphValueToNode⟩,
    ⟨⟨1, .named "OnTrue"⟩, ⟨2, .named "Trigger"⟩, .nodeEventToNode⟩,
    ⟨⟨2, .named "Count"⟩, ⟨graphNodeId, .named "Count"⟩, .nodeValueToGraph⟩]

/-- The only node of the graph around `tally`. -/
def tallyNode : PrototypeNode where
  type := .named "Tally"
  id := 1
  overrides := []
  subroutine := some tally

def tallyInside : Prototype where
  name := "Outer"
  id := 2
  inputs := tally.inputs
  outputs := tally.outputs
  locals := []
  nodes := [tallyNode]
  connections := [
    ⟨⟨graphNodeId, .named "Value"⟩, ⟨1, .named "Value"⟩, .graphValueToNode⟩,
    ⟨⟨1, .named "Count"⟩, ⟨graphNodeId, .named "Count"⟩, .nodeValueToGraph⟩]

/-- A tick with a true input before a reset and one after it: both count one. -/
theorem tallyInside_invisible :
    ∃ (inside : Instance StandardNode Config.default)
      (outside : Instance StandardNode { Config.default with maxSubroutineDepth := 17 }),
      (Instance.create StandardNode.registry Config.default default tally).outcome = .ok inside ∧
      (Instance.create StandardNode.registry { Config.default with maxSubroutineDepth := 17 }
        default tallyInside).outcome = .ok outside ∧
      let calls : List Call := [.setInput (.named "Value") (.bool true), .process .one, .reset,
        .setInput (.named "Value") (.bool true), .process .one]
      (inside.afterCalls calls).readOutput? (.named "Count") = some (.int32 1) ∧
      (outside.afterCalls calls).readOutput? (.named "Count") = some (.int32 1) ∧
      (outside.afterCalls calls).view.state.cells =
        #[{ node := .composite ⟨(inside.afterCalls calls).view, Subroutine.layoutOf tally⟩
            consumed := (inside.afterCalls calls).mostConsumed }] := by
  have counts : ((Instance.create StandardNode.registry Config.default default
      tally).outcome.toOption.any fun inside =>
        decide ((inside.afterCalls [.setInput (.named "Value") (.bool true), .process .one, .reset,
          .setInput (.named "Value") (.bool true), .process .one]).readOutput? (.named "Count") =
            some (.int32 1))) = true := by
    decide +kernel
  cases created : (Instance.create StandardNode.registry Config.default default tally).outcome with
  | error error => simp [created, Except.toOption] at counts
  | ok inside =>
      simp only [created, Except.toOption, Option.any_some, decide_eq_true_eq] at counts
      have wraps : tallyInside.Wraps tallyNode tally :=
        ⟨rfl, rfl, rfl, by decide, rfl, rfl, .refl _⟩
      have valueOnly : tally.ValueOnly :=
        ⟨by decide, List.pairwise_singleton _ _, List.pairwise_singleton _ _⟩
      have limits : SameLimits Config.default
          { Config.default with maxSubroutineDepth := 17 } := ⟨rfl, rfl⟩
      rcases wraps.invisible valueOnly limits created with ⟨deeper, same⟩
      rcases deeper (by decide) with ⟨outside, outsideCreated⟩
      rcases same outside outsideCreated [.setInput (.named "Value") (.bool true), .process .one,
        .reset, .setInput (.named "Value") (.bool true)] (by simp [Call.OnValues]) .one with
        ⟨shown, state, -⟩
      exact ⟨inside, outside, rfl, outsideCreated, counts, (shown _).trans counts, state⟩

end NodeGraph
