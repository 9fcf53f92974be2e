import NodeGraph.Proofs.Run.Reachable
import NodeGraph.Proofs.Run.Subroutine

namespace NodeGraph

/-! Values at the boundary of a subroutine. Copying in gives every input of the
graph inside what the plug of its name reads and leaves all else alone; copying
out gives every output plug what the output of its name shows. -/

/-! ## Setting inputs -/

namespace Graph

variable [Processor ν] {graph : Graph ν} {id : Identifier} {slot : Slot}

theorem perform_setInput_eq (located : graph.circuit.inputSlot? id = some slot) (value : Value) :
    (graph.perform (.setInput id value)).1 = graph.setSlot slot value := by
  simp [perform, setInput?, located, settled]

theorem perform_setInput_other (apart : graph.circuit.inputSlot? id ≠ some slot)
    (value : Value) :
    (graph.perform (.setInput id value)).1.state.values[slot]? = graph.state.values[slot]? := by
  simp only [perform, setInput?]
  cases located : graph.circuit.inputSlot? id with
  | none => rfl
  | some written =>
      have different : written ≠ slot := fun equal => apart (located.trans (by rw [equal]))
      exact Array.getElem?_setIfInBounds_ne different

omit [Processor ν] in
/-- Ids of one hash show the same. -/
theorem readOutput?_congr (graph : Graph ν) {left right : Identifier}
    (same : (left == right) = true) : graph.readOutput? left = graph.readOutput? right := by
  have tests : (fun entry : Identifier × Slot => entry.1 == left) =
      fun entry => entry.1 == right := by
    funext entry
    exact BEq.congr_right same
  rw [readOutput?, readOutput?, Circuit.outputSlot?, Circuit.outputSlot?, tests]

end Graph

namespace Subroutine

variable [Processor ν]

/-! ## Copying in -/

theorem settings_values_other {panel : Panel} {plug : Nat} {plugs : List Endpoint}
    {graph : Graph ν} {slot : Slot}
    (apart : ∀ endpoint ∈ plugs, graph.circuit.inputSlot? endpoint.id ≠ some slot) :
    (graph.afterCalls (settings panel plug plugs)).state.values[slot]? =
      graph.state.values[slot]? := by
  induction plugs generalizing plug graph with
  | nil => rfl
  | cons endpoint plugs induction =>
      rw [settings, Graph.afterCalls_cons, induction]
      · exact Graph.perform_setInput_other (apart endpoint (.head _)) _
      · intro other member
        rw [Graph.perform_circuit]
        exact apart other (.tail _ member)

theorem settings_values {panel : Panel} {plug index : Nat} {plugs : List Endpoint}
    {graph : Graph ν} {endpoint : Endpoint} {slot : Slot}
    (distinct : plugs.Pairwise fun first second =>
      graph.circuit.inputSlot? first.id ≠ graph.circuit.inputSlot? second.id)
    (found : plugs[index]? = some endpoint)
    (located : graph.circuit.inputSlot? endpoint.id = some slot)
    (fits : graph.state.Fits graph.circuit) (bound : slot < graph.circuit.defaults.size) :
    (graph.afterCalls (settings panel plug plugs)).state.values[slot]? =
      some (panel.input (plug + index)) := by
  induction plugs generalizing plug index graph with
  | nil => simp at found
  | cons head plugs induction =>
      rcases List.pairwise_cons.mp distinct with ⟨apart, distinct⟩
      rw [settings, Graph.afterCalls_cons]
      cases index with
      | zero =>
          cases found
          rw [Graph.perform_setInput_eq located, settings_values_other]
          · exact Array.getElem?_setIfInBounds_self_of_lt (fits.values ▸ bound)
          · intro other member same
            exact apart other member (located.trans same.symm)
      | succ index =>
          rw [Nat.add_comm index, ← Nat.add_assoc]
          apply induction
          · simpa using distinct
          · exact found
          · rw [Graph.perform_circuit, located]
          · rw [Graph.perform_circuit]
            exact Graph.perform_keeps graph.circuit.keeps_fits fits _
          · rw [Graph.perform_circuit]
            exact bound

/-- Setting inputs does nothing to the nodes and to the events that wait. -/
theorem settings_rest (panel : Panel) (plug : Nat) (plugs : List Endpoint) (graph : Graph ν) :
    (graph.afterCalls (settings panel plug plugs)).state.cells = graph.state.cells ∧
      (graph.afterCalls (settings panel plug plugs)).state.outgoing = graph.state.outgoing := by
  induction plugs generalizing plug graph with
  | nil => exact ⟨rfl, rfl⟩
  | cons endpoint plugs induction =>
      rw [settings, Graph.afterCalls_cons, (induction _ _).1, (induction _ _).2,
        Graph.perform_setInput, Graph.setInput?]
      cases graph.circuit.inputSlot? endpoint.id <;> exact ⟨rfl, rfl⟩

/-- What has been copied in, a reset forgets. -/
theorem entered_reset (subroutine : Subroutine ν) (panel : Panel) :
    (subroutine.entered panel).reset = subroutine.graph.reset := by
  have rest := settings_rest panel 0 subroutine.layout.inputs subroutine.graph
  simp only [Graph.reset, entered, Graph.afterCalls_circuit, rest]

/-! ## Copying out -/

omit [Processor ν] in
theorem copyOut_cons_run (plug : Nat) (endpoint : Endpoint) (plugs : List Endpoint)
    (graph : Graph ν) (panel : Panel) :
    (copyOut plug (endpoint :: plugs) graph).run panel =
      (copyOut (plug + 1) plugs graph).run
        (match graph.readOutput? endpoint.id with
        | some value => panel.setOutput plug value
        | none => panel) := by
  rw [copyOut]
  cases graph.readOutput? endpoint.id <;> rfl

omit [Processor ν] in
/-- Copying out from some plug on leaves the plugs before it alone. -/
theorem copyOut_output_before {plug other : Nat} {plugs : List Endpoint} {graph : Graph ν}
    {panel : Panel} (owns : panel.OwnsOutputs) (before : other < plug) :
    ((copyOut plug plugs graph).run panel).2.output other = panel.output other := by
  induction plugs generalizing plug panel with
  | nil => rfl
  | cons endpoint plugs induction =>
      rw [copyOut_cons_run]
      cases graph.readOutput? endpoint.id with
      | none => exact induction owns (Nat.lt_succ_of_lt before)
      | some value =>
          rw [induction (owns.setOutput plug value) (Nat.lt_succ_of_lt before),
            Panel.output_setOutput owns, if_neg fun same => Nat.ne_of_gt before same.1]

omit [Processor ν] in
theorem copyOut_output {plug index : Nat} {plugs : List Endpoint} {graph : Graph ν}
    {panel : Panel} {endpoint : Endpoint} {value : Value} (owns : panel.OwnsOutputs)
    (found : plugs[index]? = some endpoint) (shown : graph.readOutput? endpoint.id = some value)
    (bound : plug + index < panel.outputs.length) :
    ((copyOut plug plugs graph).run panel).2.output (plug + index) = value := by
  induction plugs generalizing plug index panel with
  | nil => simp at found
  | cons head plugs induction =>
      rw [copyOut_cons_run]
      cases index with
      | zero =>
          cases found
          simp only [shown, Nat.add_zero] at bound ⊢
          rw [copyOut_output_before (owns.setOutput plug value) (Nat.lt_succ_self plug),
            Panel.output_setOutput owns, if_pos ⟨rfl, bound⟩]
      | succ index =>
          rw [Nat.add_comm index, ← Nat.add_assoc] at bound ⊢
          cases graph.readOutput? head.id with
          | none => exact induction owns found bound
          | some written =>
              exact induction (owns.setOutput plug written) found (by simpa using bound)

end Subroutine

/-! ## Compiled graphs -/

namespace Compile

variable [Processor κ] {registry : Registry κ} {config : Config} {prototype : Prototype}
  {room : Nat} {graph : Graph (Nested κ room)}

theorem Reachable.inputs_eq (reachable : Reachable registry config prototype graph) :
    graph.circuit.inputs = Assembly.inputSlots prototype := by
  rcases reachable.circuit_eq with ⟨wires, order, -, equal⟩
  rw [equal]
  rfl

/-- The inputs of a graph lie in the first slots, in the order in which they are
declared. -/
theorem Reachable.inputSlot?_eq (reachable : Reachable registry config prototype graph)
    (distinct : Assembly.DistinctIds prototype.inputs) {index : Nat} {endpoint : Endpoint}
    (found : prototype.inputs[index]? = some endpoint) :
    graph.circuit.inputSlot? endpoint.id = some index := by
  rw [Circuit.inputSlot?, reachable.inputs_eq, ← Nat.zero_add index]
  exact Assembly.lastSlot?_number distinct found

theorem Reachable.inputSlot?_lt (reachable : Reachable registry config prototype graph)
    {id : Identifier} {slot : Slot} (located : graph.circuit.inputSlot? id = some slot) :
    slot < prototype.inputs.length := by
  rcases Assembly.lastSlot?_mem located with ⟨_, listed, -⟩
  rw [reachable.inputs_eq] at listed
  rw [← Nat.zero_add prototype.inputs.length]
  exact (Assembly.number_bounds listed).2

theorem Reachable.inputs_bounded (reachable : Reachable registry config prototype graph)
    {index : Nat} (bound : index < prototype.inputs.length) :
    index < graph.circuit.defaults.size := by
  rcases reachable.circuit_eq with ⟨wires, order, -, equal⟩
  have owned : _ ≤ graph.circuit.defaults.size := equal ▸ Assembly.defaults_size
  rw [Assembly.ownedValues_length, Assembly.firstNodeSlot] at owned
  exact Nat.lt_of_lt_of_le bound
    ((Nat.le_add_right _ _).trans ((Nat.le_add_right _ _).trans owned))

/-- The slots of inputs hold at first what the prototype says. -/
theorem Reachable.defaults_input (reachable : Reachable registry config prototype graph)
    {slot : Slot} (bound : slot < prototype.inputs.length) :
    graph.circuit.defaults[slot]? = prototype.inputs[slot]?.map Endpoint.default := by
  rcases reachable.circuit_eq with ⟨wires, order, -, equal⟩
  have found := List.getElem?_eq_getElem bound
  rw [equal, Assembly.defaults_input found, found]
  rfl

/-- The outputs of a graph are those that are declared. -/
theorem Reachable.outputs_ids (reachable : Reachable registry config prototype graph) :
    graph.circuit.outputs.map Prod.fst = prototype.outputs.map Endpoint.id := by
  rcases reachable.circuit_eq with ⟨wires, order, -, equal⟩
  rw [equal]
  exact Assembly.shownSlots_ids _ _ _

theorem Reachable.exists_readOutput?
    (reachable : Reachable registry config prototype graph) {endpoint : Endpoint}
    (listed : endpoint ∈ prototype.outputs) :
    ∃ value, graph.readOutput? endpoint.id = some value := by
  have shown : endpoint.id ∈ graph.circuit.outputs.map Prod.fst := by
    rw [reachable.outputs_ids]
    exact List.mem_map_of_mem listed
  rcases List.mem_map.mp shown with ⟨entry, member, same⟩
  cases located : graph.circuit.outputs.find? fun entry => entry.1 == endpoint.id with
  | none => exact absurd (same ▸ BEq.rfl) (List.find?_eq_none.mp located entry member)
  | some output => exact ⟨_, by rw [Graph.readOutput?, Circuit.outputSlot?, located]; rfl⟩

theorem Reachable.readOutput?_eq_none
    (reachable : Reachable registry config prototype graph) {id : Identifier}
    (undeclared : ∀ output ∈ prototype.outputs, ¬ (output.id == id) = true) :
    graph.readOutput? id = none := by
  have absent : (graph.circuit.outputs.find? fun entry => entry.1 == id) = none := by
    apply List.find?_eq_none.mpr
    intro entry member
    have declared : entry.1 ∈ prototype.outputs.map Endpoint.id :=
      reachable.outputs_ids ▸ List.mem_map_of_mem member
    rcases List.mem_map.mp declared with ⟨output, listed, same⟩
    exact same ▸ undeclared output listed
  rw [Graph.readOutput?, Circuit.outputSlot?, absent]
  rfl

/-- The output plugs of a node lie in as many slots. -/
theorem Reachable.outputs_length (reachable : Reachable registry config prototype graph)
    {index : Nat} {placement : Placement} {placed : PrototypeNode} {layout : Layout}
    (located : graph.circuit.placements[index]? = some placement)
    (listed : prototype.nodes[index]? = some placed)
    (plugs : layout? registry placed = some layout) :
    placement.outputs.length = layout.outputs.length := by
  rcases reachable.circuit_eq with ⟨wires, order, -, equal⟩
  rw [equal] at located
  apply Assembly.outputSlots_width (Assembly.placement_eq_some located).2
  simp [endpointsOf, listed, plugs]

end Compile

/-! ## Coherence -/

namespace Subroutine

variable [Processor ν]

/-- The inputs of the graph inside hold what the plugs of their names read;
`values` are those inside. -/
def Mirrors (subroutine : Subroutine ν) (panel : Panel) (values : Array Value) : Prop :=
  ∀ plug endpoint, subroutine.layout.inputs[plug]? = some endpoint →
    ∃ slot, subroutine.graph.circuit.inputSlot? endpoint.id = some slot ∧
      values[slot]? = some (panel.input plug)

/-- The output plugs hold what the outputs of their names show inside. -/
def Shows (subroutine : Subroutine ν) (panel : Panel) : Prop :=
  ∀ plug endpoint, subroutine.layout.outputs[plug]? = some endpoint →
    subroutine.graph.readOutput? endpoint.id = some (panel.output plug)

end Subroutine

namespace Compile

variable [Processor κ] {registry : Registry κ} {config : Config} {nested : Prototype}
  {room : Nat} {subroutine : Subroutine (Nested κ room)}

/-- Once values have been copied in, the inputs inside hold what the plugs
read. -/
theorem Reachable.entered_mirrors (reachable : Reachable registry config nested subroutine.graph)
    (plugs : subroutine.layout = Subroutine.layoutOf nested)
    (distinct : Assembly.DistinctIds nested.inputs) (panel : Panel) :
    subroutine.Mirrors panel (subroutine.entered panel).state.values := by
  intro plug endpoint found
  have located {other : Endpoint} (listed : other ∈ subroutine.layout.inputs) :
      ∃ index, nested.inputs[index]? = some other ∧
        subroutine.graph.circuit.inputSlot? other.id = some index := by
    rw [plugs] at listed
    rcases List.mem_iff_getElem?.mp (List.mem_of_mem_filter listed) with ⟨index, position⟩
    exact ⟨index, position, reachable.inputSlot?_eq distinct position⟩
  rcases located (List.mem_of_getElem? found) with ⟨slot, position, slotFound⟩
  refine ⟨slot, slotFound, ?_⟩
  rw [← Nat.zero_add plug]
  apply Subroutine.settings_values _ found slotFound reachable.fits
    (reachable.inputs_bounded (List.getElem?_eq_some_iff.mp position).1)
  have apart : Assembly.DistinctIds subroutine.layout.inputs := by
    rw [plugs]
    exact distinct.filter _
  apply List.Pairwise.imp_of_mem _ apart
  intro first second firstListed secondListed different same
  rcases located firstListed with ⟨firstIndex, firstPosition, firstSlot⟩
  rcases located secondListed with ⟨secondIndex, secondPosition, secondSlot⟩
  rw [firstSlot, secondSlot, Option.some.injEq] at same
  subst same
  rw [firstPosition, Option.some.injEq] at secondPosition
  subst secondPosition
  exact different BEq.rfl

/-- After a tick the output plugs hold what the outputs inside show. -/
theorem Reachable.process_shows (reachable : Reachable registry config nested subroutine.graph)
    (plugs : subroutine.layout = Subroutine.layoutOf nested) {panel : Panel}
    (owns : panel.OwnsOutputs)
    (width : panel.outputs.length = subroutine.layout.outputs.length) (timeStep : Binary32) :
    ((subroutine.process timeStep).run panel).1.1.Shows
      ((subroutine.process timeStep).run panel).2 := by
  intro plug endpoint found
  rw [Subroutine.process_result] at found ⊢
  have listed : endpoint ∈ nested.outputs := by
    rw [plugs] at found
    exact List.mem_of_mem_filter (List.mem_of_getElem? found)
  have ticked : Reachable registry config nested
      ((subroutine.entered panel).process timeStep).1 :=
    (reachable.afterCalls _).afterCalls [.process timeStep]
  rcases ticked.exists_readOutput? listed with ⟨value, shown⟩
  rcases subroutine.process_values timeStep panel with ⟨middle, values, inputs, outputs, copied⟩
  have middleOwns : middle.OwnsOutputs :=
    ⟨outputs ▸ owns.nodup, by rw [outputs, values]; exact owns.bounded,
      by rw [outputs, inputs]; exact owns.apart⟩
  have bound : 0 + plug < middle.outputs.length := by
    rw [outputs, width, Nat.zero_add]
    exact (List.getElem?_eq_some_iff.mp found).1
  have held := Subroutine.copyOut_output middleOwns found shown bound
  rw [Nat.zero_add] at held
  refine shown.trans (congrArg some ?_)
  rw [← held]
  unfold Panel.output Panel.valueAt
  rw [copied, Program.run_outputs, Program.run_outputs, outputs]

end Compile

end NodeGraph
