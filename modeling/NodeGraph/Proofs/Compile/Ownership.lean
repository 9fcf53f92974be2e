import NodeGraph.Proofs.Compile.Bindings
import NodeGraph.Proofs.Compile.Routes

namespace NodeGraph

/-! Who owns which slot. Every position that a circuit names exists, and a slot
that a node writes belongs to that node alone: whatever else lies in a slot, an
input of the graph, a local variable or a value that nothing feeds, lies apart
from it. So a node overwrites nothing but its own outputs, and what looks a
position up finds something there. -/

/-! ## Fed sinks -/

namespace Endpoints

variable {endpoints : Endpoints}

/-- A value connection ends there. -/
def Fed (endpoints : Endpoints) (sink : ValueSink) : Prop :=
  ∃ connection ∈ endpoints.prototype.connections, ∃ source other,
    endpoints.wire connection = .ok (.value source other) ∧ (other == sink) = true

theorem fed_of_sourceOf? {wires : List Wire} {sink : ValueSink} {source : ValueSource}
    (looked : endpoints.LooksUp endpoints.prototype.connections wires)
    (found : Wire.sourceOf? wires sink = some source) : endpoints.Fed sink := by
  rcases Wire.mem_of_sourceOf?_eq_some found with ⟨other, listed, same⟩
  rcases exists_connection_of_mem looked listed with ⟨connection, member, located⟩
  exact ⟨connection, member, source, other, located, same⟩

/-- A node that events are led to has the input event that they arrive on. -/
theorem targetsFrom_bounded {source : EventSource} {index input : Nat}
    (listed : .node index input ∈ endpoints.targetsFrom source) :
    ∃ layout, endpoints.layouts[index]? = some layout ∧ input < layout.inputEvents.length := by
  rcases exists_of_mem_targetsFrom listed with ⟨connection, -, -, -, targetFound⟩
  rcases plug_eq_ok_iff.mp (eventTarget_eq_node_iff.mp targetFound).2 with
    ⟨-, layout, located, event⟩
  exact ⟨layout, located, (List.findIdx?_eq_some_iff_getElem.mp event).1⟩

end Endpoints

namespace Assembly

/-! ## Slots that exist

A slot that is allocated lies behind all before it; a slot that is shared exists
already. So it is enough that the slots of sources exist. -/

theorem slotOrNew_bounded {source? : Option Slot} {value : Value} {values : Array Value}
    (sources : ∀ slot, source? = some slot → slot < values.size) :
    (slotOrNew source? value values).slots < (slotOrNew source? value values).values.size := by
  cases source? with
  | none => simp [slotOrNew]
  | some slot => exact sources slot rfl

theorem plugSlots_bounded {source? : Nat → Option Slot} {overrides : List Endpoint}
    {plug slot : Nat} {plugs : List Endpoint} {values : Array Value}
    (sources : ∀ input slot, source? input = some slot → slot < values.size)
    (member : slot ∈ (plugSlots source? overrides plug plugs values).slots) :
    slot < (plugSlots source? overrides plug plugs values).values.size := by
  induction plugs generalizing plug values with
  | nil => simp [plugSlots] at member
  | cons endpoint plugs induction =>
      rcases List.mem_cons.mp member with rfl | later
      · exact Nat.lt_of_lt_of_le (slotOrNew_bounded (sources plug)) (plugSlots_size _ _ _ _ _)
      · apply induction _ later
        intro input source found
        exact Nat.lt_of_lt_of_le (sources input source found) (slotOrNew_size _ _ _)

theorem nodeSlots_bounded {source? : ValueSink → Option Slot} {node index slot : Nat}
    {nodes : List (PrototypeNode × Layout)} {values : Array Value} {slots : List Slot}
    (sources : ∀ sink slot, source? sink = some slot → slot < values.size)
    (found : (nodeSlots source? node nodes values).slots[index]? = some slots)
    (member : slot ∈ slots) : slot < (nodeSlots source? node nodes values).values.size := by
  induction nodes generalizing node index values with
  | nil => simp [nodeSlots] at found
  | cons placed nodes induction =>
      cases index with
      | zero =>
          simp only [nodeSlots, List.getElem?_cons_zero, Option.some.injEq] at found
          subst found
          exact Nat.lt_of_lt_of_le (plugSlots_bounded (fun _ => sources _) member)
            (nodeSlots_size _ _ _ _)
      | succ index =>
          simp only [nodeSlots, List.getElem?_cons_succ] at found
          apply induction _ found
          intro sink source located
          exact Nat.lt_of_lt_of_le (sources sink source located) (plugSlots_size _ _ _ _ _)

theorem shownSlots_bounded {source? : ValueSink → Option Slot} {outputs : List Endpoint}
    {values : Array Value} {entry : Identifier × Slot}
    (sources : ∀ sink slot, source? sink = some slot → slot < values.size)
    (member : entry ∈ (shownSlots source? outputs values).slots) :
    entry.2 < (shownSlots source? outputs values).values.size := by
  induction outputs generalizing values with
  | nil => simp [shownSlots] at member
  | cons endpoint outputs induction =>
      rcases List.mem_cons.mp member with rfl | later
      · exact Nat.lt_of_lt_of_le (slotOrNew_bounded (sources _)) (shownSlots_size _ _ _)
      · apply induction _ later
        intro sink source located
        exact Nat.lt_of_lt_of_le (sources sink source located) (slotOrNew_size _ _ _)

/-- An output of the graph shows the slot of its source or one that nobody
owns. -/
theorem shownSlots_slot {source? : ValueSink → Option Slot} {outputs : List Endpoint}
    {values : Array Value} {entry : Identifier × Slot}
    (member : entry ∈ (shownSlots source? outputs values).slots) :
    source? (.graphOutput entry.1) = some entry.2 ∨
      source? (.graphOutput entry.1) = none ∧ values.size ≤ entry.2 := by
  induction outputs generalizing values with
  | nil => simp [shownSlots] at member
  | cons endpoint outputs induction =>
      rcases List.mem_cons.mp member with rfl | later
      · exact slotOrNew_slot
      · exact (induction later).imp_right (.imp_right (slotOrNew_size _ _ _).trans)

/-! ## Slots of the assembled circuit -/

section
variable {config : Config} {endpoints : Endpoints} {wires : List Wire} {order : List Nat}

theorem wiredSlot?_bounded {sink : ValueSink} {slot : Slot}
    (wired : wiredSlot? endpoints wires sink = some slot) :
    slot < (ownedValues endpoints).length := by
  rw [ownedValues_length]
  rcases Option.bind_eq_some_iff.mp wired with ⟨source, -, slotFound⟩
  rcases slotOf?_boundary slotFound with ⟨node, plug, rfl⟩ | before
  · rcases slotOf?_nodeOutput slotFound with ⟨slots, located, member⟩
    exact (outputSlots_bounds located member).2
  · exact Nat.lt_add_right _ before

theorem inputsAt_bounded {index slot : Nat}
    (member : slot ∈ (circuit config endpoints wires order).inputsAt index) :
    slot < (circuit config endpoints wires order).defaults.size := by
  unfold Circuit.inputsAt at member
  split at member
  next placement placed =>
    apply Nat.lt_of_lt_of_le _ (shownSlots_size _ _ _)
    apply nodeSlots_bounded _ (placement_eq_some placed).1 member
    intro sink slot wired
    rw [List.size_toArray]
    exact wiredSlot?_bounded wired
  next => simp at member

theorem shown_bounded {entry : Identifier × Slot}
    (member : entry ∈ (circuit config endpoints wires order).outputs) :
    entry.2 < (circuit config endpoints wires order).defaults.size := by
  apply shownSlots_bounded _ member
  intro sink slot wired
  apply Nat.lt_of_lt_of_le (wiredSlot?_bounded wired)
  rw [← List.size_toArray]
  exact nodeSlots_size _ _ _ _

/-- The inputs and the local variables of a graph lie before what its nodes
write. -/
theorem boundary_bounded {entry : Identifier × Slot}
    (member : entry ∈ inputSlots endpoints.prototype ++ localSlots endpoints.prototype) :
    entry.2 < firstNodeSlot endpoints.prototype := by
  unfold firstNodeSlot
  rcases List.mem_append.mp member with input | variable_
  · have bounds := (number_bounds input).2
    rw [Nat.zero_add] at bounds
    exact Nat.lt_add_right _ bounds
  · exact (number_bounds variable_).2

theorem outputsAt_bounds {writer slot : Nat}
    (written : slot ∈ (circuit config endpoints wires order).outputsAt writer) :
    firstNodeSlot endpoints.prototype ≤ slot ∧ slot < (ownedValues endpoints).length := by
  rw [ownedValues_length]
  rcases mem_outputsAt written with ⟨slots, located, member⟩
  exact outputSlots_bounds located member

end

end Assembly

/-! ## Sound circuits -/

/-- Every position that the circuit names exists, and the slots that nodes write
are owned by them alone. `endpoints` are the prototype and the plugs that the
circuit was made for. -/
structure Circuit.Sound (endpoints : Endpoints) (circuit : Circuit) : Prop where
  complete : circuit.placements.size = endpoints.prototype.nodes.length
  order_perm : circuit.order.Perm (List.range endpoints.prototype.nodes.length)
  inputs_exist : ∀ index, ∀ slot ∈ circuit.inputsAt index, slot < circuit.defaults.size
  outputs_exist : ∀ index, ∀ slot ∈ circuit.outputsAt index, slot < circuit.defaults.size
  tables_exist : ∀ entry ∈ circuit.inputs ++ circuit.locals ++ circuit.outputs,
    entry.2 < circuit.defaults.size
  targets_exist : ∀ index input, circuit.LeadsTo (.node index input) →
    ∃ layout, endpoints.layouts[index]? = some layout ∧ input < layout.inputEvents.length
  outputs_nodup : ∀ index, (circuit.outputsAt index).Nodup
  outputs_apart : ∀ first second, first ≠ second →
    ∀ slot ∈ circuit.outputsAt first, slot ∉ circuit.outputsAt second
  boundary_apart : ∀ entry ∈ circuit.inputs ++ circuit.locals,
    ∀ writer, entry.2 ∉ circuit.outputsAt writer
  constants_apart : ∀ index input slot, (circuit.inputsAt index)[input]? = some slot →
    ¬ endpoints.Fed (.nodeInput index input) → ∀ writer, slot ∉ circuit.outputsAt writer
  shown_apart : ∀ entry ∈ circuit.outputs, ¬ endpoints.Fed (.graphOutput entry.1) →
    ∀ writer, entry.2 ∉ circuit.outputsAt writer

theorem Assembly.circuit_sound {config : Config} {endpoints : Endpoints} {wires : List Wire}
    {order : List Nat} (complete : endpoints.layouts.length = endpoints.prototype.nodes.length)
    (looked : endpoints.LooksUp endpoints.prototype.connections wires)
    (isOrder : Schedule.IsOrder (wires.filterMap Wire.edge?) endpoints.prototype.nodes.length
      order) : (circuit config endpoints wires order).Sound endpoints := by
  have flows : (circuit config endpoints wires order).FlowsForward :=
    circuit_flowsForward complete isOrder
  have unfed {sink : ValueSink} (notFed : ¬ endpoints.Fed sink) (slot : Slot) :
      wiredSlot? endpoints wires sink ≠ some slot := by
    intro wired
    rcases Option.bind_eq_some_iff.mp wired with ⟨source, found, -⟩
    exact notFed (Endpoints.fed_of_sourceOf? looked found)
  exact {
    complete := circuit_size complete
    order_perm := isOrder.perm
    inputs_exist := fun index slot => inputsAt_bounded
    outputs_exist := flows.outputs_bounded
    tables_exist := by
      intro entry member
      rcases List.mem_append.mp member with boundary | shown
      · have owned : _ ≤ (circuit config endpoints wires order).defaults.size := defaults_size
        rw [ownedValues_length] at owned
        exact Nat.lt_of_lt_of_le (boundary_bounded boundary) ((Nat.le_add_right _ _).trans owned)
      · exact shown_bounded shown
    targets_exist := by
      intro index input leads
      rcases leads with ⟨node, output, listed⟩ | ⟨id, listed⟩
      · rw [targets_circuit looked] at listed
        exact Endpoints.targetsFrom_bounded listed
      · rw [entrance_circuit looked] at listed
        exact Endpoints.targetsFrom_bounded listed
    outputs_nodup := flows.outputs_nodup
    outputs_apart := flows.outputs_apart
    boundary_apart := by
      intro entry member writer written
      exact Nat.not_lt.mpr (outputsAt_bounds written).1 (boundary_bounded member)
    constants_apart := by
      intro index input slot found notFed writer written
      have bounds := outputsAt_bounds written
      rcases inputsAt_slot found with wired | ⟨-, behind⟩
      · exact unfed notFed slot wired
      · omega
    shown_apart := by
      intro entry member notFed writer written
      have bounds := outputsAt_bounds written
      rcases shownSlots_slot member with wired | ⟨-, behind⟩
      · exact unfed notFed _ wired
      · have grown := nodeSlots_size (wiredSlot? endpoints wires) 0
          (endpoints.prototype.nodes.zip endpoints.layouts) (ownedValues endpoints).toArray
        rw [List.size_toArray] at grown
        exact absurd (grown.trans behind) (Nat.not_le.mpr bounds.2) }

end NodeGraph
