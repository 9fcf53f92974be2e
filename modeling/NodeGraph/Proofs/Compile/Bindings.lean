import NodeGraph.Proofs.Compile.Slots

namespace NodeGraph

/-! Where the ends of a value wire lie. An input plug that a wire ends on has no
slot of its own: it lies in the slot that the source of the wire writes. -/

/-- If no two wires share a sink, a wire's source is the source of its sink. -/
theorem Wire.sourceOf?_of_mem {wires : List Wire} {source : ValueSource} {sink : ValueSink}
    (apart : wires.Pairwise fun earlier later => ¬ earlier.SharesSink later)
    (listed : .value source sink ∈ wires) : sourceOf? wires sink = some source := by
  induction wires with
  | nil => cases listed
  | cons head tail induction =>
      rcases List.pairwise_cons.mp apart with ⟨free, apart⟩
      rcases List.mem_cons.mp listed with isHead | later
      · subst isHead
        simp [sourceOf?]
      · have found := induction apart later
        cases head with
        | event start target => exact found
        | value start other =>
            have different : (other == sink) = false := by
              rw [← Bool.not_eq_true]
              exact fun same => free _ later ⟨other, sink, rfl, rfl, same⟩
            simpa [sourceOf?, different] using found

namespace Assembly

theorem plugSlots_wired {source? : Nat → Option Slot} {overrides : List Endpoint}
    {plug input slot : Nat} {plugs : List Endpoint} {values : Array Value}
    (wired : source? (plug + input) = some slot) (bound : input < plugs.length) :
    (plugSlots source? overrides plug plugs values).slots[input]? = some slot := by
  induction plugs generalizing plug input values with
  | nil => cases bound
  | cons endpoint plugs induction =>
      cases input with
      | zero =>
          rw [Nat.add_zero] at wired
          simp [plugSlots, slotOrNew, wired]
      | succ input =>
          rw [Nat.add_comm input, ← Nat.add_assoc] at wired
          exact induction wired (Nat.lt_of_succ_lt_succ bound)

theorem nodeSlots_wired {source? : ValueSink → Option Slot} {node index input slot : Nat}
    {nodes : List (PrototypeNode × Layout)} (values : Array Value) {placed : PrototypeNode}
    {layout : Layout} (listed : nodes[index]? = some (placed, layout))
    (wired : source? (.nodeInput (node + index) input) = some slot)
    (bound : input < layout.inputs.length) :
    ∃ slots, (nodeSlots source? node nodes values).slots[index]? = some slots ∧
      slots[input]? = some slot := by
  induction nodes generalizing node index values with
  | nil => simp at listed
  | cons first nodes induction =>
      cases index with
      | zero =>
          rw [List.getElem?_cons_zero, Option.some.injEq] at listed
          subst listed
          refine ⟨_, rfl, plugSlots_wired ?_ bound⟩
          simpa using wired
      | succ index =>
          rw [List.getElem?_cons_succ] at listed
          rw [Nat.add_comm index, ← Nat.add_assoc] at wired
          exact induction _ listed wired

theorem outputSlots_width {first index : Nat} {layouts : List Layout} {layout : Layout}
    {slots : List Slot} (found : (outputSlots first layouts)[index]? = some slots)
    (located : layouts[index]? = some layout) : slots.length = layout.outputs.length := by
  induction layouts generalizing first index with
  | nil => simp at located
  | cons head tail induction =>
      cases index with
      | zero =>
          simp only [outputSlots, List.getElem?_cons_zero, Option.some.injEq] at found located
          subst found located
          simp
      | succ index =>
          simp only [outputSlots, List.getElem?_cons_succ] at found located
          exact induction found located

end Assembly

namespace Endpoints

variable {endpoints : Endpoints} {terminus : Terminus} {scope : Scope}

theorem valueSource_bounded {node output : Nat}
    (found : endpoints.valueSource scope terminus = .ok (.nodeOutput node output)) :
    ∃ layout, endpoints.layouts[node]? = some layout ∧ output < layout.outputs.length := by
  rcases plug_eq_ok_iff.mp (valueSource_eq_nodeOutput_iff.mp found).2 with
    ⟨-, layout, located, plug⟩
  exact ⟨layout, located, (List.findIdx?_eq_some_iff_getElem.mp plug).1⟩

theorem valueSink_bounded {node input : Nat}
    (found : endpoints.valueSink scope terminus = .ok (.nodeInput node input)) :
    ∃ layout, endpoints.layouts[node]? = some layout ∧ input < layout.inputs.length := by
  rcases plug_eq_ok_iff.mp (valueSink_eq_nodeInput_iff.mp found).2 with
    ⟨-, layout, located, plug⟩
  exact ⟨layout, located, (List.findIdx?_eq_some_iff_getElem.mp plug).1⟩

end Endpoints

namespace Assembly

variable {config : Config} {endpoints : Endpoints} {wires : List Wire} {order : List Nat}

theorem exists_placement (config : Config) (wires : List Wire) (order : List Nat) {index : Nat}
    (complete : endpoints.layouts.length = endpoints.prototype.nodes.length)
    (bound : index < endpoints.layouts.length) :
    ∃ placement, (circuit config endpoints wires order).placements[index]? = some placement := by
  rw [complete, ← circuit_size complete] at bound
  exact ⟨_, Array.getElem?_eq_getElem bound⟩

/-- An input plug that a wire ends on lies in the slot of the wire's source. -/
theorem input_shares_slot
    (complete : endpoints.layouts.length = endpoints.prototype.nodes.length)
    (apart : wires.Pairwise fun earlier later => ¬ earlier.SharesSink later)
    {connection : Connection} {source : ValueSource} {node input : Nat} {slot : Slot}
    (looked : endpoints.wire connection = .ok (.value source (.nodeInput node input)))
    (listed : .value source (.nodeInput node input) ∈ wires)
    (located : slotOf? endpoints source = some slot) :
    ∃ placement, (circuit config endpoints wires order).placements[node]? = some placement ∧
      placement.inputs[input]? = some slot := by
  rcases (Endpoints.wire_eq_ok_iff.mp looked).2.2 with
    ⟨-, _, _, -, -, same⟩ | ⟨-, _, _, -, sinkFound, same⟩
  · cases same
  · cases same
    rcases Endpoints.valueSink_bounded sinkFound with ⟨layout, layoutFound, bound⟩
    have layoutBound := (List.getElem?_eq_some_iff.mp layoutFound).1
    rcases exists_placement config wires order complete layoutBound with ⟨placement, placed⟩
    have wired : wiredSlot? endpoints wires (.nodeInput (0 + node) input) = some slot := by
      rw [Nat.zero_add, wiredSlot?, Wire.sourceOf?_of_mem apart listed, Option.bind_some, located]
    have nodeBound : node < endpoints.prototype.nodes.length := complete ▸ layoutBound
    have zipped : (endpoints.prototype.nodes.zip endpoints.layouts)[node]? =
        some (endpoints.prototype.nodes[node], layout) :=
      List.getElem?_zip_eq_some.mpr ⟨List.getElem?_eq_getElem nodeBound, layoutFound⟩
    rcases nodeSlots_wired (ownedValues endpoints).toArray zipped wired bound with
      ⟨slots, inputs, shared⟩
    rw [(placement_eq_some placed).1, Option.some.injEq] at inputs
    subst inputs
    exact ⟨placement, placed, shared⟩

/-- The ends of a wire from node to node lie in one slot. -/
theorem ends_share_slot
    (complete : endpoints.layouts.length = endpoints.prototype.nodes.length)
    (apart : wires.Pairwise fun earlier later => ¬ earlier.SharesSink later)
    {connection : Connection} {source output node input : Nat}
    (looked : endpoints.wire connection =
      .ok (.value (.nodeOutput source output) (.nodeInput node input)))
    (listed : .value (.nodeOutput source output) (.nodeInput node input) ∈ wires) :
    ∃ upstream downstream slot,
      (circuit config endpoints wires order).placements[source]? = some upstream ∧
      (circuit config endpoints wires order).placements[node]? = some downstream ∧
      upstream.outputs[output]? = some slot ∧ downstream.inputs[input]? = some slot := by
  rcases (Endpoints.wire_eq_ok_iff.mp looked).2.2 with
    ⟨-, _, _, -, -, same⟩ | ⟨-, _, _, sourceFound, -, same⟩
  · cases same
  · cases same
    rcases Endpoints.valueSource_bounded sourceFound with ⟨layout, layoutFound, bound⟩
    rcases exists_placement config wires order complete
      (List.getElem?_eq_some_iff.mp layoutFound).1 with ⟨upstream, upstreamFound⟩
    have outputs := (placement_eq_some upstreamFound).2
    rw [← outputSlots_width outputs layoutFound] at bound
    have located : slotOf? endpoints (.nodeOutput source output) =
        some upstream.outputs[output] := by
      simp [slotOf?, outputs, bound]
    rcases input_shares_slot complete apart looked listed located with
      ⟨downstream, downstreamFound, shared⟩
    exact ⟨upstream, downstream, _, upstreamFound, downstreamFound,
      List.getElem?_eq_getElem bound, shared⟩

/-! ## Outputs of the graph -/

/-- Of the outputs with an id, the first one shows the slot of its source. -/
theorem shownSlots_wired {source? : ValueSink → Option Slot} {outputs : List Endpoint}
    (values : Array Value) {id : Identifier} {slot : Slot}
    (listed : ∃ output ∈ outputs, (output.id == id) = true)
    (wired : ∀ output ∈ outputs, (output.id == id) = true →
      source? (.graphOutput output.id) = some slot) :
    ((shownSlots source? outputs values).slots.find? fun entry => entry.1 == id).map Prod.snd =
      some slot := by
  induction outputs generalizing values with
  | nil => simp at listed
  | cons head outputs induction =>
      rw [shownSlots, List.find?_cons]
      by_cases same : (head.id == id) = true
      · simp [same, slotOrNew, wired head (.head _) same]
      · rcases listed with ⟨output, member, sameOutput⟩
        rcases List.mem_cons.mp member with rfl | later
        · exact absurd sameOutput same
        · simp only [same]
          exact induction _ ⟨output, later, sameOutput⟩ fun other member =>
            wired other (.tail _ member)

/-- An output that a wire ends on shows the slot of the wire's source. -/
theorem output_shows_slot
    (apart : wires.Pairwise fun earlier later => ¬ earlier.SharesSink later)
    (distinct : DistinctIds endpoints.prototype.outputs) {output : Endpoint}
    (declared : output ∈ endpoints.prototype.outputs) {source : ValueSource} {slot : Slot}
    (listed : .value source (.graphOutput output.id) ∈ wires)
    (located : slotOf? endpoints source = some slot) :
    (circuit config endpoints wires order).outputSlot? output.id = some slot := by
  apply shownSlots_wired _ ⟨output, declared, BEq.rfl⟩
  intro other member same
  rw [distinct.eq_of_beq member declared same, Wire.sourceOf?_of_mem apart listed,
    Option.bind_some, located]

end Assembly

end NodeGraph
