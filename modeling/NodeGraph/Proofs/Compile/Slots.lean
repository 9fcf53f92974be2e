import Mathlib.Data.List.Range
import NodeGraph.Proofs.Circuit
import NodeGraph.Proofs.Compile.Order

namespace NodeGraph

/-! Where the slots of a circuit come from. The slots that the graph's inputs,
its local variables and the outputs of its nodes own follow each other without
overlap; whatever else is read lies behind them. So a node reads what another
node writes only along a wire. -/

namespace Assembly

/-! ## Owned slots -/

theorem number_bounds {first slot : Nat} {declared : List Endpoint} {id : Identifier}
    (listed : (id, slot) ∈ number first declared) :
    first ≤ slot ∧ slot < first + declared.length := by
  induction declared generalizing first with
  | nil => simp [number] at listed
  | cons endpoint declared induction =>
      simp only [number, List.mem_cons, Prod.mk.injEq] at listed
      rcases listed with ⟨-, equal⟩ | listed
      · simp only [List.length_cons]
        omega
      · have bounds := induction listed
        simp only [List.length_cons]
        omega

theorem lastSlot?_mem {declared : List (Identifier × Slot)} {id : Identifier} {slot : Slot}
    (found : Circuit.lastSlot? declared id = some slot) :
    ∃ other, (other, slot) ∈ declared ∧ (other == id) = true := by
  rcases Option.map_eq_some_iff.mp found with ⟨⟨other, position⟩, last, equal⟩
  cases equal
  have listed := List.mem_of_find?_eq_some last
  exact ⟨other, List.mem_reverse.mp listed, by simpa using List.find?_some last⟩

theorem mem_number {first slot : Nat} {declared : List Endpoint} {id : Identifier}
    (listed : (id, slot) ∈ number first declared) : ∃ endpoint ∈ declared, endpoint.id = id := by
  induction declared generalizing first with
  | nil => simp [number] at listed
  | cons endpoint declared induction =>
      rcases List.mem_cons.mp listed with equal | later
      · cases equal
        exact ⟨endpoint, .head _, rfl⟩
      · rcases induction later with ⟨other, member, equal⟩
        exact ⟨other, .tail _ member, equal⟩

theorem lastSlot?_cons (entry : Identifier × Slot) (entries : List (Identifier × Slot))
    (id : Identifier) :
    Circuit.lastSlot? (entry :: entries) id =
      (Circuit.lastSlot? entries id).or (if entry.1 == id then some entry.2 else none) := by
  unfold Circuit.lastSlot?
  rw [List.reverse_cons, List.find?_append, Option.map_or]
  by_cases same : (entry.1 == id) = true <;> simp [same]

/-- No two endpoints have the same id. -/
def DistinctIds (declared : List Endpoint) : Prop :=
  declared.Pairwise fun first second => ¬ (first.id == second.id) = true

/-- If no id is declared twice, looking up the id of an endpoint finds it. -/
theorem DistinctIds.findIdx?_eq {declared : List Endpoint} {index : Nat} {endpoint : Endpoint}
    (distinct : DistinctIds declared) (found : declared[index]? = some endpoint) :
    (declared.findIdx? fun other => other.id == endpoint.id) = some index := by
  rcases List.getElem?_eq_some_iff.mp found with ⟨bound, rfl⟩
  rw [List.findIdx?_eq_some_iff_getElem]
  exact ⟨bound, BEq.rfl, fun earlier before same =>
    List.pairwise_iff_getElem.mp distinct earlier index (before.trans bound) bound before same⟩

theorem DistinctIds.find?_eq {declared : List Endpoint} {endpoint : Endpoint}
    (distinct : DistinctIds declared) (listed : endpoint ∈ declared) :
    (declared.find? fun other => other.id == endpoint.id) = some endpoint := by
  rcases List.getElem?_of_mem listed with ⟨index, found⟩
  rw [List.find?_eq_bind_findIdx?_getElem?, distinct.findIdx?_eq found]
  exact found

theorem DistinctIds.eq_of_beq {declared : List Endpoint} {first second : Endpoint}
    (distinct : DistinctIds declared) (firstListed : first ∈ declared)
    (secondListed : second ∈ declared) (same : (first.id == second.id) = true) :
    first = second := by
  have symmetric : Std.Symm fun first second : Endpoint => ¬ (first.id == second.id) = true :=
    ⟨fun _ _ apart same => apart (BEq.symm same)⟩
  by_contra different
  exact List.Pairwise.forall distinct firstListed secondListed different same

/-- If no id is declared twice, the slot of an endpoint shows its position. -/
theorem lastSlot?_number {first index : Nat} {declared : List Endpoint} {endpoint : Endpoint}
    (distinct : DistinctIds declared) (found : declared[index]? = some endpoint) :
    Circuit.lastSlot? (number first declared) endpoint.id = some (first + index) := by
  induction declared generalizing first index with
  | nil => simp at found
  | cons head declared induction =>
      rcases List.pairwise_cons.mp distinct with ⟨apart, distinct⟩
      rw [number, lastSlot?_cons]
      cases index with
      | zero =>
          cases found
          have absent : Circuit.lastSlot? (number (first + 1) declared) endpoint.id = none := by
            rw [Option.eq_none_iff_forall_ne_some]
            intro slot located
            rcases lastSlot?_mem located with ⟨other, listed, same⟩
            rcases mem_number listed with ⟨later, member, rfl⟩
            exact apart later member (BEq.symm same)
          simp [absent]
      | succ index =>
          rw [induction distinct found, Option.some_or, Nat.add_assoc, Nat.add_comm 1]

/-- How many slots the outputs of nodes take up. -/
def outputCount : List Layout → Nat
  | [] => 0
  | layout :: layouts => layout.outputs.length + outputCount layouts

theorem outputSlots_flatten (first : Slot) (layouts : List Layout) :
    (outputSlots first layouts).flatten = List.range' first (outputCount layouts) := by
  induction layouts generalizing first with
  | nil => rfl
  | cons layout layouts induction =>
      simp only [outputSlots, List.flatten_cons, induction, outputCount]
      rw [List.range'_append_1]

@[simp] theorem outputSlots_length (first : Slot) (layouts : List Layout) :
    (outputSlots first layouts).length = layouts.length := by
  induction layouts generalizing first with
  | nil => rfl
  | cons layout layouts induction => simp [outputSlots, induction]

theorem outputSlots_nodup {first : Slot} {layouts : List Layout} {index : Nat}
    {slots : List Slot} (found : (outputSlots first layouts)[index]? = some slots) :
    slots.Nodup := by
  have nodup : (outputSlots first layouts).flatten.Nodup := by
    rw [outputSlots_flatten]
    exact List.nodup_range'
  exact (List.nodup_flatten.mp nodup).1 slots (List.mem_of_getElem? found)

theorem outputSlots_bounds {first index slot : Nat} {layouts : List Layout} {slots : List Slot}
    (found : (outputSlots first layouts)[index]? = some slots) (member : slot ∈ slots) :
    first ≤ slot ∧ slot < first + outputCount layouts := by
  have listed : slot ∈ (outputSlots first layouts).flatten :=
    List.mem_flatten_of_mem (List.mem_of_getElem? found) member
  rw [outputSlots_flatten, List.mem_range'_1] at listed
  exact listed

/-- An output slot belongs to one node only. -/
theorem outputSlots_owner {first : Slot} {layouts : List Layout} {left right : Nat}
    {leftSlots rightSlots : List Slot} {slot : Slot}
    (leftFound : (outputSlots first layouts)[left]? = some leftSlots)
    (rightFound : (outputSlots first layouts)[right]? = some rightSlots)
    (leftMember : slot ∈ leftSlots) (rightMember : slot ∈ rightSlots) : left = right := by
  have nodup : (outputSlots first layouts).flatten.Nodup := by
    rw [outputSlots_flatten]
    exact List.nodup_range'
  have apart := List.pairwise_iff_getElem.mp (List.nodup_flatten.mp nodup).2
  rcases List.getElem?_eq_some_iff.mp leftFound with ⟨leftBound, leftEqual⟩
  rcases List.getElem?_eq_some_iff.mp rightFound with ⟨rightBound, rightEqual⟩
  rcases Nat.lt_trichotomy left right with before | same | after
  · have disjoint := apart left right leftBound rightBound before
    rw [leftEqual, rightEqual] at disjoint
    exact (disjoint leftMember rightMember).elim
  · exact same
  · have disjoint := apart right left rightBound leftBound after
    rw [leftEqual, rightEqual] at disjoint
    exact (disjoint rightMember leftMember).elim

theorem ownedValues_length (endpoints : Endpoints) :
    (ownedValues endpoints).length =
      firstNodeSlot endpoints.prototype + outputCount endpoints.layouts := by
  have outputs (layouts : List Layout) :
      (layouts.flatMap fun layout => layout.outputs.map Endpoint.default).length =
        outputCount layouts := by
    induction layouts with
    | nil => rfl
    | cons layout layouts induction => simp [outputCount, induction]
  simp only [ownedValues, firstNodeSlot, List.length_append, List.length_map, outputs]

/-! ## Slots that are read -/

/-- A slot that is added changes none before it. -/
theorem slotOrNew_extends (source? : Option Slot) (value : Value) (values : Array Value) :
    values.toList <+: (slotOrNew source? value values).values.toList := by
  cases source? <;> simp [slotOrNew]

theorem slotOrNew_size (source? : Option Slot) (value : Value) (values : Array Value) :
    values.size ≤ (slotOrNew source? value values).values.size :=
  (slotOrNew_extends source? value values).length_le

theorem slotOrNew_slot {source? : Option Slot} {value : Value} {values : Array Value} :
    source? = some (slotOrNew source? value values).slots ∨
      source? = none ∧ values.size ≤ (slotOrNew source? value values).slots := by
  cases source? <;> simp [slotOrNew]

theorem plugSlots_extends (source? : Nat → Option Slot) (overrides : List Endpoint) (plug : Nat)
    (plugs : List Endpoint) (values : Array Value) :
    values.toList <+: (plugSlots source? overrides plug plugs values).values.toList := by
  induction plugs generalizing plug values with
  | nil => exact List.prefix_rfl
  | cons endpoint plugs induction => exact (slotOrNew_extends _ _ _).trans (induction _ _)

theorem plugSlots_size (source? : Nat → Option Slot) (overrides : List Endpoint) (plug : Nat)
    (plugs : List Endpoint) (values : Array Value) :
    values.size ≤ (plugSlots source? overrides plug plugs values).values.size :=
  (plugSlots_extends source? overrides plug plugs values).length_le

/-- An input plug reads the slot of its source or one that nobody owns. -/
theorem plugSlots_slot {source? : Nat → Option Slot} {overrides : List Endpoint}
    {plug input slot : Nat} {plugs : List Endpoint} {values : Array Value}
    (found : (plugSlots source? overrides plug plugs values).slots[input]? = some slot) :
    source? (plug + input) = some slot ∨
      source? (plug + input) = none ∧ values.size ≤ slot := by
  induction plugs generalizing plug input values with
  | nil => simp [plugSlots] at found
  | cons endpoint plugs induction =>
      cases input with
      | zero =>
          simp only [plugSlots, List.getElem?_cons_zero, Option.some.injEq] at found
          subst found
          exact slotOrNew_slot
      | succ input =>
          simp only [plugSlots, List.getElem?_cons_succ] at found
          have rest := induction found
          rw [Nat.add_assoc, Nat.add_comm 1] at rest
          exact rest.imp_right (.imp_right (slotOrNew_size _ _ _).trans)

@[simp] theorem nodeSlots_length (source? : ValueSink → Option Slot) (node : Nat)
    (nodes : List (PrototypeNode × Layout)) (values : Array Value) :
    (nodeSlots source? node nodes values).slots.length = nodes.length := by
  induction nodes generalizing node values with
  | nil => rfl
  | cons placed nodes induction => simp [nodeSlots, induction]

theorem nodeSlots_extends (source? : ValueSink → Option Slot) (node : Nat)
    (nodes : List (PrototypeNode × Layout)) (values : Array Value) :
    values.toList <+: (nodeSlots source? node nodes values).values.toList := by
  induction nodes generalizing node values with
  | nil => exact List.prefix_rfl
  | cons placed nodes induction => exact (plugSlots_extends _ _ _ _ _).trans (induction _ _)

theorem nodeSlots_size (source? : ValueSink → Option Slot) (node : Nat)
    (nodes : List (PrototypeNode × Layout)) (values : Array Value) :
    values.size ≤ (nodeSlots source? node nodes values).values.size :=
  (nodeSlots_extends source? node nodes values).length_le

theorem nodeSlots_slot {source? : ValueSink → Option Slot} {node index input slot : Nat}
    {nodes : List (PrototypeNode × Layout)} {values : Array Value} {slots : List Slot}
    (found : (nodeSlots source? node nodes values).slots[index]? = some slots)
    (read : slots[input]? = some slot) :
    source? (.nodeInput (node + index) input) = some slot ∨
      source? (.nodeInput (node + index) input) = none ∧ values.size ≤ slot := by
  induction nodes generalizing node index values with
  | nil => simp [nodeSlots] at found
  | cons placed nodes induction =>
      cases index with
      | zero =>
          simp only [nodeSlots, List.getElem?_cons_zero, Option.some.injEq] at found
          subst found
          simpa using plugSlots_slot read
      | succ index =>
          simp only [nodeSlots, List.getElem?_cons_succ] at found
          have rest := induction found
          rw [Nat.add_assoc, Nat.add_comm 1] at rest
          exact rest.imp_right (.imp_right (plugSlots_size _ _ _ _ _).trans)

theorem shownSlots_extends (source? : ValueSink → Option Slot) (outputs : List Endpoint)
    (values : Array Value) :
    values.toList <+: (shownSlots source? outputs values).values.toList := by
  induction outputs generalizing values with
  | nil => exact List.prefix_rfl
  | cons endpoint outputs induction => exact (slotOrNew_extends _ _ _).trans (induction _)

theorem shownSlots_size (source? : ValueSink → Option Slot) (outputs : List Endpoint)
    (values : Array Value) :
    values.size ≤ (shownSlots source? outputs values).values.size :=
  (shownSlots_extends source? outputs values).length_le

@[simp] theorem shownSlots_ids (source? : ValueSink → Option Slot) (outputs : List Endpoint)
    (values : Array Value) :
    (shownSlots source? outputs values).slots.map Prod.fst = outputs.map Endpoint.id := by
  induction outputs generalizing values with
  | nil => rfl
  | cons endpoint outputs induction => simp [shownSlots, induction]

/-! ## The assembled circuit -/

section
variable {config : Config} {endpoints : Endpoints} {wires : List Wire} {order : List Nat}

/-- The slot of the source from which a sink is wired. -/
def wiredSlot? (endpoints : Endpoints) (wires : List Wire) (sink : ValueSink) : Option Slot :=
  (Wire.sourceOf? wires sink).bind (slotOf? endpoints)

theorem circuit_size (complete : endpoints.layouts.length = endpoints.prototype.nodes.length) :
    (circuit config endpoints wires order).placements.size =
      endpoints.prototype.nodes.length := by
  simp [circuit, complete]

/-- The nodes of a circuit are those of its prototype, in the same places. -/
theorem circuit_ids (complete : endpoints.layouts.length = endpoints.prototype.nodes.length)
    (index : Nat) :
    ((circuit config endpoints wires order).placements[index]?.map Placement.id) =
      endpoints.prototype.nodes[index]?.map PrototypeNode.id := by
  have widths : endpoints.prototype.nodes.length ≤
      ((nodeSlots (wiredSlot? endpoints wires) 0
        (endpoints.prototype.nodes.zip endpoints.layouts) (ownedValues endpoints).toArray).slots.zip
        (outputSlots (firstNodeSlot endpoints.prototype) endpoints.layouts)).length := by
    simp [complete]
  have nodes := congrArg (List.map PrototypeNode.id) (List.map_fst_zip widths)
  rw [List.map_map] at nodes
  rw [← List.getElem?_map, ← nodes]
  simp only [circuit, List.getElem?_toArray, List.getElem?_map, Option.map_map]
  rfl

theorem placement_eq_some {index : Nat} {placement : Placement}
    (found : (circuit config endpoints wires order).placements[index]? = some placement) :
    (nodeSlots (wiredSlot? endpoints wires) 0 (endpoints.prototype.nodes.zip endpoints.layouts)
        (ownedValues endpoints).toArray).slots[index]? = some placement.inputs ∧
      (outputSlots (firstNodeSlot endpoints.prototype) endpoints.layouts)[index]? =
        some placement.outputs := by
  simp only [circuit, List.getElem?_toArray, List.getElem?_map, Option.map_eq_some_iff,
    List.getElem?_zip_eq_some] at found
  rcases found with ⟨⟨placed, inputs, outputs⟩, ⟨-, inputsFound, outputsFound⟩, equal⟩
  subst equal
  exact ⟨inputsFound, outputsFound⟩

theorem mem_outputsAt {index : Nat} {slot : Slot}
    (member : slot ∈ (circuit config endpoints wires order).outputsAt index) :
    ∃ slots, (outputSlots (firstNodeSlot endpoints.prototype) endpoints.layouts)[index]? =
      some slots ∧ slot ∈ slots := by
  unfold Circuit.outputsAt at member
  split at member
  next placement found => exact ⟨placement.outputs, (placement_eq_some found).2, member⟩
  next => simp at member

/-- The slot of an input plug is that of the plug's source, or one behind all
that are owned. -/
theorem inputsAt_slot {index input slot : Nat}
    (found : ((circuit config endpoints wires order).inputsAt index)[input]? = some slot) :
    wiredSlot? endpoints wires (.nodeInput index input) = some slot ∨
      wiredSlot? endpoints wires (.nodeInput index input) = none ∧
        (ownedValues endpoints).length ≤ slot := by
  unfold Circuit.inputsAt at found
  split at found
  next placement placed =>
    have read := nodeSlots_slot (placement_eq_some placed).1 found
    rwa [Nat.zero_add, List.size_toArray] at read
  next => simp at found

theorem mem_inputsAt {index slot : Nat}
    (member : slot ∈ (circuit config endpoints wires order).inputsAt index) :
    (∃ input, wiredSlot? endpoints wires (.nodeInput index input) = some slot) ∨
      (ownedValues endpoints).length ≤ slot := by
  rcases List.mem_iff_getElem?.mp member with ⟨input, found⟩
  exact (inputsAt_slot found).imp (fun wired => ⟨input, wired⟩) And.right

theorem slotOf?_nodeOutput {node plug : Nat} {slot : Slot}
    (found : slotOf? endpoints (.nodeOutput node plug) = some slot) :
    ∃ slots, (outputSlots (firstNodeSlot endpoints.prototype) endpoints.layouts)[node]? =
      some slots ∧ slot ∈ slots := by
  rcases Option.bind_eq_some_iff.mp found with ⟨slots, located, plugFound⟩
  exact ⟨slots, located, List.mem_of_getElem? plugFound⟩

/-- What is not written by a node lies before the slots of the nodes. -/
theorem slotOf?_boundary {source : ValueSource} {slot : Nat}
    (found : slotOf? endpoints source = some slot) :
    (∃ node plug, source = .nodeOutput node plug) ∨ slot < firstNodeSlot endpoints.prototype := by
  cases source with
  | nodeOutput node plug => exact .inl ⟨node, plug, rfl⟩
  | graphInput id =>
      rcases lastSlot?_mem found with ⟨other, listed, -⟩
      have bounds := number_bounds listed
      simp only [firstNodeSlot]
      omega
  | localVariable id =>
      rcases lastSlot?_mem found with ⟨other, listed, -⟩
      have bounds := number_bounds listed
      simp only [firstNodeSlot]
      omega

/-- A node reads what another one writes only along a wire. -/
theorem edge_of_feeds {writer reader : Nat}
    (feeds : (circuit config endpoints wires order).Feeds writer reader) :
    (writer, reader) ∈ wires.filterMap Wire.edge? := by
  rcases feeds with ⟨(slot : Nat), written, read⟩
  rcases mem_outputsAt written with ⟨slots, located, member⟩
  have bounds := outputSlots_bounds located member
  rcases mem_inputsAt read with ⟨input, wired⟩ | behind
  · rcases Option.bind_eq_some_iff.mp wired with ⟨source, sourceFound, slotFound⟩
    rcases Wire.mem_of_sourceOf?_eq_some sourceFound with ⟨sink, listed, same⟩
    rcases slotOf?_boundary slotFound with ⟨node, plug, equal⟩ | before
    · subst equal
      rcases slotOf?_nodeOutput slotFound with ⟨others, otherLocated, otherMember⟩
      have owner := outputSlots_owner located otherLocated member otherMember
      subst owner
      have equal : sink = .nodeInput reader input := by
        cases sink <;> simp_all
      subst equal
      exact List.mem_filterMap.mpr ⟨_, listed, rfl⟩
    · omega
  · rw [ownedValues_length] at behind
    omega

/-- The slots that exist whatever the wires are hold at first what they would
hold without any. -/
theorem defaults_extend :
    ownedValues endpoints <+: (circuit config endpoints wires order).defaults.toList :=
  (nodeSlots_extends (wiredSlot? endpoints wires) 0
    (endpoints.prototype.nodes.zip endpoints.layouts) (ownedValues endpoints).toArray).trans
    (shownSlots_extends (wiredSlot? endpoints wires) endpoints.prototype.outputs _)

theorem defaults_size :
    (ownedValues endpoints).length ≤ (circuit config endpoints wires order).defaults.size :=
  defaults_extend.length_le

/-- The slot of an input holds at first the default of the input. -/
theorem defaults_input {index : Nat} {endpoint : Endpoint}
    (found : endpoints.prototype.inputs[index]? = some endpoint) :
    (circuit config endpoints wires order).defaults[index]? = some endpoint.default := by
  rcases List.getElem?_eq_some_iff.mp found with ⟨bound, rfl⟩
  have owned : (ownedValues endpoints)[index]? =
      some endpoints.prototype.inputs[index].default := by
    rw [ownedValues, List.append_assoc, List.getElem?_append_left (by simpa using bound)]
    simp [bound]
  rcases List.getElem?_eq_some_iff.mp owned with ⟨ownedBound, same⟩
  rw [← Array.getElem?_toList, List.prefix_iff_getElem?.mp defaults_extend index ownedBound,
    same]

end

/-- In an assembled circuit values flow forward. -/
theorem circuit_flowsForward {config : Config} {endpoints : Endpoints} {wires : List Wire}
    {order : List Nat} (complete : endpoints.layouts.length = endpoints.prototype.nodes.length)
    (isOrder : Schedule.IsOrder (wires.filterMap Wire.edge?) endpoints.prototype.nodes.length
      order) :
    (circuit config endpoints wires order).FlowsForward where
  order_perm := by
    rw [circuit_size complete]
    exact isOrder.perm
  outputs_nodup index := by
    unfold Circuit.outputsAt
    split
    next placement found => exact outputSlots_nodup (placement_eq_some found).2
    next => exact List.nodup_nil
  outputs_apart first second different slot firstMember secondMember := by
    rcases mem_outputsAt firstMember with ⟨_, firstLocated, firstMember⟩
    rcases mem_outputsAt secondMember with ⟨_, secondLocated, secondMember⟩
    exact different (outputSlots_owner firstLocated secondLocated firstMember secondMember)
  outputs_bounded index slot member := by
    have grown : _ ≤ (circuit config endpoints wires order).defaults.size := defaults_size
    rcases mem_outputsAt member with ⟨_, located, member⟩
    rw [ownedValues_length] at grown
    exact Nat.lt_of_lt_of_le (outputSlots_bounds located member).2 grown
  forward := by
    apply isOrder.respects.imp
    intro earlier later apart feeds
    exact apart (edge_of_feeds feeds)
  notSelf index feeds := by
    have edge := edge_of_feeds feeds
    rcases feeds with ⟨slot, written, -⟩
    rcases mem_outputsAt written with ⟨slots, located, -⟩
    have bound : index < endpoints.prototype.nodes.length := by
      rw [← complete, ← outputSlots_length (firstNodeSlot endpoints.prototype)]
      exact (List.getElem?_eq_some_iff.mp located).1
    have placed : index ∈ order := by
      rw [isOrder.perm.mem_iff, List.mem_range]
      exact bound
    exact isOrder.irreflexive index placed edge

end Assembly

end NodeGraph
