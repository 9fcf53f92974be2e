import NodeGraph.Proofs.Compile.Ownership

namespace NodeGraph.Assembly

/-! Slots of sinks without a source. Each gets a slot of its own, which holds what
the sink rests at. These slots ascend, so no two sinks share one. -/

theorem getElem?_of_extends {before after : Array Value} (grown : before.toList <+: after.toList)
    {slot : Nat} {value : Value} (held : before[slot]? = some value) :
    after[slot]? = some value := by
  rw [← Array.getElem?_toList] at held ⊢
  rcases List.getElem?_eq_some_iff.mp held with ⟨bound, rfl⟩
  exact List.prefix_iff_getElem?.mp grown slot bound

/-! ## Ascending slots -/

/-- Of slots behind `owned`, an earlier one is smaller. -/
abbrev AscendFrom (owned : Nat) (slots : List Slot) : Prop :=
  slots.Pairwise fun first second => owned ≤ first → owned ≤ second → first < second

theorem AscendFrom.inj {owned first second slot : Nat} {slots : List Slot}
    (ascend : AscendFrom owned slots) (found : slots[first]? = some slot)
    (otherFound : slots[second]? = some slot) (behind : owned ≤ slot) : first = second := by
  rcases List.getElem?_eq_some_iff.mp found with ⟨bound, equal⟩
  rcases List.getElem?_eq_some_iff.mp otherFound with ⟨otherBound, otherEqual⟩
  have apart := List.pairwise_iff_getElem.mp ascend
  rcases Nat.lt_trichotomy first second with before | same | after
  · have smaller := apart first second bound otherBound before
    rw [equal, otherEqual] at smaller
    exact absurd (smaller behind behind) (Nat.lt_irrefl _)
  · exact same
  · have smaller := apart second first otherBound bound after
    rw [equal, otherEqual] at smaller
    exact absurd (smaller behind behind) (Nat.lt_irrefl _)

/-! ## Single slots -/

theorem slotOrNew_value {source? : Option Slot} {value : Value} {values : Array Value}
    (unwired : source? = none) :
    (slotOrNew source? value values).values[(slotOrNew source? value values).slots]? =
      some value := by
  simp [slotOrNew, unwired]

theorem AscendFrom.rows_inj {owned firstRow secondRow first second slot : Nat}
    {rows : List (List Slot)} {slots otherSlots : List Slot}
    (ascend : AscendFrom owned rows.flatten)
    (row : rows[firstRow]? = some slots) (otherRow : rows[secondRow]? = some otherSlots)
    (found : slots[first]? = some slot) (otherFound : otherSlots[second]? = some slot)
    (behind : owned ≤ slot) : firstRow = secondRow ∧ first = second := by
  rcases List.pairwise_flatten.mp ascend with ⟨within, between⟩
  have apart := List.pairwise_iff_getElem.mp between
  rcases List.getElem?_eq_some_iff.mp row with ⟨bound, equal⟩
  rcases List.getElem?_eq_some_iff.mp otherRow with ⟨otherBound, otherEqual⟩
  have member := List.mem_of_getElem? found
  have otherMember := List.mem_of_getElem? otherFound
  rcases Nat.lt_trichotomy firstRow secondRow with before | same | after
  · have smaller := apart firstRow secondRow bound otherBound before slot (equal ▸ member)
      slot (otherEqual ▸ otherMember)
    exact absurd (smaller behind behind) (Nat.lt_irrefl _)
  · subst same
    rw [row, Option.some.injEq] at otherRow
    subst otherRow
    exact ⟨rfl, AscendFrom.inj (within slots (List.mem_of_getElem? row)) found otherFound behind⟩
  · have smaller := apart secondRow firstRow otherBound bound after slot (otherEqual ▸ otherMember)
      slot (equal ▸ member)
    exact absurd (smaller behind behind) (Nat.lt_irrefl _)

/-! ## The plugs of a node -/

@[simp] theorem plugSlots_length (source? : Nat → Option Slot) (overrides : List Endpoint)
    (plug : Nat) (plugs : List Endpoint) (values : Array Value) :
    (plugSlots source? overrides plug plugs values).slots.length = plugs.length := by
  induction plugs generalizing plug values with
  | nil => rfl
  | cons endpoint plugs induction => simp [plugSlots, induction]

theorem plugSlots_value {source? : Nat → Option Slot} {overrides : List Endpoint}
    {plug input slot : Nat} {plugs : List Endpoint} {values : Array Value} {endpoint : Endpoint}
    (listed : plugs[input]? = some endpoint) (unwired : source? (plug + input) = none)
    (found : (plugSlots source? overrides plug plugs values).slots[input]? = some slot) :
    (plugSlots source? overrides plug plugs values).values[slot]? =
      some (restingValue overrides endpoint) := by
  induction plugs generalizing plug input values with
  | nil => simp at listed
  | cons first plugs induction =>
      cases input with
      | zero =>
          cases listed
          simp only [plugSlots, List.getElem?_cons_zero, Option.some.injEq] at found
          subst found
          exact getElem?_of_extends (plugSlots_extends _ _ (plug + 1) plugs _)
            (slotOrNew_value unwired)
      | succ input =>
          simp only [plugSlots, List.getElem?_cons_succ] at found listed
          rw [Nat.add_comm input, ← Nat.add_assoc] at unwired
          exact induction listed unwired found

theorem plugSlots_ascend {source? : Nat → Option Slot} {overrides : List Endpoint}
    {owned plug : Nat} {plugs : List Endpoint} {values : Array Value}
    (sources : ∀ input slot, source? input = some slot → slot < owned)
    (behind : owned ≤ values.size) :
    AscendFrom owned (plugSlots source? overrides plug plugs values).slots := by
  induction plugs generalizing plug values with
  | nil => exact .nil
  | cons endpoint plugs induction =>
      refine List.pairwise_cons.mpr
        ⟨fun second member _ isNew => ?_, induction (behind.trans (slotOrNew_size _ _ _))⟩
      rcases List.mem_iff_getElem?.mp member with ⟨input, found⟩
      rcases plugSlots_slot found with wired | ⟨-, later⟩
      · exact absurd isNew (Nat.not_le.mpr (sources _ _ wired))
      · refine Nat.lt_of_lt_of_le (slotOrNew_bounded fun slot wired => ?_) later
        exact Nat.lt_of_lt_of_le (sources _ _ wired) behind

/-! ## The plugs of all nodes -/

theorem nodeSlots_width {source? : ValueSink → Option Slot} {node index : Nat}
    {nodes : List (PrototypeNode × Layout)} {values : Array Value} {placed : PrototypeNode}
    {layout : Layout} {slots : List Slot} (listed : nodes[index]? = some (placed, layout))
    (found : (nodeSlots source? node nodes values).slots[index]? = some slots) :
    slots.length = layout.inputs.length := by
  induction nodes generalizing node index values with
  | nil => simp at listed
  | cons first nodes induction =>
      cases index with
      | zero =>
          cases listed
          simp only [nodeSlots, List.getElem?_cons_zero, Option.some.injEq] at found
          subst found
          simp
      | succ index =>
          simp only [nodeSlots, List.getElem?_cons_succ] at found listed
          exact induction listed found

theorem nodeSlots_value {source? : ValueSink → Option Slot} {node index input slot : Nat}
    {nodes : List (PrototypeNode × Layout)} {values : Array Value} {placed : PrototypeNode}
    {layout : Layout} {endpoint : Endpoint} {slots : List Slot}
    (listed : nodes[index]? = some (placed, layout))
    (declared : layout.inputs[input]? = some endpoint)
    (unwired : source? (.nodeInput (node + index) input) = none)
    (found : (nodeSlots source? node nodes values).slots[index]? = some slots)
    (read : slots[input]? = some slot) :
    (nodeSlots source? node nodes values).values[slot]? =
      some (restingValue placed.overrides endpoint) := by
  induction nodes generalizing node index values with
  | nil => simp at listed
  | cons first nodes induction =>
      cases index with
      | zero =>
          cases listed
          simp only [nodeSlots, List.getElem?_cons_zero, Option.some.injEq] at found
          subst found
          exact getElem?_of_extends (nodeSlots_extends _ (node + 1) nodes _)
            (plugSlots_value declared (by simpa using unwired) read)
      | succ index =>
          simp only [nodeSlots, List.getElem?_cons_succ] at found listed
          rw [Nat.add_comm index, ← Nat.add_assoc] at unwired
          exact induction listed unwired found

theorem nodeSlots_ascend {source? : ValueSink → Option Slot} {owned node : Nat}
    {nodes : List (PrototypeNode × Layout)} {values : Array Value}
    (sources : ∀ sink slot, source? sink = some slot → slot < owned)
    (behind : owned ≤ values.size) :
    AscendFrom owned (nodeSlots source? node nodes values).slots.flatten := by
  induction nodes generalizing node values with
  | nil => exact .nil
  | cons placed nodes induction =>
      refine List.pairwise_append.mpr ⟨plugSlots_ascend (fun _ => sources _) behind,
        induction (behind.trans (plugSlots_size _ _ _ _ _)), ?_⟩
      intro first firstMember second secondMember _ isNew
      rcases List.mem_flatten.mp secondMember with ⟨slots, listed, read⟩
      rcases List.mem_iff_getElem?.mp listed with ⟨index, found⟩
      rcases List.mem_iff_getElem?.mp read with ⟨input, readAt⟩
      rcases nodeSlots_slot found readAt with wired | ⟨-, later⟩
      · exact absurd isNew (Nat.not_le.mpr (sources _ _ wired))
      · refine Nat.lt_of_lt_of_le (plugSlots_bounded (fun _ slot wired => ?_) firstMember) later
        exact Nat.lt_of_lt_of_le (sources _ _ wired) behind

/-! ## The outputs of the graph -/

theorem shownSlots_value {source? : ValueSink → Option Slot} {position : Nat}
    {outputs : List Endpoint} {values : Array Value} {endpoint : Endpoint}
    {entry : Identifier × Slot} (listed : outputs[position]? = some endpoint)
    (unwired : source? (.graphOutput endpoint.id) = none)
    (found : (shownSlots source? outputs values).slots[position]? = some entry) :
    (shownSlots source? outputs values).values[entry.2]? = some endpoint.default := by
  induction outputs generalizing position values with
  | nil => simp at listed
  | cons first outputs induction =>
      cases position with
      | zero =>
          cases listed
          simp only [shownSlots, List.getElem?_cons_zero, Option.some.injEq] at found
          subst found
          exact getElem?_of_extends (shownSlots_extends _ outputs _) (slotOrNew_value unwired)
      | succ position =>
          simp only [shownSlots, List.getElem?_cons_succ] at found listed
          exact induction listed found

theorem shownSlots_ascend {source? : ValueSink → Option Slot} {owned : Nat}
    {outputs : List Endpoint} {values : Array Value}
    (sources : ∀ sink slot, source? sink = some slot → slot < owned)
    (behind : owned ≤ values.size) :
    AscendFrom owned ((shownSlots source? outputs values).slots.map Prod.snd) := by
  induction outputs generalizing values with
  | nil => exact .nil
  | cons endpoint outputs induction =>
      refine List.pairwise_cons.mpr
        ⟨fun second member _ isNew => ?_, induction (behind.trans (slotOrNew_size _ _ _))⟩
      rcases List.mem_map.mp member with ⟨entry, listed, rfl⟩
      rcases shownSlots_slot listed with wired | ⟨-, later⟩
      · exact absurd isNew (Nat.not_le.mpr (sources _ _ wired))
      · refine Nat.lt_of_lt_of_le (slotOrNew_bounded fun slot wired => ?_) later
        exact Nat.lt_of_lt_of_le (sources _ _ wired) behind

end NodeGraph.Assembly
