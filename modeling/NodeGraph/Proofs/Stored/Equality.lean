import NodeGraph.Proofs.Stored.Determined

namespace NodeGraph

/-! Equality by bytes. Main statement: values are equal exactly if they are written as
the same bytes, and so are prototypes, also those that are too deep to be read again;
and nothing is written as the front of what something else is written as. -/

/-- Written bytes stand for the items: they tell which items are equal, and where they
end. -/
structure Bytes.StandFor [BEq α] (write : α → List UInt8) (fits : α → Prop) : Prop where
  beq_iff : ∀ left right, fits left → fits right →
    ((left == right) = true ↔ write left = write right)
  /-- The bytes of one item are never a part of those of another one, at their front. -/
  front : ∀ left right, fits left → fits right → write left <+: write right →
    write left = write right
  equivalence : Equivalence fun left right : α => (left == right) = true

namespace Bytes

/-- What bytes determine, they stand for if items are compared by it and writing sees
nothing else. -/
theorem Determine.standFor [BEq α] {write : α → List UInt8} {fits : α → Prop} {look : α → α}
    (determine : Determine write fits look) (unseen : ∀ item, write (look item) = write item)
    (compared : ∀ left right : α, (left == right) = true ↔ look left = look right) :
    StandFor write fits where
  beq_iff left right leftFits rightFits := by
    rw [compared]
    constructor
    · intro same
      rw [← unseen left, same, unseen]
    · intro written
      exact (determine left right [] [] leftFits rightFits (by rw [written])).1
  front left right leftFits rightFits before := by
    rcases before with ⟨rest, written⟩
    have ends := (determine left right rest [] leftFits rightFits (by simpa using written)).2
    rw [← written, ends, List.append_nil]
  equivalence := by
    simp only [compared]
    exact ⟨fun _ => rfl, Eq.symm, Eq.trans⟩

end Bytes

theorem Value.beq_eq_agree (left right : Value) : (left == right) = left.agree right := by
  rw [Bool.eq_iff_iff, beq_iff_eq, agree_iff]

theorem Value.standFor : Bytes.StandFor Value.toBytes Value.Fits :=
  Value.determine.standFor (fun _ => rfl) fun _ _ => beq_iff_eq

theorem Prototype.determine : Bytes.Determine Prototype.toBytes Prototype.Fits unnamed :=
  fun left right rest otherRest leftFits rightFits written =>
    toBytes_determine left right leftFits rightFits rest otherRest written

theorem Prototype.standFor : Bytes.StandFor Prototype.toBytes Prototype.Fits :=
  Prototype.determine.standFor toBytes_unnamed beq_iff_unnamed

/-- Equality is equality of bytes, at any depth: of values, which are compared part by
part, and of prototypes alike. No value and no prototype is written as the front of what
another one is written as. Values of different kinds differ, and floating-point numbers
are equal exactly if all of their bits are. -/
theorem equality_is_of_bytes :
    Bytes.StandFor Value.toBytes Value.Fits ∧
      Bytes.StandFor Prototype.toBytes Prototype.Fits ∧
      (∀ left right : Value, (left == right) = left.agree right) ∧
      (∀ left right : Value, left.kind ≠ right.kind → (left == right) = false) ∧
      (∀ left right : Binary32,
        (Value.float32 left == .float32 right) = true ↔ left.bits = right.bits) ∧
      ∀ left right : Binary64,
        (Value.float64 left == .float64 right) = true ↔ left.bits = right.bits := by
  refine ⟨Value.standFor, Prototype.standFor, Value.beq_eq_agree, ?kinds, ?single, ?double⟩
  case kinds =>
    intro left right different
    rw [beq_eq_false_iff_ne]
    exact fun equal => different (congrArg Value.kind equal)
  case single =>
    intro left right
    cases left
    cases right
    rw [beq_iff_eq, Value.float32.injEq, Binary32.mk.injEq]
  case double =>
    intro left right
    cases left
    cases right
    rw [beq_iff_eq, Value.float64.injEq, Binary64.mk.injEq]

/-- Lists inside each other, so many that they cannot be read again, with a number at
the bottom. -/
def Value.tower (bottom : Binary64) : (height : Nat) → Value
  | 0 => .float64 bottom
  | height + 1 => .array [tower bottom height]

theorem Value.tower_fits (bottom : Binary64) (height : Nat) : (tower bottom height).Fits := by
  induction height with
  | zero => trivial
  | succ height induction => simp [tower, Fits, ItemsFit, induction]

theorem Value.tower_eq_iff (left right : Binary64) (height : Nat) :
    tower left height = tower right height ↔ left = right := by
  induction height with
  | zero => simp [tower]
  | succ height induction => simp [tower, induction]

/-- A prototype with such a tower as the default of an input. -/
def Prototype.towering (name : Identifier) (bottom : Binary64) : Prototype where
  name := "Towering"
  id := 1
  inputs := [⟨name, .tower bottom 100⟩]
  outputs := []
  locals := []
  nodes := []
  connections := []

theorem Prototype.towering_fits (name : Identifier) (bottom : Binary64) :
    (towering name bottom).Fits := by
  simp only [towering, Fits, EndpointsFit, NodesFit, List.forall_mem_singleton,
    List.not_mem_nil, false_imp_iff, implies_true, Value.tower_fits, and_true,
    List.length_singleton, List.length_nil]
  decide

/-- Towers on the two zeros are written as different bytes, and so are prototypes with
them; with a name that only is remembered, a prototype is written as without it. -/
theorem towers_equality_is_of_bytes :
    (Value.tower ⟨0⟩ 100).toBytes ≠ (Value.tower ⟨0x8000000000000000⟩ 100).toBytes ∧
      ¬ (Prototype.towering (.named "In") ⟨0⟩).toBytes <+:
        (Prototype.towering (.named "In") ⟨0x8000000000000000⟩).toBytes ∧
      (Prototype.towering (.named "In") ⟨0x7ff4000000000001⟩).toBytes =
        (Prototype.towering (.hashed "In") ⟨0x7ff4000000000001⟩).toBytes := by
  rcases equality_is_of_bytes with ⟨values, prototypes, -⟩
  have zeros : (⟨0⟩ : Binary64) ≠ ⟨0x8000000000000000⟩ := by decide
  refine ⟨?_, ?_, ?_⟩
  · rw [Ne, ← values.beq_iff _ _ (Value.tower_fits _ _) (Value.tower_fits _ _), beq_iff_eq,
      Value.tower_eq_iff]
    exact zeros
  · intro front
    have written := prototypes.front _ _ (Prototype.towering_fits _ _)
      (Prototype.towering_fits _ _) front
    rw [← prototypes.beq_iff _ _ (Prototype.towering_fits _ _) (Prototype.towering_fits _ _),
      Prototype.beq_iff_unnamed] at written
    simp [Prototype.towering, Prototype.unnamed, Endpoint.unnamed, Value.tower_eq_iff] at written
  · rw [← prototypes.beq_iff _ _ (Prototype.towering_fits _ _) (Prototype.towering_fits _ _),
      Prototype.beq_iff_unnamed]
    rfl

end NodeGraph
