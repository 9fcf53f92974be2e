import Mathlib.Logic.ExistsUnique
import Mathlib.Tactic.ByContra
import NodeGraph.Identifier

namespace NodeGraph

/-! Names that do not collide. A round of the hash loses nothing: from what it leaves and
the byte that was mixed in, what was there before can be told, and so can the byte from
what was there before. Main statement: names that differ in one byte have different hashes,
and what follows two names neither adds a collision nor removes one. -/

namespace NameHash

/-! ## Rounds -/

/-- What undoes the multiplication of a round. -/
def inverse : UInt32 := 899433627

theorem mul_multiplier_inj {left right : UInt32} :
    left * multiplier = right * multiplier ↔ left = right := by
  constructor
  · intro equal
    have undo (word : UInt32) : word * multiplier * inverse = word := by
      have unit : multiplier * inverse = 1 := by decide
      rw [UInt32.mul_assoc, unit, UInt32.mul_one]
    rw [← undo left, equal, undo right]
  · intro equal
    rw [equal]

/-- The lower bits of a byte are not touched when its sign is extended. -/
theorem toUInt8_signExtend (byte : UInt8) : (signExtend byte).toUInt8 = byte := by
  unfold signExtend
  split
  · exact UInt8.toUInt8_toUInt32 byte
  · rw [UInt32.toUInt8_or, UInt8.toUInt8_toUInt32]
    exact UInt8.or_zero

theorem mix_hash_inj {left right : UInt32} (byte : UInt8) :
    mix left byte = mix right byte ↔ left = right := by
  rw [mix, mix, mul_multiplier_inj, UInt32.xor_left_inj]

theorem mix_byte_inj (hash : UInt32) {left right : UInt8} :
    mix hash left = mix hash right ↔ left = right := by
  rw [mix, mix, mul_multiplier_inj, UInt32.xor_right_inj]
  constructor
  · intro equal
    rw [← toUInt8_signExtend left, equal, toUInt8_signExtend]
  · intro equal
    rw [equal]

/-! ## Sequences of bytes -/

theorem foldl_mix_inj {left right : UInt32} (bytes : List UInt8) :
    bytes.foldl mix left = bytes.foldl mix right ↔ left = right := by
  induction bytes generalizing left right with
  | nil => rfl
  | cons byte bytes induction => rw [List.foldl_cons, List.foldl_cons, induction, mix_hash_inj]

theorem ofBytes_append_inj {left right : List UInt8} (ending : List UInt8) :
    ofBytes (left ++ ending) = ofBytes (right ++ ending) ↔ ofBytes left = ofBytes right := by
  simp only [ofBytes, mul_multiplier_inj, List.foldl_append, foldl_mix_inj]

/-- Sequences of the same length that differ at exactly one position. -/
def DifferInOneByte (left right : List UInt8) : Prop :=
  left.length = right.length ∧ ∃! position : Nat, left[position]? ≠ right[position]?

/-- What differs at one position is the same before it and after it. -/
theorem DifferInOneByte.exists_split {left right : List UInt8}
    (differ : DifferInOneByte left right) : ∃ start first second ending,
      left = start ++ first :: ending ∧ right = start ++ second :: ending ∧ first ≠ second := by
  rcases differ with ⟨sameLength, position, different, unique⟩
  induction left generalizing right position with
  | nil =>
      have empty : right = [] := List.length_eq_zero_iff.mp sameLength.symm
      subst empty
      exact absurd rfl different
  | cons first left induction =>
      cases right with
      | nil => cases sameLength
      | cons second right =>
          by_cases same : first = second
          · subst same
            cases position with
            | zero => exact absurd rfl different
            | succ position =>
                have onlyThere : ∀ other, left[other]? ≠ right[other]? → other = position :=
                  fun other apart => Nat.succ.inj (unique (other + 1) apart)
                rcases induction (Nat.succ.inj sameLength) position different onlyThere with
                  ⟨start, leftByte, rightByte, ending, rfl, rfl, apart⟩
                exact ⟨first :: start, leftByte, rightByte, ending, rfl, rfl, apart⟩
          · have here : 0 = position := unique 0 fun equal => same (Option.some.inj equal)
            have restSame : left = right := by
              apply List.ext_getElem?
              intro other
              by_contra apart
              have there := unique (other + 1) apart
              omega
            exact ⟨[], first, second, left, rfl, by rw [restSame]; rfl, same⟩

theorem ofBytes_ne {left right : List UInt8} (differ : DifferInOneByte left right) :
    ofBytes left ≠ ofBytes right := by
  rcases differ.exists_split with ⟨start, first, second, ending, rfl, rfl, apart⟩
  intro collide
  rw [ofBytes, ofBytes, mul_multiplier_inj, List.foldl_append, List.foldl_append, List.foldl_cons,
    List.foldl_cons, foldl_mix_inj, mix_byte_inj] at collide
  exact apart collide

end NameHash

/-! ## Names -/

theorem Identifier.hash_named (name : String) : (named name).hash = nameHash name := rfl

theorem Identifier.hash_hashed (name : String) : (hashed name).hash = nameHash name := rfl

theorem Utf8.bytes_append (left right : String) :
    bytes (left ++ right) = bytes left ++ bytes right := by
  rw [bytes, String.toList_append, encode, List.flatMap_append]
  rfl

/-- Names whose bytes differ at one position have different hashes, and so no identifiers
of theirs are equal. Names that end alike collide exactly if they do without that ending. -/
theorem nameHash_tells_apart :
    (∀ left right : String, NameHash.DifferInOneByte (Utf8.bytes left) (Utf8.bytes right) →
      nameHash left ≠ nameHash right ∧
        ∀ first second : Identifier, first.hash = nameHash left → second.hash = nameHash right →
          (first == second) = false) ∧
    ∀ left right ending : String,
      nameHash (left ++ ending) = nameHash (right ++ ending) ↔ nameHash left = nameHash right := by
  constructor
  · intro left right differ
    have apart : nameHash left ≠ nameHash right := NameHash.ofBytes_ne differ
    refine ⟨apart, fun first second ofLeft ofRight => ?_⟩
    rw [← ofLeft, ← ofRight] at apart
    rwa [← Bool.not_eq_true, Identifier.beq_iff]
  · intro left right ending
    rw [nameHash, nameHash, Utf8.bytes_append, Utf8.bytes_append, NameHash.ofBytes_append_inj]
    rfl

/-- The accents differ in the last of their two bytes. -/
theorem accents_tell_apart :
    NameHash.DifferInOneByte (Utf8.bytes "Clé") (Utf8.bytes "Clè") ∧
      nameHash "Clé" ≠ nameHash "Clè" ∧
      (Identifier.named "Clé" == Identifier.hashed "Clè") = false := by
  have acute : Utf8.bytes "Clé" = [67, 108, 0xC3, 0xA9] := by decide
  have grave : Utf8.bytes "Clè" = [67, 108, 0xC3, 0xA8] := by decide
  have differ : NameHash.DifferInOneByte (Utf8.bytes "Clé") (Utf8.bytes "Clè") := by
    rw [acute, grave]
    refine ⟨rfl, 3, by decide, fun position different => ?_⟩
    match position with
    | 0 | 1 | 2 | _ + 4 => exact absurd rfl different
    | 3 => rfl
  rcases nameHash_tells_apart.1 _ _ differ with ⟨apart, unequal⟩
  exact ⟨differ, apart, unequal _ _ (Identifier.hash_named _) (Identifier.hash_hashed _)⟩

end NodeGraph
