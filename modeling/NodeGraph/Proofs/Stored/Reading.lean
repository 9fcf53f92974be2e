import Mathlib.Algebra.Group.Nat.Defs
import NodeGraph.Bytes
import NodeGraph.Proofs.Stored.Utf8

namespace NodeGraph

/-! What readers take off their input. A reader takes a value exactly if the
input starts with what writing the value gives; and whatever a reader does, it
leaves the levels that it has entered. -/

namespace Reader

/-- In some levels, the reader takes a value off the input and leaves the
rest. -/
def Takes (reader : Reader α) (nesting : Nat) (input : List UInt8) (value : α)
    (rest : List UInt8) : Prop :=
  (reader.run nesting input).outcome = .ok (value, rest)

/-- However it ends, the reader leaves the thread in the levels in which it
found it. -/
def Balanced (reader : Reader α) : Prop :=
  ∀ nesting input, (reader.run nesting input).nesting = nesting

variable {reader : Reader α} {nesting : Nat} {input rest : List UInt8}

theorem read_eq_ok_iff {value : α} :
    reader.read input = .ok value ↔ ∃ rest, reader.Takes 0 input value rest := by
  unfold read Takes
  cases (reader.run 0 input).outcome with
  | error error => simp [Except.map]
  | ok taken => simp [Except.map, Prod.ext_iff]

/-! ## Steps -/

@[simp] theorem balanced_pure (value : α) : (pure value : Reader α).Balanced :=
  fun _ _ => rfl

@[simp] theorem balanced_fail (error : DecodeError) : (fail error : Reader α).Balanced :=
  fun _ _ => rfl

theorem Balanced.bind {next : α → Reader β} (first : reader.Balanced)
    (second : ∀ value, (next value).Balanced) : (reader >>= next).Balanced := by
  intro nesting input
  rw [run_bind]
  have after := first nesting input
  split
  next value rest left same =>
    rw [same] at after
    exact (second value left rest).trans after
  next error left same =>
    rw [same] at after
    exact after

theorem Balanced.nested (inner : reader.Balanced) : reader.nested.Balanced := by
  intro nesting input
  by_cases full : maxNestingDepth ≤ nesting
  · simp only [Reader.nested, run, if_pos full]
  · simp only [Reader.nested, run, if_neg full]
    have after := inner (nesting + 1) input
    rw [run] at after
    rw [after, Nat.add_sub_cancel]

@[simp] theorem takes_pure {value other : α} :
    (pure value : Reader α).Takes nesting input other rest ↔ other = value ∧ input = rest := by
  simp [Takes, eq_comm]

@[simp] theorem takes_fail {error : DecodeError} {value : α} :
    ¬ (fail error : Reader α).Takes nesting input value rest := by
  simp [Takes]

theorem takes_bind {next : α → Reader β} {value : β} (balanced : reader.Balanced) :
    (reader >>= next).Takes nesting input value rest ↔
      ∃ first middle, reader.Takes nesting input first middle ∧
        (next first).Takes nesting middle value rest := by
  unfold Takes
  rw [run_bind]
  have after := balanced nesting input
  split
  next first middle left same =>
    rw [same] at after
    have after : left = nesting := after
    subst after
    simp only [same, Except.ok.injEq, Prod.mk.injEq]
    exact ⟨fun taken => ⟨first, middle, ⟨rfl, rfl⟩, taken⟩,
      fun ⟨_, _, ⟨sameFirst, sameMiddle⟩, taken⟩ => by rwa [sameFirst, sameMiddle]⟩
  next error left same => simp [same]

theorem takes_nested {value : α} :
    reader.nested.Takes nesting input value rest ↔
      nesting < maxNestingDepth ∧ reader.Takes (nesting + 1) input value rest := by
  unfold Takes nested run
  by_cases full : maxNestingDepth ≤ nesting
  · simp [full, Nat.not_lt.mpr full]
  · simp [full, Nat.lt_of_not_le full]

/-! ## Bytes and words -/

@[simp] theorem balanced_byte (short : DecodeError) : (byte short).Balanced := by
  intro nesting input
  cases input <;> rfl

@[simp] theorem takes_byte {short : DecodeError} {value : UInt8} :
    (byte short).Takes nesting input value rest ↔ input = value :: rest := by
  cases input with
  | nil => simp [Takes, run, byte]
  | cons first others => simp [Takes, run, byte]

theorem balanced_bytesOnto (short : DecodeError) (count : Nat) (taken : List UInt8) :
    (bytesOnto short count taken).Balanced := by
  induction count generalizing taken with
  | zero => exact balanced_pure _
  | succ count induction => exact (balanced_byte short).bind fun _ => induction _

@[simp] theorem balanced_bytes (short : DecodeError) (count : Nat) :
    (bytes short count).Balanced :=
  balanced_bytesOnto short count []

theorem takes_bytesOnto {short : DecodeError} {count : Nat} {taken value : List UInt8} :
    (bytesOnto short count taken).Takes nesting input value rest ↔
      ∃ next, next.length = count ∧ value = taken.reverse ++ next ∧ input = next ++ rest := by
  induction count generalizing taken input with
  | zero => simp [bytesOnto]
  | succ count induction =>
      simp only [bytesOnto, takes_bind (balanced_byte short), takes_byte, induction]
      constructor
      · intro taken
        rcases taken with ⟨first, _, rfl, next, length, rfl, rfl⟩
        exact ⟨first :: next, by simp [length], by simp, rfl⟩
      · intro taken
        rcases taken with ⟨next, length, rfl, rfl⟩
        cases next with
        | nil => cases length
        | cons first next =>
            exact ⟨first, next ++ rest, rfl, next, by simpa using length, by simp, rfl⟩

@[simp] theorem takes_bytes {short : DecodeError} {count : Nat} {value : List UInt8} :
    (bytes short count).Takes nesting input value rest ↔
      value.length = count ∧ input = value ++ rest := by
  rw [bytes, takes_bytesOnto]
  constructor
  · intro taken
    rcases taken with ⟨next, length, rfl, rfl⟩
    exact ⟨length, rfl⟩
  · intro written
    rcases written with ⟨length, rfl⟩
    exact ⟨value, length, rfl, rfl⟩

@[simp] theorem balanced_word (width : Nat) : (word width).Balanced := by
  induction width with
  | zero => exact balanced_pure 0
  | succ width induction =>
      exact (balanced_byte _).bind fun _ => induction.bind fun _ => balanced_pure _

@[simp] theorem takes_word {width value : Nat} :
    (word width).Takes nesting input value rest ↔
      value < 256 ^ width ∧ input = Bytes.word width value ++ rest := by
  induction width generalizing input rest value with
  | zero => simp [word, Bytes.word]
  | succ width induction =>
      simp only [word, takes_bind (balanced_byte _), takes_byte, takes_bind (balanced_word width),
        induction, takes_pure, Bytes.word]
      constructor
      · intro taken
        rcases taken with ⟨low, _, rfl, high, _, ⟨bound, rfl⟩, rfl, rfl⟩
        have small := low.toNat_lt
        have quotient : (low.toNat + 256 * high) / 256 = high := by omega
        have byte : UInt8.ofNat (low.toNat + 256 * high) = low := by
          rw [← UInt8.toNat_inj, UInt8.toNat_ofNat']
          omega
        rw [quotient, byte, Nat.pow_succ]
        exact ⟨by omega, rfl⟩
      · intro written
        rcases written with ⟨bound, rfl⟩
        rw [Nat.pow_succ] at bound
        refine ⟨_, _, rfl, value / 256, rest, ⟨by omega, rfl⟩, ?_, rfl⟩
        rw [UInt8.toNat_ofNat']
        omega

/-! ## Flags -/

@[simp] theorem balanced_truth (wrong : UInt8 → DecodeError) : (truth wrong).Balanced := by
  apply (balanced_byte _).bind
  intro first
  split
  · exact balanced_pure _
  · exact balanced_pure _
  · exact balanced_fail _

@[simp] theorem takes_truth {wrong : UInt8 → DecodeError} {value : Bool} :
    (truth wrong).Takes nesting input value rest ↔ input = Bytes.flag value ++ rest := by
  simp only [truth, takes_bind (balanced_byte _), takes_byte]
  constructor
  · intro taken
    rcases taken with ⟨first, middle, rfl, taken⟩
    split at taken
    · simp only [takes_pure] at taken
      simp [Bytes.flag, taken]
    · simp only [takes_pure] at taken
      simp [Bytes.flag, taken]
    · exact absurd taken takes_fail
  · intro written
    subst written
    cases value <;> exact ⟨_, rest, rfl, takes_pure.mpr ⟨rfl, rfl⟩⟩

/-! ## Texts -/

@[simp] theorem balanced_text : text.Balanced := by
  apply (balanced_word 8).bind
  intro length
  apply (balanced_bytes _ _).bind
  intro spelled
  split
  · exact balanced_pure _
  · exact balanced_fail _

@[simp] theorem takes_text {value : String} :
    text.Takes nesting input value rest ↔
      (Utf8.bytes value).length < 2 ^ 64 ∧ input = Bytes.text value ++ rest := by
  simp only [text, takes_bind (balanced_word 8), takes_bind (balanced_bytes _ _), takes_word,
    takes_bytes]
  constructor
  · intro taken
    rcases taken with ⟨length, _, ⟨bound, rfl⟩, spelled, _, ⟨rfl, rfl⟩, taken⟩
    split at taken
    next characters decoded =>
      rcases takes_pure.mp taken with ⟨rfl, rfl⟩
      have spells : Utf8.bytes (String.ofList characters) = spelled := by
        rw [Utf8.bytes, String.toList_ofList]
        exact Utf8.decode_eq_ok_iff.mp decoded
      rw [Bytes.text, spells, List.append_assoc]
      exact ⟨bound, rfl⟩
    next => exact absurd taken takes_fail
  · intro written
    rcases written with ⟨bound, rfl⟩
    refine ⟨_, _, ⟨bound, by rw [Bytes.text, List.append_assoc]⟩, _, _, ⟨rfl, rfl⟩, ?_⟩
    have decoded : Utf8.decode (Utf8.bytes value) = .ok value.toList :=
      Utf8.decode_eq_ok_iff.mpr rfl
    rw [decoded]
    exact takes_pure.mpr ⟨String.ofList_toList.symm, rfl⟩

/-! ## Lists -/

section
variable {item : Reader α} {write : α → List UInt8} {fits : α → Prop}

theorem balanced_itemsOnto (balanced : item.Balanced) (count : Nat) (taken : List α) :
    (itemsOnto item count taken).Balanced := by
  induction count generalizing taken with
  | zero => exact balanced_pure _
  | succ count induction => exact balanced.bind fun _ => induction _

theorem Balanced.list (balanced : item.Balanced) : (list item).Balanced :=
  (balanced_word 8).bind fun count => balanced_itemsOnto balanced count []

theorem takes_itemsOnto (balanced : item.Balanced)
    (takes : ∀ input value rest, item.Takes nesting input value rest ↔
      fits value ∧ input = write value ++ rest)
    {count : Nat} {taken value : List α} :
    (itemsOnto item count taken).Takes nesting input value rest ↔
      ∃ next, next.length = count ∧ value = taken.reverse ++ next ∧
        (∀ entry ∈ next, fits entry) ∧ input = next.flatMap write ++ rest := by
  induction count generalizing taken input with
  | zero => simp [itemsOnto]
  | succ count induction =>
      simp only [itemsOnto, takes_bind balanced, takes, induction]
      constructor
      · intro taken
        rcases taken with ⟨first, _, ⟨fit, rfl⟩, next, length, rfl, allFit, rfl⟩
        refine ⟨first :: next, by simp [length], by simp, ?_, by simp⟩
        exact List.forall_mem_cons.mpr ⟨fit, allFit⟩
      · intro taken
        rcases taken with ⟨next, length, rfl, allFit, rfl⟩
        cases next with
        | nil => cases length
        | cons first next =>
            rcases List.forall_mem_cons.mp allFit with ⟨fit, allFit⟩
            exact ⟨first, next.flatMap write ++ rest, ⟨fit, by simp⟩, next,
              by simpa using length, by simp, allFit, rfl⟩

/-- A list is taken if its length fits into the prefix and its items are
taken. -/
theorem takes_list (balanced : item.Balanced)
    (takes : ∀ input value rest, item.Takes nesting input value rest ↔
      fits value ∧ input = write value ++ rest)
    {value : List α} :
    (list item).Takes nesting input value rest ↔
      (value.length < 2 ^ 64 ∧ ∀ entry ∈ value, fits entry) ∧
        input = Bytes.list write value ++ rest := by
  simp only [list, takes_bind (balanced_word 8), takes_word, takes_itemsOnto balanced takes]
  constructor
  · intro taken
    rcases taken with ⟨length, _, ⟨bound, rfl⟩, next, rfl, rfl, allFit, rfl⟩
    exact ⟨⟨bound, allFit⟩, by simp [Bytes.list]⟩
  · intro written
    rcases written with ⟨⟨bound, allFit⟩, rfl⟩
    exact ⟨_, _, ⟨bound, by rw [Bytes.list, List.append_assoc]⟩, value, rfl, rfl, allFit, rfl⟩

end

end Reader

end NodeGraph
