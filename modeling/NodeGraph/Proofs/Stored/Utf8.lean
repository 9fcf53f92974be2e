import NodeGraph.Text.Utf8

namespace NodeGraph.Utf8

/-! Decoding is the inverse of encoding: a byte sequence is decoded exactly if it
spells characters, and into just those. -/

/-! ## The bytes of a character -/

theorem encodeChar_ofNat {code : Nat} (valid : code.isValidChar) :
    String.utf8EncodeChar (Char.ofNat code) =
      if code ≤ 0x7F then [UInt8.ofNat code]
      else if code ≤ 0x7FF then
        [UInt8.ofNat (code / 64 % 0x20 + 0xC0), UInt8.ofNat (code % 0x40 + 0x80)]
      else if code ≤ 0xFFFF then
        [UInt8.ofNat (code / 4096 % 0x10 + 0xE0), UInt8.ofNat (code / 64 % 0x40 + 0x80),
          UInt8.ofNat (code % 0x40 + 0x80)]
      else
        [UInt8.ofNat (code / 262144 % 0x08 + 0xF0), UInt8.ofNat (code / 4096 % 0x40 + 0x80),
          UInt8.ofNat (code / 64 % 0x40 + 0x80), UInt8.ofNat (code % 0x40 + 0x80)] := by
  have same : (Char.ofNat code).val.toNat = code := by
    rw [Char.ofNat, dif_pos valid]
    rfl
  simp only [String.utf8EncodeChar, same]

/-! ## Lead bytes -/

namespace Lead

variable {byte : UInt8}

theorem ofByte_one (high : byte.toNat ≤ 0x7F) :
    ofByte byte = .whole (Char.ofNat byte.toNat) := by
  rw [ofByte, if_pos (UInt8.le_iff_toNat_le.mpr high)]

theorem ofByte_two (low : 0xC2 ≤ byte.toNat) (high : byte.toNat ≤ 0xDF) :
    ofByte byte = .longer ⟨1, 0x80, 0xBF, byte.toNat - 0xC0, 1⟩ := by
  simp only [ofByte, UInt8.le_iff_toNat_le, UInt8.lt_iff_toNat_lt]
  rw [if_neg (by simp; omega), if_neg (by simp; omega), if_pos (by simp; omega)]

theorem ofByte_three (low : 0xE0 ≤ byte.toNat) (high : byte.toNat ≤ 0xEF) :
    ofByte byte = .longer ⟨2, if byte.toNat = 0xE0 then 0xA0 else 0x80,
      if byte.toNat = 0xED then 0x9F else 0xBF, byte.toNat - 0xE0, 1⟩ := by
  simp only [ofByte, UInt8.le_iff_toNat_le, UInt8.lt_iff_toNat_lt, ← UInt8.toNat_inj]
  rw [if_neg (by simp; omega), if_neg (by simp; omega), if_neg (by simp; omega)]
  by_cases overlong : byte.toNat = 0xE0
  · simp [overlong]
  · by_cases surrogate : byte.toNat = 0xED
    · simp [surrogate]
    · simp [overlong, surrogate, high]

theorem ofByte_four (low : 0xF0 ≤ byte.toNat) (high : byte.toNat ≤ 0xF4) :
    ofByte byte = .longer ⟨3, if byte.toNat = 0xF0 then 0x90 else 0x80,
      if byte.toNat = 0xF4 then 0x8F else 0xBF, byte.toNat - 0xF0, 1⟩ := by
  simp only [ofByte, UInt8.le_iff_toNat_le, UInt8.lt_iff_toNat_lt, ← UInt8.toNat_inj]
  rw [if_neg (by simp; omega), if_neg (by simp; omega), if_neg (by simp; omega),
    if_neg (by simp; omega), if_neg (by simp; omega), if_neg (by simp; omega)]
  by_cases overlong : byte.toNat = 0xF0
  · simp [overlong]
  · by_cases last : byte.toNat = 0xF4
    · simp [last]
    · have within : byte.toNat ≤ 0xF3 := by omega
      simp [overlong, last, within]

theorem ofByte_unusable (low : 0x80 ≤ byte.toNat)
    (outside : byte.toNat < 0xC2 ∨ 0xF4 < byte.toNat) : ofByte byte = .unusable := by
  simp only [ofByte, UInt8.le_iff_toNat_le, UInt8.lt_iff_toNat_lt, ← UInt8.toNat_inj]
  rw [if_neg (by simp; omega)]
  by_cases early : byte.toNat < 0xC2
  · simp [early]
  · rw [if_neg (by simp; omega), if_neg (by simp; omega), if_neg (by simp; omega),
      if_neg (by simp; omega), if_neg (by simp; omega), if_neg (by simp; omega),
      if_neg (by simp; omega), if_neg (by simp; omega)]

end Lead

/-! ## Single characters -/

theorem decodeFrom_last (low high : UInt8) {byte : UInt8} {code length : Nat}
    (inside : low.toNat ≤ byte.toNat ∧ byte.toNat ≤ high.toNat) (decoded : List Char)
    (offset : Nat) (rest : List UInt8) :
    decodeFrom decoded offset (some ⟨1, low, high, code, length⟩) (byte :: rest) =
      decodeFrom (Char.ofNat (code * 64 + (byte.toNat - 0x80)) :: decoded)
        (offset + (length + 1)) none rest := by
  rw [decodeFrom, if_pos (by simpa only [UInt8.le_iff_toNat_le] using inside)]
  rfl

theorem decodeFrom_more (low high : UInt8) {owed : Nat} {byte : UInt8} {code length : Nat}
    (inside : low.toNat ≤ byte.toNat ∧ byte.toNat ≤ high.toNat) (decoded : List Char)
    (offset : Nat) (rest : List UInt8) :
    decodeFrom decoded offset (some ⟨owed + 2, low, high, code, length⟩) (byte :: rest) =
      decodeFrom decoded offset
        (some ⟨owed + 1, 0x80, 0xBF, code * 64 + (byte.toNat - 0x80), length + 1⟩) rest := by
  rw [decodeFrom, if_pos (by simpa only [UInt8.le_iff_toNat_le] using inside)]
  rfl

/-- A byte with a number added to a mark. -/
theorem ofNat_eq_of_toNat (byte : UInt8) {code : Nat} (same : code = byte.toNat) :
    UInt8.ofNat code = byte := by
  rw [same, UInt8.ofNat_toNat]

/-- The bytes are a character, and decoding takes them for it. -/
structure Spells (spelled : List UInt8) (code : Nat) : Prop where
  valid : code.isValidChar
  encoded : String.utf8EncodeChar (Char.ofNat code) = spelled
  decoded : ∀ decoded offset rest, ∃ later,
    decodeFrom decoded offset none (spelled ++ rest) =
      decodeFrom (Char.ofNat code :: decoded) later none rest

variable {first second third fourth : UInt8}

theorem spells_one (high : first.toNat ≤ 0x7F) : Spells [first] first.toNat where
  valid := .inl (by omega)
  encoded := by
    rw [encodeChar_ofNat (.inl (by omega)), if_pos high, UInt8.ofNat_toNat]
  decoded decoded offset rest := by
    refine ⟨offset + 1, ?_⟩
    rw [List.cons_append, decodeFrom, Lead.ofByte_one high]
    rfl

theorem spells_two (low : 0xC2 ≤ first.toNat) (high : first.toNat ≤ 0xDF)
    (secondLow : 0x80 ≤ second.toNat) (secondHigh : second.toNat ≤ 0xBF) :
    Spells [first, second] ((first.toNat - 0xC0) * 64 + (second.toNat - 0x80)) where
  valid := .inl (by omega)
  encoded := by
    rw [encodeChar_ofNat (.inl (by omega)), if_neg (by omega), if_pos (by omega),
      ofNat_eq_of_toNat first (by omega), ofNat_eq_of_toNat second (by omega)]
  decoded decoded offset rest := by
    refine ⟨offset + 2, ?_⟩
    rw [List.cons_append, decodeFrom, Lead.ofByte_two low high]
    exact decodeFrom_last 0x80 0xBF ⟨secondLow, secondHigh⟩ decoded offset rest

/-- The bounds on a second byte as numbers. -/
theorem toNat_ite {condition : Prop} [Decidable condition] (yes no : UInt8) :
    (if condition then yes else no).toNat = if condition then yes.toNat else no.toNat := by
  split <;> rfl

theorem spells_three (low : 0xE0 ≤ first.toNat) (high : first.toNat ≤ 0xEF)
    (secondLow : (if first.toNat = 0xE0 then 0xA0 else 0x80) ≤ second.toNat)
    (secondHigh : second.toNat ≤ if first.toNat = 0xED then 0x9F else 0xBF)
    (thirdLow : 0x80 ≤ third.toNat) (thirdHigh : third.toNat ≤ 0xBF) :
    Spells [first, second, third]
      (((first.toNat - 0xE0) * 64 + (second.toNat - 0x80)) * 64 + (third.toNat - 0x80)) := by
  have inside : 0x80 ≤ second.toNat ∧ second.toNat ≤ 0xBF := by
    split at secondLow <;> split at secondHigh <;> omega
  have valid : (((first.toNat - 0xE0) * 64 + (second.toNat - 0x80)) * 64 +
      (third.toNat - 0x80)).isValidChar := by
    unfold Nat.isValidChar
    split at secondHigh <;> omega
  have large : 0x7FF < ((first.toNat - 0xE0) * 64 + (second.toNat - 0x80)) * 64 +
      (third.toNat - 0x80) := by
    split at secondLow <;> omega
  constructor
  · exact valid
  · rw [encodeChar_ofNat valid, if_neg (by omega), if_neg (by omega), if_pos (by omega),
      ofNat_eq_of_toNat first (by omega), ofNat_eq_of_toNat second (by omega),
      ofNat_eq_of_toNat third (by omega)]
  · intro decoded offset rest
    refine ⟨offset + 3, ?_⟩
    rw [List.cons_append, decodeFrom, Lead.ofByte_three low high]
    refine (decodeFrom_more _ _ ?_ decoded offset (third :: rest)).trans
      (decodeFrom_last 0x80 0xBF ⟨thirdLow, thirdHigh⟩ decoded offset rest)
    simp only [toNat_ite]
    exact ⟨secondLow, secondHigh⟩

theorem spells_four (low : 0xF0 ≤ first.toNat) (high : first.toNat ≤ 0xF4)
    (secondLow : (if first.toNat = 0xF0 then 0x90 else 0x80) ≤ second.toNat)
    (secondHigh : second.toNat ≤ if first.toNat = 0xF4 then 0x8F else 0xBF)
    (thirdLow : 0x80 ≤ third.toNat) (thirdHigh : third.toNat ≤ 0xBF)
    (fourthLow : 0x80 ≤ fourth.toNat) (fourthHigh : fourth.toNat ≤ 0xBF) :
    Spells [first, second, third, fourth]
      ((((first.toNat - 0xF0) * 64 + (second.toNat - 0x80)) * 64 + (third.toNat - 0x80)) * 64 +
        (fourth.toNat - 0x80)) := by
  have inside : 0x80 ≤ second.toNat ∧ second.toNat ≤ 0xBF := by
    split at secondLow <;> split at secondHigh <;> omega
  have large : 0x10000 ≤ (((first.toNat - 0xF0) * 64 + (second.toNat - 0x80)) * 64 +
      (third.toNat - 0x80)) * 64 + (fourth.toNat - 0x80) := by
    split at secondLow <;> omega
  have small : (((first.toNat - 0xF0) * 64 + (second.toNat - 0x80)) * 64 +
      (third.toNat - 0x80)) * 64 + (fourth.toNat - 0x80) < 0x110000 := by
    split at secondHigh <;> omega
  have valid : ((((first.toNat - 0xF0) * 64 + (second.toNat - 0x80)) * 64 +
      (third.toNat - 0x80)) * 64 + (fourth.toNat - 0x80)).isValidChar := .inr (by omega)
  constructor
  · exact valid
  · rw [encodeChar_ofNat valid, if_neg (by omega), if_neg (by omega), if_neg (by omega),
      ofNat_eq_of_toNat first (by omega), ofNat_eq_of_toNat second (by omega),
      ofNat_eq_of_toNat third (by omega), ofNat_eq_of_toNat fourth (by omega)]
  · intro decoded offset rest
    refine ⟨offset + 4, ?_⟩
    rw [List.cons_append, decodeFrom, Lead.ofByte_four low high]
    refine (decodeFrom_more _ _ ?_ decoded offset (third :: fourth :: rest)).trans
      ((decodeFrom_more 0x80 0xBF ⟨thirdLow, thirdHigh⟩ decoded offset (fourth :: rest)).trans
        (decodeFrom_last 0x80 0xBF ⟨fourthLow, fourthHigh⟩ decoded offset rest))
    simp only [toNat_ite]
    exact ⟨secondLow, secondHigh⟩

theorem exists_byte {number : Nat} (small : number < 256) :
    ∃ byte : UInt8, byte.toNat = number :=
  ⟨UInt8.ofNat number, by rw [UInt8.toNat_ofNat', Nat.mod_eq_of_lt small]⟩

/-- Every character has a spelling. -/
theorem exists_spells {code : Nat} (valid : code.isValidChar) :
    ∃ spelled, Spells spelled code := by
  unfold Nat.isValidChar at valid
  rcases @exists_byte (code % 64 + 0x80) (by omega) with ⟨last, lastIs⟩
  rcases @exists_byte (code / 64 % 64 + 0x80) (by omega) with ⟨middle, middleIs⟩
  by_cases one : code ≤ 0x7F
  · rcases @exists_byte code (by omega) with ⟨first, rfl⟩
    exact ⟨_, spells_one one⟩
  by_cases two : code ≤ 0x7FF
  · rcases @exists_byte (code / 64 + 0xC0) (by omega) with ⟨first, firstIs⟩
    have spells : Spells [first, last] _ :=
      spells_two (by omega) (by omega) (by omega) (by omega)
    have same : (first.toNat - 0xC0) * 64 + (last.toNat - 0x80) = code := by omega
    rw [same] at spells
    exact ⟨_, spells⟩
  by_cases three : code ≤ 0xFFFF
  · rcases @exists_byte (code / 4096 + 0xE0) (by omega) with ⟨first, firstIs⟩
    have spells : Spells [first, middle, last] _ :=
      spells_three (by omega) (by omega) (by split <;> omega) (by split <;> omega) (by omega)
        (by omega)
    have same : ((first.toNat - 0xE0) * 64 + (middle.toNat - 0x80)) * 64 +
        (last.toNat - 0x80) = code := by omega
    rw [same] at spells
    exact ⟨_, spells⟩
  · rcases @exists_byte (code / 262144 + 0xF0) (by omega) with ⟨first, firstIs⟩
    rcases @exists_byte (code / 4096 % 64 + 0x80) (by omega) with ⟨second, secondIs⟩
    have spells : Spells [first, second, middle, last] _ :=
      spells_four (by omega) (by omega) (by split <;> omega) (by split <;> omega) (by omega)
        (by omega) (by omega) (by omega)
    have same : (((first.toNat - 0xF0) * 64 + (second.toNat - 0x80)) * 64 +
        (middle.toNat - 0x80)) * 64 + (last.toNat - 0x80) = code := by omega
    rw [same] at spells
    exact ⟨_, spells⟩

theorem spells_encodeChar (character : Char) :
    Spells (String.utf8EncodeChar character) character.toNat := by
  rcases exists_spells character.valid with ⟨spelled, spells⟩
  have encoded := spells.encoded
  have same : Char.ofNat character.val.toNat = character := Char.ofNat_toNat character
  rw [same] at encoded
  rw [encoded]
  exact spells

/-! ## Whole texts -/

theorem decodeFrom_encode (characters decoded : List Char) (offset : Nat) :
    decodeFrom decoded offset none (encode characters) = .ok (decoded.reverse ++ characters) := by
  induction characters generalizing decoded offset with
  | nil => simp [encode, decodeFrom]
  | cons character characters induction =>
      rcases (spells_encodeChar character).decoded decoded offset (encode characters) with
        ⟨later, next⟩
      rw [Char.ofNat_toNat] at next
      have split : encode (character :: characters) =
          String.utf8EncodeChar character ++ encode characters := by simp [encode]
      rw [split, next, induction]
      simp

theorem decodeFrom_some_eq_ok {owed code length offset : Nat} {low high : UInt8}
    {decoded characters : List Char} {input : List UInt8}
    (decodes : decodeFrom decoded offset (some ⟨owed, low, high, code, length⟩) input =
      .ok characters) :
    ∃ byte rest, input = byte :: rest ∧ low.toNat ≤ byte.toNat ∧ byte.toNat ≤ high.toNat := by
  cases input with
  | nil => cases decodes
  | cons byte rest =>
      rw [decodeFrom] at decodes
      split at decodes
      next inside =>
        simp only [UInt8.le_iff_toNat_le] at inside
        exact ⟨byte, rest, rfl, inside⟩
      next => cases decodes

/-- What is decoded starts with the spelling of a character. -/
theorem exists_spells_of_decodeFrom {first : UInt8} {decoded characters : List Char}
    {offset : Nat} {input : List UInt8}
    (decodes : decodeFrom decoded offset none (first :: input) = .ok characters) :
    ∃ spelled code rest, Spells spelled code ∧ first :: input = spelled ++ rest := by
  by_cases one : first.toNat ≤ 0x7F
  · exact ⟨_, _, input, spells_one one, rfl⟩
  by_cases outside : first.toNat < 0xC2 ∨ 0xF4 < first.toNat
  · rw [decodeFrom, Lead.ofByte_unusable (by omega) outside] at decodes
    cases decodes
  by_cases two : first.toNat ≤ 0xDF
  · rw [decodeFrom, Lead.ofByte_two (by omega) two] at decodes
    rcases decodeFrom_some_eq_ok decodes with ⟨second, rest, rfl, secondLow, secondHigh⟩
    exact ⟨_, _, rest, spells_two (by omega) two secondLow secondHigh, rfl⟩
  by_cases three : first.toNat ≤ 0xEF
  · rw [decodeFrom, Lead.ofByte_three (by omega) three] at decodes
    rcases decodeFrom_some_eq_ok decodes with ⟨second, rest, rfl, secondLow, secondHigh⟩
    have continues := (decodeFrom_more _ _ ⟨secondLow, secondHigh⟩ decoded offset rest).symm.trans
      decodes
    rcases decodeFrom_some_eq_ok continues with ⟨third, rest, rfl, thirdLow, thirdHigh⟩
    simp only [toNat_ite] at secondLow secondHigh
    exact ⟨_, _, rest, spells_three (by omega) three secondLow secondHigh thirdLow thirdHigh, rfl⟩
  · rw [decodeFrom, Lead.ofByte_four (by omega) (by omega)] at decodes
    rcases decodeFrom_some_eq_ok decodes with ⟨second, rest, rfl, secondLow, secondHigh⟩
    have continues := (decodeFrom_more _ _ ⟨secondLow, secondHigh⟩ decoded offset rest).symm.trans
      decodes
    rcases decodeFrom_some_eq_ok continues with ⟨third, rest, rfl, thirdLow, thirdHigh⟩
    have ends := (decodeFrom_more _ _ ⟨thirdLow, thirdHigh⟩ decoded offset rest).symm.trans
      continues
    rcases decodeFrom_some_eq_ok ends with ⟨fourth, rest, rfl, fourthLow, fourthHigh⟩
    simp only [toNat_ite] at secondLow secondHigh
    exact ⟨_, _, rest, spells_four (by omega) (by omega) secondLow secondHigh thirdLow thirdHigh
      fourthLow fourthHigh, rfl⟩

theorem Spells.length_pos {spelled : List UInt8} {code : Nat} (spells : Spells spelled code) :
    0 < spelled.length := by
  rw [← spells.encoded, String.length_utf8EncodeChar]
  exact Char.utf8Size_pos _

theorem encode_of_decodeFrom {decoded characters : List Char} {offset : Nat}
    {input : List UInt8} (decodes : decodeFrom decoded offset none input = .ok characters) :
    ∃ tail, characters = decoded.reverse ++ tail ∧ encode tail = input := by
  induction size : input.length using Nat.strongRecOn generalizing input decoded offset with
  | ind length induction =>
      cases input with
      | nil =>
          rw [decodeFrom, Except.ok.injEq] at decodes
          exact ⟨[], by simp [decodes], rfl⟩
      | cons first input =>
          rcases exists_spells_of_decodeFrom decodes with ⟨spelled, code, rest, spells, equal⟩
          rcases spells.decoded decoded offset rest with ⟨later, next⟩
          rw [equal, next] at decodes
          have shorter : rest.length < length := by
            have positive := spells.length_pos
            rw [← size, equal, List.length_append]
            omega
          rcases induction rest.length shorter decodes rfl with ⟨tail, rfl, encoded⟩
          refine ⟨Char.ofNat code :: tail, by simp, ?_⟩
          rw [equal, ← spells.encoded, ← encoded]
          simp [encode]

/-- A byte sequence is decoded into the characters that it spells. -/
theorem decode_eq_ok_iff {input : List UInt8} {characters : List Char} :
    decode input = .ok characters ↔ encode characters = input := by
  constructor
  · intro decodes
    rcases encode_of_decodeFrom decodes with ⟨tail, rfl, encoded⟩
    exact encoded
  · intro written
    subst written
    exact decodeFrom_encode characters [] 0

end NodeGraph.Utf8
