namespace NodeGraph.Utf8

/-! UTF-8 as written in the byte form of texts: an encoder, and a decoder that
says where and how a byte sequence stops being UTF-8. The decoder looks at one
byte at a time, so a fault is found at the first byte that rules the text out. -/

/-- The UTF-8 bytes of a character sequence. -/
def encode (characters : List Char) : List UInt8 :=
  characters.flatMap String.utf8EncodeChar

def bytes (text : String) : List UInt8 :=
  encode text.toList

example : bytes "aé" = [0x61, 0xC3, 0xA9] := by decide

/-- How a byte sequence fails to be UTF-8. Both faults say how many bytes before
them are well formed. -/
inductive Fault where
  /-- `length` bytes starting at `offset` can begin no character. -/
  | invalid (length offset : Nat)
  /-- The bytes end inside the character that starts at `offset`. -/
  | incomplete (offset : Nat)
  deriving DecidableEq, Repr

def Fault.message : Fault → String
  | .invalid length offset =>
      "invalid utf-8 sequence of " ++ toString length ++ " bytes from index " ++ toString offset
  | .incomplete offset => "incomplete utf-8 byte sequence from index " ++ toString offset

/-- A character of which `length` bytes have been read and `owed` are still to
come. The next byte must lie between `low` and `high`; `code` holds the bits
read so far. -/
structure Unfinished where
  owed : Nat
  low : UInt8
  high : UInt8
  code : Nat
  length : Nat
  deriving DecidableEq, Repr

/-- What a lead byte begins. The bounds on the second byte exclude overlong
forms, surrogates and numbers above the last code point. -/
inductive Lead where
  | whole (character : Char)
  | longer (unfinished : Unfinished)
  | unusable

def Lead.ofByte (byte : UInt8) : Lead :=
  let after (owed : Nat) (low high : UInt8) (mark : Nat) : Lead :=
    .longer ⟨owed, low, high, byte.toNat - mark, 1⟩
  if byte ≤ 0x7F then .whole (Char.ofNat byte.toNat)
  else if byte < 0xC2 then .unusable
  else if byte ≤ 0xDF then after 1 0x80 0xBF 0xC0
  else if byte = 0xE0 then after 2 0xA0 0xBF 0xE0
  else if byte = 0xED then after 2 0x80 0x9F 0xE0
  else if byte ≤ 0xEF then after 2 0x80 0xBF 0xE0
  else if byte = 0xF0 then after 3 0x90 0xBF 0xF0
  else if byte ≤ 0xF3 then after 3 0x80 0xBF 0xF0
  else if byte = 0xF4 then after 3 0x80 0x8F 0xF0
  else .unusable

/-- One more byte of a character already begun. -/
def Unfinished.extend (unfinished : Unfinished) (byte : UInt8) : Unfinished where
  owed := unfinished.owed - 1
  low := 0x80
  high := 0xBF
  code := unfinished.code * 64 + (byte.toNat - 0x80)
  length := unfinished.length + 1

/-- Continues decoding after the characters `decoded` (latest first). `offset`
is where the current character starts, `current` what is known of it. -/
def decodeFrom (decoded : List Char) (offset : Nat) :
    (current : Option Unfinished) → List UInt8 → Except Fault (List Char)
  | none, [] => .ok decoded.reverse
  | some _, [] => .error (.incomplete offset)
  | none, byte :: rest =>
      match Lead.ofByte byte with
      | .whole character => decodeFrom (character :: decoded) (offset + 1) none rest
      | .longer unfinished => decodeFrom decoded offset (some unfinished) rest
      | .unusable => .error (.invalid 1 offset)
  | some unfinished, byte :: rest =>
      if unfinished.low ≤ byte ∧ byte ≤ unfinished.high then
        let extended := unfinished.extend byte
        if extended.owed = 0 then
          decodeFrom (Char.ofNat extended.code :: decoded) (offset + extended.length) none rest
        else
          decodeFrom decoded offset (some extended) rest
      else
        .error (.invalid unfinished.length offset)

/-- The characters a byte sequence spells, or the first fault in it. -/
def decode (input : List UInt8) : Except Fault (List Char) :=
  decodeFrom [] 0 none input

example : decode [0x61, 0xC3, 0xA9] = .ok ['a', 'é'] := rfl

/-- The byte after a lead byte decides between "too short" and "wrong". -/
example : decode [0x61, 0xE2, 0x82] = .error (.incomplete 1) := rfl

example : decode [0x61, 0xE2, 0x82, 0x41] = .error (.invalid 2 1) := rfl

/-- A surrogate is refused at its second byte. -/
example : decode [0xED, 0xA0, 0x80] = .error (.invalid 1 0) := rfl

end NodeGraph.Utf8
