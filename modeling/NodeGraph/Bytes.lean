import NodeGraph.Text.Utf8

namespace NodeGraph

/-! The byte form of stored data: fixed-width words with the least significant
byte first, texts and lists preceded by their length in eight bytes. Writing is
a function to bytes; reading takes bytes off the front of its input and leaves
the rest, so stored data may be followed by anything. -/

/-- Why bytes could not be read. -/
inductive DecodeError where
  /-- The input ends inside a word. -/
  | endOfInput
  /-- The input ends before a text of the announced length. -/
  | endOfText
  | invalidFlag (byte : UInt8)
  | invalidValueTag (tag : Nat)
  | invalidPresence (byte : UInt8)
  | invalidText (fault : Utf8.Fault)
  | invalidConnectionKind (tag : UInt8)
  /-- Arrays, objects and subroutines inside each other past the limit. -/
  | nestingTooDeep
  deriving DecidableEq, Repr

/-- Levels of arrays, objects and subroutines that stored data may have. -/
def maxNestingDepth : Nat := 64

def DecodeError.message : DecodeError → String
  | .endOfInput => "io error: unexpected end of file"
  | .endOfText => "io error: "
  | .invalidFlag byte =>
      "invalid u8 while decoding bool, expected 0 or 1, found " ++ toString byte.toNat
  | .invalidValueTag tag =>
      "invalid value: integer `" ++ toString tag ++ "`, expected variant index 0 <= i < 12"
  | .invalidPresence byte => "tag for enum is not valid, found " ++ toString byte.toNat
  | .invalidText fault => "string is not valid utf8: " ++ fault.message
  | .invalidConnectionKind tag => "invalid connection kind tag " ++ toString tag.toNat
  | .nestingTooDeep => "nesting deeper than " ++ toString maxNestingDepth ++ " levels"

def DecodeError.malformedMessage (error : DecodeError) : String :=
  "malformed serialized data: " ++ error.message

/-! ## Writing -/

namespace Bytes

/-- The `width` low bytes of `n`, least significant first. -/
def word : (width : Nat) → (n : Nat) → List UInt8
  | 0, _ => []
  | width + 1, n => UInt8.ofNat n :: word width (n / 256)

example : word 4 0x0102 = [2, 1, 0, 0] := by decide

def flag (value : Bool) : List UInt8 :=
  [if value then 1 else 0]

def text (value : String) : List UInt8 :=
  word 8 (Utf8.bytes value).length ++ Utf8.bytes value

def list (item : α → List UInt8) (items : List α) : List UInt8 :=
  word 8 items.length ++ items.flatMap item

end Bytes

/-! ## Reading

What is read may lie inside itself, as arrays lie in arrays and subroutines in
subroutines. A thread counts the levels that it has entered and not yet left,
and refuses to enter more than `maxNestingDepth`. -/

/-- What a reader leaves: what it read and the input behind that, or why it
could not, and the levels that the thread is in. -/
structure Reading (α : Type) where
  outcome : Except DecodeError (α × List UInt8)
  nesting : Nat

/-- A reader takes what it reads off the front of its input, on a thread that is
in `nesting` levels. -/
def Reader (α : Type) : Type :=
  (nesting : Nat) → List UInt8 → Reading α

namespace Reader

@[inline] def run (reader : Reader α) (nesting : Nat) (input : List UInt8) : Reading α :=
  reader nesting input

/-- What the front of the input holds, whatever follows it. -/
def read (reader : Reader α) (input : List UInt8) : Except DecodeError α :=
  (reader.run 0 input).outcome.map Prod.fst

def fail (error : DecodeError) : Reader α :=
  fun nesting _ => ⟨.error error, nesting⟩

@[inline] protected def pure (value : α) : Reader α :=
  fun nesting input => ⟨.ok (value, input), nesting⟩

@[inline] protected def bind (reader : Reader α) (next : α → Reader β) : Reader β :=
  fun nesting input =>
    match reader nesting input with
    | ⟨.ok (value, rest), after⟩ => next value after rest
    | ⟨.error error, after⟩ => ⟨.error error, after⟩

@[always_inline] instance : Monad Reader where
  pure := Reader.pure
  bind := Reader.bind

@[simp] theorem run_pure (value : α) (nesting : Nat) (input : List UInt8) :
    (pure value : Reader α).run nesting input = ⟨.ok (value, input), nesting⟩ := rfl

@[simp] theorem run_fail (error : DecodeError) (nesting : Nat) (input : List UInt8) :
    (fail error : Reader α).run nesting input = ⟨.error error, nesting⟩ := rfl

theorem run_bind (reader : Reader α) (next : α → Reader β) (nesting : Nat)
    (input : List UInt8) :
    (reader >>= next).run nesting input =
      match reader.run nesting input with
      | ⟨.ok (value, rest), after⟩ => (next value).run after rest
      | ⟨.error error, after⟩ => ⟨.error error, after⟩ := rfl

/-- Reads one level further in, unless the thread is in too many. The level is
left again however the reading ends. -/
def nested (reader : Reader α) : Reader α := fun nesting input =>
  if maxNestingDepth ≤ nesting then
    ⟨.error .nestingTooDeep, nesting⟩
  else
    let reading := reader (nesting + 1) input
    { reading with nesting := reading.nesting - 1 }

/-- The next byte, or `short` if there is none. -/
@[inline] def byte (short : DecodeError) : Reader UInt8
  | nesting, [] => ⟨.error short, nesting⟩
  | nesting, first :: rest => ⟨.ok (first, rest), nesting⟩

/-- Puts the next `count` bytes in front of `taken`, the latest first. -/
def bytesOnto (short : DecodeError) : (count : Nat) → (taken : List UInt8) → Reader (List UInt8)
  | 0, taken => pure taken.reverse
  | count + 1, taken => do
      let next ← byte short
      bytesOnto short count (next :: taken)

def bytes (short : DecodeError) (count : Nat) : Reader (List UInt8) :=
  bytesOnto short count []

/-- A word of `width` bytes, least significant byte first. -/
def word : (width : Nat) → Reader Nat
  | 0 => pure 0
  | width + 1 => do
      let low ← byte .endOfInput
      let high ← word width
      pure (low.toNat + 256 * high)

example : (word 2).read [2, 1, 9] = .ok 258 := rfl

example : (word 2).read [2] = .error .endOfInput := rfl

/-- A byte that is one or zero; `wrong` says what is wrong with any other. -/
def truth (wrong : UInt8 → DecodeError) : Reader Bool := do
  match ← byte .endOfInput with
  | 0 => pure false
  | 1 => pure true
  | other => fail (wrong other)

def flag : Reader Bool :=
  truth .invalidFlag

def presence : Reader Bool :=
  truth .invalidPresence

def text : Reader String := do
  let length ← word 8
  let spelled ← bytes .endOfText length
  match Utf8.decode spelled with
  | .ok characters => pure (String.ofList characters)
  | .error fault => fail (.invalidText fault)

/-- Reads `count` more items after those in `taken`, the latest first. -/
def itemsOnto (item : Reader α) : (count : Nat) → (taken : List α) → Reader (List α)
  | 0, taken => pure taken.reverse
  | count + 1, taken => do
      let next ← item
      itemsOnto item count (next :: taken)

def list (item : Reader α) : Reader (List α) := do
  let length ← word 8
  itemsOnto item length []

/-- A length prefix larger than the input is noticed when the input ends. -/
example : (list flag).read [255, 255, 255, 255, 255, 255, 255, 255, 1, 0] =
    .error .endOfInput := rfl

end Reader

end NodeGraph
