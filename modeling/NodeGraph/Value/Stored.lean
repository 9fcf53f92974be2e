import NodeGraph.Bytes
import NodeGraph.Value

namespace NodeGraph.Value

/-! The byte form of values: the tag of the kind in four bytes, then the
payload. -/

/-! ## Writing -/

def bytesOfBinary32 (number : Binary32) : List UInt8 :=
  Bytes.word 4 number.bits.toNat

def bytesOfBinary64 (number : Binary64) : List UInt8 :=
  Bytes.word 8 number.bits.toNat

mutual
/-- The tag and the payload of a value. -/
def toBytes (value : Value) : List UInt8 :=
  match value with
  | .void => Bytes.word 4 0
  | .bool flag => Bytes.word 4 1 ++ Bytes.flag flag
  | .int32 number => Bytes.word 4 2 ++ Bytes.word 4 number.toUInt32.toNat
  | .int64 number => Bytes.word 4 3 ++ Bytes.word 8 number.toUInt64.toNat
  | .float32 number => Bytes.word 4 4 ++ bytesOfBinary32 number
  | .float64 number => Bytes.word 4 5 ++ bytesOfBinary64 number
  | .vec2 x y => Bytes.word 4 6 ++ bytesOfBinary32 x ++ bytesOfBinary32 y
  | .vec3 x y z => Bytes.word 4 7 ++ bytesOfBinary32 x ++ bytesOfBinary32 y ++ bytesOfBinary32 z
  | .vec4 x y z w =>
      Bytes.word 4 8 ++ bytesOfBinary32 x ++ bytesOfBinary32 y ++ bytesOfBinary32 z ++
        bytesOfBinary32 w
  | .string text => Bytes.word 4 9 ++ Bytes.text text
  | .array items => Bytes.word 4 10 ++ Bytes.word 8 items.length ++ itemBytes items
  | .object className members =>
      Bytes.word 4 11 ++ Bytes.text className ++ Bytes.word 8 members.length ++
        memberBytes members

def itemBytes : List Value → List UInt8
  | [] => []
  | item :: items => item.toBytes ++ itemBytes items

def memberBytes : List (String × Value) → List UInt8
  | [] => []
  | (name, value) :: members => Bytes.text name ++ value.toBytes ++ memberBytes members
end

example : (Value.array [.bool true]).toBytes =
    [10, 0, 0, 0, 1, 0, 0, 0, 0, 0, 0, 0, 1, 0, 0, 0, 1] := by decide

/-! ## Reading -/

def readBinary32 : Reader Binary32 := do
  pure ⟨UInt32.ofNat (← Reader.word 4)⟩

def readBinary64 : Reader Binary64 := do
  pure ⟨UInt64.ofNat (← Reader.word 8)⟩

/-- A member of an object: its name, then its value, which `inner` reads. -/
def memberReader (inner : Reader Value) : Reader (String × Value) := do
  let name ← Reader.text
  let value ← inner
  pure (name, value)

/-- What follows a tag. Values inside the value are read by `inner`. -/
def payloadReader (inner : Reader Value) : (tag : Nat) → Reader Value
  | 0 => pure .void
  | 1 => do pure (.bool (← Reader.flag))
  | 2 => do pure (.int32 (UInt32.ofNat (← Reader.word 4)).toInt32)
  | 3 => do pure (.int64 (UInt64.ofNat (← Reader.word 8)).toInt64)
  | 4 => do pure (.float32 (← readBinary32))
  | 5 => do pure (.float64 (← readBinary64))
  | 6 => do pure (.vec2 (← readBinary32) (← readBinary32))
  | 7 => do pure (.vec3 (← readBinary32) (← readBinary32) (← readBinary32))
  | 8 => do
      pure (.vec4 (← readBinary32) (← readBinary32) (← readBinary32) (← readBinary32))
  | 9 => do pure (.string (← Reader.text))
  | 10 => do pure (.array (← Reader.list inner))
  | 11 => do pure (.object (← Reader.text) (← Reader.list (memberReader inner)))
  | tag => Reader.fail (.invalidValueTag tag)

/-- A value. Its level is entered before the tag is read, so a value that is too
deep is refused whatever its bytes are. The recursion is over `levels`, of which
there are always as many as the thread may still enter. -/
def reader : (levels : Nat) → Reader Value
  | 0 => Reader.nested (Reader.fail .nestingTooDeep)
  | levels + 1 => Reader.nested do
      let tag ← Reader.word 4
      payloadReader (reader levels) tag

/-- The value at the front of stored bytes. -/
def ofBytes (bytes : List UInt8) : Except DecodeError Value :=
  (reader maxNestingDepth).read bytes

example : ofBytes [1, 0, 0, 0, 1, 99] = .ok (.bool true) := rfl

example : ofBytes [1, 0, 0, 0, 2] = .error (.invalidFlag 2) := rfl

example : (reader 1).read [10, 0, 0, 0, 1, 0, 0, 0, 0, 0, 0, 0] = .error .nestingTooDeep :=
  rfl

end NodeGraph.Value
