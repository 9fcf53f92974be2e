import NodeGraph.Text.Hex
import NodeGraph.Text.Quoted
import NodeGraph.Text.Utf8

namespace NodeGraph

/-! Names of node types, plugs and events. A name is looked up by a 32-bit hash
of its UTF-8 bytes; the text itself is kept only to be shown. -/

abbrev NodeId := UInt64

/-- The node id that stands for the graph itself: a connection that ends on the
graph's own boundary, or on a local variable, carries it. -/
def graphNodeId : NodeId := 0

namespace NameHash

/-! FNV-1a over sign-extended bytes, closed by one round for a zero byte. -/

def multiplier : UInt32 := 16777619

def seed : UInt32 := 2166136261

/-- A byte as a 32-bit word whose upper bits repeat the byte's top bit. -/
def signExtend (byte : UInt8) : UInt32 :=
  if byte < 0x80 then byte.toUInt32 else byte.toUInt32 ||| 0xffffff00

/-- One round: mix a byte in, then multiply. -/
def mix (hash : UInt32) (byte : UInt8) : UInt32 :=
  (hash ^^^ signExtend byte) * multiplier

def ofBytes (bytes : List UInt8) : UInt32 :=
  bytes.foldl mix seed * multiplier

end NameHash

/-- The hash by which a name is looked up. -/
def nameHash (name : String) : UInt32 :=
  NameHash.ofBytes (Utf8.bytes name)

example : nameHash "" = 0x050c5d1f := by decide

example : nameHash "é" = 0xbf32e7d3 := by decide

/-- A hashed name. `name` is there for diagnostics and is lost when the
identifier is stored as bytes. -/
structure Identifier where
  hash : UInt32
  name : Option String := none
  deriving Repr, Inhabited

namespace Identifier

/-- The identifier of a name, which it remembers. -/
def named (name : String) : Identifier :=
  ⟨nameHash name, some name⟩

def hashed (name : String) : Identifier :=
  ⟨nameHash name, none⟩

def ofHash (hash : UInt32) : Identifier :=
  ⟨hash, none⟩

def unnamed (identifier : Identifier) : Identifier :=
  ofHash identifier.hash

/-- Identifiers are compared by hash alone. -/
instance : BEq Identifier where
  beq left right := left.hash == right.hash

/-- Identifiers are ordered by hash alone. -/
instance : Ord Identifier where
  compare left right := compare left.hash right.hash

theorem beq_iff (left right : Identifier) : (left == right) = true ↔ left.hash = right.hash := by
  simp [BEq.beq]

instance : EquivBEq Identifier where
  rfl {_} := by simp [beq_iff]
  symm {_ _} equal := by
    simp only [beq_iff] at equal ⊢
    exact equal.symm
  trans {_ _ _} first second := by
    simp only [beq_iff] at first second ⊢
    exact first.trans second

@[simp] theorem unnamed_beq (identifier : Identifier) :
    (identifier.unnamed == identifier) = true := by
  simp [beq_iff, unnamed, ofHash]

/-- The hash as it is shown when no name is known. -/
def hashText (identifier : Identifier) : String :=
  Hex.fixed 8 identifier.hash.toNat

def display (identifier : Identifier) : String :=
  identifier.name.getD identifier.hashText

/-- The quoted name, if there is one, and the hash. -/
def inspect (identifier : Identifier) : String :=
  match identifier.name with
  | some name => Quoted.quote name ++ "(" ++ identifier.hashText ++ ")"
  | none => identifier.hashText

example : (named "").inspect = "\"\"(0x050c5d1f)" := by decide

example : (hashed "").display = "0x050c5d1f" := by decide

end Identifier

end NodeGraph
