import NodeGraph.Prototype
import NodeGraph.Value.Stored

namespace NodeGraph

/-! The byte form of prototypes. Values and subroutines share one limit on how
deeply they may lie inside each other. -/

namespace Endpoint

def toBytes (endpoint : Endpoint) : List UInt8 :=
  endpoint.id.toBytes ++ endpoint.default.toBytes

def reader (levels : Nat) : Reader Endpoint := do
  let id ← Identifier.reader
  let default ← Value.reader levels
  pure ⟨id, default⟩

end Endpoint

namespace Prototype

/-! ## Writing -/

mutual
/-- Name and id, the three endpoint lists, the nodes, the wires. -/
def toBytes (prototype : Prototype) : List UInt8 :=
  match prototype with
  | ⟨name, id, inputs, outputs, locals, nodes, connections⟩ =>
      Bytes.text name ++ Bytes.word 8 id.toNat ++ Bytes.list Endpoint.toBytes inputs ++
        Bytes.list Endpoint.toBytes outputs ++ Bytes.list Endpoint.toBytes locals ++
        Bytes.word 8 nodes.length ++ nodeBytes nodes ++
        Bytes.list Connection.toBytes connections

/-- Nodes one after the other: type and id, the overrides, the subroutine. -/
def nodeBytes : List PrototypeNode → List UInt8
  | [] => []
  | ⟨type, id, overrides, subroutine⟩ :: nodes =>
      type.toBytes ++ Bytes.word 8 id.toNat ++ Bytes.list Endpoint.toBytes overrides ++
        subroutineBytes subroutine ++ nodeBytes nodes

/-- A presence byte, then the subroutine if there is one. -/
def subroutineBytes : Option Prototype → List UInt8
  | none => Bytes.flag false
  | some subroutine => Bytes.flag true ++ subroutine.toBytes
end

/-! ## Reading -/

def nodeReader (levels : Nat) (subroutine : Reader (Option Prototype)) : Reader PrototypeNode := do
  let type ← Identifier.reader
  let id ← Reader.word 8
  let overrides ← Reader.list (Endpoint.reader levels)
  let subroutine ← subroutine
  pure ⟨type, UInt64.ofNat id, overrides, subroutine⟩

/-- A prototype whose nodes have subroutines read by `subroutine`. -/
def bodyReader (levels : Nat) (subroutine : Reader (Option Prototype)) : Reader Prototype := do
  let name ← Reader.text
  let id ← Reader.word 8
  let inputs ← Reader.list (Endpoint.reader levels)
  let outputs ← Reader.list (Endpoint.reader levels)
  let locals ← Reader.list (Endpoint.reader levels)
  let nodes ← Reader.list (nodeReader levels subroutine)
  let connections ← Reader.list Connection.reader
  pure ⟨name, UInt64.ofNat id, inputs, outputs, locals, nodes, connections⟩

/-- An optional subroutine. Its level is entered before the presence byte is
read, even where there is no subroutine. -/
def subroutineReader : (levels : Nat) → Reader (Option Prototype)
  | 0 => Reader.nested (Reader.fail .nestingTooDeep)
  | levels + 1 => Reader.nested do
      if ← Reader.presence then
        pure (some (← bodyReader levels (subroutineReader levels)))
      else
        pure none

/-- A prototype. The recursion is over `levels`, of which there are always as
many as the thread may still enter. -/
def reader (levels : Nat) : Reader Prototype :=
  bodyReader levels (subroutineReader levels)

/-- The prototype at the front of stored bytes. -/
def ofBytes (bytes : List UInt8) : Except DecodeError Prototype :=
  (reader maxNestingDepth).read bytes

end Prototype

/-! ## Threads

The levels that a thread is in outlast a decoding, so what was decoded earlier
could matter to what is decoded later. -/

inductive Decoding where
  | value (bytes : List UInt8)
  | prototype (bytes : List UInt8)

/-- The levels that a thread is in after a decoding. -/
def Decoding.nestingAfter (nesting : Nat) : Decoding → Nat
  | .value bytes => ((Value.reader maxNestingDepth).run nesting bytes).nesting
  | .prototype bytes => ((Prototype.reader maxNestingDepth).run nesting bytes).nesting

/-- The prototype at the front of stored bytes, on a thread that has decoded
other things before. -/
def Prototype.ofBytesAfter (earlier : List Decoding) (bytes : List UInt8) :
    Except DecodeError Prototype :=
  ((Prototype.reader maxNestingDepth).run (earlier.foldl Decoding.nestingAfter 0)
    bytes).outcome.map Prod.fst

end NodeGraph
