import NodeGraph.Bytes
import NodeGraph.Identifier

namespace NodeGraph

/-! Wires between the endpoints of a graph. The kind of a wire says what it
carries, a value or events, and on which side it leaves the graph's nodes for
the graph's own boundary. -/

/-- What one side of a wire refers to. -/
inductive Scope where
  | node
  /-- An input or output of the graph. -/
  | graph
  | localVariable
  deriving DecidableEq, Repr

/-- What a wire carries and between which scopes. -/
inductive ConnectionKind where
  | nodeValueToNode
  | nodeEventToNode
  | graphValueToNode
  | graphValueToGraph
  | graphEventToNode
  | nodeValueToGraph
  | nodeEventToGraph
  | graphEventToGraph
  | localValueToNode
  deriving DecidableEq, Repr

namespace ConnectionKind

/-- Every kind, in the order of the tags. -/
def all : List ConnectionKind :=
  [.nodeValueToNode, .nodeEventToNode, .graphValueToNode, .graphValueToGraph, .graphEventToNode,
    .nodeValueToGraph, .nodeEventToGraph, .graphEventToGraph, .localValueToNode]

/-- The byte that stands for a kind in stored data. The tag 3 is not used. -/
def tag : ConnectionKind → UInt8
  | .nodeValueToNode => 0
  | .nodeEventToNode => 1
  | .graphValueToNode => 2
  | .graphValueToGraph => 4
  | .graphEventToNode => 5
  | .nodeValueToGraph => 6
  | .nodeEventToGraph => 7
  | .graphEventToGraph => 8
  | .localValueToNode => 9

def ofTag? (tag : UInt8) : Option ConnectionKind :=
  all.find? fun kind => kind.tag == tag

theorem ofTag?_tag (kind : ConnectionKind) : ofTag? kind.tag = some kind := by
  cases kind <;> rfl

/-- The kind of a tag in the numbering of sound graphs, which has no wires from
the graph straight to the graph. -/
def ofSoundTag? (tag : UInt8) : Option ConnectionKind :=
  match tag with
  | 0 => some .nodeValueToNode
  | 1 => some .nodeEventToNode
  | 2 => some .graphValueToNode
  | 3 => some .graphEventToNode
  | 4 => some .nodeValueToGraph
  | 5 => some .nodeEventToGraph
  | 6 => some .localValueToNode
  | _ => none

def sourceScope : ConnectionKind → Scope
  | .nodeValueToNode | .nodeEventToNode | .nodeValueToGraph | .nodeEventToGraph => .node
  | .graphValueToNode | .graphValueToGraph | .graphEventToNode | .graphEventToGraph => .graph
  | .localValueToNode => .localVariable

def destinationScope : ConnectionKind → Scope
  | .nodeValueToNode | .nodeEventToNode | .graphValueToNode | .graphEventToNode
  | .localValueToNode => .node
  | .graphValueToGraph | .nodeValueToGraph | .nodeEventToGraph | .graphEventToGraph => .graph

/-- Whether a wire of this kind carries events and not a value. -/
def isEvent : ConnectionKind → Bool
  | .nodeEventToNode | .graphEventToNode | .nodeEventToGraph | .graphEventToGraph => true
  | .nodeValueToNode | .graphValueToNode | .graphValueToGraph | .nodeValueToGraph
  | .localValueToNode => false

def name : ConnectionKind → String
  | .nodeValueToNode => "NodeValue_NodeValue"
  | .nodeEventToNode => "NodeEvent_NodeEvent"
  | .graphValueToNode => "GraphValue_NodeValue"
  | .graphValueToGraph => "GraphValue_GraphValue"
  | .graphEventToNode => "GraphEvent_NodeEvent"
  | .nodeValueToGraph => "NodeValue_GraphValue"
  | .nodeEventToGraph => "NodeEvent_GraphEvent"
  | .graphEventToGraph => "GraphEvent_GraphEvent"
  | .localValueToNode => "LocalVariable_NodeValue"

end ConnectionKind

/-- One end of a wire: an endpoint of a node, or of the graph itself if `node`
is `graphNodeId`. -/
structure Terminus where
  node : NodeId
  endpoint : Identifier
  deriving BEq, Repr, Inhabited

/-- A wire from its source to its destination. -/
structure Connection where
  source : Terminus
  destination : Terminus
  kind : ConnectionKind
  deriving BEq, Repr

/-! ## Byte form -/

namespace Identifier

/-- Only the hash is stored. -/
def toBytes (identifier : Identifier) : List UInt8 :=
  Bytes.word 4 identifier.hash.toNat

def reader : Reader Identifier := do
  pure (ofHash (UInt32.ofNat (← Reader.word 4)))

end Identifier

namespace ConnectionKind

def toBytes (kind : ConnectionKind) : List UInt8 :=
  [kind.tag]

def reader : Reader ConnectionKind := do
  let tag ← Reader.byte .endOfInput
  match ofTag? tag with
  | some kind => pure kind
  | none => Reader.fail (.invalidConnectionKind tag)

end ConnectionKind

namespace Terminus

def toBytes (terminus : Terminus) : List UInt8 :=
  Bytes.word 8 terminus.node.toNat ++ terminus.endpoint.toBytes

def reader : Reader Terminus := do
  let node ← Reader.word 8
  let endpoint ← Identifier.reader
  pure ⟨UInt64.ofNat node, endpoint⟩

end Terminus

namespace Connection

def toBytes (connection : Connection) : List UInt8 :=
  connection.source.toBytes ++ connection.destination.toBytes ++ connection.kind.toBytes

def reader : Reader Connection := do
  let source ← Terminus.reader
  let destination ← Terminus.reader
  let kind ← ConnectionKind.reader
  pure ⟨source, destination, kind⟩

end Connection

end NodeGraph
