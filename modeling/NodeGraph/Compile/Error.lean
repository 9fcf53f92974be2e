import NodeGraph.Connection
import NodeGraph.Value

namespace NodeGraph

/-! Why a prototype cannot be compiled. Every error names the node, plug or wire
at fault. -/

/-- The first fault found in a prototype. -/
inductive CompileError where
  | unknownType (node : NodeId) (type : Identifier)
  | dangling (terminus : Terminus)
  | duplicateNode (node : NodeId)
  /-- A node has the id that stands for the graph itself. -/
  | reservedNode
  /-- The nodes that lie on cycles of value wires. -/
  | valueCycle (nodes : List NodeId)
  | overrideKind (node : NodeId) (plug : Identifier) (expected found : ValueKind)
  | unknownOverride (node : NodeId) (plug : Identifier)
  | multipleSources (terminus : Terminus)
  /-- A wire of a kind that starts or ends on the graph is on a node there, or
  the other way round. -/
  | boundary (kind : ConnectionKind) (node : NodeId)
  | subroutineTooDeep (node : NodeId) (depth : Nat)
  | inSubroutine (node : NodeId) (cause : CompileError)
  deriving Repr

namespace CompileError

def name : CompileError → String
  | .unknownType .. => "UnknownNodeType"
  | .dangling .. => "DanglingConnectionEndpoint"
  | .duplicateNode .. => "DuplicateNodeId"
  | .reservedNode => "ReservedNodeId"
  | .valueCycle .. => "CyclicValueDependency"
  | .overrideKind .. => "TypeMismatch"
  | .unknownOverride .. => "UnknownOverridePlug"
  | .multipleSources .. => "MultipleValueSources"
  | .boundary .. => "BoundaryTerminus"
  | .subroutineTooDeep .. => "SubroutineTooDeep"
  | .inSubroutine .. => "Subroutine"

private def nodeText (node : NodeId) : String :=
  toString node.toNat

def message : CompileError → String
  | .unknownType node type => "node " ++ nodeText node ++ " has unknown type " ++ type.display
  | .dangling terminus =>
      "connection references missing endpoint " ++ terminus.endpoint.display ++ " on node " ++
        nodeText terminus.node
  | .duplicateNode node => "node id " ++ nodeText node ++ " is used more than once"
  | .reservedNode => "node id 0 is reserved for the graph itself"
  | .valueCycle nodes =>
      "value connections form a cycle through nodes [" ++
        ", ".intercalate (nodes.map nodeText) ++ "]"
  | .overrideKind node plug expected found =>
      "override for " ++ plug.display ++ " on node " ++ nodeText node ++ " is " ++ found.name ++
        ", plug expects " ++ expected.name
  | .unknownOverride node plug =>
      "node " ++ nodeText node ++ " has no input plug " ++ plug.display ++ " to override"
  | .multipleSources terminus =>
      terminus.endpoint.display ++ " on node " ++ nodeText terminus.node ++
        " has more than one incoming value connection"
  | .boundary kind node =>
      kind.name ++ " connection cannot have a terminus on node " ++ nodeText node
  | .subroutineTooDeep node depth =>
      "subroutine of node " ++ nodeText node ++ " is nested " ++ toString depth ++ " levels deep"
  | .inSubroutine node cause =>
      "in subroutine of node " ++ nodeText node ++ ": " ++ cause.message

/-- How many subroutines an error lies inside of. -/
def subroutineDepth : CompileError → Nat
  | .inSubroutine _ cause => cause.subroutineDepth + 1
  | _ => 0

end CompileError

end NodeGraph
