import NodeGraph.Connection
import NodeGraph.Value

namespace NodeGraph

/-! The static description of a graph: what is authored, stored and compared. -/

/-- A named slot on a graph or a node. The type of its default is the type of
the slot. -/
structure Endpoint where
  id : Identifier
  default : Value
  deriving BEq, Inhabited

mutual
/-- One node of a prototype. -/
structure PrototypeNode where
  /-- The type the node is created from, unless it has a subroutine. -/
  type : Identifier
  id : NodeId
  overrides : List Endpoint
  /-- The graph that this node runs, if it is a composite node. -/
  subroutine : Option Prototype

structure Prototype where
  name : String
  id : UInt64
  inputs : List Endpoint
  outputs : List Endpoint
  locals : List Endpoint
  nodes : List PrototypeNode
  connections : List Connection
end

namespace Prototype

/-! ## Equality -/

mutual
/-- Whether two prototypes agree in everything but the names that identifiers
remember. -/
def agree (left right : Prototype) : Bool :=
  match left, right with
  | ⟨leftName, leftId, leftInputs, leftOutputs, leftLocals, leftNodes, leftConnections⟩,
    ⟨rightName, rightId, rightInputs, rightOutputs, rightLocals, rightNodes,
      rightConnections⟩ =>
      leftName == rightName && leftId == rightId && leftInputs == rightInputs &&
        leftOutputs == rightOutputs && leftLocals == rightLocals &&
        agreeNodes leftNodes rightNodes && leftConnections == rightConnections

def agreeNodes : List PrototypeNode → List PrototypeNode → Bool
  | [], [] => true
  | ⟨leftType, leftId, leftOverrides, leftSubroutine⟩ :: lefts,
    ⟨rightType, rightId, rightOverrides, rightSubroutine⟩ :: rights =>
      leftType == rightType && leftId == rightId && leftOverrides == rightOverrides &&
        agreeSubroutines leftSubroutine rightSubroutine && agreeNodes lefts rights
  | _, _ => false

def agreeSubroutines : Option Prototype → Option Prototype → Bool
  | none, none => true
  | some left, some right => left.agree right
  | _, _ => false
end

instance : BEq Prototype := ⟨agree⟩

/-! ## Look-up -/

def node? (prototype : Prototype) (id : NodeId) : Option PrototypeNode :=
  prototype.nodes.find? fun node => node.id == id

def input? (prototype : Prototype) (id : Identifier) : Option Endpoint :=
  prototype.inputs.find? fun input => input.id == id

def output? (prototype : Prototype) (id : Identifier) : Option Endpoint :=
  prototype.outputs.find? fun output => output.id == id

def local? (prototype : Prototype) (id : Identifier) : Option Endpoint :=
  prototype.locals.find? fun slot => slot.id == id

/-- The wires that end on a node, or on the graph itself. -/
def connectionsTo (prototype : Prototype) (node : NodeId) : List Connection :=
  prototype.connections.filter fun connection => connection.destination.node == node

/-- The wires that start on a node, or on the graph itself. -/
def connectionsFrom (prototype : Prototype) (node : NodeId) : List Connection :=
  prototype.connections.filter fun connection => connection.source.node == node

/-! ## Depth -/

def endpointDepth (endpoints : List Endpoint) : Nat :=
  endpoints.foldr (fun endpoint deepest => max endpoint.default.depth deepest) 0

mutual
/-- How many levels of values and subroutines lie inside a prototype. A node
counts one level for its subroutine even if it has none. -/
def depth (prototype : Prototype) : Nat :=
  match prototype with
  | ⟨_, _, inputs, outputs, locals, nodes, _⟩ =>
      max (endpointDepth inputs) (max (endpointDepth outputs)
        (max (endpointDepth locals) (depthOfNodes nodes)))

def depthOfNodes : List PrototypeNode → Nat
  | [] => 0
  | ⟨_, _, overrides, subroutine⟩ :: nodes =>
      max (endpointDepth overrides) (max (1 + depthOfSubroutine subroutine)
        (depthOfNodes nodes))

def depthOfSubroutine : Option Prototype → Nat
  | none => 0
  | some subroutine => subroutine.depth
end

end Prototype

end NodeGraph
