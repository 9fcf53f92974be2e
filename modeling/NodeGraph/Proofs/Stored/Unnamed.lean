import NodeGraph.Proofs.Stored.Value
import NodeGraph.Prototype.Stored

namespace NodeGraph

/-! Prototypes without the names that identifiers remember. Prototypes are equal
exactly if they are the same without names, and names leave no trace in stored
bytes. -/

/-! ## Leaving out names -/

def Terminus.unnamed (terminus : Terminus) : Terminus :=
  ⟨terminus.node, terminus.endpoint.unnamed⟩

def Connection.unnamed (connection : Connection) : Connection :=
  ⟨connection.source.unnamed, connection.destination.unnamed, connection.kind⟩

def Endpoint.unnamed (endpoint : Endpoint) : Endpoint :=
  ⟨endpoint.id.unnamed, endpoint.default⟩

namespace Prototype

mutual
/-- The prototype with identifiers that remember no names. -/
def unnamed (prototype : Prototype) : Prototype :=
  match prototype with
  | ⟨name, id, inputs, outputs, locals, nodes, connections⟩ =>
      ⟨name, id, inputs.map Endpoint.unnamed, outputs.map Endpoint.unnamed,
        locals.map Endpoint.unnamed, unnamedNodes nodes, connections.map Connection.unnamed⟩

def unnamedNodes : List PrototypeNode → List PrototypeNode
  | [] => []
  | ⟨type, id, overrides, subroutine⟩ :: nodes =>
      ⟨type.unnamed, id, overrides.map Endpoint.unnamed, unnamedSubroutine subroutine⟩ ::
        unnamedNodes nodes

def unnamedSubroutine : Option Prototype → Option Prototype
  | none => none
  | some subroutine => some subroutine.unnamed
end

end Prototype

def PrototypeNode.unnamed (node : PrototypeNode) : PrototypeNode :=
  ⟨node.type.unnamed, node.id, node.overrides.map Endpoint.unnamed,
    Prototype.unnamedSubroutine node.subroutine⟩

theorem Prototype.unnamedNodes_eq_map (nodes : List PrototypeNode) :
    unnamedNodes nodes = nodes.map PrototypeNode.unnamed := by
  induction nodes with
  | nil => rfl
  | cons node nodes induction =>
      cases node
      rw [List.map_cons, ← induction, unnamedNodes, PrototypeNode.unnamed]

/-! ## Equality -/

theorem Identifier.beq_iff_unnamed (left right : Identifier) :
    (left == right) = true ↔ left.unnamed = right.unnamed := by
  simp [Identifier.beq_iff, unnamed, ofHash]

theorem Terminus.beq_iff_unnamed (left right : Terminus) :
    (left == right) = true ↔ left.unnamed = right.unnamed := by
  have fields : (left == right) = (left.node == right.node && left.endpoint == right.endpoint) :=
    rfl
  simp [fields, unnamed, Identifier.beq_iff_unnamed]

theorem Connection.beq_iff_unnamed (left right : Connection) :
    (left == right) = true ↔ left.unnamed = right.unnamed := by
  have fields : (left == right) = (left.source == right.source &&
      (left.destination == right.destination && left.kind == right.kind)) := rfl
  simp [fields, unnamed, Terminus.beq_iff_unnamed]

theorem Endpoint.beq_iff_unnamed (left right : Endpoint) :
    (left == right) = true ↔ left.unnamed = right.unnamed := by
  have fields : (left == right) = (left.id == right.id && left.default == right.default) := rfl
  simp [fields, unnamed, Identifier.beq_iff_unnamed]

theorem list_beq_iff_map [BEq α] {change : α → α}
    (same : ∀ left right : α, (left == right) = true ↔ change left = change right)
    (lefts rights : List α) : (lefts == rights) = true ↔ lefts.map change = rights.map change := by
  induction lefts generalizing rights with
  | nil => cases rights <;> simp
  | cons left lefts induction =>
      cases rights with
      | nil => simp
      | cons right rights => simp [same, induction]

namespace Prototype

mutual
theorem agree_iff : ∀ left right : Prototype,
    left.agree right = true ↔ left.unnamed = right.unnamed
  | ⟨_, _, _, _, _, lefts, _⟩, ⟨_, _, _, _, _, rights, _⟩ => by
      simp only [agree, unnamed, Prototype.mk.injEq, Bool.and_eq_true, beq_iff_eq,
        list_beq_iff_map Endpoint.beq_iff_unnamed, list_beq_iff_map Connection.beq_iff_unnamed,
        agreeNodes_iff lefts rights, and_assoc]

theorem agreeNodes_iff : ∀ lefts rights : List PrototypeNode,
    agreeNodes lefts rights = true ↔ unnamedNodes lefts = unnamedNodes rights
  | [], [] => by simp [agreeNodes, unnamedNodes]
  | [], ⟨_, _, _, _⟩ :: _ => by simp [agreeNodes, unnamedNodes]
  | ⟨_, _, _, _⟩ :: _, [] => by simp [agreeNodes, unnamedNodes]
  | ⟨_, _, _, left⟩ :: lefts, ⟨_, _, _, right⟩ :: rights => by
      simp only [agreeNodes, unnamedNodes, List.cons.injEq, PrototypeNode.mk.injEq,
        Bool.and_eq_true, beq_iff_eq, Identifier.beq_iff_unnamed,
        list_beq_iff_map Endpoint.beq_iff_unnamed, agreeSubroutines_iff left right,
        agreeNodes_iff lefts rights, and_assoc]

theorem agreeSubroutines_iff : ∀ left right : Option Prototype,
    agreeSubroutines left right = true ↔ unnamedSubroutine left = unnamedSubroutine right
  | none, none => by simp [agreeSubroutines, unnamedSubroutine]
  | none, some _ => by simp [agreeSubroutines, unnamedSubroutine]
  | some _, none => by simp [agreeSubroutines, unnamedSubroutine]
  | some left, some right => by
      simp only [agreeSubroutines, unnamedSubroutine, Option.some.injEq, agree_iff left right]
end

/-- Prototypes are equal exactly if they are the same without names. -/
theorem beq_iff_unnamed (left right : Prototype) :
    (left == right) = true ↔ left.unnamed = right.unnamed :=
  agree_iff left right

end Prototype

/-! ## Names leave no trace -/

@[simp] theorem Identifier.unnamed_unnamed (identifier : Identifier) :
    identifier.unnamed.unnamed = identifier.unnamed :=
  rfl

@[simp] theorem Identifier.toBytes_unnamed (identifier : Identifier) :
    identifier.unnamed.toBytes = identifier.toBytes :=
  rfl

@[simp] theorem Connection.unnamed_unnamed (connection : Connection) :
    connection.unnamed.unnamed = connection.unnamed :=
  rfl

@[simp] theorem Connection.toBytes_unnamed (connection : Connection) :
    connection.unnamed.toBytes = connection.toBytes :=
  rfl

@[simp] theorem Endpoint.unnamed_unnamed (endpoint : Endpoint) :
    endpoint.unnamed.unnamed = endpoint.unnamed :=
  rfl

@[simp] theorem Endpoint.toBytes_unnamed (endpoint : Endpoint) :
    endpoint.unnamed.toBytes = endpoint.toBytes :=
  rfl

@[simp] theorem Endpoint.default_unnamed (endpoint : Endpoint) :
    endpoint.unnamed.default = endpoint.default :=
  rfl

/-- Changing the items in a way that writing does not see changes no bytes. -/
theorem Bytes.list_map {write : α → List UInt8} {change : α → α}
    (same : ∀ item, write (change item) = write item) (items : List α) :
    Bytes.list write (items.map change) = Bytes.list write items := by
  have unseen : (fun item => write (change item)) = write := funext same
  simp [Bytes.list, List.flatMap_map, unseen]

theorem list_map_eq_self_iff {change : α → α} {items : List α} :
    items.map change = items ↔ ∀ item ∈ items, change item = item := by
  induction items with
  | nil => simp
  | cons item items induction => simp [induction]

theorem PrototypeNode.unnamed_eq_self_iff {node : PrototypeNode} :
    node.unnamed = node ↔
      node.type.unnamed = node.type ∧
        (∀ override ∈ node.overrides, override.unnamed = override) ∧
        Prototype.unnamedSubroutine node.subroutine = node.subroutine := by
  cases node
  simp [unnamed, list_map_eq_self_iff]

namespace Prototype

@[simp] theorem endpointDepth_map_unnamed (endpoints : List Endpoint) :
    endpointDepth (endpoints.map Endpoint.unnamed) = endpointDepth endpoints := by
  simp [endpointDepth, List.foldr_map]

@[simp] theorem length_unnamedNodes (nodes : List PrototypeNode) :
    (unnamedNodes nodes).length = nodes.length := by
  rw [unnamedNodes_eq_map, List.length_map]

mutual
theorem unnamed_unnamed : ∀ prototype : Prototype, prototype.unnamed.unnamed = prototype.unnamed
  | ⟨_, _, _, _, _, nodes, _⟩ => by
      simp [unnamed, Function.comp_def, unnamedNodes_unnamed nodes]

theorem unnamedNodes_unnamed : ∀ nodes : List PrototypeNode,
    unnamedNodes (unnamedNodes nodes) = unnamedNodes nodes
  | [] => rfl
  | ⟨_, _, _, subroutine⟩ :: nodes => by
      simp [unnamedNodes, Function.comp_def, unnamedSubroutine_unnamed subroutine,
        unnamedNodes_unnamed nodes]

theorem unnamedSubroutine_unnamed : ∀ subroutine : Option Prototype,
    unnamedSubroutine (unnamedSubroutine subroutine) = unnamedSubroutine subroutine
  | none => rfl
  | some subroutine => by simp [unnamedSubroutine, unnamed_unnamed subroutine]
end

mutual
theorem toBytes_unnamed : ∀ prototype : Prototype, prototype.unnamed.toBytes = prototype.toBytes
  | ⟨_, _, _, _, _, nodes, _⟩ => by
      simp [unnamed, toBytes, Bytes.list_map Endpoint.toBytes_unnamed,
        Bytes.list_map Connection.toBytes_unnamed, nodeBytes_unnamed nodes]

theorem nodeBytes_unnamed : ∀ nodes : List PrototypeNode,
    nodeBytes (unnamedNodes nodes) = nodeBytes nodes
  | [] => rfl
  | ⟨_, _, _, subroutine⟩ :: nodes => by
      simp [unnamedNodes, nodeBytes, Bytes.list_map Endpoint.toBytes_unnamed,
        subroutineBytes_unnamed subroutine, nodeBytes_unnamed nodes]

theorem subroutineBytes_unnamed : ∀ subroutine : Option Prototype,
    subroutineBytes (unnamedSubroutine subroutine) = subroutineBytes subroutine
  | none => rfl
  | some subroutine => by
      simp [unnamedSubroutine, subroutineBytes, toBytes_unnamed subroutine]
end

mutual
theorem depth_unnamed : ∀ prototype : Prototype, prototype.unnamed.depth = prototype.depth
  | ⟨_, _, _, _, _, nodes, _⟩ => by simp [unnamed, depth, depthOfNodes_unnamed nodes]

theorem depthOfNodes_unnamed : ∀ nodes : List PrototypeNode,
    depthOfNodes (unnamedNodes nodes) = depthOfNodes nodes
  | [] => rfl
  | ⟨_, _, _, subroutine⟩ :: nodes => by
      simp [unnamedNodes, depthOfNodes, depthOfSubroutine_unnamed subroutine,
        depthOfNodes_unnamed nodes]

theorem depthOfSubroutine_unnamed : ∀ subroutine : Option Prototype,
    depthOfSubroutine (unnamedSubroutine subroutine) = depthOfSubroutine subroutine
  | none => rfl
  | some subroutine => by
      simp [unnamedSubroutine, depthOfSubroutine, depth_unnamed subroutine]
end

end Prototype

end NodeGraph
