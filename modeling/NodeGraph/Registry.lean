import NodeGraph.Identifier
import NodeGraph.Journal

namespace NodeGraph

/-! Node types by name. The entry of a type makes nodes of it to which nothing has
happened yet. It is told the id that a node will have. -/

/-- The known node types, in the order in which they were first registered. -/
structure Registry (κ : Type) where
  entries : List (Identifier × (NodeId → κ)) := []

namespace Registry

/-- A fresh node of a type for that id; `none` if the type is not known. -/
def create? (registry : Registry κ) (type : Identifier) (id : NodeId) : Option κ :=
  (registry.entries.find? fun entry => entry.1 == type).map fun entry => entry.2 id

def contains (registry : Registry κ) (type : Identifier) : Bool :=
  registry.entries.any fun entry => entry.1 == type

def size (registry : Registry κ) : Nat :=
  registry.entries.length

def isEmpty (registry : Registry κ) : Bool :=
  registry.entries.isEmpty

/-- Registers a type. A type registered before under that name is replaced. -/
def register (registry : Registry κ) (type : Identifier) (make : NodeId → κ) : Registry κ :=
  if registry.contains type then
    ⟨registry.entries.map fun entry => if entry.1 == type then (entry.1, make) else entry⟩
  else
    ⟨registry.entries ++ [(type, make)]⟩

def registerRecords (registry : Registry κ) (type : Identifier) : List LogRecord :=
  if registry.contains type then
    [⟨.warn, "Node type " ++ type.display ++ " registered twice, keeping the last one"⟩]
  else
    []

/-- The same types with nodes seen as nodes of another type. -/
def map (embed : κ → μ) (registry : Registry κ) : Registry μ :=
  ⟨registry.entries.map fun entry => (entry.1, embed ∘ entry.2)⟩

def ofList (types : List (Identifier × (NodeId → κ))) : Registry κ :=
  types.foldl (fun registry entry => registry.register entry.1 entry.2) {}

example : (ofList [(.ofHash 7, fun id => ("a", id)), (.ofHash 7, fun id => ("b", id))]).create?
    (.ofHash 7) 3 = some ("b", 3) := rfl

end Registry

def unknownTypeMessage (type : Identifier) : String :=
  "unknown node type " ++ type.display

end NodeGraph
