import NodeGraph.Layout
import NodeGraph.Scalar

namespace NodeGraph

/-! Plugs of the standard nodes by name. -/

def Endpoint.named (name : String) (default : Value) : Endpoint :=
  ⟨.named name, default⟩

def Endpoint.holding [Scalar α] (name : String) (payload : α) : Endpoint :=
  .named name (Scalar.toValue payload)

/-- The plug of that name whose default is the zero of a payload type. -/
def Endpoint.zero (α : Type) [Scalar α] (name : String) : Endpoint :=
  .holding name (Scalar.zero : α)

/-- The plug of that name whose default is the one of a payload type. -/
def Endpoint.one (α : Type) [Scalar α] (name : String) : Endpoint :=
  .holding name (Scalar.ofBinary64 .one : α)

end NodeGraph
