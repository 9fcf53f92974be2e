import NodeGraph.Prototype

namespace NodeGraph

/-! The plugs of a node. Nodes and the engine refer to a plug by its position;
names matter only when a graph is wired. -/

/-- The plugs of a node, in the order of their positions. -/
structure Layout where
  inputs : List Endpoint := []
  outputs : List Endpoint := []
  inputEvents : List Identifier := []
  outputEvents : List Identifier := []
  deriving Inhabited

namespace Layout

/-- The position of the first input plug of that name. -/
def inputIndex? (layout : Layout) (id : Identifier) : Option Nat :=
  layout.inputs.findIdx? fun plug => plug.id == id

def outputIndex? (layout : Layout) (id : Identifier) : Option Nat :=
  layout.outputs.findIdx? fun plug => plug.id == id

def inputEventIndex? (layout : Layout) (id : Identifier) : Option Nat :=
  layout.inputEvents.findIdx? fun event => event == id

def outputEventIndex? (layout : Layout) (id : Identifier) : Option Nat :=
  layout.outputEvents.findIdx? fun event => event == id

end Layout

end NodeGraph
