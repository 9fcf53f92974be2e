import NodeGraph.Compile.Compilation
import NodeGraph.Layout

namespace NodeGraph

/-! Wires with their ends looked up: positions instead of ids. -/

inductive ValueSource where
  | nodeOutput (node plug : Nat)
  | graphInput (id : Identifier)
  | localVariable (id : Identifier)
  deriving BEq, Repr

inductive ValueSink where
  | nodeInput (node plug : Nat)
  | graphOutput (id : Identifier)
  deriving BEq, Repr

inductive EventSource where
  | nodeEvent (node output : Nat)
  | graphInput (id : Identifier)
  deriving BEq, Repr

/-- A wire whose ends exist. -/
inductive Wire where
  | value (source : ValueSource) (sink : ValueSink)
  | event (source : EventSource) (target : Target)
  deriving BEq, Repr

namespace Wire

/-- Where the wire ends, if it carries a value. -/
def sink? : Wire → Option ValueSink
  | .value _ sink => some sink
  | .event .. => none

/-- The source of the first value wire that ends on `sink`. -/
def sourceOf? (wires : List Wire) (sink : ValueSink) : Option ValueSource :=
  wires.findSome? fun wire =>
    match wire with
    | .value source other => if other == sink then some source else none
    | .event .. => none

end Wire

/-! ## Looking up ends -/

/-- What the ends of wires are looked up in: a prototype and the plugs of its
nodes. -/
structure Endpoints where
  prototype : Prototype
  /-- The plugs of the nodes, by position. -/
  layouts : List Layout

namespace Endpoints

def node (endpoints : Endpoints) (terminus : Terminus) : Except CompileError Nat :=
  match endpoints.prototype.nodes.findIdx? fun node => node.id == terminus.node with
  | some index => .ok index
  | none => .error (.dangling terminus)

/-- The position of a plug, `find` saying where in a layout to look. -/
def plug (endpoints : Endpoints) (find : Layout → Identifier → Option Nat) (terminus : Terminus) :
    Except CompileError (Nat × Nat) := do
  let index ← endpoints.node terminus
  match endpoints.layouts[index]?.bind fun layout => find layout terminus.endpoint with
  | some plug => .ok (index, plug)
  | none => .error (.dangling terminus)

/-- An id as the graph declares it. -/
def declared (found : Option Endpoint) (terminus : Terminus) : Except CompileError Identifier :=
  match found with
  | some endpoint => .ok endpoint.id
  | none => .error (.dangling terminus)

def graphInput (endpoints : Endpoints) (terminus : Terminus) : Except CompileError Identifier :=
  declared (endpoints.prototype.input? terminus.endpoint) terminus

def graphOutput (endpoints : Endpoints) (terminus : Terminus) : Except CompileError Identifier :=
  declared (endpoints.prototype.output? terminus.endpoint) terminus

def localVariable (endpoints : Endpoints) (terminus : Terminus) : Except CompileError Identifier :=
  declared (endpoints.prototype.local? terminus.endpoint) terminus

/-- A terminus is on the graph itself exactly when the kind of its wire puts
that end on the graph. -/
def checkScope (kind : ConnectionKind) (scope : Scope) (terminus : Terminus) :
    Except CompileError Unit :=
  if (terminus.node == graphNodeId) == (scope != .node) then .ok ()
  else .error (.boundary kind terminus.node)

def valueSource (endpoints : Endpoints) (scope : Scope) (terminus : Terminus) :
    Except CompileError ValueSource :=
  match scope with
  | .node => do
      let (node, plug) ← endpoints.plug Layout.outputIndex? terminus
      pure (.nodeOutput node plug)
  | .graph => .graphInput <$> endpoints.graphInput terminus
  | .localVariable => .localVariable <$> endpoints.localVariable terminus

def valueSink (endpoints : Endpoints) (scope : Scope) (terminus : Terminus) :
    Except CompileError ValueSink :=
  match scope with
  | .node => do
      let (node, plug) ← endpoints.plug Layout.inputIndex? terminus
      pure (.nodeInput node plug)
  | .graph | .localVariable => .graphOutput <$> endpoints.graphOutput terminus

def eventSource (endpoints : Endpoints) (scope : Scope) (terminus : Terminus) :
    Except CompileError EventSource :=
  match scope with
  | .node => do
      let (node, output) ← endpoints.plug Layout.outputEventIndex? terminus
      pure (.nodeEvent node output)
  | .graph | .localVariable => .graphInput <$> endpoints.graphInput terminus

def eventTarget (endpoints : Endpoints) (scope : Scope) (terminus : Terminus) :
    Except CompileError Target :=
  match scope with
  | .node => do
      let (node, input) ← endpoints.plug Layout.inputEventIndex? terminus
      pure (.node node input)
  | .graph | .localVariable => .graphOutput <$> endpoints.graphOutput terminus

/-- Looks up both ends of a connection, the source first. -/
def wire (endpoints : Endpoints) (connection : Connection) : Except CompileError Wire := do
  let kind := connection.kind
  checkScope kind kind.sourceScope connection.source
  checkScope kind kind.destinationScope connection.destination
  if kind.isEvent then
    let source ← endpoints.eventSource kind.sourceScope connection.source
    let target ← endpoints.eventTarget kind.destinationScope connection.destination
    pure (.event source target)
  else
    let source ← endpoints.valueSource kind.sourceScope connection.source
    let sink ← endpoints.valueSink kind.destinationScope connection.destination
    pure (.value source sink)

/-! ## Wiring

Connections are wired in the order of their list. A value sink takes one wire
only. -/

/-- How a sink is named when it has two sources: a node's plug as the connection
names it, an output as the graph declares it. -/
def sinkTerminus (connection : Connection) : ValueSink → Terminus
  | .nodeInput .. => connection.destination
  | .graphOutput id => ⟨graphNodeId, id⟩

def boundRecord (connection : Connection) : LogRecord :=
  let terminus (end_ : Terminus) := toString end_.node.toNat ++ ":" ++ end_.endpoint.display
  ⟨.debug, "Bound " ++ connection.kind.name ++ " " ++ terminus connection.source ++ " -> " ++
    terminus connection.destination⟩

/-- Refuses a wire to a sink that one of `wires` ends on already. -/
def checkSink (wires : List Wire) (connection : Connection) (wire : Wire) :
    Except CompileError Unit :=
  match wire.sink? with
  | none => .ok ()
  | some sink =>
      if (Wire.sourceOf? wires sink).isSome then
        .error (.multipleSources (sinkTerminus connection sink))
      else .ok ()

/-- Wires connections after those wired already. -/
def wireAll (endpoints : Endpoints) (wires : List Wire) :
    List Connection → Compilation (List Wire)
  | [] => pure wires
  | connection :: connections => do
      let wire ← Compilation.ofExcept (endpoints.wire connection)
      Compilation.ofExcept (checkSink wires connection wire)
      Compilation.note (boundRecord connection)
      wireAll endpoints (wires ++ [wire]) connections

end Endpoints

end NodeGraph
