import NodeGraph.Graph

namespace NodeGraph

/-! Graphs as nodes. A subroutine is a graph that its surroundings see as a
single node: its value inputs and outputs become plugs, inputs that feed event
wires become input events, and outputs that event wires feed become output
events. -/

/-- A graph with the plugs that it shows as a node. -/
structure Subroutine (ν : Type) where
  graph : Graph ν
  layout : Layout

namespace Subroutine

/-! ## Plugs -/

/-- Whether events enter a prototype through that input. -/
def isEventInput (prototype : Prototype) (id : Identifier) : Bool :=
  prototype.connections.any fun connection =>
    connection.kind.isEvent && connection.kind.sourceScope == .graph &&
      connection.source.endpoint == id

/-- Whether events leave a prototype through that output. -/
def isEventOutput (prototype : Prototype) (id : Identifier) : Bool :=
  prototype.connections.any fun connection =>
    connection.kind.isEvent && connection.kind.destinationScope == .graph &&
      connection.destination.endpoint == id

def layoutOf (prototype : Prototype) : Layout where
  inputs := prototype.inputs.filter fun input => !isEventInput prototype input.id
  outputs := prototype.outputs.filter fun output => !isEventOutput prototype output.id
  inputEvents :=
    (prototype.inputs.filter fun input => isEventInput prototype input.id).map Endpoint.id
  outputEvents :=
    (prototype.outputs.filter fun output => isEventOutput prototype output.id).map Endpoint.id

def ofPrototype (prototype : Prototype) (graph : Graph ν) : Subroutine ν where
  graph
  layout := layoutOf prototype

/-! ## Behaviour -/

/-- Sets the graph's inputs to what the node's plugs read, from position `plug`
on. -/
def copyIn (plug : Nat) : (plugs : List Endpoint) → Graph ν → Program (Graph ν)
  | [], graph => pure graph
  | endpoint :: plugs, graph => do
      let value ← Program.read plug
      copyIn (plug + 1) plugs ((graph.setInput? endpoint.id value).getD graph)

/-- Writes the graph's outputs to the node's plugs, from position `plug` on. -/
def copyOut (plug : Nat) : (plugs : List Endpoint) → Graph ν → Program Unit
  | [], _ => pure ()
  | endpoint :: plugs, graph => do
      match graph.readOutput? endpoint.id with
      | some value => Program.write plug value
      | none => pure ()
      copyOut (plug + 1) plugs graph

/-- Fires output events, each on the output of its own name. -/
def fireAll (layout : Layout) : List Identifier → Program Unit
  | [] => pure ()
  | event :: events => do
      match layout.outputEventIndex? event with
      | some output => Program.fire output event
      | none => pure ()
      fireAll layout events

/-- Passes on what happened in the graph, with its waiting events. -/
def forward (subroutine : Subroutine ν) (graph : Graph ν) : Program (Subroutine ν) := do
  let (events, graph) := graph.drain
  fireAll subroutine.layout events
  pure { subroutine with graph }

variable [Processor ν]

/-- Initializes the graph. Values are not copied across the boundary. -/
def init (context : Context) (subroutine : Subroutine ν) : Program (Subroutine ν) := do
  let (graph, journal) := subroutine.graph.init context
  Program.reportAll journal.toList
  subroutine.forward graph

/-- Copies inputs in, runs one tick of the graph, copies outputs out. Uses up
what the graph uses up. -/
def process (timeStep : Binary32) (subroutine : Subroutine ν) :
    Program (Subroutine ν × Binary32) := do
  let graph ← copyIn 0 subroutine.layout.inputs subroutine.graph
  let (graph, consumed, journal) := graph.process timeStep
  Program.reportAll journal.toList
  copyOut 0 subroutine.layout.outputs graph
  let subroutine ← subroutine.forward graph
  pure (subroutine, consumed)

/-- Posts the event of that position to the graph under the graph's own name for
it. Values are not copied across the boundary. -/
def onEvent (input : Nat) (subroutine : Subroutine ν) : Program (Subroutine ν) :=
  match subroutine.layout.inputEvents[input]? with
  | none => pure subroutine
  | some id => do
      let (graph, journal) := (subroutine.graph.post? id).getD (subroutine.graph, #[])
      Program.reportAll journal.toList
      subroutine.forward graph

instance : Processor (Subroutine ν) where
  layout subroutine := subroutine.layout
  init := init
  process := process
  onEvent input _ := onEvent input
  reset subroutine := { subroutine with graph := subroutine.graph.reset }

end Subroutine

/-! ## Nesting

Nodes that may contain graphs are built in levels. On level zero there are only
the nodes of the given type; on the next level a node may also be a graph whose
nodes are of the level before. -/

/-- Nodes of type `κ`, and graphs of them nested at most `room` deep. -/
def Nested (κ : Type) : (room : Nat) → Type
  | 0 => κ
  | room + 1 => κ ⊕ Subroutine (Nested κ room)

namespace Nested

/-- A node that is no graph. -/
def plain : {room : Nat} → κ → Nested κ room
  | 0, node => node
  | _ + 1, node => .inl node

/-- The behaviour of nested nodes, level by level: one level up, it is that of
either kind of node. It is worked out on demand. -/
@[reducible] def processor [Processor κ] : (room : Nat) → Unit → Processor (Nested κ room)
  | 0, _ => inferInstanceAs (Processor κ)
  | room + 1, _ =>
      Processor.delay fun demand =>
        letI : Processor (Nested κ room) := processor room demand
        inferInstanceAs (Processor (κ ⊕ Subroutine (Nested κ room)))

instance [Processor κ] (room : Nat) : Processor (Nested κ room) :=
  processor room ()

theorem processor_zero [Processor κ] :
    (inferInstance : Processor (Nested κ 0)) = inferInstanceAs (Processor κ) := rfl

theorem processor_succ [Processor κ] (room : Nat) :
    (inferInstance : Processor (Nested κ (room + 1))) =
      inferInstanceAs (Processor (κ ⊕ Subroutine (Nested κ room))) := rfl

end Nested

end NodeGraph
