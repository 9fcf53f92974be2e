import NodeGraph.Events
import NodeGraph.Processor

namespace NodeGraph

/-! Running graphs. A graph keeps all its values in one row of slots. Wiring is
settled when the graph is compiled: a node input reads the slot that its source
writes, so running a graph never looks at wires, and nodes never meet. -/

/-! ## Circuits -/

structure Placement where
  id : NodeId
  inputs : List Slot
  outputs : List Slot
  deriving Repr

/-- What compiling settles once and for all. -/
structure Circuit where
  name : String
  placements : Array Placement
  /-- Positions of the nodes in the order in which they run. -/
  order : List Nat
  /-- What every slot holds before anything happens. -/
  defaults : Array Value
  /-- The slots of the graph's inputs as declared. -/
  inputs : List (Identifier × Slot)
  /-- The slots of the local variables as declared. -/
  locals : List (Identifier × Slot)
  /-- The slots that the graph's outputs show. -/
  outputs : List (Identifier × Slot)
  routes : EventRoutes
  /-- Where events posted to the graph go, in the order of connection. -/
  entrances : List (Identifier × Target)
  hopLimit : Nat

namespace Circuit

/-- The slot of an id; of several declarations the last one counts. -/
def lastSlot? (declared : List (Identifier × Slot)) (id : Identifier) : Option Slot :=
  (declared.reverse.find? fun entry => entry.1 == id).map Prod.snd

def inputSlot? (circuit : Circuit) (id : Identifier) : Option Slot :=
  lastSlot? circuit.inputs id

def localSlot? (circuit : Circuit) (id : Identifier) : Option Slot :=
  lastSlot? circuit.locals id

/-- The slot that an output shows; of several outputs of that id the first one
counts. -/
def outputSlot? (circuit : Circuit) (id : Identifier) : Option Slot :=
  (circuit.outputs.find? fun entry => entry.1 == id).map Prod.snd

def entrance (circuit : Circuit) (id : Identifier) : List Target :=
  (circuit.entrances.filter fun entry => entry.1 == id).map Prod.snd

def position? (circuit : Circuit) (id : NodeId) : Option Nat :=
  circuit.placements.findIdx? fun placement => placement.id == id

def orderIds (circuit : Circuit) : List NodeId :=
  circuit.order.filterMap fun index => circuit.placements[index]?.map Placement.id

end Circuit

/-! ## States -/

/-- A node, and how much of the time step it used up in the last tick. -/
structure Cell (ν : Type) where
  node : ν
  consumed : Binary32 := .zero

/-- What changes while a graph runs and counts for later calls. What waits in the course of a
call to be delivered, no later call finds: see `Engine`. -/
structure State (ν : Type) where
  cells : Array (Cell ν)
  values : Array Value
  outgoing : OutgoingQueue

/-- A compiled graph with nodes of type `ν`. -/
structure Graph (ν : Type) where
  circuit : Circuit
  state : State ν

namespace State

/-- What one node does: its program runs on the node's window onto the values.
Yields the state afterwards, the events that the node fired and what happened
inside it. -/
def runCell (circuit : Circuit) (index : Nat) (program : Cell ν → Program (Cell ν))
    (state : State ν) : State ν × Array Emission × Array Entry :=
  match circuit.placements[index]?, state.cells[index]? with
  | some placement, some cell =>
      let (cell, panel) := (program cell).run
        { values := state.values, inputs := placement.inputs, outputs := placement.outputs }
      ({ state with cells := state.cells.setIfInBounds index cell, values := panel.values },
        panel.emitted, panel.journal)
  | _, _ => (state, #[], #[])

def consumedBy (state : State ν) (index : Nat) : Binary32 :=
  match state.cells[index]? with
  | some cell => cell.consumed
  | none => .zero

end State

/-! ## Turns

A call into a graph is one turn. It has a budget of deliveries, which its nodes
share, and it leaves no event undelivered behind. -/

/-- A call under way. -/
structure Turn (ν : Type) where
  state : State ν
  hops : Nat
  journal : Array Entry := #[]

namespace Turn

def runCell (circuit : Circuit) (index : Nat) (program : Cell ν → Program (Cell ν))
    (turn : Turn ν) : Turn ν × List Parcel :=
  let (state, emitted, journal) := turn.state.runCell circuit index program
  ({ turn with
      state
      journal := turn.journal ++ journal.map (Entry.inside index) ++
        emitted.map (Entry.emitted index) },
    emitted.toList.map (Parcel.ofEmission circuit.routes index))

variable [Processor ν]

/-- Delivers one event. Yields the parcels of the events it gives rise to. An
output event that finds the outgoing queue full is lost. -/
def deliver (circuit : Circuit) (target : Target) (event : Identifier) (turn : Turn ν) :
    Turn ν × List Parcel :=
  let turn := { turn with journal := turn.journal.push (.delivered target event) }
  match target with
  | .graphOutput id =>
      match turn.state.outgoing.push? id with
      | some outgoing => ({ turn with state := { turn.state with outgoing } }, [])
      | none => ({ turn with journal := turn.journal.push (.queueFull id) }, [])
  | .node index input =>
      turn.runCell circuit index fun cell => do
        let node ← Processor.onEvent input event cell.node
        pure { cell with node }

/-- Delivers parcels, and all that gives rise to, first come first served, until
nothing is left or the deliveries are used up. -/
def settle (circuit : Circuit) (state : State ν) (journal : Array Entry) :
    (hops : Nat) → (parcels : List Parcel) → Turn ν
  | hops, parcels =>
      match Parcel.next? parcels with
      | none => { state, hops, journal }
      | some delivery =>
          match hops with
          | 0 =>
              { state
                hops := 0
                journal :=
                  journal.push (.exhausted circuit.name circuit.hopLimit delivery.pending) }
          | hops + 1 =>
              let (turn, parcels) :=
                deliver circuit delivery.target delivery.event { state, hops, journal }
              settle circuit turn.state turn.journal hops (delivery.rest ++ parcels)

def visit (circuit : Circuit) (program : Cell ν → Program (Cell ν)) (turn : Turn ν)
    (index : Nat) : Turn ν :=
  let (turn, parcels) := turn.runCell circuit index program
  settle circuit turn.state turn.journal turn.hops parcels

end Turn

/-! ## Calls -/

namespace Graph

/-- The state before anything has happened to the nodes. -/
def pristine (circuit : Circuit) (capacity : Nat) (nodes : List ν) : Graph ν where
  circuit
  state := {
    cells := (nodes.map fun node => { node }).toArray
    values := circuit.defaults
    outgoing := { capacity } }

def begin (graph : Graph ν) : Turn ν where
  state := graph.state
  hops := graph.circuit.hopLimit

def finish (graph : Graph ν) (turn : Turn ν) : Graph ν :=
  { graph with state := turn.state }

def setSlot (graph : Graph ν) (slot : Slot) (value : Value) : Graph ν :=
  { graph with
    state := { graph.state with values := graph.state.values.setIfInBounds slot value } }

/-- Writes an input of the graph; `none` if there is no such input. -/
def setInput? (graph : Graph ν) (id : Identifier) (value : Value) : Option (Graph ν) :=
  (graph.circuit.inputSlot? id).map fun slot => graph.setSlot slot value

/-- Writes a local variable; `none` if there is no such variable. -/
def setLocal? (graph : Graph ν) (id : Identifier) (value : Value) : Option (Graph ν) :=
  (graph.circuit.localSlot? id).map fun slot => graph.setSlot slot value

def readOutput? (graph : Graph ν) (id : Identifier) : Option Value :=
  (graph.circuit.outputSlot? id).map fun slot => graph.state.values[slot]?.getD .void

def consumed? (graph : Graph ν) (id : NodeId) : Option Binary32 :=
  (graph.circuit.position? id).map graph.state.consumedBy

/-- The waiting output events, oldest first, and the graph without them. -/
def drain (graph : Graph ν) : List Identifier × Graph ν :=
  (graph.state.outgoing.waiting,
    { graph with state := { graph.state with outgoing := graph.state.outgoing.clear } })

/-- Hands the waiting output events over one by one, oldest first. -/
def handleOutgoing (graph : Graph ν) (receive : σ → Identifier → σ) (state : σ) : σ × Graph ν :=
  let (state, outgoing) := graph.state.outgoing.handOver receive state
  (state, { graph with state := { graph.state with outgoing } })

def hasOutgoing (graph : Graph ν) : Bool :=
  !graph.state.outgoing.isEmpty

variable [Processor ν]

def sweep (graph : Graph ν) (program : Cell ν → Program (Cell ν)) : Turn ν :=
  graph.circuit.order.foldl (Turn.visit graph.circuit program) graph.begin

def init (graph : Graph ν) (context : Context) : Graph ν × Array Entry :=
  let turn := graph.sweep fun cell => do
    let node ← Processor.init context cell.node
    pure { cell with node }
  (graph.finish turn, turn.journal)

/-- The most that any node used up in the last tick. -/
def mostConsumed (graph : Graph ν) : Binary32 :=
  graph.circuit.order.foldl (fun most index => most.max (graph.state.consumedBy index)) .zero

/-- One tick: every node runs once, in order. Yields the most that any node used
up of the time step. -/
def process (graph : Graph ν) (timeStep : Binary32) : Graph ν × Binary32 × Array Entry :=
  let turn := graph.sweep fun cell => do
    let (node, consumed) ← Processor.process timeStep cell.node
    pure { node, consumed }
  let graph := graph.finish turn
  (graph, graph.mostConsumed, turn.journal)

/-- Posts an event to the graph; `none` if no wire starts at it. -/
def post? (graph : Graph ν) (id : Identifier) : Option (Graph ν × Array Entry) :=
  match graph.circuit.entrance id with
  | [] => none
  | targets =>
      let turn := Turn.settle graph.circuit graph.state #[] graph.circuit.hopLimit [⟨id, targets⟩]
      some (graph.finish turn, turn.journal)

/-- Rewinds a graph: every node, every slot and the outgoing queue are as they
were before anything happened. -/
def reset (graph : Graph ν) : Graph ν :=
  { graph with
    state := {
      cells := graph.state.cells.map fun cell => { node := Processor.reset cell.node }
      values := graph.circuit.defaults
      outgoing := graph.state.outgoing.clear } }

/-! ## Diagnostics -/

def inspect (graph : Graph ν) : String :=
  "GraphInstance \x7b name: " ++ Quoted.quote graph.circuit.name ++
    ", nodes: " ++ toString graph.state.cells.size ++
    ", slots: " ++ toString graph.state.values.size ++
    ", eval_order: [" ++
      ", ".intercalate (graph.circuit.orderIds.map fun id => toString id.toNat) ++ "] \x7d"

end Graph

end NodeGraph
