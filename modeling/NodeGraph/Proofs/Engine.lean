import NodeGraph.Proofs.Run.Alike
import NodeGraph.Proofs.Run.Handover
import NodeGraph.Proofs.Schedule.Tables

namespace NodeGraph

/-! Graphs with their buffers. The events that a node fires are gathered in one buffer, and
those that have not been delivered yet wait in another one. Both belong to the graph, as
does the number of deliveries left, so whatever a call leaves in them the next call finds.
Everything that is looked up by position may be missing, and then the call goes wrong;
where other graphs pass over what is not there, graphs with buffers do not go on. -/

/-! ## Nodes at work -/

/-- Nodes whose work may go wrong. -/
class Worker (μ : Type) where
  /-- What happens to a node, seen through its window. -/
  work : Happening → Cell μ → Panel → Except Trap (Cell μ × Panel)
  reset : μ → μ

/-- The work of nodes that have nothing to look up. -/
@[reducible] def Worker.ofProcessor [Processor κ] : Worker κ where
  work happening cell panel := .ok ((happening.program cell).run panel)
  reset := Processor.reset

/-- Nodes of two types, each with its own work. -/
instance [Worker μ] [Worker τ] : Worker (μ ⊕ τ) where
  work happening cell panel :=
    match cell.node with
    | .inl node => do
        let (cell, panel) ← Worker.work happening { cell with node } panel
        pure (cell.map Sum.inl, panel)
    | .inr node => do
        let (cell, panel) ← Worker.work happening { cell with node } panel
        pure (cell.map Sum.inr, panel)
  reset
    | .inl node => .inl (Worker.reset node)
    | .inr node => .inr (Worker.reset node)

/-! ## Engines -/

/-- The entries of a table in order, each looked up when its turn comes. -/
def lookUps (table : List α) : List (Except Trap α) :=
  (List.range table.length).map (entry table)

/-- A graph with its buffers. -/
structure Engine (μ : Type) extends Graph μ where
  /-- Events that have not been delivered yet, each with the position of the node that
  fired it. -/
  pending : List (Nat × Emission) := []
  /-- Events that the node at work has fired. -/
  emitted : Array Emission := #[]
  /-- The deliveries left. -/
  hops : Nat
  /-- What has happened since the last call began. -/
  journal : Array Entry := #[]

namespace Engine

/-- The graph as it is compiled: its buffers are empty. -/
def ofGraph (graph : Graph μ) : Engine μ where
  toGraph := graph
  hops := graph.circuit.hopLimit

/-! ### Reading -/

/-- What an output shows; `none` if there is no such output. -/
def readOutput? (engine : Engine μ) (id : Identifier) : Except Trap (Option Value) :=
  (engine.circuit.outputSlot? id).mapM fun slot => present engine.state.values[slot]?

/-- What a node used up in the last tick; `none` if there is no such node. -/
def consumed? (engine : Engine μ) (id : NodeId) : Except Trap (Option Binary32) :=
  (engine.circuit.position? id).mapM fun index =>
    Cell.consumed <$> present engine.state.cells[index]?

/-- The ids of the nodes in the order in which they run. -/
def orderIds (engine : Engine μ) : Except Trap (List NodeId) :=
  engine.circuit.order.mapM fun index =>
    Placement.id <$> present engine.circuit.placements[index]?

/-! ### Turns -/

/-- A call begins: all its deliveries are left. -/
def begin (engine : Engine μ) : Engine μ :=
  { engine with
    hops := engine.circuit.hopLimit
    journal := #[] }

/-- Passes on what the node at a position has fired to the events that wait. -/
def collect (source : Nat) (engine : Engine μ) : Engine μ :=
  { engine with
    pending := engine.pending ++ engine.emitted.toList.map (Prod.mk source)
    emitted := #[]
    journal := engine.journal ++ engine.emitted.map (Entry.emitted source) }

variable [Worker μ]

/-- The node at a position works, and leaves what it fires in the buffer. -/
def work (index : Nat) (happening : Happening) (engine : Engine μ) :
    Except Trap (Engine μ) := do
  let placement ← present engine.circuit.placements[index]?
  let cell ← present engine.state.cells[index]?
  let (cell, panel) ← Worker.work happening cell
    { values := engine.state.values
      inputs := placement.inputs
      outputs := placement.outputs
      emitted := engine.emitted }
  pure { engine with
    state := { engine.state with
      cells := engine.state.cells.setIfInBounds index cell
      values := panel.values }
    emitted := panel.emitted
    journal := engine.journal ++ panel.journal.map (Entry.inside index) }

/-- Delivers one event, if a delivery is left; says whether one was. If none was, all that
is in the buffers is given up. -/
def deliver (target : Target) (event : Identifier) (engine : Engine μ) :
    Except Trap (Bool × Engine μ) :=
  match engine.hops with
  | 0 =>
      pure (false, { engine with
        pending := []
        emitted := #[]
        journal := engine.journal.push
          (.exhausted engine.circuit.name engine.circuit.hopLimit (engine.pending.length + 1)) })
  | hops + 1 =>
      let engine := { engine with hops, journal := engine.journal.push (.delivered target event) }
      match target with
      | .graphOutput id =>
          match engine.state.outgoing.push? id with
          | some outgoing =>
              pure (true, { engine with state := { engine.state with outgoing } })
          | none => pure (true, { engine with journal := engine.journal.push (.queueFull id) })
      | .node index input => do
          let engine ← engine.work index (.onEvent input event)
          pure (true, engine.collect index)

/-- Delivers an event to some targets as long as deliveries are left; says whether there
were enough. -/
def deliverAll (event : Identifier) :
    (targets : List (Except Trap Target)) → Engine μ → Except Trap (Bool × Engine μ)
  | [], engine => pure (true, engine)
  | lookUp :: targets, engine => do
      let target ← lookUp
      let (enough, engine) ← engine.deliver target event
      if enough then deliverAll event targets engine else pure (false, engine)

theorem hops_of_work {index : Nat} {happening : Happening} {engine after : Engine μ}
    (worked : engine.work index happening = .ok after) : after.hops = engine.hops := by
  simp only [work, except_bind_eq_ok_iff] at worked
  rcases worked with ⟨placement, -, cell, -, result, -, done⟩
  cases done
  rfl

theorem hops_of_deliver {target : Target} {event : Identifier} {engine after : Engine μ}
    (delivered : engine.deliver target event = .ok (true, after)) :
    after.hops + 1 = engine.hops := by
  unfold deliver at delivered
  cases left : engine.hops with
  | zero =>
      rw [left] at delivered
      cases delivered
  | succ hops =>
      rw [left] at delivered
      cases target with
      | graphOutput id =>
          simp only at delivered
          split at delivered <;> cases delivered <;> rfl
      | node index input =>
          simp only [except_bind_eq_ok_iff] at delivered
          rcases delivered with ⟨worked, went, done⟩
          cases done
          exact congrArg (· + 1) (hops_of_work went)

/-- Each target costs one delivery, and nothing happens if there is none. -/
theorem hops_of_deliverAll {event : Identifier} {targets : List (Except Trap Target)}
    {engine after : Engine μ} (delivered : engine.deliverAll event targets = .ok (true, after)) :
    after = engine ∨ after.hops < engine.hops := by
  induction targets generalizing engine with
  | nil =>
      cases delivered
      exact .inl rfl
  | cons lookUp targets induction =>
      simp only [deliverAll, except_bind_eq_ok_iff] at delivered
      rcases delivered with ⟨target, -, ⟨enough, middle⟩, went, rest⟩
      cases enough with
      | false => cases rest
      | true =>
          have cost : middle.hops + 1 = engine.hops := hops_of_deliver went
          have later : after = middle ∨ after.hops < middle.hops := induction rest
          rcases later with rfl | fewer <;> omega

/-- Delivers the events that wait, first come first served, and all that gives rise to. -/
def flush (engine : Engine μ) : Except Trap (Engine μ) :=
  match _ : engine.pending with
  | [] => .ok engine
  | (source, emission) :: later =>
      match _ : deliverAll emission.event
          (lookUps (engine.circuit.routes.targets source emission.output))
          { engine with pending := later } with
      | .error trap => .error trap
      | .ok (false, after) => .ok after
      | .ok (true, after) => flush after
termination_by (engine.hops, engine.pending.length)
decreasing_by
  rename_i waiting delivered
  rcases hops_of_deliverAll delivered with rfl | fewer
  · exact .right _ (by simp [waiting])
  · exact .left _ _ fewer

/-- Delivers an event to some targets and then the events that wait. -/
def serve (event : Identifier) (targets : List (Except Trap Target)) (engine : Engine μ) :
    Except Trap (Engine μ) := do
  let (enough, engine) ← engine.deliverAll event targets
  if enough then engine.flush else pure engine

/-- Lets nodes work one after the other, and delivers what each of them fires before the next
one works. Yields the most that any of them has used up. -/
def sweep (happening : Happening) : (indices : List (Except Trap Nat)) → (most : Binary32) →
    Engine μ → Except Trap (Binary32 × Engine μ)
  | [], most, engine => pure (most, engine)
  | lookUp :: indices, most, engine => do
      let index ← lookUp
      let engine ← engine.work index happening
      let most := most.max (engine.state.consumedBy index)
      let engine ← (engine.collect index).flush
      sweep happening indices most engine

/-! ### Calls -/

def setSlot (slot : Slot) (value : Value) (engine : Engine μ) : Except Trap (Engine μ) := do
  let _ ← present engine.state.values[slot]?
  pure { engine with
    state := { engine.state with values := engine.state.values.setIfInBounds slot value }
    journal := #[] }

/-- Writes an input of the graph; `none` if there is no such input. -/
def setInput? (id : Identifier) (value : Value) (engine : Engine μ) :
    Except Trap (Option (Engine μ)) :=
  (engine.circuit.inputSlot? id).mapM fun slot => engine.setSlot slot value

/-- Writes a local variable; `none` if there is no such variable. -/
def setLocal? (id : Identifier) (value : Value) (engine : Engine μ) :
    Except Trap (Option (Engine μ)) :=
  (engine.circuit.localSlot? id).mapM fun slot => engine.setSlot slot value

def init (context : Context) (engine : Engine μ) : Except Trap (Engine μ) :=
  Prod.snd <$> engine.begin.sweep (.init context) (lookUps engine.circuit.order) .zero

/-- One tick. Yields the most that any node used up of the time step. -/
def process (timeStep : Binary32) (engine : Engine μ) : Except Trap (Binary32 × Engine μ) :=
  engine.begin.sweep (.process timeStep) (lookUps engine.circuit.order) .zero

/-- Posts an event to the graph; `none` if no wire starts at it. -/
def post? (id : Identifier) (engine : Engine μ) : Except Trap (Option (Engine μ)) :=
  match engine.circuit.entrance id with
  | [] => pure none
  | targets => some <$> engine.begin.serve id (targets.map .ok)

/-- Hands the waiting output events over one by one, oldest first. -/
def handleOutgoing (receive : σ → Identifier → σ) (state : σ) (engine : Engine μ) :
    σ × Engine μ :=
  let (state, outgoing) := engine.state.outgoing.handOver receive state
  (state, { engine with
    state := { engine.state with outgoing }
    journal := #[] })

def drain (engine : Engine μ) : List Identifier × Engine μ :=
  engine.handleOutgoing (fun drained event => drained ++ [event]) []

def reset (engine : Engine μ) : Engine μ :=
  { engine with
    state := {
      cells := engine.state.cells.map fun cell => { node := Worker.reset cell.node }
      values := engine.circuit.defaults
      outgoing := engine.state.outgoing.clear }
    pending := []
    emitted := #[]
    journal := #[] }

/-- A call that may be refused. A refusal leaves the graph alone and is put on record. -/
def settled (engine : Engine μ) (refusal : Entry) : Option (Engine μ) → Answer × Engine μ
  | some after => (.accepted true, after)
  | none => (.accepted false, { engine with journal := #[refusal] })

def perform (engine : Engine μ) : Call → Except Trap (Answer × Engine μ)
  | .setInput id value =>
      engine.settled (.unknownInput engine.circuit.name id) <$> engine.setInput? id value
  | .setLocal id value =>
      engine.settled (.unknownLocal engine.circuit.name id) <$> engine.setLocal? id value
  | .process timeStep => Prod.map Answer.consumed id <$> engine.process timeStep
  | .post id => engine.settled (.unknownEvent engine.circuit.name id) <$> engine.post? id
  | .drain => pure (engine.drain.map .events id)
  | .reset => pure (.done, engine.reset)
  | .init context => Prod.mk .done <$> engine.init context

/-- The events that are handed over on an errand, and the graph afterwards. -/
def attend (engine : Engine μ) : Errand → Except Trap (List Identifier × Engine μ)
  | .call call => Prod.map Answer.handed id <$> engine.perform call
  | .handle => pure (engine.handleOutgoing (fun handed event => handed ++ [event]) [])

/-- All events that are handed over on some errands, and the graph afterwards. -/
def attendAll (engine : Engine μ) :
    (errands : List Errand) → Except Trap (List Identifier × Engine μ)
  | [] => pure ([], engine)
  | errand :: errands => do
      let (handed, after) ← engine.attend errand
      let (more, last) ← after.attendAll errands
      pure (handed ++ more, last)

end Engine

/-! ## Engines as nodes -/

/-- A graph with its buffers and the plugs that it shows as a node. -/
structure Subengine (μ : Type) where
  engine : Engine μ
  layout : Layout

namespace Subengine

/-- The subroutine that is left if the buffers are left out. -/
def bare (look : μ → ν) (subengine : Subengine μ) : Subroutine ν where
  graph := subengine.engine.toGraph.map look
  layout := subengine.layout

variable [Worker μ]

/-- Sets the graph's inputs to what the node's plugs read, from position `plug` on. -/
def copyIn (panel : Panel) :
    (plug : Nat) → (plugs : List Endpoint) → Engine μ → Except Trap (Engine μ)
  | _, [], engine => pure engine
  | plug, endpoint :: plugs, engine => do
      let set ← engine.setInput? endpoint.id (panel.input plug)
      copyIn panel (plug + 1) plugs (set.getD engine)

/-- Writes the graph's outputs to the node's plugs, from position `plug` on. -/
def copyOut (engine : Engine μ) :
    (plug : Nat) → (plugs : List Endpoint) → Panel → Except Trap Panel
  | _, [], panel => pure panel
  | plug, endpoint :: plugs, panel => do
      let shown ← engine.readOutput? endpoint.id
      copyOut engine (plug + 1) plugs
        (match shown with
        | some value => panel.setOutput plug value
        | none => panel)

/-- Fires an event on the output of its own name. -/
def fire (layout : Layout) (panel : Panel) (event : Identifier) : Panel :=
  match layout.outputEventIndex? event with
  | some output => panel.emit ⟨output, event⟩
  | none => panel

/-- Passes on the waiting events of the graph. -/
def forward (layout : Layout) (engine : Engine μ) (panel : Panel) : Subengine μ × Panel :=
  let (panel, engine) := engine.handleOutgoing (fire layout) panel
  (⟨engine, layout⟩, panel)

/-- What the graph has put on record is passed on as well. -/
def record (engine : Engine μ) (panel : Panel) : Panel :=
  { panel with journal := panel.journal ++ engine.journal }

def work : Happening → Cell (Subengine μ) → Panel → Except Trap (Cell (Subengine μ) × Panel)
  | .init context, cell, panel => do
      let engine ← cell.node.engine.init context
      let (node, panel) := forward cell.node.layout engine (record engine panel)
      pure ({ cell with node }, panel)
  | .process timeStep, cell, panel => do
      let engine ← copyIn panel 0 cell.node.layout.inputs cell.node.engine
      let (consumed, engine) ← engine.process timeStep
      let panel ← copyOut engine 0 cell.node.layout.outputs (record engine panel)
      let (node, panel) := forward cell.node.layout engine panel
      pure ({ node, consumed }, panel)
  | .onEvent input _, cell, panel =>
      match cell.node.layout.inputEvents[input]? with
      | none => pure (cell, panel)
      | some id => do
          let posted ← cell.node.engine.post? id
          let (node, panel) :=
            match posted with
            | some engine => forward cell.node.layout engine (record engine panel)
            | none => forward cell.node.layout cell.node.engine panel
          pure ({ cell with node }, panel)

instance : Worker (Subengine μ) where
  work := work
  reset subengine := { subengine with engine := subengine.engine.reset }

end Subengine

/-! ## Nesting -/

/-- Nodes of type `κ`, and graphs of them nested at most `room` deep, all with their
buffers. -/
def Engines (κ : Type) : (room : Nat) → Type
  | 0 => κ
  | room + 1 => κ ⊕ Subengine (Engines κ room)

namespace Engines

@[reducible] def worker [Processor κ] : (room : Nat) → Worker (Engines κ room)
  | 0 => (Worker.ofProcessor : Worker κ)
  | room + 1 =>
      letI : Worker κ := Worker.ofProcessor
      letI : Worker (Engines κ room) := worker room
      inferInstanceAs (Worker (κ ⊕ Subengine (Engines κ room)))

instance [Processor κ] (room : Nat) : Worker (Engines κ room) :=
  worker room

end Engines

/-- The node with buffers for all graphs inside of it, as they are compiled. -/
def Nested.buffered : {room : Nat} → Nested κ room → Engines κ room
  | 0 => id
  | _ + 1 => Sum.map id fun inside =>
      ⟨Engine.ofGraph (inside.graph.map Nested.buffered), inside.layout⟩

/-- The graph with buffers for it and for all graphs inside of it, as they are compiled. -/
def Graph.buffered (graph : Graph (Nested κ room)) : Engine (Engines κ room) :=
  Engine.ofGraph (graph.map Nested.buffered)

/-- A node of which the buffers inside are left out. -/
def Engines.bare : {room : Nat} → Engines κ room → Nested κ room
  | 0 => id
  | _ + 1 => Sum.map id (Subengine.bare Engines.bare)

/-- A graph of which the buffers, its own and those inside, are left out. -/
def Engine.bare (engine : Engine (Engines κ room)) : Graph (Nested κ room) :=
  engine.toGraph.map Engines.bare

/-- A graph with its buffers is what one comes to by entering the nodes at some
positions. -/
inductive Engine.Contains : {outer inner : Nat} → Engine (Engines κ outer) →
    (path : List Nat) → Engine (Engines κ inner) → Prop
  | itself {room : Nat} (engine : Engine (Engines κ room)) : Contains engine [] engine
  | inside {outer inner : Nat} {engine : Engine (Engines κ (outer + 1))} {index : Nat}
      {subengine : Subengine (Engines κ outer)} {consumed : Binary32} {path : List Nat}
      {part : Engine (Engines κ inner)}
      (found : engine.state.cells[index]? = some ⟨.inr subengine, consumed⟩)
      (below : Contains subengine.engine path part) : Contains engine (index :: path) part

end NodeGraph
