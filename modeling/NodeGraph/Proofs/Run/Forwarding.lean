import NodeGraph.Proofs.Compile.Acceptance
import NodeGraph.Proofs.Compile.Places
import NodeGraph.Proofs.Run.Budget
import NodeGraph.Proofs.Run.Coherence
import NodeGraph.Proofs.Run.Outgoing

namespace NodeGraph

/-! The boundary of a subroutine loses nothing and invents nothing. Every plug of
the node is an endpoint of the graph inside; nothing waits inside while the graph
around it runs; and the events that the node fires are those that the queue inside
accepted, in that order. The plugs are read off the connections by one rule and
the routes by another, so what has to be seen is that the two agree. -/

/-! ## Graphs inside, in the middle of a call -/

/-- One comes to a graph by entering the nodes at some positions while calls are
under way. A turn of the surrounding graph has come to some state; the graph
inside is as it was left, or its inputs have been set for a tick. -/
inductive Graph.Finds [Processor κ] : {outer inner : Nat} → Graph (Nested κ outer) →
    (path : List Nat) → Graph (Nested κ inner) → Prop
  | itself {room : Nat} (graph : Graph (Nested κ room)) : Finds graph [] graph
  | inside {outer inner : Nat} {graph : Graph (Nested κ (outer + 1))}
      {state : State (Nested κ (outer + 1))} {index : Nat}
      {subroutine : Subroutine (Nested κ outer)} {begun : Graph (Nested κ outer)}
      {path : List Nat} {part : Graph (Nested κ inner)}
      (passes : graph.circuit.Passes graph.state state)
      (found : state.subroutine? index = some subroutine)
      (begins : begun = subroutine.graph ∨ ∃ panel, begun = subroutine.entered panel)
      (below : Finds begun path part) : Finds graph (index :: path) part

/-- What lies inside between calls is found there. -/
theorem Graph.Contains.finds [Processor κ] {outer inner : Nat} {graph : Graph (Nested κ outer)}
    {path : List Nat} {part : Graph (Nested κ inner)} (contains : graph.Contains path part) :
    graph.Finds path part := by
  induction contains with
  | itself graph => exact .itself graph
  | inside found below induction =>
      exact .inside Relation.ReflTransGen.refl found (.inl rfl) induction

/-! ## Nothing waits inside -/

namespace Subroutine

variable [Processor ν]

/-- No event waits in the graph inside the node. -/
def Quiet (subroutine : Subroutine ν) : Prop :=
  subroutine.graph.state.outgoing.waiting = []

/-- Whatever happens to the node, it ends with its graph being drained. -/
theorem quiet_keeps : Processor.Keeps (Quiet (ν := ν)) where
  init context subroutine panel _ := by
    rw [Quiet]
    exact congrArg (fun after : Subroutine ν => after.graph.state.outgoing.waiting)
      (init_result context subroutine panel)
  process timeStep subroutine panel _ := by
    rw [Quiet]
    exact congrArg (fun after : Subroutine ν => after.graph.state.outgoing.waiting)
      (process_result timeStep subroutine panel)
  onEvent input event subroutine panel before := by
    have result := onEvent_result input subroutine panel
    show Quiet ((subroutine.onEvent input).run panel).1
    rw [result]
    split
    · exact before
    · rfl
  reset subroutine _ := rfl

/-- Setting inputs of a graph queues nothing. -/
theorem settings_outgoing (panel : Panel) (plug : Nat) (plugs : List Endpoint)
    (graph : Graph ν) :
    (graph.afterCalls (settings panel plug plugs)).state.outgoing = graph.state.outgoing := by
  induction plugs generalizing plug graph with
  | nil => rfl
  | cons endpoint plugs induction =>
      rw [settings, Graph.afterCalls_cons, induction, Graph.perform_setInput]
      cases set : graph.setInput? endpoint.id (panel.input plug) with
      | none => rfl
      | some after =>
          rcases Option.map_eq_some_iff.mp set with ⟨slot, -, rfl⟩
          rfl

/-- So the call that something comes to finds nothing waiting inside. -/
theorem Quiet.inward {subroutine : Subroutine ν} (quiet : subroutine.Quiet) {panel : Panel}
    {happening : Happening} {graph : Graph ν} {call : Call}
    (entered : subroutine.inward panel happening = some (graph, call)) :
    graph.state.outgoing.waiting = [] := by
  cases happening with
  | init context =>
      cases entered
      exact quiet
  | process timeStep =>
      cases entered
      rw [Subroutine.entered, settings_outgoing]
      exact quiet
  | onEvent input event =>
      simp only [Subroutine.inward, Option.map_eq_some_iff, Prod.mk.injEq] at entered
      rcases entered with ⟨id, -, rfl, -⟩
      exact quiet

end Subroutine

/-- No event waits inside a node; if it is no subroutine, there is nothing inside. -/
def Nested.Quiet : Nested κ (room + 1) → Prop :=
  Sum.elim (fun _ => True) Subroutine.Quiet

theorem Nested.quiet_keeps [Processor κ] :
    Processor.Keeps (@Nested.Quiet κ room) :=
  .sum ⟨fun _ _ _ => id, fun _ _ _ => id, fun _ _ _ _ => id, fun _ => id⟩ Subroutine.quiet_keeps

namespace Compile

variable [Processor κ] {registry : Registry κ} {config : Config} {prototype nested : Prototype}
  {room : Nat}

theorem Reachable.every_quiet {graph : Graph (Nested κ (room + 1))}
    (reachable : Reachable registry config prototype graph) :
    graph.state.Every fun _ => Nested.Quiet := by
  rcases reachable with ⟨built, calls, compiled, rfl⟩
  refine Graph.afterCalls_keeps (built.circuit.keeps_every fun _ => Nested.quiet_keeps) ?_ calls
  intro index cell present
  rcases build_eq_ok_iff.mp compiled with ⟨nodes, wires, order, created, -, rfl⟩
  rcases Graph.pristine_cell.mp present with ⟨node, made, rfl⟩
  have bound : index < prototype.nodes.length :=
    created.length_eq ▸ (List.getElem?_eq_some_iff.mp made).1
  rcases createNested_eq_ok_iff.mp
    (forall₂_getElem? created (List.getElem?_eq_getElem bound) made) with
    ⟨-, plain, -, rfl⟩ | ⟨inner, graph, -, compiledInside, rfl⟩
  · trivial
  · rcases build_eq_ok compiledInside with ⟨_, _, _, -, -, rfl⟩
    rfl

/-- What is known of a subroutine in the middle of a turn of the graph around it. -/
theorem Reachable.subroutine_suits {graph : Graph (Nested κ (room + 1))}
    (reachable : Reachable registry config prototype graph) {state : State (Nested κ (room + 1))}
    (passes : graph.circuit.Passes graph.state state) {index : Nat}
    {subroutine : Subroutine (Nested κ room)}
    (present : state.subroutine? index = some subroutine) :
    ∃ placed nested placement, prototype.nodes[index]? = some placed ∧
      placed.subroutine = some nested ∧ graph.circuit.placements[index]? = some placement ∧
      subroutine.layout = Subroutine.layoutOf nested ∧
      Reachable registry config nested subroutine.graph ∧ subroutine.Quiet := by
  rcases State.subroutine?_eq_some_iff.mp present with ⟨consumed, held⟩
  have fits : state.Fits graph.circuit :=
    graph.circuit.keeps_fits.toTurns.passes passes reachable.fits
  have bound : index < graph.circuit.placements.size :=
    fits.cells ▸ (Array.getElem?_eq_some_iff.mp held).1
  have located := Array.getElem?_eq_getElem bound
  have listed := List.getElem?_eq_getElem (reachable.placements_size ▸ bound)
  rcases (turns_suit registry config prototype graph.circuit).passes passes reachable.every_suits
    index _ held _ listed with ⟨nested, composite, plugs, inside⟩
  have quiet := (graph.circuit.keeps_every fun _ => Nested.quiet_keeps).toTurns.passes passes
    reachable.every_quiet index _ held
  exact ⟨_, nested, _, listed, composite, located, plugs, inside, quiet⟩

/-- Whatever graph one comes to in the middle of calls is reachable from the
prototype that lies at the same place. -/
theorem Reachable.of_finds {inner : Nat} {graph : Graph (Nested κ room)}
    {part : Graph (Nested κ inner)} {path : List Nat}
    (reachable : Reachable registry config prototype graph) (finds : graph.Finds path part) :
    ∃ nested, prototype.inside? path = some nested ∧ Reachable registry config nested part := by
  induction finds generalizing prototype with
  | itself graph => exact ⟨prototype, rfl, reachable⟩
  | @inside _ _ _ _ index subroutine begun _ _ passes found begins _ induction =>
      rcases reachable.subroutine_suits passes found with
        ⟨placed, nested, -, listed, composite, -, -, inside, -⟩
      have begunReachable : Reachable registry config nested begun := by
        rcases begins with rfl | ⟨panel, rfl⟩
        · exact inside
        · exact inside.afterCalls _
      rcases induction begunReachable with ⟨deeper, place, deepest⟩
      exact ⟨deeper, by simpa [Prototype.inside?, listed, composite] using place, deepest⟩

/-! ## The plugs are there -/

theorem Reachable.accepts_setInput {graph : Graph (Nested κ room)}
    (reachable : Reachable registry config nested graph) {plug : Endpoint}
    (listed : plug ∈ (Subroutine.layoutOf nested).inputs) (value : Value) :
    (graph.perform (.setInput plug.id value)).2.1 = .accepted true := by
  rcases Assembly.exists_lastSlot?_number 0 ⟨plug, (List.mem_filter.mp listed).1, BEq.rfl⟩ with
    ⟨slot, located⟩
  have inputSlot : graph.circuit.inputSlot? plug.id = some slot := by
    rw [Circuit.inputSlot?, reachable.inputs_eq]
    exact located
  simp [Graph.perform, Graph.setInput?, inputSlot, Graph.settled]

theorem Reachable.accepts_post {graph : Graph (Nested κ room)}
    (reachable : Reachable registry config nested graph) {id : Identifier}
    (listed : id ∈ (Subroutine.layoutOf nested).inputEvents) :
    (graph.perform (.post id)).2.1 = .accepted true := by
  rcases graph.perform_post id with ⟨taken, -⟩ | ⟨-, -, nowhere⟩
  · exact taken
  · exact absurd nowhere (reachable.inputEvent_leads listed)

theorem Reachable.shows_output {graph : Graph (Nested κ room)}
    (reachable : Reachable registry config nested graph) {plug : Endpoint}
    (listed : plug ∈ (Subroutine.layoutOf nested).outputs) :
    ∃ value, graph.readOutput? plug.id = some value :=
  reachable.exists_readOutput? (List.mem_filter.mp listed).1

/-! ## What waits inside -/

/-- Events that are led to an output of the graph are led to an output event of
the node: the plugs and the routes are read off the same connections. -/
theorem Reachable.leadsTo_outputEvent {graph : Graph (Nested κ room)}
    (reachable : Reachable registry config nested graph) {id : Identifier}
    (leads : graph.circuit.LeadsTo (.graphOutput id)) :
    id ∈ (Subroutine.layoutOf nested).outputEvents := by
  rcases reachable.exists_of_leadsTo leads with ⟨connection, member, isEvent, ends⟩
  rcases Endpoints.eventTarget_eq_graphOutput_iff.mp ends with ⟨notNode, declared⟩
  have same := Endpoints.declared_beq declared
  rcases Option.map_eq_some_iff.mp (Endpoints.declared_eq_ok_iff.mp declared) with
    ⟨output, located, rfl⟩
  have scope : connection.kind.destinationScope = .graph := by
    revert notNode
    cases connection.kind <;> simp [ConnectionKind.destinationScope]
  have isEventOutput : Subroutine.isEventOutput nested output.id = true := by
    apply List.any_eq_true.mpr
    exact ⟨connection, member, by simp [isEvent, scope, BEq.symm same]⟩
  exact List.mem_map_of_mem
    (List.mem_filter.mpr ⟨List.mem_of_find?_eq_some located, isEventOutput⟩)

/-- Whatever is done to a graph, only events that are led to its outputs wait. -/
theorem keeps_waiting (circuit : Circuit) [Processor ν] :
    circuit.Keeps fun state : State ν =>
      ∀ id ∈ state.outgoing.waiting, circuit.LeadsTo (.graphOutput id) where
  runs index happening state before := by
    rw [State.runCell_outgoing]
    exact before
  queues state id outgoing leads queued before := by
    intro other waits
    rw [OutgoingQueue.push?_waiting queued] at waits
    rcases List.mem_append.mp waits with earlier | last
    · exact before other earlier
    · rw [List.mem_singleton] at last
      exact last ▸ leads
  sets state slot value before := before
  drains state before := by
    intro id waits
    cases waits
  resets state before := by
    intro id waits
    cases waits

end Compile

namespace Subroutine

/-- What a node with that layout fires for a call into the graph inside it. -/
structure Forwards [Processor ν] (layout : Layout) (graph : Graph ν) (call : Call)
    (emitted : List Emission) : Prop where
  /-- Nothing was waiting when the call came. -/
  nothing_waits : graph.state.outgoing.waiting = []
  /-- Whatever comes to wait in the course of the call is an output event of the
  node. -/
  waits : ∀ state, graph.circuit.Passes graph.state state →
    ∀ id ∈ state.outgoing.waiting, id ∈ layout.outputEvents
  /-- The node fires what the queue inside accepted, in that order, each once. -/
  events : emitted.map Emission.event =
    graph.state.outgoing.accepted (outputsOf (graph.perform call).2.2.toList)
  /-- Each event is fired on the output of its name. -/
  outputs : ∀ emission ∈ emitted,
    layout.outputEventIndex? emission.event = some emission.output

/-- If they all are output events of the node, every one of some events is fired. -/
theorem fired_events {layout : Layout} {events : List Identifier}
    (known : ∀ event ∈ events, event ∈ layout.outputEvents) :
    (fired layout events).map Emission.event = events := by
  induction events with
  | nil => rfl
  | cons event events induction =>
      have rest := induction fun later member => known later (.tail _ member)
      have listed : ∃ other ∈ layout.outputEvents, (other == event) = true :=
        ⟨event, known event (.head _), BEq.rfl⟩
      rcases exists_findIdx?_iff.mpr listed with ⟨output, found⟩
      have located : layout.outputEventIndex? event = some output := found
      simp only [fired, List.filterMap_cons, located, Option.map_some, List.map_cons]
      exact congrArg (event :: ·) rest

theorem fired_outputs {layout : Layout} {events : List Identifier} {emission : Emission}
    (member : emission ∈ fired layout events) :
    layout.outputEventIndex? emission.event = some emission.output := by
  rcases List.mem_filterMap.mp member with ⟨event, -, made⟩
  rcases Option.map_eq_some_iff.mp made with ⟨output, located, rfl⟩
  exact located

end Subroutine

namespace Compile

variable [Processor κ] {registry : Registry κ} {config : Config} {prototype nested : Prototype}
  {room : Nat}

theorem Reachable.forwards {subroutine : Subroutine (Nested κ room)}
    (reachable : Reachable registry config nested subroutine.graph)
    (plugs : subroutine.layout = Subroutine.layoutOf nested) (quiet : subroutine.Quiet)
    {panel : Panel} {happening : Happening} {graph : Graph (Nested κ room)} {call : Call}
    (entered : subroutine.inward panel happening = some (graph, call)) :
    Subroutine.Forwards subroutine.layout graph call
      (Subroutine.fired subroutine.layout (graph.perform call).1.state.outgoing.waiting) := by
  have nothing := quiet.inward entered
  have begun := (reachable.inward plugs entered).1
  have start : ∀ id ∈ graph.state.outgoing.waiting, graph.circuit.LeadsTo (.graphOutput id) := by
    rw [nothing]
    intro id waits
    cases waits
  have known (state : State (Nested κ room))
      (waits : ∀ id ∈ state.outgoing.waiting, graph.circuit.LeadsTo (.graphOutput id)) :
      ∀ id ∈ state.outgoing.waiting, id ∈ subroutine.layout.outputEvents := fun id member =>
    plugs ▸ begun.leadsTo_outputEvent (waits id member)
  have noDrain : call ≠ .drain ∧ call ≠ .reset := by
    cases happening with
    | onEvent input event =>
        simp only [Subroutine.inward, Option.map_eq_some_iff, Prod.mk.injEq] at entered
        rcases entered with ⟨id, -, -, rfl⟩
        simp
    | _ =>
        cases entered
        simp
  have ended := Graph.perform_keeps (keeps_waiting graph.circuit) start call
  refine ⟨nothing, fun state passes => known state
    ((keeps_waiting graph.circuit).toTurns.passes passes start), ?_, fun emission member =>
    Subroutine.fired_outputs member⟩
  rw [Subroutine.fired_events (known _ ended), graph.perform_outgoing noDrain.1 noDrain.2,
    OutgoingQueue.waiting_after, nothing, List.nil_append]

/-- The boundary of a subroutine loses and invents nothing. In every state that a
graph comes to in the middle of a turn, at any depth: each value input of a
subroutine can be set in the graph inside and each value output read from it, each
input event is taken, and nothing waits inside. Whatever happens to the node, it
fires the events that the queue inside accepts in that call, in that order, each
once and on the output of its name; an event on an input that the node does not
have fires nothing. -/
theorem Reachable.boundary_exact {inner : Nat} {graph : Graph (Nested κ room)}
    (reachable : Reachable registry config prototype graph) {path : List Nat}
    {part : Graph (Nested κ (inner + 1))} (finds : graph.Finds path part)
    {state : State (Nested κ (inner + 1))} (passes : part.circuit.Passes part.state state)
    {index : Nat} {subroutine : Subroutine (Nested κ inner)}
    (present : state.subroutine? index = some subroutine) :
    (∀ plug ∈ subroutine.layout.inputs, ∀ value,
      (subroutine.graph.perform (.setInput plug.id value)).2.1 = .accepted true) ∧
    (∀ plug ∈ subroutine.layout.outputs,
      ∃ value, subroutine.graph.readOutput? plug.id = some value) ∧
    (∀ id ∈ subroutine.layout.inputEvents,
      (subroutine.graph.perform (.post id)).2.1 = .accepted true) ∧
    subroutine.graph.state.outgoing.waiting = [] ∧
    ∃ placement, part.circuit.placements[index]? = some placement ∧
      ∀ happening : Happening,
        let emitted := (state.runCell part.circuit index happening.program).2.1.toList
        match subroutine.inward (placement.window state.values) happening with
        | none => emitted = []
        | some (begun, call) => Subroutine.Forwards subroutine.layout begun call emitted := by
  rcases reachable.of_finds finds with ⟨surrounding, -, partReachable⟩
  rcases partReachable.subroutine_suits passes present with
    ⟨placed, nested, placement, -, -, located, plugs, inside, quiet⟩
  refine ⟨fun plug listed => inside.accepts_setInput (plugs ▸ listed),
    fun plug listed => inside.shows_output (plugs ▸ listed),
    fun id listed => inside.accepts_post (plugs ▸ listed), quiet, placement, located, ?_⟩
  intro happening emitted
  cases entered : subroutine.inward (placement.window state.values) happening with
  | none =>
      exact congrArg (fun told : Array Emission × Array Entry => told.1.toList)
        (State.runCell_nothing located present entered)
  | some entry =>
      rcases entry with ⟨begun, call⟩
      have fired : emitted = Subroutine.fired subroutine.layout
          (begun.perform call).1.state.outgoing.waiting :=
        congrArg (fun told : Array Emission × Array Entry => told.1.toList)
          (State.runCell_inward located present entered (inside.inward plugs entered).2)
      rw [fired]
      exact inside.forwards plugs quiet entered

/-- A graph that counts events, starting over at some count, and says of each that
it has been counted. -/
def clicker : Prototype where
  name := "Inner"
  id := 2
  inputs := [⟨.named "Limit", .int32 0⟩, ⟨.named "Click", .void⟩]
  outputs := [⟨.named "Clicks", .int32 0⟩, ⟨.named "Clicked", .void⟩]
  locals := []
  nodes := [⟨.named "Trigger Counter", 1, [], none⟩]
  connections := [
    ⟨⟨graphNodeId, .named "Limit"⟩, ⟨1, .named "ResetCount"⟩, .graphValueToNode⟩,
    ⟨⟨graphNodeId, .named "Click"⟩, ⟨1, .named "Trigger"⟩, .graphEventToNode⟩,
    ⟨⟨1, .named "Count"⟩, ⟨graphNodeId, .named "Clicks"⟩, .nodeValueToGraph⟩,
    ⟨⟨1, .named "OnTrigger"⟩, ⟨graphNodeId, .named "Clicked"⟩, .nodeEventToGraph⟩]

/-- A graph around `clicker`. -/
def clickerInside : Prototype where
  name := "Outer"
  id := 1
  inputs := [⟨.named "Click", .void⟩]
  outputs := []
  locals := []
  nodes := [⟨.named "Clicker", 1, [], some clicker⟩]
  connections := [⟨⟨graphNodeId, .named "Click"⟩, ⟨1, .named "Click"⟩, .graphEventToNode⟩]

/-- The node of `clickerInside` takes a click and fires what its graph has queued,
one event. -/
theorem clickerInside_boundary_exact :
    ∃ (graph : Graph (Nested StandardNode 1)) (subroutine : Subroutine (Nested StandardNode 0)),
      Reachable counters Config.default clickerInside graph ∧
      graph.state.subroutine? 0 = some subroutine ∧
      subroutine.layout = Subroutine.layoutOf clicker ∧
      (subroutine.graph.perform (.setInput (.named "Limit") (.int32 3))).2.1 = .accepted true ∧
      (∃ value, subroutine.graph.readOutput? (.named "Clicks") = some value) ∧
      (subroutine.graph.perform (.post (.named "Click"))).2.1 = .accepted true ∧
      subroutine.graph.state.outgoing.waiting = [] ∧
      let emitted := (graph.state.runCell graph.circuit 0
        (Happening.onEvent 0 (.named "Click")).program).2.1.toList
      Subroutine.Forwards subroutine.layout subroutine.graph (.post (.named "Click")) emitted ∧
      emitted.length = 1 := by
  have holds : ((build counters Config.default 1 clickerInside).outcome.toOption.any fun graph =>
      (graph.state.subroutine? 0).any fun _ =>
        (graph.state.runCell graph.circuit 0
          (Happening.onEvent 0 (.named "Click")).program).2.1.toList.length == 1) = true := by
    decide +kernel
  rcases exists_of_any holds with ⟨graph, compiled, fires⟩
  rw [Option.any_eq_true] at fires
  rcases fires with ⟨subroutine, present, one⟩
  have reachable : Reachable counters Config.default clickerInside graph :=
    ⟨graph, [], compiled, rfl⟩
  rcases reachable.subroutine_suits Relation.ReflTransGen.refl present with
    ⟨placed, nested, -, listed, composite, -, plugs, -⟩
  cases listed
  cases composite
  rcases reachable.boundary_exact (.itself graph) Relation.ReflTransGen.refl present with
    ⟨inputs, outputs, events, quiet, placement, -, happens⟩
  have click : subroutine.inward (placement.window graph.state.values)
      (.onEvent 0 (.named "Click")) = some (subroutine.graph, .post (.named "Click")) := by
    simp only [Subroutine.inward, plugs]
    rfl
  have forwards := happens (.onEvent 0 (.named "Click"))
  rw [click] at forwards
  refine ⟨graph, subroutine, reachable, present, plugs, ?_, ?_, ?_, quiet, forwards, eq_of_beq one⟩
  · exact inputs ⟨.named "Limit", .int32 0⟩ (by rw [plugs]; exact .head _) _
  · exact outputs ⟨.named "Clicks", .int32 0⟩ (by rw [plugs]; exact .head _)
  · exact events (.named "Click") (by rw [plugs]; exact .head _)

end Compile

end NodeGraph
