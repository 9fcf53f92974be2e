import NodeGraph.Proofs.Engine.Nesting
import NodeGraph.Proofs.Run.Delivery
import NodeGraph.Proofs.Run.Parts

namespace NodeGraph

/-! What the representation of a graph can be relied on for. Main statement: whatever a host
does to a compiled graph, no look-up by position goes wrong; and afterwards, in the graph and
in every graph inside of it, every position that could be looked up exists, every slot that a
node writes is its own, the outgoing queue is within its bounds, and both buffers are
empty. -/

/-- Errands are calls, if it does not matter how the waiting events are taken. -/
def Errand.asCall : Errand → Call
  | .call asked => asked
  | .handle => .drain

theorem Graph.attendAll_eq_afterCalls [Processor ν] (graph : Graph ν) (errands : List Errand) :
    (graph.attendAll errands).2 = graph.afterCalls (errands.map Errand.asCall) := by
  induction errands generalizing graph with
  | nil => rfl
  | cons errand errands induction =>
      have first : (graph.attend errand).2 = (graph.perform errand.asCall).1 := by
        cases errand with
        | call call => rfl
        | handle => exact congrArg Prod.snd graph.attend_handle
      rw [List.map_cons, Graph.afterCalls_cons, ← first]
      exact induction _

namespace Compile

variable [Processor κ] {registry : Registry κ} {config : Config} {prototype : Prototype}
  {room : Nat}

/-- What a graph with its buffers can be relied on for. `built` is the graph as it was
compiled from the prototype. -/
structure Sound (registry : Registry κ) (config : Config) (prototype : Prototype)
    (built : Graph (Nested κ room)) (engine : Engine (Engines κ room)) : Prop where
  circuit_eq : engine.circuit = built.circuit
  circuit_sound : engine.circuit.Sound (endpointsOf registry prototype)
  cells_size : engine.state.cells.size = prototype.nodes.length
  values_size : engine.state.values.size = built.state.values.size
  defaults_size : engine.circuit.defaults.size = engine.state.values.size
  outgoing_within : engine.state.outgoing.Within config.eventQueueCapacity.toNat
  nothing_pending : engine.pending = []
  nothing_emitted : engine.emitted = #[]
  reads_outputs : ∀ id, engine.readOutput? id = .ok (engine.bare.readOutput? id)
  reads_consumed : ∀ id, engine.consumed? id = .ok (engine.bare.consumed? id)
  reads_order : engine.orderIds = .ok engine.circuit.orderIds

/-- Everything that a compiled circuit leads to is there. -/
theorem Reachable.grounded {graph : Graph (Nested κ room)}
    (reachable : Reachable registry config prototype graph) : graph.circuit.Grounded := by
  have sound := reachable.circuit_sound
  have size := reachable.placements_size
  exact {
    order_nodup := sound.order_perm.nodup_iff.mpr List.nodup_range
    order_exists := by
      intro index listed
      rw [sound.order_perm.mem_iff, List.mem_range] at listed
      exact size ▸ listed
    targets_exist := by
      intro index input leads
      rcases sound.targets_exist index input leads with ⟨layout, listed, -⟩
      have bound := (List.getElem?_eq_some_iff.mp listed).1
      rw [endpointsOf_complete] at bound
      exact size ▸ bound
    tables_exist := sound.tables_exist }

/-- If nothing is left over inside of its nodes, nothing is left over in a compiled graph. -/
theorem Reachable.idle_of_nodes {graph : Graph (Nested κ room)}
    (reachable : Reachable registry config prototype graph)
    (nodes : graph.state.Every fun _ node => Engines.Quiet node.buffered) :
    graph.buffered.Idle Engines.Quiet := by
  have fits := reachable.fits
  refine ⟨⟨reachable.grounded, ⟨?_, fits.values⟩, ?_⟩, rfl, rfl⟩
  · simpa [Graph.buffered, Engine.ofGraph, Graph.map, State.map] using fits.cells
  · intro index cell found
    simp only [Graph.buffered, Engine.ofGraph, Graph.map, State.map, Array.getElem?_map,
      Option.map_eq_some_iff] at found
    rcases found with ⟨earlier, present, rfl⟩
    exact nodes index earlier present

/-- Fresh buffers hold nothing, at any depth: the graphs inside of a compiled graph have been
compiled, too. -/
theorem Reachable.idle {graph : Graph (Nested κ room)}
    (reachable : Reachable registry config prototype graph) :
    graph.buffered.Idle Engines.Quiet := by
  induction room generalizing prototype with
  | zero => exact reachable.idle_of_nodes fun _ _ _ => trivial
  | succ room induction =>
      apply reachable.idle_of_nodes
      intro index cell present
      rcases reachable.suits present with ⟨placed, -, suits⟩
      obtain ⟨node | inside, consumed⟩ := cell
      · trivial
      · rcases suits with ⟨nested, -, -, entered⟩
        exact induction entered

/-- Whatever is done to a compiled graph, every part of it is as sound as it was compiled. -/
theorem sound_of_rests {built : Graph (Nested κ room)}
    (compiled : (build registry config room prototype).outcome = .ok built) {calls : List Call}
    {engine : Engine (Engines κ room)}
    (rests : engine.Rests Engines.bare Engines.Quiet (built.afterCalls calls)) :
    Sound registry config prototype built engine := by
  have fresh : Reachable registry config prototype built := ⟨built, [], compiled, rfl⟩
  have reachable := fresh.afterCalls calls
  have fits := reachable.fits
  have circuits : engine.circuit = built.circuit :=
    (congrArg Graph.circuit rests.graph_eq).trans (Graph.afterCalls_circuit built calls)
  have same : engine.bare = built.afterCalls calls := rests.graph_eq
  exact {
    circuit_eq := circuits
    circuit_sound := circuits ▸ fresh.circuit_sound
    cells_size := by
      rw [rests.ready.fits.cells, circuits, fresh.placements_size]
    values_size := by rw [rests.ready.fits.values, circuits, fresh.fits.values]
    defaults_size := rests.ready.fits.values.symm
    outgoing_within := by
      have within := reachable.within
      rw [← same] at within
      exact within
    nothing_pending := rests.pending
    nothing_emitted := rests.emitted
    reads_outputs := (rests.toIdle.rests _).readOutput?
    reads_consumed := (rests.toIdle.rests _).consumed?
    reads_order := (rests.toIdle.rests Engines.bare).orderIds }

/-- Whatever a host does to a compiled graph, no look-up goes wrong, and the buffers make no
difference to what it gets. Afterwards every graph that one comes to inside, at any depth, has
its buffers, is the one that has been compiled from the prototype at the same place, and is as
sound as it was then. -/
theorem engines_sound {built : Graph (Nested κ room)}
    (compiled : (build registry config room prototype).outcome = .ok built)
    (errands : List Errand) :
    ∃ engine, built.buffered.attendAll errands = .ok ((built.attendAll errands).1, engine) ∧
      engine.bare = (built.attendAll errands).2 ∧
      (∀ {inner : Nat} {path : List Nat} {part : Graph (Nested κ inner)},
        (built.attendAll errands).2.Contains path part →
          ∃ buffered : Engine (Engines κ inner), engine.Contains path buffered ∧
            buffered.bare = part) ∧
      ∀ {inner : Nat} {path : List Nat} {part : Engine (Engines κ inner)},
        engine.Contains path part → ∃ nested original, prototype.inside? path = some nested ∧
          (build registry config inner nested).outcome = .ok original ∧
          Sound registry config nested original part := by
  have fresh : Reachable registry config prototype built := ⟨built, [], compiled, rfl⟩
  have start : built.buffered.Rests Engines.bare Engines.Quiet built :=
    ⟨fresh.idle, built.bare_buffered⟩
  rcases start.attendAll (Engines.refines room) errands with ⟨engine, attended, rests⟩
  have same : engine.bare = (built.attendAll errands).2 := rests.graph_eq
  refine ⟨engine, attended, same, fun contains => Engine.exists_contains (same ▸ contains),
    fun {inner path part} contains => ?_⟩
  have reachable : Reachable registry config prototype engine.bare := by
    rw [same, Graph.attendAll_eq_afterCalls]
    exact fresh.afterCalls _
  rcases reachable.part contains.bare with ⟨nested, place, original, calls, rebuilt, equal⟩
  exact ⟨nested, original, place, rebuilt,
    sound_of_rests rebuilt ⟨rests.toIdle.part contains, equal⟩⟩

/-- A graph with another one inside, in which events go round. -/
def roundaboutInside : Prototype where
  name := "Outer"
  id := 1
  inputs := [⟨.named "Start", .void⟩]
  outputs := []
  locals := []
  nodes := [⟨.named "Ring", 7, [], some roundabout⟩]
  connections := [
    ⟨⟨graphNodeId, .named "Start"⟩, ⟨7, .named "Start"⟩, .graphEventToNode⟩]

/-- The start is posted, and then the host has a look at what has come of it. -/
def startAndListen : List Errand :=
  [.call (.post (.named "Start")), .handle]

/-- In the graph inside of the first node, the deliveries have run out. -/
def exhaustedInside (journal : Array Entry) : Bool :=
  journal.any fun entry =>
    match entry with
    | .inside 0 (.exhausted ..) => true
    | _ => false

/-- Inside, the deliveries run out with an event waiting, and yet nothing is left over. -/
theorem roundaboutInside_engines_sound :
    ∃ (built : Graph (Nested StandardNode 1)) (engine : Engine (Engines StandardNode 1))
      (part : Engine (Engines StandardNode 0)),
      (build elements twoHops 1 roundaboutInside).outcome = .ok built ∧
      exhaustedInside (built.perform (.post (.named "Start"))).2.2 = true ∧
      (built.buffered.attendAll startAndListen).map Prod.snd = .ok engine ∧
      engine.Contains [0] part ∧ part.pending = [] ∧ part.emitted = #[] ∧
      ∃ original, (build elements twoHops 0 roundabout).outcome = .ok original ∧
        Sound elements twoHops roundabout original part := by
  have exhausts : ((build elements twoHops 1 roundaboutInside).outcome.toOption.any
      fun built => exhaustedInside (built.perform (.post (.named "Start"))).2.2) = true := by
    decide +kernel
  rcases exists_of_any exhausts with ⟨built, compiled, exhausts⟩
  rcases engines_sound compiled startAndListen with ⟨engine, attended, same, parts, sound⟩
  have fresh : Reachable elements twoHops roundaboutInside built :=
    ⟨built, [], compiled, rfl⟩
  have reachable : Reachable elements twoHops roundaboutInside
      (built.attendAll startAndListen).2 := by
    rw [Graph.attendAll_eq_afterCalls]
    exact fresh.afterCalls _
  generalize built.attendAll startAndListen = result at attended same parts reachable
  have bound : 0 < result.2.state.cells.size := by
    rw [reachable.fits.cells, reachable.placements_size]
    decide
  have found := Array.getElem?_eq_getElem bound
  rcases reachable.suits found with ⟨placed, listed, suits⟩
  cases listed
  generalize result.2.state.cells[0] = cell at found suits
  obtain ⟨node | subroutine, consumed⟩ := cell
  · cases suits
  · rcases parts (.inside (State.subroutine?_eq_some_iff.mpr ⟨consumed, found⟩) (.itself _)) with
      ⟨part, contains, -⟩
    rcases sound contains with ⟨nested, original, place, rebuilt, isSound⟩
    cases place
    exact ⟨built, engine, part, compiled, exhausts, by rw [attended]; rfl, contains,
      isSound.nothing_pending, isSound.nothing_emitted, original, rebuilt, isSound⟩

end Compile

end NodeGraph
