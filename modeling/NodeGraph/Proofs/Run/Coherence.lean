import Mathlib.Logic.Relation
import NodeGraph.Proofs.Run.Boundary
import NodeGraph.Proofs.Run.Delivery
import NodeGraph.Proofs.Run.Parts

namespace NodeGraph

/-! When a subroutine agrees with the graph inside it. A tick copies values both
ways: while the nodes inside run, the inputs inside hold what the plugs of the
node read, and at the end its output plugs hold what the outputs inside show.
Neither an event nor being initialized copies anything: the nodes inside then see
what the last tick left, and what they write is not seen outside. -/

/-! ## States of a turn -/

/-- A node runs, or an output event is queued. -/
inductive Circuit.Moves [Processor ν] (circuit : Circuit) : State ν → State ν → Prop where
  | runs (index : Nat) (happening : Happening) (state : State ν) :
      Moves circuit state (state.runCell circuit index happening.program).1
  | queues {state : State ν} {id : Identifier} {outgoing : OutgoingQueue}
      (leads : circuit.LeadsTo (.graphOutput id))
      (queued : state.outgoing.push? id = some outgoing) :
      Moves circuit state { state with outgoing }

/-- From the one state a turn may come to the other. -/
def Circuit.Passes [Processor ν] (circuit : Circuit) : State ν → State ν → Prop :=
  Relation.ReflTransGen circuit.Moves

section
variable [Processor ν] {circuit : Circuit}

theorem Circuit.Turns.passes {holds : State ν → Prop} (keeps : circuit.Turns holds)
    {start state : State ν} (passes : circuit.Passes start state) (before : holds start) :
    holds state := by
  induction passes with
  | refl => exact before
  | tail _ moves induction =>
      cases moves with
      | runs index happening => exact keeps.runs index happening _ induction
      | queues leads queued => exact keeps.queues _ _ _ leads queued induction

theorem Circuit.turns_passes (circuit : Circuit) (start : State ν) :
    circuit.Turns (circuit.Passes start) where
  runs index happening state before := before.tail (.runs index happening state)
  queues _ _ _ leads queued before := before.tail (.queues leads queued)

/-- A turn comes to no other states. -/
theorem Graph.sweep_passes (graph : Graph ν) (happening : Happening) :
    graph.circuit.Passes graph.state (graph.sweep happening.program).state :=
  Turn.visits_keep (graph.circuit.turns_passes graph.state) happening _ _
    Relation.ReflTransGen.refl

/-- A slot that no node writes holds the same throughout a turn. -/
theorem Circuit.turns_unwritten {slot : Slot}
    (unwritten : ∀ writer, slot ∉ circuit.outputsAt writer) (value : Option Value) :
    circuit.Turns fun state : State ν => state.values[slot]? = value where
  runs index happening state before := by
    rw [State.runCell_unwritten state (unwritten index)]
    exact before
  queues state id outgoing _ _ before := before

end

/-! ## Crossing the boundary -/

namespace Compile

variable [Processor κ] {registry : Registry κ} {config : Config} {prototype : Prototype}
  {room : Nat}

/-- No node writes the inputs of its graph. -/
theorem Reachable.inputs_unwritten {graph : Graph (Nested κ room)}
    (reachable : Reachable registry config prototype graph) {id : Identifier} {slot : Slot}
    (located : graph.circuit.inputSlot? id = some slot) (writer : Nat) :
    slot ∉ graph.circuit.outputsAt writer := by
  rcases Assembly.lastSlot?_mem located with ⟨other, listed, -⟩
  exact reachable.circuit_sound.boundary_apart (other, slot) (List.mem_append_left _ listed) writer

/-- The slots that the host sets belong to no node. -/
theorem Reachable.settable_unwritten {graph : Graph (Nested κ room)}
    (reachable : Reachable registry config prototype graph) {id : Identifier} {slot : Slot}
    (located : graph.circuit.inputSlot? id = some slot ∨ graph.circuit.localSlot? id = some slot)
    (writer : Nat) : slot ∉ graph.circuit.outputsAt writer := by
  obtain input | variable_ := located
  · exact reachable.inputs_unwritten input writer
  · obtain ⟨other, listed, -⟩ := Assembly.lastSlot?_mem variable_
    exact reachable.circuit_sound.boundary_apart (other, slot) (List.mem_append_right _ listed)
      writer

/-- A turn leaves the inputs of the graph alone. -/
theorem Reachable.sweep_input (reachable : Reachable registry config prototype graph)
    (distinct : Assembly.DistinctIds prototype.inputs) (happening : Happening) {slot : Slot}
    (bound : slot < prototype.inputs.length) :
    (graph.sweep happening.program).state.values[slot]? = graph.state.values[slot]? := by
  have located := reachable.inputSlot?_eq distinct (List.getElem?_eq_getElem bound)
  exact (Circuit.turns_unwritten (reachable.inputs_unwritten located) _).passes
    (graph.sweep_passes happening) rfl

/-- What inputs inside mirror, they mirror throughout the turn. -/
theorem Reachable.mirrors_throughout {subroutine : Subroutine (Nested κ room)}
    {nested : Prototype} (reachable : Reachable registry config nested subroutine.graph)
    {panel : Panel} {start state : State (Nested κ room)}
    (passes : subroutine.graph.circuit.Passes start state)
    (mirrors : subroutine.Mirrors panel start.values) :
    subroutine.Mirrors panel state.values := by
  intro plug endpoint found
  rcases mirrors plug endpoint found with ⟨slot, located, reads⟩
  exact ⟨slot, located, (Circuit.turns_unwritten (reachable.inputs_unwritten located) _).passes
    passes reads⟩

/-- Where a subroutine agrees with the graph inside it, and where it does not.
Whenever in a turn of the surrounding graph the node gets its tick, the inputs
inside hold what its plugs read, in every state that the graph inside comes to;
its outputs then hold what the graph inside shows. When the node is initialized
or gets an event, the graph inside goes on from the values that it has, and the
values outside stay as they are. -/
theorem Reachable.copies_in_ticks_only {graph : Graph (Nested κ (room + 1))}
    (reachable : Reachable registry config prototype graph)
    {state : State (Nested κ (room + 1))} (passes : graph.circuit.Passes graph.state state)
    {index : Nat} {placement : Placement} {subroutine : Subroutine (Nested κ room)}
    (located : graph.circuit.placements[index]? = some placement)
    (present : state.subroutine? index = some subroutine)
    {placed : PrototypeNode} {nested : Prototype}
    (listed : prototype.nodes[index]? = some placed) (composite : placed.subroutine = some nested)
    (distinct : Assembly.DistinctIds nested.inputs) :
    let panel : Panel :=
      { values := state.values, inputs := placement.inputs, outputs := placement.outputs }
    (∀ timeStep,
      let entered := subroutine.entered panel
      let ran := (subroutine.process timeStep).run panel
      ran.1.1.graph = (entered.process timeStep).1.drain.2 ∧
      entered.circuit.Passes entered.state (entered.process timeStep).1.state ∧
      (∀ inside, entered.circuit.Passes entered.state inside →
        subroutine.Mirrors panel inside.values) ∧
      ran.1.1.Shows ran.2) ∧
    (∀ context,
      let ran := (subroutine.init context).run panel
      ran.1.graph = (subroutine.graph.init context).1.drain.2 ∧
      ran.2.values = panel.values) ∧
    ∀ input id, subroutine.layout.inputEvents[input]? = some id →
      let ran := (subroutine.onEvent input).run panel
      ran.1.graph = (subroutine.graph.perform (.post id)).1.drain.2 ∧
      ran.2.values = panel.values := by
  have flows := reachable.flowsForward
  have fits : state.Fits graph.circuit :=
    graph.circuit.keeps_fits.toTurns.passes passes reachable.fits
  have suits := (graph.circuit.keeps_every fun _ => .all suits_keeps).toTurns.passes passes
    reachable.every_suits
  rcases State.subroutine?_eq_some_iff.mp present with ⟨consumed, held⟩
  rcases suits index _ held placed listed with ⟨inner, nestedHere, plugs, inside⟩
  rw [composite, Option.some.injEq] at nestedHere
  subst nestedHere
  intro panel
  refine ⟨?_, ?_, ?_⟩
  · intro timeStep entered ran
    have sameCircuit : entered.circuit = subroutine.graph.circuit :=
      Graph.afterCalls_circuit _ _
    refine ⟨?_, entered.sweep_passes (.process timeStep), ?_, ?_⟩
    · exact congrArg Subroutine.graph (subroutine.process_result timeStep panel)
    · intro later passesInside
      rw [sameCircuit] at passesInside
      exact inside.mirrors_throughout passesInside (inside.entered_mirrors plugs distinct panel)
    · have known : layout? registry placed = some subroutine.layout := by
        simp [layout?, composite, plugs]
      exact inside.process_shows plugs (flows.ownsOutputs located fits.values)
        (reachable.outputs_length located listed known) timeStep
  · intro context
    exact ⟨congrArg Subroutine.graph (subroutine.init_result context panel),
      subroutine.init_values context panel⟩
  · intro input id event
    refine ⟨?_, subroutine.onEvent_values input panel⟩
    have result := subroutine.onEvent_result input panel
    rw [event] at result
    exact congrArg Subroutine.graph result

/-- A graph that picks an element of an array when it is pulled. -/
def pick : Prototype where
  name := "Inner"
  id := 2
  inputs := [⟨.named "Index", .int32 0⟩, ⟨.named "Pull", .void⟩]
  outputs := [⟨.named "Element", .int32 0⟩]
  locals := []
  nodes := [⟨.named "Get (Int)", 1, [⟨.named "Array", .array [.int32 4, .int32 8]⟩], none⟩]
  connections := [
    ⟨⟨graphNodeId, .named "Index"⟩, ⟨1, .named "Index"⟩, .graphValueToNode⟩,
    ⟨⟨graphNodeId, .named "Pull"⟩, ⟨1, .named "Trigger"⟩, .graphEventToNode⟩,
    ⟨⟨1, .named "Element"⟩, ⟨graphNodeId, .named "Element"⟩, .nodeValueToGraph⟩]

/-- A graph around `pick` with the same inputs and outputs. -/
def pickInside : Prototype where
  name := "Outer"
  id := 1
  inputs := pick.inputs
  outputs := pick.outputs
  locals := []
  nodes := [⟨.named "Pick", 1, [], some pick⟩]
  connections := [
    ⟨⟨graphNodeId, .named "Index"⟩, ⟨1, .named "Index"⟩, .graphValueToNode⟩,
    ⟨⟨graphNodeId, .named "Pull"⟩, ⟨1, .named "Pull"⟩, .graphEventToNode⟩,
    ⟨⟨1, .named "Element"⟩, ⟨graphNodeId, .named "Element"⟩, .nodeValueToGraph⟩]

/-- In a tick the graph inside sees the index that was set. -/
theorem pickInside_tick_coherent :
    ∃ (graph : Graph (Nested StandardNode 1)) (placement : Placement)
      (subroutine : Subroutine (Nested StandardNode 0)),
      Reachable elements Config.default pickInside graph ∧
      graph.circuit.placements[0]? = some placement ∧
      graph.state.subroutine? 0 = some subroutine ∧
      let panel : Panel :=
        { values := graph.state.values, inputs := placement.inputs, outputs := placement.outputs }
      let ran := (subroutine.process .one).run panel
      subroutine.Mirrors panel (subroutine.entered panel).state.values ∧ ran.1.1.Shows ran.2 := by
  have compiles : (build elements Config.default 1 pickInside).outcome.isOk = true := by
    decide +kernel
  have holds : ((build elements Config.default 1 pickInside).outcome.toOption.any fun built =>
      let graph := built.afterCalls [.setInput (.named "Index") (.int32 1)]
      graph.circuit.placements[0]?.any fun _ => (graph.state.subroutine? 0).any fun _ => true) =
        true := by
    decide +kernel
  rcases exists_eq_ok compiles with ⟨built, compiled⟩
  simp only [compiled, Except.toOption, Option.any_some, Option.any_eq_true] at holds
  rcases holds with ⟨placement, located, subroutine, present, -⟩
  have fresh : Reachable elements Config.default pickInside built := ⟨built, [], compiled, rfl⟩
  have reachable := fresh.afterCalls [.setInput (.named "Index") (.int32 1)]
  have distinct : Assembly.DistinctIds pick.inputs := by
    unfold Assembly.DistinctIds
    decide +kernel
  have listed : pickInside.nodes[0]? = some ⟨.named "Pick", 1, [], some pick⟩ := rfl
  rcases (reachable.copies_in_ticks_only Relation.ReflTransGen.refl located present listed rfl
    distinct).1 .one with ⟨-, -, mirrors, shown⟩
  exact ⟨_, placement, subroutine, reachable, located, present,
    mirrors _ Relation.ReflTransGen.refl, shown⟩

/-- The graph inside is pulled while the plug of its index reads 1. It still holds
an index of 0, picks the element at 0, and shows 4; the output plug holds 0. -/
theorem pickInside_event_incoherent :
    ∃ (graph : Graph (Nested StandardNode 1)) (placement : Placement)
      (subroutine : Subroutine (Nested StandardNode 0)),
      Reachable elements Config.default pickInside graph ∧
      graph.circuit.placements[0]? = some placement ∧
      graph.state.subroutine? 0 = some subroutine ∧
      let panel : Panel :=
        { values := graph.state.values, inputs := placement.inputs, outputs := placement.outputs }
      let ran := (subroutine.onEvent 0).run panel
      ¬ subroutine.Mirrors panel subroutine.graph.state.values ∧ ¬ ran.1.Shows ran.2 := by
  have compiles : (build elements Config.default 1 pickInside).outcome.isOk = true := by
    decide +kernel
  have differs : ((build elements Config.default 1 pickInside).outcome.toOption.any fun built =>
      let graph := built.afterCalls [.init default, .setInput (.named "Index") (.int32 1)]
      graph.circuit.placements[0]?.any fun placement =>
        (graph.state.subroutine? 0).any fun subroutine =>
          let panel : Panel :=
            { values := graph.state.values
              inputs := placement.inputs
              outputs := placement.outputs }
          let ran := (subroutine.onEvent 0).run panel
          (subroutine.layout.inputs[0]?.any fun endpoint =>
            (subroutine.graph.circuit.inputSlot? endpoint.id).any fun slot =>
              decide (subroutine.graph.state.values[slot]? ≠ some (panel.input 0))) &&
          ran.1.layout.outputs[0]?.any fun endpoint =>
            decide (ran.1.graph.readOutput? endpoint.id ≠ some (ran.2.output 0))) = true := by
    decide +kernel
  rcases exists_eq_ok compiles with ⟨built, compiled⟩
  simp only [compiled, Except.toOption, Option.any_some, Option.any_eq_true, Bool.and_eq_true,
    decide_eq_true_eq] at differs
  rcases differs with ⟨placement, located, subroutine, present,
    ⟨endpoint, plug, slot, input, differsInside⟩, output, shownPlug, differsOutside⟩
  have fresh : Reachable elements Config.default pickInside built := ⟨built, [], compiled, rfl⟩
  refine ⟨_, placement, subroutine, fresh.afterCalls _, located, present, ?_, ?_⟩
  · intro mirrors
    rcases mirrors 0 endpoint plug with ⟨other, same, reads⟩
    rw [input, Option.some.injEq] at same
    exact differsInside (same ▸ reads)
  · intro shown
    exact differsOutside (shown 0 output shownPlug)

end Compile

end NodeGraph
