import NodeGraph.Proofs.Compile.Bindings
import NodeGraph.Proofs.Run.Delivery

namespace NodeGraph

/-! One tick of a graph in which no event travels from node to node. Main
statement: every node runs once and sees no stale value. What it leaves behind
is what it does on its own, given what it was before the tick and what its input
plugs read after the tick. -/

/-! ## Events that leave the graph -/

/-- Whatever a node fires goes to the outgoing queue. -/
def Circuit.FiresOutward (circuit : Circuit) : Prop :=
  ∀ node output, ∀ target ∈ circuit.routes.targets node output, ∃ id, target = .graphOutput id

/-- Every delivery that parcels stand for goes to the outgoing queue. -/
def Parcel.LeadOutward (parcels : List Parcel) : Prop :=
  ∀ delivery ∈ deliveries parcels, ∃ id, delivery.1 = .graphOutput id

/-- The nodes and values of two states are the same. -/
structure State.SameNodes (left right : State ν) : Prop where
  cells : left.cells = right.cells
  values : left.values = right.values

namespace Turn

variable [Processor ν] {circuit : Circuit} {program : Cell ν → Program (Cell ν)}

/-- Events that leave the graph do nothing to its nodes. -/
theorem settle_sameNodes (state : State ν) (journal : Array Entry) (hops : Nat)
    {parcels : List Parcel} (outward : Parcel.LeadOutward parcels) :
    (settle circuit state journal hops parcels).state.SameNodes state := by
  induction hops generalizing state journal parcels with
  | zero =>
      unfold settle
      cases Parcel.next? parcels <;> exact ⟨rfl, rfl⟩
  | succ hops induction =>
      unfold settle
      cases isNext : Parcel.next? parcels with
      | none => exact ⟨rfl, rfl⟩
      | some delivery =>
          rw [Parcel.LeadOutward, Parcel.deliveries_of_next?_eq_some isNext] at outward
          rcases outward _ (.head _) with ⟨id, target⟩
          have target : delivery.target = .graphOutput id := target
          have rest : Parcel.LeadOutward (delivery.rest ++ []) := fun later member =>
            outward later (List.mem_cons_of_mem _ (by simpa using member))
          simp only [target, deliver]
          cases state.outgoing.push? id with
          | none => exact induction state _ rest
          | some outgoing =>
              have same := induction { state with outgoing }
                (journal.push (.delivered (.graphOutput id) delivery.event)) rest
              exact ⟨same.cells, same.values⟩

theorem visit_sameNodes (outward : circuit.FiresOutward) (program : Cell ν → Program (Cell ν))
    (turn : Turn ν) (index : Nat) :
    (visit circuit program turn index).state.SameNodes
      (turn.state.runCell circuit index program).1 := by
  apply settle_sameNodes
  intro delivery member
  simp only [Parcel.deliveries, List.mem_flatMap, List.mem_map] at member
  rcases member with ⟨parcel, ⟨emission, -, rfl⟩, target, routed, rfl⟩
  exact outward _ _ target routed

/-! ## What a row of visits leaves alone -/

theorem visits_cell (outward : circuit.FiresOutward) (turn : Turn ν) {indices : List Nat}
    {index : Nat} (unvisited : index ∉ indices) :
    (indices.foldl (visit circuit program) turn).state.cells[index]? =
      turn.state.cells[index]? := by
  induction indices generalizing turn with
  | nil => rfl
  | cons head tail induction =>
      rcases not_or.mp (mt List.mem_cons.mpr unvisited) with ⟨different, unvisited⟩
      rw [List.foldl_cons, induction _ unvisited, (visit_sameNodes outward program turn head).cells,
        State.runCell_other _ different]

theorem visits_value (outward : circuit.FiresOutward) (turn : Turn ν) {indices : List Nat}
    {slot : Nat} (unwritten : ∀ index ∈ indices, slot ∉ circuit.outputsAt index) :
    (indices.foldl (visit circuit program) turn).state.values[slot]? =
      turn.state.values[slot]? := by
  induction indices generalizing turn with
  | nil => rfl
  | cons head tail induction =>
      rw [List.foldl_cons, induction _ fun index member => unwritten index (.tail _ member),
        (visit_sameNodes outward program turn head).values,
        State.runCell_unwritten _ (unwritten head (.head _))]

theorem visit_size (outward : circuit.FiresOutward) (turn : Turn ν) (index : Nat) :
    (visit circuit program turn index).state.values.size = turn.state.values.size := by
  rw [(visit_sameNodes outward program turn index).values, State.runCell_values_size]

/-! ## What a row of visits does -/

/-- The node at a position went from `before` to `after` by running on its own,
with the inputs that it reads in `after`. -/
def RanOnce (circuit : Circuit) (program : Cell ν → Program (Cell ν)) (before after : State ν)
    (index : Nat) : Prop :=
  ∀ placement cell, circuit.placements[index]? = some placement →
    before.cells[index]? = some cell →
    let ran := (program cell).run (.isolated (readSlots after.values placement.inputs)
      (readSlots before.values placement.outputs))
    after.cells[index]? = some ran.1 ∧
      readSlots after.values placement.outputs = ran.2.outputValues

omit [Processor ν] in
theorem runCell_ranOnce (flows : circuit.FlowsForward) {state : State ν}
    (sized : state.values.size = circuit.defaults.size) (index : Nat) :
    RanOnce circuit program state (state.runCell circuit index program).1 index := by
  intro placement cell placed present
  have inputs : readSlots (state.runCell circuit index program).1.values placement.inputs =
      readSlots state.values placement.inputs := by
    apply readSlots_congr
    intro slot read
    apply State.runCell_unwritten
    intro written
    exact flows.notSelf index ⟨slot, written, by rwa [Circuit.inputsAt_eq placed]⟩
  have ran := Program.run_isolated (program cell) (flows.ownsOutputs placed sized) rfl rfl
  rw [inputs, State.runCell_eq placed present]
  refine ⟨?_, ?_⟩
  · rw [Array.getElem?_setIfInBounds_self_of_lt (Array.getElem?_eq_some_iff.mp present).1]
    exact congrArg some ran.1
  · refine Eq.trans ?_ ran.2
    simp [Panel.outputValues]

/-- Visits in an order in which values flow forward run every node once. The
induction is on the nodes still to be visited: the visits after a node leave
alone what it read and wrote, and the visits before it leave alone what it was. -/
theorem visits_ranOnce (flows : circuit.FlowsForward) (outward : circuit.FiresOutward)
    (program : Cell ν → Program (Cell ν)) {turn : Turn ν} {indices : List Nat}
    (nodup : indices.Nodup)
    (forward : indices.Pairwise fun earlier later => ¬ circuit.Feeds later earlier)
    (sized : turn.state.values.size = circuit.defaults.size) {index : Nat}
    (visited : index ∈ indices) :
    RanOnce circuit program turn.state (indices.foldl (visit circuit program) turn).state
      index := by
  induction indices generalizing turn with
  | nil => cases visited
  | cons head tail induction =>
      rcases List.nodup_cons.mp nodup with ⟨headOnce, tailNodup⟩
      rcases List.pairwise_cons.mp forward with ⟨headForward, tailForward⟩
      rw [List.foldl_cons]
      intro placement cell placed present
      have same := visit_sameNodes outward program turn head
      rcases List.mem_cons.mp visited with isHead | later
      · subst isHead
        have inputs : readSlots (tail.foldl (visit circuit program)
            (visit circuit program turn index)).state.values placement.inputs =
              readSlots (turn.state.runCell circuit index program).1.values
                placement.inputs := by
          apply readSlots_congr
          intro slot read
          rw [visits_value outward _ fun writer member written => headForward writer member
            ⟨slot, written, by rwa [Circuit.inputsAt_eq placed]⟩, same.values]
        have outputs : readSlots (tail.foldl (visit circuit program)
            (visit circuit program turn index)).state.values placement.outputs =
              readSlots (turn.state.runCell circuit index program).1.values
                placement.outputs := by
          apply readSlots_congr
          intro slot owned
          rw [visits_value outward _ fun writer member written => flows.outputs_apart writer
            index (fun equal => headOnce (equal ▸ member)) slot written
            (by rwa [Circuit.outputsAt_eq placed]), same.values]
        rw [inputs, outputs, visits_cell outward _ headOnce, same.cells]
        exact runCell_ranOnce flows sized index placement cell placed present
      · have different : index ≠ head := fun equal => headOnce (equal ▸ later)
        have outputs : readSlots turn.state.values placement.outputs =
            readSlots (visit circuit program turn head).state.values placement.outputs := by
          apply readSlots_congr
          intro slot owned
          rw [same.values, State.runCell_unwritten _ fun written => flows.outputs_apart head
            index different.symm slot written (by rwa [Circuit.outputsAt_eq placed])]
        rw [outputs]
        refine induction tailNodup tailForward ?_ later placement cell placed ?_
        · rw [visit_size outward, sized]
        · rw [same.cells, State.runCell_other _ different, present]

end Turn

/-! ## Compiled graphs -/

theorem ConnectionKind.eq_nodeEventToNode {kind : ConnectionKind} (isEvent : kind.isEvent = true)
    (start : kind.sourceScope = .node) (stop : kind.destinationScope = .node) :
    kind = .nodeEventToNode := by
  cases kind <;> simp_all [ConnectionKind.isEvent, sourceScope, destinationScope]

namespace Compile

variable [Processor κ] {registry : Registry κ} {config : Config} {prototype : Prototype}
  {room : Nat} {graph : Graph (Nested κ room)}

/-- Without connections from node to node, whatever nodes fire leaves the
graph. -/
theorem Reachable.firesOutward (reachable : Reachable registry config prototype graph)
    (apart : ∀ connection ∈ prototype.connections, connection.kind ≠ .nodeEventToNode) :
    graph.circuit.FiresOutward := by
  intro node output target routed
  rw [reachable.targets_eq] at routed
  rcases Endpoints.exists_of_mem_targetsFrom routed with
    ⟨connection, listed, isEvent, ⟨source, sourceFound, same⟩, targetFound⟩
  have onNode : source = .nodeEvent node output := by
    cases source <;> simp_all [BEq.beq, instBEqEventSource.beq]
  subst onNode
  cases target with
  | graphOutput id => exact ⟨id, rfl⟩
  | node index input =>
      have start := (Endpoints.eventSource_eq_nodeEvent_iff.mp sourceFound).1
      have stop := (Endpoints.eventTarget_eq_node_iff.mp targetFound).1
      exact absurd (ConnectionKind.eq_nodeEventToNode isEvent start stop) (apart connection listed)

/-- An input plug at the end of a connection from node to node lies where the
source's output plug lies. -/
theorem Reachable.ends_share_slot (reachable : Reachable registry config prototype graph)
    {connection : Connection} (listed : connection ∈ prototype.connections)
    {source output node input : Nat}
    (looked : (endpointsOf registry prototype).wire connection =
      .ok (.value (.nodeOutput source output) (.nodeInput node input))) :
    ∃ upstream downstream slot,
      graph.circuit.placements[source]? = some upstream ∧
      graph.circuit.placements[node]? = some downstream ∧
      upstream.outputs[output]? = some slot ∧ downstream.inputs[input]? = some slot := by
  rcases reachable.circuit_eq with ⟨wires, order, wired, equal⟩
  rcases Endpoints.wireAll_eq_ok_iff.mp wired.wires with ⟨lookedAll, apart⟩
  rcases Endpoints.exists_wire_of_mem lookedAll listed with ⟨wire, member, found⟩
  rw [looked, Except.ok.injEq] at found
  rw [equal]
  exact Assembly.ends_share_slot (endpointsOf_complete registry prototype) apart looked
    (found ▸ member)

/-- Whatever values the slots hold, an input plug at the end of a connection from
node to node reads what the source's output plug holds. -/
theorem Reachable.ends_read_alike (reachable : Reachable registry config prototype graph)
    {connection : Connection} (listed : connection ∈ prototype.connections)
    {source output node input : Nat}
    (looked : (endpointsOf registry prototype).wire connection =
      .ok (.value (.nodeOutput source output) (.nodeInput node input))) (values : Array Value) :
    ∃ upstream downstream,
      graph.circuit.placements[source]? = some upstream ∧
      graph.circuit.placements[node]? = some downstream ∧
      output < upstream.outputs.length ∧ input < downstream.inputs.length ∧
      (readSlots values downstream.inputs)[input]? =
        (readSlots values upstream.outputs)[output]? := by
  rcases reachable.ends_share_slot listed looked with
    ⟨upstream, downstream, slot, upstreamFound, downstreamFound, outputSlot, inputSlot⟩
  refine ⟨upstream, downstream, upstreamFound, downstreamFound,
    (List.getElem?_eq_some_iff.mp outputSlot).1, (List.getElem?_eq_some_iff.mp inputSlot).1, ?_⟩
  simp [readSlots, outputSlot, inputSlot]

theorem Reachable.process_leads_outward (reachable : Reachable registry config prototype graph)
    (apart : ∀ connection ∈ prototype.connections, connection.kind ≠ .nodeEventToNode)
    (timeStep : Binary32) :
    ∀ delivery ∈ deliveriesOf (graph.process timeStep).2.2.toList,
      ∃ id, delivery.1 = .graphOutput id := by
  intro delivery member
  have broadcast := graph.sweep_broadcast fun cell => do
    let (node, consumed) ← Processor.process timeStep cell.node
    pure { node, consumed }
  have delivered : delivery ∈ _ := List.mem_of_mem_take (broadcast ▸ member)
  rcases List.mem_flatMap.mp delivered with ⟨⟨node, emission⟩, -, called⟩
  rcases List.mem_map.mp called with ⟨target, routed, equal⟩
  rcases reachable.firesOutward apart node emission.output target routed with ⟨id, isOutput⟩
  exact ⟨id, by rw [← equal, isOutput]⟩

/-- A tick runs the node at a position on its own, once. -/
theorem Reachable.process_ranOnce (reachable : Reachable registry config prototype graph)
    (apart : ∀ connection ∈ prototype.connections, connection.kind ≠ .nodeEventToNode)
    (timeStep : Binary32) {index : Nat} (bound : index < prototype.nodes.length) :
    ∃ placement cell,
      graph.circuit.placements[index]? = some placement ∧
      graph.state.cells[index]? = some cell ∧
      let after := (graph.process timeStep).1.state
      let ran := (Processor.process timeStep cell.node).run
        (.isolated (readSlots after.values placement.inputs)
          (readSlots graph.state.values placement.outputs))
      after.cells[index]? = some { node := ran.1.1, consumed := ran.1.2 } ∧
        readSlots after.values placement.outputs = ran.2.outputValues := by
  have flows := reachable.flowsForward
  have size := reachable.placements_size
  have placementBound : index < graph.circuit.placements.size := by rwa [size]
  have cellBound : index < graph.state.cells.size := by rwa [reachable.fits.cells, size]
  refine ⟨_, _, Array.getElem?_eq_getElem placementBound, Array.getElem?_eq_getElem cellBound,
    ?_⟩
  have visited : index ∈ graph.circuit.order := flows.mem_order_iff.mpr placementBound
  have sized : graph.begin.state.values.size = graph.circuit.defaults.size :=
    reachable.fits.values
  have ran := Turn.visits_ranOnce flows (reachable.firesOutward apart) (fun cell => do
      let (node, consumed) ← Processor.process timeStep cell.node
      pure { node, consumed })
    flows.order_nodup flows.forward sized visited _ _
    (Array.getElem?_eq_getElem placementBound) (Array.getElem?_eq_getElem cellBound)
  simp only [Program.run_bind, Program.run_pure] at ran
  exact ran

/-- One tick is one pass. If no connection carries events from node to node, a
tick runs every node once, in order, and delivers nothing to any node. Every node
is left with the state, the consumption and the outputs of one run on its own,
from what it was before the tick and what its input plugs read after the tick,
which is for a connected plug what its source's output plug then holds. -/
theorem Reachable.process_is_one_pass (reachable : Reachable registry config prototype graph)
    (apart : ∀ connection ∈ prototype.connections, connection.kind ≠ .nodeEventToNode)
    (timeStep : Binary32) :
    let after := (graph.process timeStep).1.state
    graph.circuit.order.Perm (List.range prototype.nodes.length) ∧
    (∀ delivery ∈ deliveriesOf (graph.process timeStep).2.2.toList,
      ∃ id, delivery.1 = .graphOutput id) ∧
    (∀ index < prototype.nodes.length, ∃ placement cell,
      graph.circuit.placements[index]? = some placement ∧
      graph.state.cells[index]? = some cell ∧
      let ran := (Processor.process timeStep cell.node).run
        (.isolated (readSlots after.values placement.inputs)
          (readSlots graph.state.values placement.outputs))
      after.cells[index]? = some { node := ran.1.1, consumed := ran.1.2 } ∧
        readSlots after.values placement.outputs = ran.2.outputValues) ∧
    ∀ connection ∈ prototype.connections, ∀ source output node input,
      (endpointsOf registry prototype).wire connection =
        .ok (.value (.nodeOutput source output) (.nodeInput node input)) →
      ∃ upstream downstream,
        graph.circuit.placements[source]? = some upstream ∧
        graph.circuit.placements[node]? = some downstream ∧
        output < upstream.outputs.length ∧ input < downstream.inputs.length ∧
        (readSlots after.values downstream.inputs)[input]? =
          (readSlots after.values upstream.outputs)[output]? := by
  have perm := reachable.flowsForward.order_perm
  rw [reachable.placements_size] at perm
  refine ⟨perm, reachable.process_leads_outward apart timeStep, ?_, ?_⟩
  · intro index bound
    exact reachable.process_ranOnce apart timeStep bound
  · intro connection listed source output node input looked
    exact reachable.ends_read_alike listed looked _

/-- A graph in which a node gets the same value along two ways of unequal
length, with the nodes listed against the flow of values. -/
def twoWays : Prototype where
  name := "Two ways"
  id := 0
  inputs := [⟨.named "In", .int32 1⟩]
  outputs := []
  locals := []
  nodes := [⟨.named "Add (Int)", 3, [], none⟩, ⟨.named "Add (Int)", 2, [], none⟩,
    ⟨.named "Add (Int)", 1, [], none⟩]
  connections := [
    ⟨⟨graphNodeId, .named "In"⟩, ⟨1, .named "Value1"⟩, .graphValueToNode⟩,
    ⟨⟨1, .named "Out"⟩, ⟨2, .named "Value1"⟩, .nodeValueToNode⟩,
    ⟨⟨1, .named "Out"⟩, ⟨3, .named "Value1"⟩, .nodeValueToNode⟩,
    ⟨⟨2, .named "Out"⟩, ⟨3, .named "Value2"⟩, .nodeValueToNode⟩]

/-- The only node type of `twoWays`. -/
def adders : Registry StandardNode :=
  ⟨[(.named "Add (Int)", fun _ => .arithmetic .add .int)]⟩

/-- The node at which the two ways meet adds what has come over each of them in the same
tick. -/
theorem twoWays_is_one_pass :
    ∃ graph : Graph (Nested StandardNode 0),
      Reachable adders Config.default twoWays graph ∧
      (∀ connection ∈ twoWays.connections, connection.kind ≠ .nodeEventToNode) ∧
      graph.circuit.order.Perm [0, 1, 2] ∧
      (∀ delivery ∈ deliveriesOf (graph.process .one).2.2.toList,
        ∃ id, delivery.1 = .graphOutput id) ∧
      ∃ placement cell,
        graph.circuit.placements[0]? = some placement ∧
        graph.state.cells[0]? = some cell ∧
        let after := (graph.process .one).1.state
        let ran := (Processor.process .one cell.node).run
          (.isolated [.int32 1, .int32 1] [.int32 0])
        after.cells[0]? = some { node := ran.1.1, consumed := ran.1.2 } ∧
          readSlots after.values placement.outputs = ran.2.outputValues ∧
          readSlots after.values placement.outputs = [.int32 2] := by
  have computes : ((build adders Config.default 0 twoWays).outcome.toOption.any fun graph =>
      graph.circuit.placements[0]?.any fun placement =>
        let after := (graph.process .one).1.state.values
        decide (readSlots after placement.inputs = [.int32 1, .int32 1] ∧
          readSlots graph.state.values placement.outputs = [.int32 0] ∧
          readSlots after placement.outputs = [.int32 2])) = true := by
    decide +kernel
  rcases exists_of_any computes with ⟨graph, compiled, computes⟩
  simp only [Option.any_eq_true, decide_eq_true_eq] at computes
  rcases computes with ⟨placement, located, reads, held, shown⟩
  have reachable : Reachable adders Config.default twoWays graph := ⟨graph, [], compiled, rfl⟩
  have apart : ∀ connection ∈ twoWays.connections, connection.kind ≠ .nodeEventToNode := by
    decide
  rcases reachable.process_is_one_pass apart .one with ⟨order, outward, ranOnce, -⟩
  rcases ranOnce 0 (by decide) with ⟨here, cell, locatedHere, present, kept, wrote⟩
  rw [located, Option.some.injEq] at locatedHere
  subst locatedHere
  rw [reads, held] at kept wrote
  exact ⟨graph, reachable, apart, order, outward, placement, cell, located, present, kept, wrote,
    shown⟩

end Compile

end NodeGraph
