import NodeGraph.Proofs.Run.Embedding
import NodeGraph.Proofs.Run.OnePass

namespace NodeGraph

/-! The order in which a prototype lists its nodes and connections. Main
statement: as long as events only leave the graph, this order has no influence on
values, although it decides where values lie and may decide in which order nodes
run. -/

/-! ## Events that leave the graph -/

/-- Wherever events are led, they leave the graph. -/
def Circuit.LeadsOutward (circuit : Circuit) : Prop :=
  ∀ target, circuit.LeadsTo target → ∃ id, target = .graphOutput id

theorem Circuit.LeadsOutward.firesOutward {circuit : Circuit} (outward : circuit.LeadsOutward) :
    circuit.FiresOutward :=
  fun node output target routed => outward target (.inl ⟨node, output, routed⟩)

/-- Events come to a node from another node or from outside. -/
theorem ConnectionKind.eventToNode_cases {kind : ConnectionKind} (isEvent : kind.isEvent = true)
    (stop : kind.destinationScope = .node) :
    kind = .nodeEventToNode ∨ kind = .graphEventToNode := by
  cases kind <;> simp_all [ConnectionKind.isEvent, destinationScope]

theorem Compile.Reachable.leadsOutward [Processor κ] {registry : Registry κ} {config : Config}
    {prototype : Prototype} {room : Nat} {graph : Graph (Nested κ room)}
    (reachable : Reachable registry config prototype graph)
    (outward : ∀ connection ∈ prototype.connections,
      connection.kind ≠ .nodeEventToNode ∧ connection.kind ≠ .graphEventToNode) :
    graph.circuit.LeadsOutward := by
  intro target leads
  rcases reachable.exists_of_leadsTo leads with ⟨connection, listed, isEvent, found⟩
  cases target with
  | graphOutput id => exact ⟨id, rfl⟩
  | node index input =>
      have stop := (Endpoints.eventTarget_eq_node_iff.mp found).1
      rcases ConnectionKind.eventToNode_cases isEvent stop with fromNode | fromGraph
      · exact absurd fromNode (outward connection listed).1
      · exact absurd fromGraph (outward connection listed).2

/-! ## Sweeps -/

/-- A sweep runs every node once. -/
theorem Graph.sweep_ranOnce [Processor ν] {graph : Graph ν} (flows : graph.circuit.FlowsForward)
    (outward : graph.circuit.FiresOutward) (fits : graph.state.Fits graph.circuit)
    (happening : Happening) {index : Nat} (bound : index < graph.circuit.placements.size) :
    Turn.RanOnce graph.circuit happening.program graph.state
      (graph.sweep happening.program).state index := by
  have sized : graph.begin.state.values.size = graph.circuit.defaults.size := fits.values
  exact Turn.visits_ranOnce flows outward happening.program flows.order_nodup flows.forward sized
    (flows.mem_order_iff.mpr bound)

namespace Graph.Matches

variable [Processor ν] {node : Nat → Nat} {meets : Slot → Slot → Prop} {graph other : Graph ν}

theorem sweep_fits (same : graph.Matches node meets other) (happening : Happening) :
    (graph.sweep happening.program).state.Fits graph.circuit :=
  Turn.visits_keep graph.circuit.keeps_fits.toTurns happening _ _ same.states.fits

theorem otherSweep_fits (same : graph.Matches node meets other) (happening : Happening) :
    (other.sweep happening.program).state.Fits other.circuit :=
  Turn.visits_keep other.circuit.keeps_fits.toTurns happening _ _ same.states.otherFits

variable (same : graph.Matches node meets other) (outward : graph.circuit.FiresOutward)
  (otherOutward : other.circuit.FiresOutward) (happening : Happening)
include same outward otherOutward

/-- Where no node writes, sweeps leave the same. -/
theorem sweep_unwritten {slot otherSlot : Slot} (here : meets slot otherSlot)
    (unwritten : ∀ index, slot ∉ graph.circuit.outputsAt index) :
    (other.sweep happening.program).state.values[otherSlot]? =
      (graph.sweep happening.program).state.values[slot]? := by
  have otherUnwritten (writer : Nat) : otherSlot ∉ other.circuit.outputsAt writer := by
    intro written
    rcases same.embeds.written here written with ⟨index, -, member⟩
    exact unwritten index member
  rw [sweep, sweep, Turn.visits_value otherOutward _ fun writer _ => otherUnwritten writer,
    Turn.visits_value outward _ fun index _ => unwritten index]
  exact same.states.values here

/-- A node that reads the same at the end of two sweeps is the same afterwards and
has written the same. -/
theorem sweep_node {index : Nat} (bound : index < graph.circuit.placements.size)
    (reads : ∀ {slot otherSlot}, slot ∈ graph.circuit.inputsAt index → meets slot otherSlot →
      (other.sweep happening.program).state.values[otherSlot]? =
        (graph.sweep happening.program).state.values[slot]?) :
    (other.sweep happening.program).state.cells[node index]? =
        (graph.sweep happening.program).state.cells[index]? ∧
      ∀ {slot otherSlot}, slot ∈ graph.circuit.outputsAt index → meets slot otherSlot →
        (other.sweep happening.program).state.values[otherSlot]? =
          (graph.sweep happening.program).state.values[slot]? := by
  have placed := Array.getElem?_eq_getElem bound
  have plugs := same.embeds.placements index
  rw [placed] at plugs
  cases otherPlaced : other.circuit.placements[node index]? with
  | none =>
      rw [otherPlaced] at plugs
      cases plugs
  | some otherPlacement =>
      rw [otherPlaced] at plugs
      have meet := Option.rel_some_some.mp plugs
      have present := Array.getElem?_eq_getElem (same.states.fits.cells ▸ bound)
      have otherPresent := (same.states.cells index).trans present
      have otherBound := (Array.getElem?_eq_some_iff.mp otherPlaced).1
      have ran := sweep_ranOnce same.flows outward same.states.fits happening bound _ _ placed
        present
      have otherRan := sweep_ranOnce same.otherFlows otherOutward same.states.otherFits happening
        otherBound _ _ otherPlaced otherPresent
      have inputs := readSlots_eq_of_meets meet.inputs fun member => reads <| by
        rwa [Circuit.inputsAt_eq placed]
      have outputs := readSlots_eq_of_meets meet.outputs fun _ => same.states.values
      rw [inputs, outputs] at otherRan
      refine ⟨otherRan.1.trans ran.1.symm, fun {slot otherSlot} member here => ?_⟩
      have slotBound := same.flows.outputs_bounded index slot member
      rw [Circuit.outputsAt_eq placed] at member
      have otherMember := (same.embeds.mem_iff meet.outputs here).mp member
      rw [← Circuit.outputsAt_eq otherPlaced] at otherMember
      apply getElem?_eq_of_getD
      · rwa [(same.sweep_fits happening).values]
      · rw [(same.otherSweep_fits happening).values]
        exact same.otherFlows.outputs_bounded _ _ otherMember
      · exact same.embeds.value_eq meet.outputs (otherRan.2.trans ran.2.symm) here member

/-- After two sweeps every node is the same and has written the same. The induction
is on where the node stands in the order: what it reads has been written by nodes
before it or by none. -/
theorem sweep_nodes (index : Nat) (bound : index < graph.circuit.placements.size) :
    (other.sweep happening.program).state.cells[node index]? =
        (graph.sweep happening.program).state.cells[index]? ∧
      ∀ {slot otherSlot}, slot ∈ graph.circuit.outputsAt index → meets slot otherSlot →
        (other.sweep happening.program).state.values[otherSlot]? =
          (graph.sweep happening.program).state.values[slot]? := by
  induction place : graph.circuit.order.idxOf index using Nat.strong_induction_on
    generalizing index with
  | _ place induction =>
      subst place
      apply same.sweep_node outward otherOutward happening bound
      intro slot otherSlot read here
      by_cases written : ∃ writer, slot ∈ graph.circuit.outputsAt writer
      · rcases written with ⟨writer, written⟩
        exact (induction _ (same.flows.idxOf_lt ⟨slot, written, read⟩) writer
          (Circuit.lt_size_of_mem_outputsAt written) rfl).2 written here
      · push Not at written
        exact same.sweep_unwritten outward otherOutward happening here written

/-- Sweeps keep states matching, whatever the orders in which they run the
nodes. -/
theorem sweep : (graph.sweep happening.program).state.Matches node meets graph.circuit
    other.circuit (other.sweep happening.program).state where
  fits := same.sweep_fits happening
  otherFits := same.otherSweep_fits happening
  cells index := by
    have fits := (same.sweep_fits happening).cells
    have otherFits := (same.otherSweep_fits happening).cells
    by_cases bound : index < graph.circuit.placements.size
    · exact (same.sweep_nodes outward otherOutward happening index bound).1
    · have otherBound := mt same.embeds.lt_size_iff.mp bound
      rw [Array.getElem?_eq_none (by omega), Array.getElem?_eq_none (by omega)]
  values {slot otherSlot} here := by
    by_cases written : ∃ writer, slot ∈ graph.circuit.outputsAt writer
    · rcases written with ⟨writer, written⟩
      exact (same.sweep_nodes outward otherOutward happening writer
        (Circuit.lt_size_of_mem_outputsAt written)).2 written here
    · push Not at written
      exact same.sweep_unwritten outward otherOutward happening here written

end Graph.Matches

/-! ## Calls -/

/-- A posted event that only leaves the graph does nothing to its nodes. -/
theorem Graph.perform_post_sameNodes [Processor ν] (graph : Graph ν)
    (outward : graph.circuit.LeadsOutward) (id : Identifier) :
    (graph.perform (.post id)).1.state.SameNodes graph.state := by
  simp only [perform, post?]
  cases leads : graph.circuit.entrance id with
  | nil => exact ⟨rfl, rfl⟩
  | cons target targets =>
      apply Turn.settle_sameNodes
      intro delivery member
      simp only [Parcel.deliveries, List.flatMap_singleton, ← leads, List.mem_map] at member
      rcases member with ⟨reached, listed, rfl⟩
      exact outward reached (.inr ⟨id, listed⟩)

theorem State.Matches.of_sameNodes {node : Nat → Nat} {meets : Slot → Slot → Prop}
    {small large : Circuit} {state other after otherAfter : State ν}
    (same : state.Matches node meets small large other) (sameNodes : after.SameNodes state)
    (otherSameNodes : otherAfter.SameNodes other) :
    after.Matches node meets small large otherAfter := by
  rcases after with ⟨cells, values, outgoing⟩
  rcases otherAfter with ⟨otherCells, otherValues, otherOutgoing⟩
  rcases sameNodes with ⟨rfl, rfl⟩
  rcases otherSameNodes with ⟨rfl, rfl⟩
  exact same.withOutgoing outgoing otherOutgoing

namespace Graph.Matches

variable [Processor ν] {node : Nat → Nat} {meets : Slot → Slot → Prop} {graph other : Graph ν}

/-- Where events only leave the graph, calls keep graphs matching. -/
theorem afterCalls (same : graph.Matches node meets other)
    (outward : graph.circuit.LeadsOutward) (otherOutward : other.circuit.LeadsOutward)
    (calls : List Call) : (graph.afterCalls calls).Matches node meets (other.afterCalls calls) := by
  induction calls generalizing graph other with
  | nil => exact same
  | cons call calls induction =>
      apply induction
      · apply same.perform
        · exact same.sweep outward.firesOutward otherOutward.firesOutward
        · exact fun id => same.states.of_sameNodes (graph.perform_post_sameNodes outward id)
            (other.perform_post_sameNodes otherOutward id)
      · rwa [Graph.perform_circuit]
      · rwa [Graph.perform_circuit]

end Graph.Matches

/-! ## Prototypes listed in another order -/

/-- The same nodes and connections within the same boundary, listed in another
order. What prototypes are called does not matter here. -/
structure Prototype.Relists (prototype other : Prototype) : Prop where
  inputs : other.inputs = prototype.inputs
  locals : other.locals = prototype.locals
  outputs : other.outputs = prototype.outputs
  nodes : other.nodes.Perm prototype.nodes
  connections : other.connections.Perm prototype.connections

namespace Prototype.Relists

variable {prototype other : Prototype} (relists : prototype.Relists other)
include relists

theorem symm : other.Relists prototype :=
  ⟨relists.inputs.symm, relists.locals.symm, relists.outputs.symm, relists.nodes.symm,
    relists.connections.symm⟩

theorem ids : other.ids.Perm prototype.ids :=
  relists.nodes.map PrototypeNode.id

theorem sitsIn (distinct : prototype.ids.Nodup) :
    prototype.SitsIn (prototype.relocate other) other where
  injective := relocate_injective relists.symm.nodes.subset (relists.ids.nodup_iff.mpr distinct)
    distinct
  nodes := nodes_relocate relists.symm.nodes.subset (relists.ids.nodup_iff.mpr distinct)
  inputs := relists.inputs
  locals := relists.locals
  outputs := relists.outputs
  connections := relists.symm.connections.subset
  others _ listed := .inl (relists.connections.subset listed)

variable [Processor κ] {registry : Registry κ}

theorem wellFormedLevel (wellFormed : Compile.WellFormedLevel registry prototype) :
    Compile.WellFormedLevel registry other where
  idsNonzero placed listed := wellFormed.idsNonzero placed (relists.nodes.subset listed)
  idsDistinct := relists.ids.nodup_iff.mpr wellFormed.idsDistinct
  registered placed listed := wellFormed.registered placed (relists.nodes.subset listed)
  overrides placed listed := wellFormed.overrides placed (relists.nodes.subset listed)
  connects connection listed :=
    (wellFormed.connects connection (relists.connections.subset listed)).mono
      relists.symm.nodes.subset relists.inputs relists.locals relists.outputs
  apart := (relists.connections.pairwise_iff (mt Connection.Collides.symm)).mpr wellFormed.apart
  acyclic node cycle := by
    refine wellFormed.acyclic node (Relation.TransGen.mono ?_ _ _ cycle)
    intro source destination edge
    rcases edge with ⟨connection, listed, carried⟩
    exact ⟨connection, relists.connections.subset listed, carried⟩

/-- A prototype is compiled whatever the order in which it lists its nodes and
connections. -/
theorem exists_build {config : Config} {room : Nat}
    (compiles : ∃ graph, (Compile.build registry config room prototype).outcome = .ok graph) :
    ∃ graph, (Compile.build registry config room other).outcome = .ok graph := by
  rcases Compile.exists_build_iff_created.mp compiles with ⟨created, wellFormed⟩
  exact Compile.exists_build_iff_created.mpr
    ⟨fun placed listed => created placed (relists.nodes.subset listed),
      relists.wellFormedLevel wellFormed⟩

end Prototype.Relists

/-- The order in which a prototype lists its nodes and connections has no influence
on values, as long as no event comes to a node. Listed in another order, the
prototype is accepted or refused as before, and whatever the calls, every output
shows the same and every node has used up the same. -/
theorem Instance.listing_order_invisible [Processor κ] (registry : Registry κ) (config : Config)
    (context : Context) {prototype other : Prototype} (relists : prototype.Relists other)
    (outward : ∀ connection ∈ prototype.connections,
      connection.kind ≠ .nodeEventToNode ∧ connection.kind ≠ .graphEventToNode) :
    ((∃ graph, (Instance.create registry config context prototype).outcome = .ok graph) ↔
      ∃ graph, (Instance.create registry config context other).outcome = .ok graph) ∧
    ∀ left right, (Instance.create registry config context prototype).outcome = .ok left →
      (Instance.create registry config context other).outcome = .ok right → ∀ calls,
        (∀ id, (left.afterCalls calls).readOutput? id = (right.afterCalls calls).readOutput? id) ∧
        ∀ id, (left.afterCalls calls).consumed? id = (right.afterCalls calls).consumed? id := by
  constructor
  · rw [Instance.exists_create_iff, Instance.exists_create_iff]
    exact ⟨relists.exists_build, relists.symm.exists_build⟩
  · intro left right created otherCreated calls
    rcases Instance.create_eq_ok_iff.mp created with ⟨built, compiled, rfl⟩
    rcases Instance.create_eq_ok_iff.mp otherCreated with ⟨otherBuilt, otherCompiled, rfl⟩
    have reachable : Compile.Reachable registry config prototype built := ⟨_, [], compiled, rfl⟩
    have otherReachable : Compile.Reachable registry config other otherBuilt :=
      ⟨_, [], otherCompiled, rfl⟩
    have sits := relists.sitsIn (Compile.exists_build_iff_created.mp ⟨_, compiled⟩).2.idsDistinct
    have same := (Compile.matches_of_build sits compiled otherCompiled).afterCalls
      (reachable.leadsOutward outward)
      (otherReachable.leadsOutward fun connection listed =>
        outward connection (relists.connections.subset listed)) (.init context :: calls)
    refine ⟨fun id => (same.readOutput? id).symm, fun id => ?_⟩
    exact (Compile.consumed?_eq sits (reachable.afterCalls _) (otherReachable.afterCalls _) same
      (relists.ids.subset ·)).symm

/-- A graph that adds up twice, with the nodes listed as values flow. -/
def sums : Prototype where
  name := "Sums"
  id := 0
  inputs := [⟨.named "In", .int32 1⟩]
  outputs := [⟨.named "Sum", .int32 0⟩]
  locals := []
  nodes := [⟨.named "Add (Int)", 1, [], none⟩,
    ⟨.named "Add (Int)", 2, [⟨.named "Value2", .int32 7⟩], none⟩]
  connections := [
    ⟨⟨graphNodeId, .named "In"⟩, ⟨1, .named "Value1"⟩, .graphValueToNode⟩,
    ⟨⟨1, .named "Out"⟩, ⟨2, .named "Value1"⟩, .nodeValueToNode⟩,
    ⟨⟨2, .named "Out"⟩, ⟨graphNodeId, .named "Sum"⟩, .nodeValueToGraph⟩]

/-- The same graph, listed backwards. -/
def sumsBackwards : Prototype :=
  { sums with
    nodes := sums.nodes.reverse
    connections := sums.connections.reverse }

/-- Nodes lie elsewhere and connections are made in another order, but the sum is
the same. -/
theorem sumsBackwards_listing_order_invisible :
    ∃ left right : Instance StandardNode Config.default,
      (Instance.create StandardNode.registry Config.default default sums).outcome = .ok left ∧
      (Instance.create StandardNode.registry Config.default default sumsBackwards).outcome =
        .ok right ∧
      let calls : List Call := [.setInput (.named "In") (.int32 5), .process .one]
      (left.afterCalls calls).readOutput? (.named "Sum") = some (.int32 12) ∧
      (right.afterCalls calls).readOutput? (.named "Sum") = some (.int32 12) := by
  have adds : ((Instance.create StandardNode.registry Config.default default
      sums).outcome.toOption.any fun left =>
        decide ((left.afterCalls [.setInput (.named "In") (.int32 5),
          .process .one]).readOutput? (.named "Sum") = some (.int32 12))) = true := by
    decide +kernel
  have relists : sums.Relists sumsBackwards :=
    ⟨rfl, rfl, rfl, List.reverse_perm _, List.reverse_perm _⟩
  have outward : ∀ connection ∈ sums.connections,
      connection.kind ≠ .nodeEventToNode ∧ connection.kind ≠ .graphEventToNode := by
    decide
  rcases Instance.listing_order_invisible StandardNode.registry Config.default default relists
    outward with ⟨accepted, same⟩
  rcases exists_of_any adds with ⟨left, created, adds⟩
  rcases accepted.mp ⟨left, created⟩ with ⟨right, otherCreated⟩
  have shown := (same left right created otherCreated
    [.setInput (.named "In") (.int32 5), .process .one]).1 (.named "Sum")
  have sum := of_decide_eq_true adds
  exact ⟨left, right, created, otherCreated, sum, shown.symm.trans sum⟩

end NodeGraph
