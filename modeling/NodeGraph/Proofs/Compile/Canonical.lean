import NodeGraph.Proofs.Compile.Acceptance
import NodeGraph.Proofs.Schedule.Canonical
import NodeGraph.Standard

namespace NodeGraph

/-! The order of the nodes of a prototype, said of their ids and of the
connections between them. Main statement: it is the least of the orders that the
connections allow, and if they allow none, the nodes on cycles are reported. -/

/-! ## Names and positions -/

namespace Prototype

variable {prototype : Prototype}

abbrev ids (prototype : Prototype) : List NodeId :=
  prototype.nodes.map PrototypeNode.id

/-- Where a node stands in the list of nodes. -/
def position (prototype : Prototype) (node : NodeId) : Nat :=
  prototype.ids.idxOf node

/-- The ids of the nodes can stand for the nodes, and whatever value wires
between nodes name is there. -/
structure NamesNodes (prototype : Prototype) : Prop where
  idsNonzero : ∀ placed ∈ prototype.nodes, placed.id ≠ graphNodeId
  idsDistinct : prototype.ids.Nodup
  ends : ∀ source destination, prototype.ValueEdge source destination →
    source ∈ prototype.ids ∧ destination ∈ prototype.ids

/-- A sequence in which the nodes may run: each node once, and each after those
from which wires lead to it. -/
structure RunsIn (prototype : Prototype) (order : List NodeId) : Prop where
  perm : order.Perm prototype.ids
  forward : ∀ source destination, prototype.ValueEdge source destination →
    order.idxOf source < order.idxOf destination

/-- The value wires between nodes, as positions. -/
def valueEdges (prototype : Prototype) : List Schedule.Edge :=
  (prototype.connections.filter fun connection => connection.kind = .nodeValueToNode).map
    fun connection =>
      (prototype.position connection.source.node, prototype.position connection.destination.node)

theorem mem_valueEdges_iff {first second : Nat} :
    (first, second) ∈ prototype.valueEdges ↔
      ∃ source destination, prototype.ValueEdge source destination ∧
        prototype.position source = first ∧ prototype.position destination = second := by
  simp only [valueEdges, List.mem_map, List.mem_filter, decide_eq_true_eq, Prod.mk.injEq]
  constructor
  · intro found
    rcases found with ⟨connection, ⟨listed, kind⟩, rfl, rfl⟩
    exact ⟨_, _, ⟨connection, listed, kind, rfl, rfl⟩, rfl, rfl⟩
  · intro found
    rcases found with ⟨_, _, ⟨connection, listed, kind, rfl, rfl⟩, rfl, rfl⟩
    exact ⟨connection, ⟨listed, kind⟩, rfl, rfl⟩

theorem position_lt {node : NodeId} (named : node ∈ prototype.ids) :
    prototype.position node < prototype.nodes.length := by
  have bound := List.idxOf_lt_length_of_mem named
  rwa [List.length_map] at bound

/-- Looking up a position gives back the node. -/
theorem getElem?_position {node : NodeId} (named : node ∈ prototype.ids) :
    (prototype.nodes[prototype.position node]?.map PrototypeNode.id) = some node := by
  rw [← List.getElem?_map]
  exact List.getElem?_idxOf named

theorem position_inj {first second : NodeId} (named : first ∈ prototype.ids) :
    prototype.position first = prototype.position second ↔ first = second :=
  List.idxOf_inj named

/-- The nodes at some positions. -/
def nodesAt (prototype : Prototype) (positions : List Nat) : List NodeId :=
  positions.filterMap fun index => prototype.nodes[index]?.map PrototypeNode.id

theorem nodesAt_positions {nodes : List NodeId} (named : ∀ node ∈ nodes, node ∈ prototype.ids) :
    prototype.nodesAt (nodes.map prototype.position) = nodes := by
  induction nodes with
  | nil => rfl
  | cons node nodes induction =>
      rcases List.forall_mem_cons.mp named with ⟨first, rest⟩
      have others := induction rest
      simp only [nodesAt] at others
      simp [nodesAt, getElem?_position first, others]

/-- Distinct nodes stand one after the other. -/
theorem map_position_ids (distinct : prototype.ids.Nodup) :
    prototype.ids.map prototype.position = List.range prototype.nodes.length := by
  apply List.ext_getElem
  · simp
  · intro index bound _
    rw [List.getElem_map, List.getElem_range]
    exact distinct.idxOf_getElem index (by simpa using bound)

theorem nodesAt_range (distinct : prototype.ids.Nodup) :
    prototype.nodesAt (List.range prototype.nodes.length) = prototype.ids := by
  rw [← map_position_ids distinct, nodesAt_positions fun _ named => named]

theorem named_position_of_getElem? (distinct : prototype.ids.Nodup) {node : NodeId} {index : Nat}
    (found : (prototype.nodes[index]?.map PrototypeNode.id) = some node) :
    node ∈ prototype.ids ∧ prototype.position node = index := by
  rw [← List.getElem?_map] at found
  rcases List.getElem?_eq_some_iff.mp found with ⟨bound, rfl⟩
  exact ⟨List.getElem_mem bound, distinct.idxOf_getElem index bound⟩

theorem positions_nodesAt (distinct : prototype.ids.Nodup) {positions : List Nat}
    (below : ∀ index ∈ positions, index < prototype.nodes.length) :
    (prototype.nodesAt positions).map prototype.position = positions := by
  induction positions with
  | nil => rfl
  | cons index positions induction =>
      rcases List.forall_mem_cons.mp below with ⟨bound, rest⟩
      have found : (prototype.nodes[index]?.map PrototypeNode.id) =
          some prototype.nodes[index].id := by simp [bound]
      have others := induction rest
      simp only [nodesAt] at others
      simp [nodesAt, bound, (named_position_of_getElem? distinct found).2, others]

/-! ## Orders -/

theorem NamesNodes.bounded (named : prototype.NamesNodes) :
    ∀ edge ∈ prototype.valueEdges,
      edge.1 < prototype.nodes.length ∧ edge.2 < prototype.nodes.length := by
  intro edge listed
  rcases mem_valueEdges_iff.mp listed with ⟨source, destination, edge, first, second⟩
  rcases named.ends source destination edge with ⟨sourceNamed, destinationNamed⟩
  exact ⟨first ▸ position_lt sourceNamed, second ▸ position_lt destinationNamed⟩

theorem positions_mem_valueEdges_iff
    {source destination : NodeId} (sourceNamed : source ∈ prototype.ids)
    (destinationNamed : destination ∈ prototype.ids) :
    (prototype.position source, prototype.position destination) ∈ prototype.valueEdges ↔
      prototype.ValueEdge source destination := by
  rw [mem_valueEdges_iff]
  constructor
  · intro found
    rcases found with ⟨first, second, edge, firstSame, secondSame⟩
    rw [eq_comm, position_inj sourceNamed] at firstSame
    rw [eq_comm, position_inj destinationNamed] at secondSame
    rwa [firstSame, secondSame]
  · intro edge
    exact ⟨source, destination, edge, rfl, rfl⟩

/-- Nodes run in an order exactly if their positions are in order. -/
theorem NamesNodes.isOrder_iff (named : prototype.NamesNodes) {order : List NodeId}
    (perm : order.Perm prototype.ids) :
    Schedule.IsOrder prototype.valueEdges prototype.nodes.length
        (order.map prototype.position) ↔ prototype.RunsIn order := by
  have nodup : order.Nodup := perm.nodup_iff.mpr named.idsDistinct
  have forward := Schedule.idxOf_lt_iff_respects prototype.ValueEdge nodup
    fun source destination edge =>
      (named.ends source destination edge).imp perm.mem_iff.mpr perm.mem_iff.mpr
  have respects : (order.map prototype.position).Pairwise
        (fun earlier later => (later, earlier) ∉ prototype.valueEdges) ↔
      order.Pairwise fun earlier later => ¬ prototype.ValueEdge later earlier := by
    rw [List.pairwise_map]
    refine List.Pairwise.iff_of_mem fun earlierListed laterListed => not_congr ?_
    exact positions_mem_valueEdges_iff (perm.mem_iff.mp laterListed)
      (perm.mem_iff.mp earlierListed)
  have irreflexive : (∀ node ∈ order.map prototype.position,
      (node, node) ∉ prototype.valueEdges) ↔ ∀ node ∈ order, ¬ prototype.ValueEdge node node := by
    rw [List.forall_mem_map]
    exact forall₂_congr fun node listed => not_congr
      (positions_mem_valueEdges_iff (perm.mem_iff.mp listed) (perm.mem_iff.mp listed))
  constructor
  · intro isOrder
    exact ⟨perm, forward.mpr ⟨respects.mp isOrder.respects, irreflexive.mp isOrder.irreflexive⟩⟩
  · intro runs
    rcases forward.mp runs.forward with ⟨apart, notSelf⟩
    exact ⟨map_position_ids named.idsDistinct ▸ perm.map _, respects.mpr apart,
      irreflexive.mpr notSelf⟩

/-- Every order of positions is the order of the nodes there. -/
theorem NamesNodes.nodesAt_perm (named : prototype.NamesNodes) {positions : List Nat}
    (perm : positions.Perm (List.range prototype.nodes.length)) :
    (prototype.nodesAt positions).Perm prototype.ids := by
  rw [← nodesAt_range named.idsDistinct]
  exact perm.filterMap _

/-! ## Cycles -/

/-- What leads from one node to another leads from one position to the other. -/
theorem NamesNodes.transGen_iff (named : prototype.NamesNodes) {source destination : NodeId}
    (sourceNamed : source ∈ prototype.ids) (destinationNamed : destination ∈ prototype.ids) :
    Relation.TransGen (Schedule.DependsOn prototype.valueEdges) (prototype.position source)
        (prototype.position destination) ↔
      Relation.TransGen prototype.ValueEdge source destination := by
  constructor
  · intro path
    have back : ∀ first second, (first, second) ∈ prototype.valueEdges →
        prototype.ValueEdge ((prototype.nodes[first]?.map PrototypeNode.id).getD graphNodeId)
          ((prototype.nodes[second]?.map PrototypeNode.id).getD graphNodeId) := by
      intro first second edge
      rcases mem_valueEdges_iff.mp edge with ⟨start, stop, leads, rfl, rfl⟩
      rcases named.ends start stop leads with ⟨startNamed, stopNamed⟩
      rwa [getElem?_position startNamed, getElem?_position stopNamed]
    have between := path.lift _ back
    simp only [Function.onFun, getElem?_position sourceNamed,
      getElem?_position destinationNamed] at between
    exact between
  · intro path
    exact path.lift prototype.position fun start stop leads =>
      mem_valueEdges_iff.mpr ⟨start, stop, leads, rfl, rfl⟩

theorem NamesNodes.named_of_cycle (named : prototype.NamesNodes) {node : NodeId}
    (cycle : Relation.TransGen prototype.ValueEdge node node) : node ∈ prototype.ids := by
  cases cycle with
  | single edge => exact (named.ends _ _ edge).2
  | tail _ edge => exact (named.ends _ _ edge).2

/-- Nodes depend on each other in a cycle exactly if their positions do. -/
theorem NamesNodes.acyclic_iff (named : prototype.NamesNodes) :
    Schedule.Acyclic prototype.valueEdges ↔
      ∀ node, ¬ Relation.TransGen prototype.ValueEdge node node := by
  constructor
  · intro acyclic node cycle
    have here := named.named_of_cycle cycle
    exact acyclic _ ((named.transGen_iff here here).mpr cycle)
  · intro acyclic index cycle
    have edge : ∃ source, (source, index) ∈ prototype.valueEdges := by
      cases cycle with
      | single edge => exact ⟨_, edge⟩
      | tail _ edge => exact ⟨_, edge⟩
    rcases edge with ⟨_, edge⟩
    rcases mem_valueEdges_iff.mp edge with ⟨source, destination, leads, -, rfl⟩
    have here := (named.ends source destination leads).2
    exact acyclic destination ((named.transGen_iff here here).mp cycle)

end Prototype

/-! ## The order that is found -/

namespace Compile

variable {prototype : Prototype}

theorem positionOf_eq_ok {terminus : Terminus} (named : terminus.node ∈ prototype.ids) :
    positionOf prototype terminus = .ok (prototype.position terminus.node) := by
  apply Endpoints.node_eq_ok_iff.mpr
  have located : prototype.ids.findIdx? (· == terminus.node) =
      some (prototype.position terminus.node) := by
    rw [List.findIdx?_eq_guard_findIdx_lt]
    exact Option.guard_eq_some_iff.mpr ⟨rfl, decide_eq_true (List.idxOf_lt_length_of_mem named)⟩
  rwa [List.findIdx?_map] at located

/-- If all ends of value wires between nodes are there, the edges are these
wires. -/
theorem edges_eq_ok {connections : List Connection}
    (ends : ∀ connection ∈ connections, connection.kind = .nodeValueToNode →
      connection.source.node ∈ prototype.ids ∧ connection.destination.node ∈ prototype.ids) :
    edges prototype connections =
      .ok ((connections.filter fun connection => connection.kind = .nodeValueToNode).map
        fun connection => (prototype.position connection.source.node,
          prototype.position connection.destination.node)) := by
  induction connections with
  | nil => rfl
  | cons connection connections induction =>
      rcases List.forall_mem_cons.mp ends with ⟨first, rest⟩
      unfold edges
      by_cases kind : connection.kind = .nodeValueToNode
      · rcases first kind with ⟨sourceNamed, destinationNamed⟩
        simp [kind, positionOf_eq_ok sourceNamed, positionOf_eq_ok destinationNamed,
          induction rest, bind, Except.bind, pure, Except.pure]
      · simp [kind, induction rest]

end Compile

theorem Prototype.NamesNodes.dependencyOrder_eq {prototype : Prototype}
    (named : prototype.NamesNodes) :
    dependencyOrder prototype =
      match Schedule.order prototype.valueEdges prototype.nodes.length with
      | .ok order => .ok (prototype.nodesAt order)
      | .error cycle => .error (.valueCycle (prototype.nodesAt cycle)) := by
  have ids : Compile.checkIds [] prototype.nodes = .ok () :=
    Compile.checkIds_eq_ok_iff.mpr
      ⟨fun placed listed => ⟨named.idsNonzero placed listed, List.not_mem_nil⟩, named.idsDistinct⟩
  have edges : Compile.edges prototype prototype.connections = .ok prototype.valueEdges :=
    Compile.edges_eq_ok fun connection listed kind =>
      named.ends _ _ ⟨connection, listed, kind, rfl, rfl⟩
  simp only [dependencyOrder, Compile.order, ids, edges, bind, Except.bind]
  cases Schedule.order prototype.valueEdges prototype.nodes.length <;> rfl

/-- The order that is found is the least in which the nodes may run. -/
theorem Prototype.NamesNodes.exists_least {prototype : Prototype} (named : prototype.NamesNodes)
    (acyclic : ∀ node, ¬ Relation.TransGen prototype.ValueEdge node node) :
    ∃ order, dependencyOrder prototype = .ok order ∧ prototype.RunsIn order ∧
      ∀ other, prototype.RunsIn other → other = order ∨
        List.Lex (· < ·) (order.map prototype.position) (other.map prototype.position) := by
  rcases (Schedule.order_isOk_iff named.bounded).mpr (named.acyclic_iff.mpr acyclic) with
    ⟨positions, ordered⟩
  have isOrder := Schedule.isOrder_of_order ordered
  have perm := named.nodesAt_perm isOrder.perm
  have same : (prototype.nodesAt positions).map prototype.position = positions :=
    positions_nodesAt named.idsDistinct fun index listed =>
      List.mem_range.mp (isOrder.perm.subset listed)
  refine ⟨prototype.nodesAt positions, by rw [named.dependencyOrder_eq, ordered], ?_, ?_⟩
  · rw [← named.isOrder_iff perm, same]
    exact isOrder
  · intro other runs
    rw [same]
    rcases Schedule.order_least ordered ((named.isOrder_iff runs.perm).mpr runs) with
      equal | before
    · rw [equal, nodesAt_positions fun _ listed => runs.perm.subset listed]
      exact .inl rfl
    · exact .inr before

/-- If there is no order, the nodes on cycles are reported as they are listed. -/
theorem Prototype.NamesNodes.exists_cyclic {prototype : Prototype} (named : prototype.NamesNodes)
    (cyclic : ∃ node, Relation.TransGen prototype.ValueEdge node node) :
    ∃ nodes, dependencyOrder prototype = .error (.valueCycle nodes) ∧
      nodes.Sublist prototype.ids ∧
      ∀ node, node ∈ nodes ↔ Relation.TransGen prototype.ValueEdge node node := by
  have failed := Schedule.order_eq_error named.bounded fun acyclic => by
    rcases cyclic with ⟨node, cycle⟩
    exact named.acyclic_iff.mp acyclic node cycle
  refine ⟨_, by rw [named.dependencyOrder_eq, failed], ?_, fun node => ?_⟩
  · rw [← nodesAt_range named.idsDistinct]
    exact List.filter_sublist.filterMap _
  · have bounded : ∀ edge ∈ prototype.valueEdges, edge.2 < prototype.nodes.length :=
      fun edge listed => (named.bounded edge listed).2
    simp only [nodesAt, List.mem_filterMap, List.mem_filter, List.mem_range,
      Schedule.isOnCycle_iff bounded]
    constructor
    · intro reported
      rcases reported with ⟨index, ⟨-, cycle⟩, found⟩
      rcases named_position_of_getElem? named.idsDistinct found with ⟨here, rfl⟩
      exact (named.transGen_iff here here).mp cycle
    · intro cycle
      have here := named.named_of_cycle cycle
      exact ⟨prototype.position node, ⟨position_lt here, (named.transGen_iff here here).mpr cycle⟩,
        getElem?_position here⟩

/-- The order depends on the ids in their order and on what leads to what. -/
theorem Prototype.NamesNodes.dependencyOrder_congr {prototype other : Prototype}
    (named : prototype.NamesNodes) (otherNamed : other.NamesNodes)
    (ids : other.ids = prototype.ids) (edges : other.ValueEdge = prototype.ValueEdge) :
    dependencyOrder other = dependencyOrder prototype := by
  have runs (order : List NodeId) : other.RunsIn order ↔ prototype.RunsIn order := by
    constructor
    · exact fun runs => ⟨ids ▸ runs.perm, edges ▸ runs.forward⟩
    · exact fun runs => ⟨ids.symm ▸ runs.perm, edges.symm ▸ runs.forward⟩
  have position : other.position = prototype.position := by
    funext node
    rw [Prototype.position, ids, Prototype.position]
  by_cases cyclic : ∃ node, Relation.TransGen prototype.ValueEdge node node
  · rcases named.exists_cyclic cyclic with ⟨nodes, reported, sublist, onCycles⟩
    rcases otherNamed.exists_cyclic (edges ▸ cyclic) with
      ⟨otherNodes, otherReported, otherSublist, otherOnCycles⟩
    rw [ids] at otherSublist
    rw [edges] at otherOnCycles
    have same : otherNodes = nodes := Schedule.eq_of_sublists otherSublist sublist
      named.idsDistinct fun node => (otherOnCycles node).trans (onCycles node).symm
    rw [reported, otherReported, same]
  · push Not at cyclic
    rcases named.exists_least cyclic with ⟨order, found, isRun, least⟩
    rcases otherNamed.exists_least (edges ▸ cyclic) with
      ⟨otherOrder, otherFound, otherIsRun, otherLeast⟩
    rw [position] at otherLeast
    rcases least otherOrder ((runs _).mp otherIsRun) with same | before
    · rw [found, otherFound, same]
    · rcases otherLeast order ((runs _).mpr isRun) with same | after
      · rw [found, otherFound, same]
      · exact absurd after (asymm before)

/-! ## Compiled graphs -/

namespace Compile

variable [Processor κ] {registry : Registry κ} {config : Config} {prototype : Prototype}
  {room : Nat}

/-- The order that compiling finds is the one that is found for the prototype. -/
theorem Wired.dependencyOrder_eq {endpoints : Endpoints} {wires : List Wire} {order : List Nat}
    (wired : Wired endpoints wires order) :
    dependencyOrder endpoints.prototype = .ok (endpoints.prototype.nodesAt order) := by
  simp [dependencyOrder, wired.ids, wired.order, Prototype.nodesAt, bind, Except.bind, pure,
    Except.pure]

/-- The nodes of a graph run in the order that is found for its prototype. -/
theorem Reachable.dependencyOrder_eq {graph : Graph (Nested κ room)}
    (reachable : Reachable registry config prototype graph) :
    dependencyOrder prototype = .ok graph.circuit.orderIds := by
  rcases reachable.circuit_eq with ⟨wires, order, wired, equal⟩
  have shown : graph.circuit.orderIds = prototype.nodesAt order := by
    simp only [equal, Circuit.orderIds,
      Assembly.circuit_ids (endpointsOf_complete registry prototype)]
    rfl
  rw [shown]
  exact wired.dependencyOrder_eq

end Compile

/-- The order of the nodes is canonical. If the value wires between nodes form no
cycle, it is the least order in which each node runs after those that lead to it,
by the positions of the nodes; or else the nodes on cycles are reported as they
are listed. In which order wires are listed makes no difference, and the order is
the one in which a compiled graph runs its nodes, whatever has happened to it. -/
theorem Instance.dependencyOrder_canonical [Processor κ] (registry : Registry κ)
    (config : Config) (context : Context) (prototype : Prototype) :
    (prototype.NamesNodes →
      ((∀ node, ¬ Relation.TransGen prototype.ValueEdge node node) →
        ∃ order, dependencyOrder prototype = .ok order ∧ prototype.RunsIn order ∧
          ∀ other, prototype.RunsIn other → other = order ∨
            List.Lex (· < ·) (order.map prototype.position) (other.map prototype.position)) ∧
      ((∃ node, Relation.TransGen prototype.ValueEdge node node) →
        ∃ nodes, dependencyOrder prototype = .error (.valueCycle nodes) ∧
          nodes.Sublist prototype.ids ∧
          ∀ node, node ∈ nodes ↔ Relation.TransGen prototype.ValueEdge node node) ∧
      ∀ connections, connections.Perm prototype.connections →
        dependencyOrder { prototype with connections } = dependencyOrder prototype) ∧
    ∀ graph calls, (Instance.create registry config context prototype).outcome = .ok graph →
      dependencyOrder prototype = .ok (graph.afterCalls calls).circuit.orderIds := by
  refine ⟨fun named => ⟨named.exists_least, named.exists_cyclic, fun connections perm => ?_⟩,
    fun graph calls created => ?_⟩
  · have edges : Prototype.ValueEdge { prototype with connections } = prototype.ValueEdge := by
      funext source destination
      simp only [Prototype.ValueEdge, perm.mem_iff]
    exact named.dependencyOrder_congr ⟨named.idsNonzero, named.idsDistinct, edges ▸ named.ends⟩
      rfl edges
  · exact ((Compile.Reachable.of_create created).afterCalls calls).dependencyOrder_eq

/-- Two nodes on a cycle and one behind them, which a wire leads to twice. -/
def loopWithTail : Prototype where
  name := "Loop with a tail"
  id := 0
  inputs := []
  outputs := []
  locals := []
  nodes := [⟨.named "Add (Int)", 7, [], none⟩, ⟨.named "Add (Int)", 5, [], none⟩,
    ⟨.named "Add (Int)", 3, [], none⟩]
  connections := [
    ⟨⟨7, .named "Out"⟩, ⟨5, .named "Value1"⟩, .nodeValueToNode⟩,
    ⟨⟨5, .named "Out"⟩, ⟨7, .named "Value1"⟩, .nodeValueToNode⟩,
    ⟨⟨5, .named "Out"⟩, ⟨3, .named "Value1"⟩, .nodeValueToNode⟩,
    ⟨⟨5, .named "Out"⟩, ⟨3, .named "Value2"⟩, .nodeValueToNode⟩]

/-- The same nodes without the wire that closes the cycle. -/
def openLoop : Prototype :=
  { loopWithTail with connections := loopWithTail.connections.tail }

theorem loopWithTail_dependencyOrder_canonical :
    (∃ nodes, dependencyOrder loopWithTail = .error (.valueCycle nodes) ∧ 5 ∈ nodes ∧ 3 ∉ nodes) ∧
      ∃ order, dependencyOrder openLoop = .ok order ∧ openLoop.RunsIn order ∧
        openLoop.RunsIn [5, 7, 3] ∧
        ([5, 7, 3] = order ∨ List.Lex (· < ·) (order.map openLoop.position) [1, 0, 2]) := by
  have edges (source destination : NodeId) : loopWithTail.ValueEdge source destination ↔
      (source = 7 ∧ destination = 5) ∨ (source = 5 ∧ (destination = 7 ∨ destination = 3)) := by
    simp only [Prototype.ValueEdge, loopWithTail, List.mem_cons, List.not_mem_nil, or_false]
    constructor
    · intro edge
      rcases edge with ⟨connection, rfl | rfl | rfl | rfl, -, rfl, rfl⟩ <;> simp
    · intro edge
      rcases edge with ⟨rfl, rfl⟩ | ⟨rfl, rfl | rfl⟩ <;> simp
  have openEdges (source destination : NodeId) : openLoop.ValueEdge source destination ↔
      source = 5 ∧ (destination = 7 ∨ destination = 3) := by
    simp only [Prototype.ValueEdge, openLoop, loopWithTail, List.tail_cons, List.mem_cons,
      List.not_mem_nil, or_false]
    constructor
    · intro edge
      rcases edge with ⟨connection, rfl | rfl | rfl, -, rfl, rfl⟩ <;> simp
    · intro edge
      rcases edge with ⟨rfl, rfl | rfl⟩ <;> simp
  have named : loopWithTail.NamesNodes := by
    refine ⟨by decide, by decide, fun source destination edge => ?_⟩
    rcases (edges _ _).mp edge with ⟨rfl, rfl⟩ | ⟨rfl, rfl | rfl⟩ <;> decide
  have openNamed : openLoop.NamesNodes := by
    refine ⟨by decide, by decide, fun source destination edge => ?_⟩
    rcases (openEdges _ _).mp edge with ⟨rfl, rfl | rfl⟩ <;> decide
  constructor
  · have cycle : Relation.TransGen loopWithTail.ValueEdge 5 5 :=
      .tail (.single ((edges 5 7).mpr (by simp))) ((edges 7 5).mpr (by simp))
    rcases ((Instance.dependencyOrder_canonical StandardNode.registry Config.default default
      loopWithTail).1 named).2.1 ⟨5, cycle⟩ with ⟨nodes, reported, -, onCycles⟩
    refine ⟨nodes, reported, (onCycles 5).mpr cycle, fun listed => ?_⟩
    rcases Relation.TransGen.head'_iff.mp ((onCycles 3).mp listed) with ⟨_, edge, -⟩
    rcases (edges _ _).mp edge with ⟨impossible, -⟩ | ⟨impossible, -⟩ <;> cases impossible
  · have acyclic : ∀ node, ¬ Relation.TransGen openLoop.ValueEdge node node := by
      intro node cycle
      rcases Relation.TransGen.head'_iff.mp cycle with ⟨_, first, -⟩
      rcases Relation.TransGen.tail'_iff.mp cycle with ⟨_, -, last⟩
      rcases (openEdges _ _).mp first with ⟨rfl, -⟩
      rcases (openEdges _ _).mp last with ⟨-, impossible | impossible⟩ <;> cases impossible
    have runs : openLoop.RunsIn [5, 7, 3] := by
      refine ⟨by decide, fun source destination edge => ?_⟩
      rcases (openEdges _ _).mp edge with ⟨rfl, rfl | rfl⟩ <;> decide
    rcases ((Instance.dependencyOrder_canonical StandardNode.registry Config.default default
      openLoop).1 openNamed).1 acyclic with ⟨order, found, isRun, least⟩
    exact ⟨order, found, isRun, runs, least _ runs⟩

end NodeGraph
