import NodeGraph.Proofs.Compile.Relocation
import NodeGraph.Proofs.Schedule.Spectator

namespace NodeGraph

open Compile

/-! Nodes that feed nobody. A prototype is given one more node, anywhere among the
others, and connections that carry values to it, but none that lead from it. Main
statements: the prototype is compiled as before, and in its circuit all other
nodes run in the same order and are led the same events. -/

/-! ## Prototypes -/

/-- A connection that carries a value of the prototype to an input plug of a node
that is added. -/
structure Compile.Watches [Processor κ] (registry : Registry κ) (prototype : Prototype)
    (watcher : PrototypeNode) (connection : Connection) : Prop where
  isValue : connection.kind.isEvent = false
  toNode : connection.kind.destinationScope = .node
  sourceSide : connection.source.node = graphNodeId ↔ connection.kind.sourceScope ≠ .node
  source : SourceExists registry prototype connection
  plug : ∃ layout, layout? registry watcher = some layout ∧
    Declares layout.inputs connection.destination.endpoint

/-- The prototype with one more node, `watcher`, which can be created and to which
some values are carried, each to a plug of its own. -/
structure Prototype.AddsSpectator [Processor κ] (registry : Registry κ) (limit : Nat)
    (prototype extended : Prototype) (watcher : PrototypeNode) : Prop where
  inputs : extended.inputs = prototype.inputs
  locals : extended.locals = prototype.locals
  outputs : extended.outputs = prototype.outputs
  nodes : ∃ before after, prototype.nodes = before ++ after ∧
    extended.nodes = before ++ watcher :: after
  nonzero : watcher.id ≠ graphNodeId
  fresh : watcher.id ∉ prototype.ids
  registered : watcher.subroutine = none → registry.contains watcher.type = true
  nested : ∀ subroutine, watcher.subroutine = some subroutine →
    0 < limit ∧ WellFormed registry limit 1 subroutine
  overrides : ∀ layout, layout? registry watcher = some layout →
    ∀ override ∈ watcher.overrides, Overrides layout override
  kept : (extended.connections.filter fun connection =>
    connection.destination.node != watcher.id) = prototype.connections
  watches : ∀ connection ∈ extended.connectionsTo watcher.id,
    Watches registry prototype watcher connection
  apart : (extended.connectionsTo watcher.id).Pairwise fun first second =>
    (first.destination.endpoint == second.destination.endpoint) = false

/-- A source that exists is on a node of the prototype or on the graph itself. -/
theorem Compile.source_named [Processor κ] {registry : Registry κ} {prototype : Prototype}
    {connection : Connection}
    (side : connection.source.node = graphNodeId ↔ connection.kind.sourceScope ≠ .node)
    (source : SourceExists registry prototype connection) :
    connection.source.node = graphNodeId ∨ connection.source.node ∈ prototype.ids := by
  by_cases scope : connection.kind.sourceScope = .node
  · simp only [SourceExists, scope] at source
    rcases source with ⟨placed, listed, same, -⟩
    exact .inr (List.mem_map.mpr ⟨placed, listed, same⟩)
  · exact .inl (side.mpr scope)

namespace Prototype.AddsSpectator

variable [Processor κ] {registry : Registry κ} {limit : Nat} {prototype extended : Prototype}
  {watcher : PrototypeNode} (adds : prototype.AddsSpectator registry limit extended watcher)
include adds

theorem nodes_perm : extended.nodes.Perm (watcher :: prototype.nodes) := by
  rcases adds.nodes with ⟨before, after, split, extendedSplit⟩
  rw [split, extendedSplit]
  exact List.perm_middle

theorem nodes_subset : prototype.nodes ⊆ extended.nodes :=
  fun _ listed => adds.nodes_perm.mem_iff.mpr (.tail _ listed)

theorem watcher_mem : watcher ∈ extended.nodes :=
  adds.nodes_perm.mem_iff.mpr (.head _)

theorem ids_perm : extended.ids.Perm (watcher.id :: prototype.ids) :=
  adds.nodes_perm.map PrototypeNode.id

theorem ids_filter : extended.ids.filter (· != watcher.id) = prototype.ids := by
  have fresh := adds.fresh
  rcases adds.nodes with ⟨before, after, split, extendedSplit⟩
  rw [ids, split, List.map_append, List.mem_append, not_or] at fresh
  rw [ids, ids, split, extendedSplit, List.map_append, List.map_append, List.map_cons,
    List.filter_append, List.filter_cons_of_neg (by simp), List.filter_eq_self.mpr,
    List.filter_eq_self.mpr]
  · exact fun id listed => bne_iff_ne.mpr fun same => fresh.2 (same ▸ listed)
  · exact fun id listed => bne_iff_ne.mpr fun same => fresh.1 (same ▸ listed)

theorem connections_subset : prototype.connections ⊆ extended.connections :=
  adds.kept ▸ List.filter_sublist.subset

theorem connection_cases {connection : Connection} (listed : connection ∈ extended.connections) :
    connection ∈ prototype.connections ∨
      connection.destination.node = watcher.id ∧
        Watches registry prototype watcher connection := by
  by_cases onWatcher : connection.destination.node = watcher.id
  · exact .inr ⟨onWatcher, adds.watches connection
      (List.mem_filter.mpr ⟨listed, beq_iff_eq.mpr onWatcher⟩)⟩
  · rw [← adds.kept]
    exact .inl (List.mem_filter.mpr ⟨listed, bne_iff_ne.mpr onWatcher⟩)

/-! ## Compiling -/

section
variable (wellFormed : WellFormedLevel registry prototype)
include wellFormed

/-- Nothing leads from the node that is added. -/
theorem source_ne {connection : Connection} (listed : connection ∈ extended.connections) :
    connection.source.node ≠ watcher.id := by
  have named : connection.source.node = graphNodeId ∨ connection.source.node ∈ prototype.ids := by
    rcases adds.connection_cases listed with here | ⟨-, watches⟩
    · exact source_named (wellFormed.connects connection here).sourceSide
        (wellFormed.connects connection here).source
    · exact source_named watches.sourceSide watches.source
  intro same
  rw [same] at named
  exact named.elim adds.nonzero adds.fresh

/-- Connections can be wired as before, and those that are added can be as well. -/
theorem connects {connection : Connection} (listed : connection ∈ extended.connections) :
    Connects registry extended connection := by
  rcases adds.connection_cases listed with here | ⟨onWatcher, watches⟩
  · exact (wellFormed.connects connection here).mono adds.nodes_subset adds.inputs adds.locals
      adds.outputs
  · exact {
      sourceSide := watches.sourceSide
      destinationSide := by
        rw [onWatcher]
        exact iff_of_false adds.nonzero (not_not.mpr watches.toNode)
      source := watches.source.mono adds.nodes_subset adds.inputs adds.locals
      destination := by
        simp only [DestinationExists, watches.toNode, watches.isValue]
        rcases watches.plug with ⟨layout, known, declared⟩
        exact ⟨watcher, adds.watcher_mem, onWatcher.symm, layout, known, by simpa using declared⟩ }

theorem notCollides :
    extended.connections.Pairwise fun first second => ¬ first.Collides second := by
  rw [← (List.filter_append_perm (fun connection => connection.destination.node == watcher.id)
    extended.connections).pairwise_iff (mt Connection.Collides.symm), List.pairwise_append]
  refine ⟨adds.apart.imp fun different collides => ?_, ?_, ?_⟩
  · rw [collides.2.2.2] at different
    cases different
  · exact adds.kept ▸ wellFormed.apart
  · intro first onWatcher second elsewhere collides
    have there := (List.mem_filter.mp elsewhere).2
    rw [← collides.2.2.1, (List.mem_filter.mp onWatcher).2] at there
    cases there

/-- A path of values that ends elsewhere never touches the node that is added. -/
theorem transGen_valueEdge {source destination : NodeId}
    (path : Relation.TransGen extended.ValueEdge source destination)
    (elsewhere : destination ≠ watcher.id) :
    Relation.TransGen prototype.ValueEdge source destination := by
  have old {start stop : NodeId} (edge : extended.ValueEdge start stop)
      (elsewhere : stop ≠ watcher.id) : prototype.ValueEdge start stop := by
    rcases edge with ⟨connection, listed, kind, starts, stops⟩
    rcases adds.connection_cases listed with here | ⟨onWatcher, -⟩
    · exact ⟨connection, here, kind, starts, stops⟩
    · exact absurd (stops.symm.trans onWatcher) elsewhere
  induction path with
  | single edge => exact .single (old edge elsewhere)
  | tail _ edge induction =>
      have leaves := edge
      rcases leaves with ⟨connection, listed, -, starts, -⟩
      exact (induction (starts ▸ adds.source_ne wellFormed listed)).tail (old edge elsewhere)

theorem wellFormedLevel : WellFormedLevel registry extended where
  idsNonzero placed listed := by
    rcases List.mem_cons.mp (adds.nodes_perm.mem_iff.mp listed) with rfl | here
    · exact adds.nonzero
    · exact wellFormed.idsNonzero placed here
  idsDistinct := adds.ids_perm.nodup_iff.mpr
    (List.nodup_cons.mpr ⟨adds.fresh, wellFormed.idsDistinct⟩)
  registered placed listed := by
    rcases List.mem_cons.mp (adds.nodes_perm.mem_iff.mp listed) with rfl | here
    · exact adds.registered
    · exact wellFormed.registered placed here
  overrides placed listed := by
    rcases List.mem_cons.mp (adds.nodes_perm.mem_iff.mp listed) with rfl | here
    · exact adds.overrides
    · exact wellFormed.overrides placed here
  connects _ listed := adds.connects wellFormed listed
  apart := adds.notCollides wellFormed
  acyclic node cycle := by
    refine wellFormed.acyclic node (adds.transGen_valueEdge wellFormed cycle ?_)
    rcases Relation.TransGen.head'_iff.mp cycle with ⟨_, ⟨connection, listed, -, starts, -⟩, -⟩
    exact starts ▸ adds.source_ne wellFormed listed

end

theorem wellFormed (wellFormed : WellFormed registry limit 0 prototype) :
    WellFormed registry limit 0 extended := by
  rcases wellFormed with ⟨here, room, below⟩
  refine .intro (adds.wellFormedLevel here) ?_ ?_
  · intro placed listed isNested
    rcases List.mem_cons.mp (adds.nodes_perm.mem_iff.mp listed) with rfl | listedHere
    · rcases Option.ne_none_iff_exists'.mp isNested with ⟨subroutine, found⟩
      exact (adds.nested subroutine found).1
    · exact room placed listedHere isNested
  · intro placed listed subroutine found
    rcases List.mem_cons.mp (adds.nodes_perm.mem_iff.mp listed) with rfl | listedHere
    · exact (adds.nested subroutine found).2
    · exact below placed listedHere subroutine found

/-- A prototype that is compiled still is with the node added. -/
theorem exists_build {config : Config}
    (compiles : ∃ graph, (build registry config limit prototype).outcome = .ok graph) :
    ∃ graph, (build registry config limit extended).outcome = .ok graph :=
  (exists_build_iff (Nat.zero_add _) extended).mpr
    (adds.wellFormed ((exists_build_iff (Nat.zero_add _) prototype).mp compiles))

/-! ## Positions -/

section
variable (distinct : prototype.ids.Nodup)
include distinct

theorem extendedDistinct : extended.ids.Nodup :=
  adds.ids_perm.nodup_iff.mpr (List.nodup_cons.mpr ⟨adds.fresh, distinct⟩)

theorem sitsIn : prototype.SitsIn (prototype.relocate extended) extended where
  injective := relocate_injective adds.nodes_subset (adds.extendedDistinct distinct) distinct
  nodes := nodes_relocate adds.nodes_subset (adds.extendedDistinct distinct)
  inputs := adds.inputs
  locals := adds.locals
  outputs := adds.outputs
  connections := adds.connections_subset
  others connection listed := by
    rcases adds.connection_cases listed with here | ⟨onWatcher, watches⟩
    · exact .inl here
    · exact .inr ⟨watches.isValue, watches.toNode, onWatcher ▸ adds.fresh⟩

omit distinct in
theorem named_watcher : watcher.id ∈ extended.ids :=
  List.mem_map.mpr ⟨watcher, adds.watcher_mem, rfl⟩

omit distinct in
theorem relocate_ne (index : Nat) :
    prototype.relocate extended index ≠ extended.position watcher.id := by
  unfold relocate
  split
  next placed found =>
    intro same
    have listed := List.mem_of_getElem? found
    have named := (position_inj (List.mem_map.mpr ⟨placed, adds.nodes_subset listed, rfl⟩)).mp same
    exact adds.fresh (named ▸ List.mem_map.mpr ⟨placed, listed, rfl⟩)
  next =>
    have bound := position_lt adds.named_watcher
    omega

/-- The positions but for that of the node that is added. -/
theorem positions_filter :
    (List.range extended.nodes.length).filter (· != extended.position watcher.id) =
      (List.range prototype.nodes.length).map (prototype.relocate extended) := by
  have moved (id : NodeId) (named : id ∈ prototype.ids) :
      prototype.relocate extended (prototype.position id) = extended.position id := by
    rcases Option.map_eq_some_iff.mp (getElem?_position named) with ⟨placed, found, rfl⟩
    simp only [relocate, found]
  have elsewhere : extended.ids.filter ((· != extended.position watcher.id) ∘ extended.position) =
      prototype.ids := by
    rw [← adds.ids_filter]
    refine List.filter_congr fun id named => ?_
    rw [Bool.eq_iff_iff, Function.comp_apply, bne_iff_ne, bne_iff_ne, ne_eq, position_inj named]
  calc (List.range extended.nodes.length).filter (· != extended.position watcher.id)
    _ = (extended.ids.map extended.position).filter (· != extended.position watcher.id) := by
      rw [map_position_ids (adds.extendedDistinct distinct)]
    _ = prototype.ids.map extended.position := by rw [List.filter_map, elsewhere]
    _ = prototype.ids.map (prototype.relocate extended ∘ prototype.position) :=
      (List.map_congr_left moved).symm
    _ = (List.range prototype.nodes.length).map (prototype.relocate extended) := by
      rw [← List.map_map, map_position_ids distinct]

/-- Without the node that is added, the nodes at some positions are the same. -/
theorem nodesAt_filter {positions largePositions : List Nat}
    (same : largePositions.filter (· != extended.position watcher.id) =
      positions.map (prototype.relocate extended)) :
    (extended.nodesAt largePositions).filter (· != watcher.id) = prototype.nodesAt positions := by
  have others (index : Nat) :
      (extended.nodes[index]?.map PrototypeNode.id).filter (· != watcher.id) =
        if index != extended.position watcher.id then extended.nodes[index]?.map PrototypeNode.id
        else none := by
    cases found : extended.nodes[index]?.map PrototypeNode.id with
    | none => simp
    | some id =>
        rcases named_position_of_getElem? (adds.extendedDistinct distinct) found with ⟨named, rfl⟩
        simp [Option.filter, position_inj named]
  have moved : (fun index => extended.nodes[prototype.relocate extended index]?.map
      PrototypeNode.id) = fun index => prototype.nodes[index]?.map PrototypeNode.id := by
    funext index
    rw [(adds.sitsIn distinct).nodes]
  calc (extended.nodesAt largePositions).filter (· != watcher.id)
    _ = extended.nodesAt (largePositions.filter (· != extended.position watcher.id)) := by
      rw [nodesAt, nodesAt, List.filter_filterMap, List.filterMap_filter]
      exact congrArg (largePositions.filterMap ·) (funext others)
    _ = prototype.nodesAt positions := by
      rw [same, nodesAt, List.filterMap_map, nodesAt]
      exact congrArg (positions.filterMap ·) moved

end

/-! ## Order and routes -/

section
variable {wires largeWires : List Wire} {order largeOrder : List Nat}
  (wired : Wired (endpointsOf registry prototype) wires order)
  (largeWired : Wired (endpointsOf registry extended) largeWires largeOrder)
include wired largeWired

theorem order_filter : largeOrder.filter (· != extended.position watcher.id) =
    order.map (prototype.relocate extended) := by
  have sits := adds.sitsIn wired.idsDistinct
  have schedules : Schedule.AddsSpectator (prototype.relocate extended)
      (extended.position watcher.id) (wires.filterMap Wire.edge?)
      (largeWires.filterMap Wire.edge?) := {
    injective := sits.injective
    apart := adds.relocate_ne
    leads := fun _ _ => sits.mem_edges_iff wired largeWired }
  exact schedules.order_filter (adds.positions_filter wired.idsDistinct)
    ((order_eq_ok_iff wired.looked).mp wired.order)
    ((order_eq_ok_iff largeWired.looked).mp largeWired.order)

/-- Events are led to the same targets, in the same order. -/
theorem targetsFrom (source : EventSource) :
    (endpointsOf registry extended).targetsFrom (source.rename (prototype.relocate extended)) =
      ((endpointsOf registry prototype).targetsFrom source).map
        (Target.rename (prototype.relocate extended)) := by
  have sits := adds.sitsIn wired.idsDistinct
  show extended.connections.filterMap _ = (prototype.connections.filterMap _).map _
  rw [List.map_filterMap, ← adds.kept, List.filterMap_filter]
  refine List.filterMap_congr fun connection listed => ?_
  by_cases onWatcher : connection.destination.node = watcher.id
  · -- What is added carries a value, so it leads no events anywhere.
    have isValue := (adds.watches connection
      (List.mem_filter.mpr ⟨listed, beq_iff_eq.mpr onWatcher⟩)).isValue
    rcases Endpoints.exists_wire_of_mem largeWired.looked listed with ⟨wire, -, found⟩
    rcases (Endpoints.wire_eq_ok_iff.mp found).2.2 with ⟨isEvent, -⟩ | ⟨-, _, _, -, -, rfl⟩
    · rw [isValue] at isEvent
      cases isEvent
    · simp [onWatcher, found]
  · have here : connection ∈ prototype.connections := by
      rw [← adds.kept]
      exact List.mem_filter.mpr ⟨listed, bne_iff_ne.mpr onWatcher⟩
    rcases Endpoints.exists_wire_of_mem wired.looked here with ⟨wire, -, found⟩
    have moved := sits.wire largeWired.idsDistinct found
    simp [onWatcher, found, moved, Wire.targetFrom?_rename sits.injective]

end

/-- No events are led from the node that is added. -/
theorem targetsFrom_spectator (wellFormed : WellFormedLevel registry prototype) (output : Nat) :
    (endpointsOf registry extended).targetsFrom
      (.nodeEvent (extended.position watcher.id) output) = [] := by
  apply List.eq_nil_iff_forall_not_mem.mpr
  intro target leads
  rcases Endpoints.exists_of_mem_targetsFrom leads with
    ⟨connection, listed, -, ⟨start, starts, same⟩, -⟩
  cases start with
  | graphInput id => cases same
  | nodeEvent index event =>
      rw [EventSource.nodeEvent_beq_nodeEvent, Bool.and_eq_true, beq_iff_eq] at same
      have located := (Endpoints.plug_eq_ok_iff.mp
        (Endpoints.eventSource_eq_nodeEvent_iff.mp starts).2).1
      rcases (position?_eq_some_iff (adds.extendedDistinct wellFormed.idsDistinct)).mp located with
        ⟨placed, found, named⟩
      have isWatcher := getElem?_position adds.named_watcher
      rw [← same.1, found, Option.map_some, named, Option.some.injEq] at isWatcher
      exact adds.source_ne wellFormed listed isWatcher

end Prototype.AddsSpectator

/-! ## Circuits -/

/-- A circuit is part of a larger one, which has one more node, `spectator`. The
other nodes run in the same order and are led the same events. -/
structure Circuit.AddsSpectator (node : Nat → Nat) (meets : Slot → Slot → Prop) (spectator : Nat)
    (small large : Circuit) : Prop extends small.Embeds node meets large where
  apart : ∀ index, node index ≠ spectator
  order : large.order.filter (· != spectator) = small.order.map node
  targets : ∀ index output, large.routes.targets (node index) output =
    (small.routes.targets index output).map (Target.rename node)
  silent : ∀ output, large.routes.targets spectator output = []
  entrance : ∀ id, large.entrance id = (small.entrance id).map (Target.rename node)
  hopLimit : large.hopLimit = small.hopLimit

/-- The circuit of the prototype is part of the one with the node added. -/
theorem Prototype.AddsSpectator.circuits [Processor κ] {registry : Registry κ} {config : Config}
    {limit : Nat} {prototype extended : Prototype} {watcher : PrototypeNode}
    (adds : prototype.AddsSpectator registry limit extended watcher)
    {graph other : Graph (Nested κ limit)}
    (built : (build registry config limit prototype).outcome = .ok graph)
    (otherBuilt : (build registry config limit extended).outcome = .ok other) :
    graph.circuit.AddsSpectator (prototype.relocate extended)
      (graph.circuit.Meets (prototype.relocate extended) other.circuit)
      (extended.position watcher.id) other.circuit := by
  have wellFormed := (exists_build_iff_created.mp ⟨graph, built⟩).2
  rcases build_eq_ok built with ⟨_, wires, order, -, wired, rfl⟩
  rcases build_eq_ok otherBuilt with ⟨_, largeWires, largeOrder, -, largeWired, rfl⟩
  have looked := wired.looked
  have largeLooked := largeWired.looked
  have targetsFrom := adds.targetsFrom wired largeWired
  exact {
    toEmbeds := (adds.sitsIn wired.idsDistinct).embeds rfl rfl wired largeWired
    apart := adds.relocate_ne
    order := adds.order_filter wired largeWired
    targets := fun index output => by
      show (Assembly.circuit _ _ _ _).routes.targets _ _ = _
      rw [Assembly.targets_circuit largeLooked]
      show _ = ((Assembly.circuit _ _ _ _).routes.targets _ _).map _
      rw [Assembly.targets_circuit looked, ← targetsFrom]
      rfl
    silent := fun output => by
      show (Assembly.circuit _ _ _ _).routes.targets _ _ = _
      rw [Assembly.targets_circuit largeLooked, adds.targetsFrom_spectator wellFormed]
    entrance := fun id => by
      show (Assembly.circuit _ _ _ _).entrance _ = ((Assembly.circuit _ _ _ _).entrance _).map _
      rw [Assembly.entrance_circuit largeLooked, Assembly.entrance_circuit looked, ← targetsFrom]
      rfl
    hopLimit := rfl }

/-- Without the node that is added, the order is the same. -/
theorem Prototype.AddsSpectator.dependencyOrder_filter [Processor κ] {registry : Registry κ}
    {limit : Nat} {prototype extended : Prototype} {watcher : PrototypeNode}
    (adds : prototype.AddsSpectator registry limit extended watcher)
    {wires largeWires : List Wire} {order largeOrder : List Nat}
    (wired : Wired (endpointsOf registry prototype) wires order)
    (largeWired : Wired (endpointsOf registry extended) largeWires largeOrder) :
    ∃ found, dependencyOrder extended = .ok found ∧
      dependencyOrder prototype = .ok (found.filter (· != watcher.id)) := by
  refine ⟨extended.nodesAt largeOrder, largeWired.dependencyOrder_eq, ?_⟩
  rw [adds.nodesAt_filter wired.idsDistinct (adds.order_filter wired largeWired)]
  exact wired.dependencyOrder_eq

end NodeGraph
