import NodeGraph.Proofs.Compile.Reservation
import NodeGraph.Proofs.Compile.WellFormed
import NodeGraph.Proofs.Run.Reachable

namespace NodeGraph

/-! What compiling accepts. Main statement: a prototype is compiled exactly if it
is well-formed, and then into a graph with a node for each of its nodes. An instance
can be created of it if there can be the room that its queue calls for. -/

/-! ## Ends of connections -/

theorem exists_findIdx?_iff {items : List α} {p : α → Bool} :
    (∃ index, items.findIdx? p = some index) ↔ ∃ item ∈ items, p item = true := by
  rw [← Option.isSome_iff_exists, List.findIdx?_isSome, List.any_eq_true]

theorem exists_map_eq_ok_iff {change : α → β} {outcome : Except ε α} :
    (∃ result, change <$> outcome = .ok result) ↔ ∃ value, outcome = .ok value := by
  cases outcome <;> simp

theorem exists_pair_eq_ok_iff {make : α × β → γ} {outcome : Except ε (α × β)} :
    (∃ result, (outcome >>= fun pair => pure (make pair)) = .ok result) ↔
      ∃ first second, outcome = .ok (first, second) := by
  cases outcome with
  | error error => simp [bind, Except.bind]
  | ok pair => exact ⟨fun _ => ⟨pair.1, pair.2, rfl⟩, fun _ => ⟨_, rfl⟩⟩

theorem Endpoints.exists_declared_iff {endpoints : List Endpoint} {terminus : Terminus} :
    (∃ id, declared (endpoints.find? fun endpoint => endpoint.id == terminus.endpoint) terminus =
      .ok id) ↔ Declares endpoints terminus.endpoint := by
  simp only [declared_eq_ok_iff]
  rw [← Option.isSome_iff_exists, Option.isSome_map, List.find?_isSome]
  rfl

theorem Registry.contains_iff {registry : Registry κ} {type : Identifier} (id : NodeId) :
    registry.contains type = true ↔ ∃ node, registry.create? type id = some node := by
  rw [contains, create?, ← Option.isSome_iff_exists, Option.isSome_map, List.find?_isSome,
    List.any_eq_true]

namespace Compile

section
variable [Processor κ] {registry : Registry κ} {prototype : Prototype}

theorem layouts_eq_some_iff {index : Nat} {layout : Layout} :
    (endpointsOf registry prototype).layouts[index]? = some layout ↔
      ∃ placed, prototype.nodes[index]? = some placed ∧
        (layout? registry placed).getD {} = layout := by
  simp [endpointsOf]

/-- A node is found at its own position if ids are distinct. -/
theorem position?_eq_some_iff (distinct : (prototype.nodes.map PrototypeNode.id).Nodup)
    {node : NodeId} {index : Nat} :
    (endpointsOf registry prototype).position? node = some index ↔
      ∃ placed, prototype.nodes[index]? = some placed ∧ placed.id = node := by
  show (prototype.nodes.findIdx? fun placed => placed.id == node) = some index ↔ _
  rw [List.findIdx?_eq_some_iff_getElem]
  constructor
  · intro located
    rcases located with ⟨bound, same, -⟩
    exact ⟨_, List.getElem?_eq_getElem bound, eq_of_beq same⟩
  · intro placement
    rcases placement with ⟨placed, found, rfl⟩
    rcases List.getElem?_eq_some_iff.mp found with ⟨bound, rfl⟩
    have apart := List.pairwise_iff_getElem.mp (List.pairwise_map.mp distinct)
    exact ⟨bound, by simp, fun earlier before same =>
      apart earlier index (before.trans bound) bound before (eq_of_beq same)⟩

/-- A plug is found exactly if a node of that id has it. -/
theorem exists_plug_iff (distinct : (prototype.nodes.map PrototypeNode.id).Nodup)
    (known : ∀ placed ∈ prototype.nodes, ∃ layout, layout? registry placed = some layout)
    {find : Layout → Identifier → Option Nat} {names : Layout → Identifier → Prop}
    (finds : ∀ layout id, (∃ plug, find layout id = some plug) ↔ names layout id)
    {terminus : Terminus} :
    (∃ index plug, (endpointsOf registry prototype).plug find terminus = .ok (index, plug)) ↔
      OnNode registry prototype names terminus := by
  simp only [Endpoints.plug_eq_ok_iff, position?_eq_some_iff distinct, layouts_eq_some_iff]
  constructor
  · intro present
    rcases present with
      ⟨index, plug, ⟨placed, located, id⟩, layout, ⟨other, otherLocated, rfl⟩, found⟩
    rw [located, Option.some.injEq] at otherLocated
    subst otherLocated
    rcases known placed (List.mem_of_getElem? located) with ⟨layout, layoutKnown⟩
    rw [layoutKnown, Option.getD_some] at found
    exact ⟨placed, List.mem_of_getElem? located, id, layout, layoutKnown,
      (finds layout _).mp ⟨plug, found⟩⟩
  · intro declared
    rcases declared with ⟨placed, listed, id, layout, layoutKnown, named⟩
    rcases List.getElem?_of_mem listed with ⟨index, located⟩
    rcases (finds layout _).mpr named with ⟨plug, found⟩
    exact ⟨index, plug, ⟨placed, located, id⟩, layout, ⟨placed, located, by simp [layoutKnown]⟩,
      found⟩

/-! ## Connections -/

section
variable {scope : Scope} {terminus : Terminus}
variable (distinct : (prototype.nodes.map PrototypeNode.id).Nodup)
  (known : ∀ placed ∈ prototype.nodes, ∃ layout, layout? registry placed = some layout)
include distinct known

theorem exists_valueSource_iff :
    (∃ source, (endpointsOf registry prototype).valueSource scope terminus = .ok source) ↔
      match scope with
      | .node => OnNode registry prototype (fun layout id => Declares layout.outputs id) terminus
      | .graph => Declares prototype.inputs terminus.endpoint
      | .localVariable => Declares prototype.locals terminus.endpoint := by
  cases scope with
  | node =>
      exact exists_pair_eq_ok_iff.trans
        (exists_plug_iff distinct known fun _ _ => exists_findIdx?_iff)
  | graph | localVariable => exact exists_map_eq_ok_iff.trans Endpoints.exists_declared_iff

theorem exists_valueSink_iff :
    (∃ sink, (endpointsOf registry prototype).valueSink scope terminus = .ok sink) ↔
      match scope with
      | .node => OnNode registry prototype (fun layout id => Declares layout.inputs id) terminus
      | .graph | .localVariable => Declares prototype.outputs terminus.endpoint := by
  cases scope with
  | node =>
      exact exists_pair_eq_ok_iff.trans
        (exists_plug_iff distinct known fun _ _ => exists_findIdx?_iff)
  | graph | localVariable => exact exists_map_eq_ok_iff.trans Endpoints.exists_declared_iff

theorem exists_eventSource_iff :
    (∃ source, (endpointsOf registry prototype).eventSource scope terminus = .ok source) ↔
      match scope with
      | .node => OnNode registry prototype (fun layout id => Fires layout.outputEvents id) terminus
      | .graph | .localVariable => Declares prototype.inputs terminus.endpoint := by
  cases scope with
  | node =>
      exact exists_pair_eq_ok_iff.trans
        (exists_plug_iff distinct known fun _ _ => exists_findIdx?_iff)
  | graph | localVariable => exact exists_map_eq_ok_iff.trans Endpoints.exists_declared_iff

theorem exists_eventTarget_iff :
    (∃ target, (endpointsOf registry prototype).eventTarget scope terminus = .ok target) ↔
      match scope with
      | .node => OnNode registry prototype (fun layout id => Fires layout.inputEvents id) terminus
      | .graph | .localVariable => Declares prototype.outputs terminus.endpoint := by
  cases scope with
  | node =>
      exact exists_pair_eq_ok_iff.trans
        (exists_plug_iff distinct known fun _ _ => exists_findIdx?_iff)
  | graph | localVariable => exact exists_map_eq_ok_iff.trans Endpoints.exists_declared_iff

theorem sourceExists_iff {connection : Connection} :
    SourceExists registry prototype connection ↔
      if connection.kind.isEvent then
        ∃ source, (endpointsOf registry prototype).eventSource connection.kind.sourceScope
          connection.source = .ok source
      else
        ∃ source, (endpointsOf registry prototype).valueSource connection.kind.sourceScope
          connection.source = .ok source := by
  rw [SourceExists, exists_eventSource_iff distinct known, exists_valueSource_iff distinct known]
  cases connection.kind <;> rfl

theorem destinationExists_iff {connection : Connection} :
    DestinationExists registry prototype connection ↔
      if connection.kind.isEvent then
        ∃ target, (endpointsOf registry prototype).eventTarget connection.kind.destinationScope
          connection.destination = .ok target
      else
        ∃ sink, (endpointsOf registry prototype).valueSink connection.kind.destinationScope
          connection.destination = .ok sink := by
  rw [DestinationExists, exists_eventTarget_iff distinct known, exists_valueSink_iff distinct known]
  cases connection.kind <;> rfl

/-- A connection can be wired exactly if its ends are where its kind puts them
and what they refer to exists. -/
theorem exists_wire_iff {connection : Connection} :
    (∃ wire, (endpointsOf registry prototype).wire connection = .ok wire) ↔
      Connects registry prototype connection := by
  simp only [Endpoints.wire_eq_ok_iff, Endpoints.checkScope_eq_ok_iff]
  constructor
  · intro carried
    rcases carried with ⟨wire, sourceSide, destinationSide, carried⟩
    refine ⟨sourceSide, destinationSide, (sourceExists_iff distinct known).mpr ?_,
      (destinationExists_iff distinct known).mpr ?_⟩
    · rcases carried with ⟨isEvent, source, _, found, -⟩ | ⟨isValue, source, _, found, -⟩
      · simpa [isEvent] using ⟨source, found⟩
      · simpa [isValue] using ⟨source, found⟩
    · rcases carried with ⟨isEvent, _, target, -, found, -⟩ | ⟨isValue, _, sink, -, found, -⟩
      · simpa [isEvent] using ⟨target, found⟩
      · simpa [isValue] using ⟨sink, found⟩
  · intro connects
    rcases connects with ⟨sourceSide, destinationSide, sourceExists, destinationExists⟩
    rw [sourceExists_iff distinct known] at sourceExists
    rw [destinationExists_iff distinct known] at destinationExists
    cases isEvent : connection.kind.isEvent with
    | true =>
        rw [isEvent] at sourceExists destinationExists
        rcases sourceExists with ⟨source, sourceFound⟩
        rcases destinationExists with ⟨target, targetFound⟩
        exact ⟨_, sourceSide, destinationSide,
          .inl ⟨rfl, source, target, sourceFound, targetFound, rfl⟩⟩
    | false =>
        rw [isEvent] at sourceExists destinationExists
        rcases sourceExists with ⟨source, sourceFound⟩
        rcases destinationExists with ⟨sink, sinkFound⟩
        exact ⟨_, sourceSide, destinationSide,
          .inr ⟨rfl, source, sink, sourceFound, sinkFound, rfl⟩⟩

end

/-! ## Destinations -/

omit [Processor κ] in
theorem inputIndex?_congr {layout : Layout} {left right : Identifier}
    (same : (left == right) = true) : layout.inputIndex? left = layout.inputIndex? right := by
  rw [Identifier.beq_iff] at same
  unfold Layout.inputIndex?
  congr 1
  funext plug
  show (plug.id.hash == left.hash) = (plug.id.hash == right.hash)
  rw [same]

omit [Processor κ] in
theorem beq_of_inputIndex? {layout : Layout} {left right : Identifier} {plug : Nat}
    (leftFound : layout.inputIndex? left = some plug)
    (rightFound : layout.inputIndex? right = some plug) : (left == right) = true := by
  rcases List.findIdx?_eq_some_iff_getElem.mp leftFound with ⟨_, leftSame, -⟩
  rcases List.findIdx?_eq_some_iff_getElem.mp rightFound with ⟨_, rightSame, -⟩
  exact PartialEquivBEq.trans (PartialEquivBEq.symm leftSame) rightSame

omit [Processor κ] in
theorem position?_inj {endpoints : Endpoints} {left right : NodeId} {index : Nat}
    (leftFound : endpoints.position? left = some index)
    (rightFound : endpoints.position? right = some index) : left = right := by
  rcases List.findIdx?_eq_some_iff_getElem.mp leftFound with ⟨_, leftSame, -⟩
  rcases List.findIdx?_eq_some_iff_getElem.mp rightFound with ⟨_, rightSame, -⟩
  exact (eq_of_beq leftSame).symm.trans (eq_of_beq rightSame)

omit [Processor κ] in
/-- Two value connections arrive at the same place exactly if they name the same
destination. -/
theorem sink_beq_iff {endpoints : Endpoints} {left right : Terminus}
    {leftScope rightScope : Scope} {leftSink rightSink : ValueSink}
    (leftSide : left.node = graphNodeId ↔ leftScope ≠ .node)
    (rightSide : right.node = graphNodeId ↔ rightScope ≠ .node)
    (leftFound : endpoints.valueSink leftScope left = .ok leftSink)
    (rightFound : endpoints.valueSink rightScope right = .ok rightSink) :
    (leftSink == rightSink) = true ↔
      left.node = right.node ∧ (left.endpoint == right.endpoint) = true := by
  rcases Endpoints.valueSink_cases leftFound with
    ⟨leftIndex, leftPlug, leftOnNode, rfl, leftLocated⟩ | ⟨leftId, leftOnGraph, rfl, leftDeclared⟩
  · rcases Endpoints.valueSink_cases rightFound with
      ⟨rightIndex, rightPlug, rightOnNode, rfl, rightLocated⟩ | ⟨rightId, rightOnGraph, rfl, -⟩
    · rcases Endpoints.plug_eq_ok_iff.mp leftLocated with
        ⟨leftPosition, leftLayout, leftAt, leftNamed⟩
      rcases Endpoints.plug_eq_ok_iff.mp rightLocated with
        ⟨rightPosition, rightLayout, rightAt, rightNamed⟩
      have sameSink : (ValueSink.nodeInput leftIndex leftPlug ==
          ValueSink.nodeInput rightIndex rightPlug) = true ↔
            leftIndex = rightIndex ∧ leftPlug = rightPlug := by
        simp
      rw [sameSink]
      constructor
      · intro equal
        rcases equal with ⟨rfl, rfl⟩
        rw [leftAt, Option.some.injEq] at rightAt
        subst rightAt
        exact ⟨position?_inj leftPosition rightPosition,
          beq_of_inputIndex? leftNamed rightNamed⟩
      · intro same
        rcases same with ⟨sameNode, sameEndpoint⟩
        rw [sameNode, rightPosition, Option.some.injEq] at leftPosition
        subst leftPosition
        rw [leftAt, Option.some.injEq] at rightAt
        subst rightAt
        rw [inputIndex?_congr sameEndpoint, rightNamed, Option.some.injEq] at leftNamed
        exact ⟨rfl, leftNamed.symm⟩
    · have different : left.node ≠ right.node := fun equal =>
        leftSide.mp (equal.trans (rightSide.mpr rightOnGraph)) leftOnNode
      simp [different]
  · rcases Endpoints.valueSink_cases rightFound with
      ⟨rightIndex, rightPlug, rightOnNode, rfl, -⟩ | ⟨rightId, rightOnGraph, rfl, rightDeclared⟩
    · have different : left.node ≠ right.node := fun equal =>
        rightSide.mp (equal.symm.trans (leftSide.mpr leftOnGraph)) rightOnNode
      simp [different]
    · have leftSame := (Identifier.beq_iff _ _).mp (Endpoints.declared_beq leftDeclared)
      have rightSame := (Identifier.beq_iff _ _).mp (Endpoints.declared_beq rightDeclared)
      have onGraph : left.node = right.node :=
        (leftSide.mpr leftOnGraph).trans (rightSide.mpr rightOnGraph).symm
      show (leftId == rightId) = true ↔ _
      simp only [Identifier.beq_iff, leftSame, rightSame, onGraph, true_and]

omit [Processor κ] in
/-- Wires share a sink exactly if their connections collide. -/
theorem sharesSink_iff {endpoints : Endpoints} {first second : Connection}
    {firstWire secondWire : Wire} (firstLooked : endpoints.wire first = .ok firstWire)
    (secondLooked : endpoints.wire second = .ok secondWire) :
    firstWire.SharesSink secondWire ↔ first.Collides second := by
  rw [Endpoints.wire_eq_ok_iff] at firstLooked secondLooked
  simp only [Endpoints.checkScope_eq_ok_iff] at firstLooked secondLooked
  rcases firstLooked with ⟨-, firstSide, firstCarries⟩
  rcases secondLooked with ⟨-, secondSide, secondCarries⟩
  unfold Connection.Collides Wire.SharesSink
  rcases firstCarries with
    ⟨isEvent, _, _, -, -, rfl⟩ | ⟨firstValue, _, firstSink, -, firstFound, rfl⟩
  · simp [isEvent, Wire.sink?]
  · rcases secondCarries with
      ⟨isEvent, _, _, -, -, rfl⟩ | ⟨secondValue, _, secondSink, -, secondFound, rfl⟩
    · simp [isEvent, Wire.sink?]
    · rw [← sink_beq_iff firstSide secondSide firstFound secondFound]
      simp [firstValue, secondValue, Wire.sink?]

theorem pairwise_iff_of_forall₂ {looks : α → β → Prop} {onItems : α → α → Prop}
    {onResults : β → β → Prop} {items : List α} {results : List β}
    (related : List.Forall₂ looks items results)
    (carries : ∀ {item result other otherResult}, looks item result → looks other otherResult →
      (onResults result otherResult ↔ onItems item other)) :
    results.Pairwise onResults ↔ items.Pairwise onItems := by
  induction related with
  | nil => simp
  | @cons item result items results first rest induction =>
      rw [List.pairwise_cons, List.pairwise_cons, induction]
      clear induction
      refine and_congr ?_ Iff.rfl
      induction rest with
      | nil => simp
      | cons second _ induction => simp [carries first second, induction]

theorem exists_forall₂_iff {relates : α → β → Prop} {items : List α} :
    (∃ results, List.Forall₂ relates items results) ↔
      ∀ item ∈ items, ∃ result, relates item result := by
  induction items with
  | nil => simp
  | cons item items induction =>
      rw [List.forall_mem_cons, ← induction]
      constructor
      · intro related
        rcases related with ⟨_, related⟩
        cases related with
        | cons first rest => exact ⟨⟨_, first⟩, ⟨_, rest⟩⟩
      · intro outcomes
        rcases outcomes with ⟨⟨result, first⟩, results, rest⟩
        exact ⟨result :: results, .cons first rest⟩

/-- Connections are wired exactly if each of them can be and no two collide. -/
theorem exists_wireAll_iff (distinct : (prototype.nodes.map PrototypeNode.id).Nodup)
    (known : ∀ placed ∈ prototype.nodes, ∃ layout, layout? registry placed = some layout) :
    (∃ wires, ((endpointsOf registry prototype).wireAll [] prototype.connections).outcome =
        .ok wires) ↔
      (∀ connection ∈ prototype.connections, Connects registry prototype connection) ∧
        prototype.connections.Pairwise fun first second => ¬ first.Collides second := by
  simp only [Endpoints.wireAll_eq_ok_iff, ← exists_wire_iff distinct known,
    ← exists_forall₂_iff]
  constructor
  · intro wired
    rcases wired with ⟨wires, looked, apart⟩
    exact ⟨⟨wires, looked⟩, (pairwise_iff_of_forall₂ looked fun first second =>
      not_congr (sharesSink_iff first second)).mp apart⟩
  · intro connected
    rcases connected with ⟨⟨wires, looked⟩, apart⟩
    exact ⟨wires, looked, (pairwise_iff_of_forall₂ looked fun first second =>
      not_congr (sharesSink_iff first second)).mpr apart⟩

/-! ## Cycles -/

/-- Positions of nodes depend on each other in a cycle exactly if the nodes do. -/
theorem acyclic_iff (distinct : (prototype.nodes.map PrototypeNode.id).Nodup)
    {wires : List Wire}
    (looked : (endpointsOf registry prototype).LooksUp prototype.connections wires) :
    Schedule.Acyclic (wires.filterMap Wire.edge?) ↔
      ∀ node, ¬ Relation.TransGen prototype.ValueEdge node node := by
  constructor
  · intro acyclic node cycle
    refine acyclic (((endpointsOf registry prototype).position? node).getD 0)
      (cycle.lift (fun id => ((endpointsOf registry prototype).position? id).getD 0) ?_)
    intro source destination edge
    rcases edge with ⟨connection, listed, kind, rfl, rfl⟩
    rcases Endpoints.exists_wire_of_mem looked listed with ⟨wire, member, found⟩
    rcases Endpoints.edge_of_kind found kind with ⟨start, stop, startFound, stopFound, edge⟩
    simp only [Function.onFun, startFound, stopFound, Option.getD_some]
    exact List.mem_filterMap.mpr ⟨wire, member, edge⟩
  · intro acyclic node cycle
    refine acyclic ((prototype.nodes[node]?.map PrototypeNode.id).getD 0)
      (cycle.lift (fun index => (prototype.nodes[index]?.map PrototypeNode.id).getD 0) ?_)
    intro start stop edge
    rcases List.mem_filterMap.mp edge with ⟨wire, member, isEdge⟩
    rcases Endpoints.exists_connection_of_mem looked member with ⟨connection, listed, found⟩
    have kind : connection.kind = .nodeValueToNode := by
      by_contra other
      rw [Endpoints.edge?_eq_none_of_kind found other] at isEdge
      cases isEdge
    rcases Endpoints.edge_of_kind found kind with
      ⟨source, destination, sourceFound, destinationFound, same⟩
    rw [isEdge, Option.some.injEq, Prod.mk.injEq] at same
    rcases same with ⟨rfl, rfl⟩
    rcases (position?_eq_some_iff distinct).mp sourceFound with ⟨first, firstAt, firstId⟩
    rcases (position?_eq_some_iff distinct).mp destinationFound with ⟨last, lastAt, lastId⟩
    exact ⟨connection, listed, kind, by simp [firstAt, firstId], by simp [lastAt, lastId]⟩

/-! ## Levels -/

theorem exists_layout_iff {placed : PrototypeNode} :
    (∃ layout, layout? registry placed = some layout) ↔
      (placed.subroutine = none → registry.contains placed.type = true) := by
  unfold layout?
  cases placed.subroutine with
  | none => simp [Registry.contains_iff placed.id]
  | some subroutine => simp

theorem checkOverrides_endpointsOf_iff
    (known : ∀ placed ∈ prototype.nodes, ∃ layout, layout? registry placed = some layout) :
    checkOverrides (prototype.nodes.zip (endpointsOf registry prototype).layouts) = .ok () ↔
      ∀ placed ∈ prototype.nodes, ∀ layout, layout? registry placed = some layout →
        ∀ override ∈ placed.overrides, Overrides layout override := by
  show checkOverrides (prototype.nodes.zip (prototype.nodes.map _)) = .ok () ↔ _
  rw [← List.map_prod_left_eq_zip, checkOverrides_eq_ok_iff, List.forall_mem_map]
  apply forall₂_congr
  intro placed listed
  rcases known placed listed with ⟨layout, layoutKnown⟩
  simp [layoutKnown]

/-- The checks of a level succeed exactly if it is well-formed. -/
theorem exists_wired_iff
    (known : ∀ placed ∈ prototype.nodes, ∃ layout, layout? registry placed = some layout) :
    (∃ wires order, Wired (endpointsOf registry prototype) wires order) ↔
      WellFormedLevel registry prototype := by
  constructor
  · intro compiled
    rcases compiled with ⟨wires, order, wired⟩
    rcases checkIds_eq_ok_iff.mp wired.ids with ⟨fresh, distinct⟩
    rcases (exists_wireAll_iff distinct known).mp ⟨wires, wired.wires⟩ with ⟨connects, apart⟩
    have acyclic := (Schedule.order_isOk_iff (Endpoints.edges_bounded wired.looked)).mp
      ⟨order, (order_eq_ok_iff wired.looked).mp wired.order⟩
    exact {
      idsNonzero := fun placed listed => (fresh placed listed).1
      idsDistinct := distinct
      registered := fun placed listed => exists_layout_iff.mp (known placed listed)
      overrides := (checkOverrides_endpointsOf_iff known).mp wired.overrides
      connects
      apart
      acyclic := (acyclic_iff distinct wired.looked).mp acyclic }
  · intro wellFormed
    have distinct := wellFormed.idsDistinct
    rcases (exists_wireAll_iff distinct known).mpr ⟨wellFormed.connects, wellFormed.apart⟩
      with ⟨wires, wiredAll⟩
    have looked := (Endpoints.wireAll_eq_ok_iff.mp wiredAll).1
    rcases (Schedule.order_isOk_iff (Endpoints.edges_bounded looked)).mpr
      ((acyclic_iff distinct looked).mpr wellFormed.acyclic) with ⟨order, ordered⟩
    exact ⟨wires, order, {
      ids := checkIds_eq_ok_iff.mpr ⟨fun placed listed =>
        ⟨wellFormed.idsNonzero placed listed, List.not_mem_nil⟩, distinct⟩
      overrides := (checkOverrides_endpointsOf_iff known).mpr wellFormed.overrides
      wires := wiredAll
      order := (order_eq_ok_iff looked).mpr ordered }⟩

end

/-! ## Whole prototypes -/

variable [Processor κ] {registry : Registry κ} {config : Config}

theorem exists_withNodes_iff [Processor ν] {create : PrototypeNode → Compilation ν}
    {prototype : Prototype}
    (layouts : ∀ placed node, (create placed).outcome = .ok node →
      layout? registry placed = some (Processor.layout node)) :
    (∃ graph, (withNodes config create prototype).outcome = .ok graph) ↔
      (∀ placed ∈ prototype.nodes, ∃ node, (create placed).outcome = .ok node) ∧
        WellFormedLevel registry prototype := by
  simp only [withNodes_eq_ok_iff layouts, ← exists_forall₂_iff]
  constructor
  · intro built
    rcases built with ⟨_, nodes, wires, order, created, wired, -⟩
    have each := exists_forall₂_iff.mp ⟨nodes, created⟩
    refine ⟨⟨nodes, created⟩, (exists_wired_iff fun placed listed => ?_).mp ⟨wires, order, wired⟩⟩
    rcases each placed listed with ⟨node, made⟩
    exact ⟨_, layouts placed node made⟩
  · intro accepted
    rcases accepted with ⟨⟨nodes, created⟩, wellFormed⟩
    rcases (exists_wired_iff fun placed listed =>
      exists_layout_iff.mpr (wellFormed.registered placed listed)).mpr wellFormed with
      ⟨wires, order, wired⟩
    exact ⟨_, nodes, wires, order, created, wired, rfl⟩

/-- A prototype is compiled exactly if its nodes can be created and it is
well-formed on its own level. -/
theorem exists_build_iff_created {room : Nat} {prototype : Prototype} :
    (∃ graph, (build registry config room prototype).outcome = .ok graph) ↔
      (∀ placed ∈ prototype.nodes,
        ∃ node, (createNode registry config room placed).outcome = .ok node) ∧
        WellFormedLevel registry prototype := by
  rw [build_eq_withNodes]
  exact exists_withNodes_iff fun _ _ => createNode_layout

omit [Processor κ] in
theorem exists_createPlain_iff {placed : PrototypeNode} :
    (∃ node, (createPlain registry config placed).outcome = .ok node) ↔
      placed.subroutine = none ∧ registry.contains placed.type = true := by
  simp [createPlain_eq_ok_iff, Registry.contains_iff placed.id]

omit [Processor κ] in
theorem exists_createNested_iff {compile : Prototype → Compilation (Graph ν)}
    {placed : PrototypeNode} :
    (∃ node, (createNested registry compile placed).outcome = .ok node) ↔
      (placed.subroutine = none → registry.contains placed.type = true) ∧
        ∀ subroutine, placed.subroutine = some subroutine →
          ∃ graph, (compile subroutine).outcome = .ok graph := by
  simp only [createNested_eq_ok_iff, Registry.contains_iff placed.id]
  cases placed.subroutine with
  | none => simp
  | some subroutine => simp

/-- With room for some more levels of subroutines, a prototype is compiled
exactly if it is well-formed at the level that leaves that room. -/
theorem exists_build_iff {room level limit : Nat} (fits : level + room = limit)
    (prototype : Prototype) :
    (∃ graph, (build registry config room prototype).outcome = .ok graph) ↔
      WellFormed registry limit level prototype := by
  induction room generalizing level prototype with
  | zero =>
      have built : (∃ graph, (build registry config 0 prototype).outcome = .ok graph) ↔
          (∀ placed ∈ prototype.nodes,
            ∃ node, (createPlain registry config placed).outcome = .ok node) ∧
          WellFormedLevel registry prototype :=
        exists_withNodes_iff fun _ _ => createPlain_layout
      rw [built]
      simp only [exists_createPlain_iff]
      constructor
      · intro accepted
        rcases accepted with ⟨created, here⟩
        refine .intro here (fun placed listed nested => ?_) fun placed listed inner nested => ?_
        · exact absurd (created placed listed).1 nested
        · rw [(created placed listed).1] at nested
          cases nested
      · intro wellFormed
        rcases wellFormed with ⟨here, room, -⟩
        refine ⟨fun placed listed => ?_, here⟩
        have plain : placed.subroutine = none := by
          by_contra nested
          have above := room placed listed nested
          omega
        exact ⟨plain, here.registered placed listed plain⟩
  | succ room induction =>
      refine (exists_withNodes_iff fun _ _ => createNested_layout).trans ?_
      simp only [exists_createNested_iff]
      have deeper : level + 1 + room = limit := by omega
      constructor
      · intro accepted
        rcases accepted with ⟨created, here⟩
        refine .intro here (fun placed listed nested => by omega)
          fun placed listed inner nested => ?_
        exact (induction deeper inner).mp ((created placed listed).2 inner nested)
      · intro wellFormed
        rcases wellFormed with ⟨here, -, below⟩
        exact ⟨fun placed listed => ⟨here.registered placed listed, fun inner nested =>
          (induction deeper inner).mpr (below placed listed inner nested)⟩, here⟩

end Compile

/-- Compiling and initializing succeed for exactly the well-formed prototypes. -/
theorem Instance.create_succeeds_iff [Processor κ] {registry : Registry κ} {config : Config}
    {context : Context} {prototype : Prototype} :
    (∃ graph, (Instance.create registry config context prototype).outcome = .ok graph) ↔
      Compile.WellFormed registry config.maxSubroutineDepth.toNat 0 prototype := by
  rw [← Compile.exists_build_iff (Nat.zero_add _)]
  simp only [Instance.create_eq_ok_iff]
  constructor
  · intro compiled
    rcases compiled with ⟨_, built, compiled, -⟩
    exact ⟨built, compiled⟩
  · intro compiled
    rcases compiled with ⟨built, compiled⟩
    exact ⟨_, built, compiled, rfl⟩

/-- Creating an instance accepts exactly the well-formed prototypes, if room for its
queue can be asked for at all, and makes one node for each node of the prototype. In
that case nothing but the prototype decides: there always is a result. -/
theorem Instance.create_accepts_iff [Processor κ] (registry : Registry κ) (config : Config)
    (context : Context) (prototype : Prototype) :
    ((∃ graph, (Instance.create registry config context prototype).result? =
        some (.ok graph)) ↔
      OutgoingQueue.CanReserve config.eventQueueCapacity.toNat ∧
        Compile.WellFormed registry config.maxSubroutineDepth.toNat 0 prototype) ∧
    (∀ graph, (Instance.create registry config context prototype).result? = some (.ok graph) →
      graph.state.cells.size = prototype.nodes.length) ∧
    (OutgoingQueue.CanReserve config.eventQueueCapacity.toNat →
      (Instance.create registry config context prototype).result?.isSome = true) := by
  refine ⟨?_, fun graph created => ?_, fun fits => ?_⟩
  · simp only [Instance.create_result?_eq_ok_iff, exists_and_left, Instance.create_succeeds_iff]
  · have reachable :=
      Compile.Reachable.of_create (Instance.create_result?_eq_ok_iff.mp created).2
    exact reachable.fits.cells.trans reachable.placements_size
  · rw [Option.isSome_iff_exists]
    exact ⟨_, Compilation.result?_eq_some_iff.mpr ⟨Instance.create_overflows fits, rfl⟩⟩

/-- Even a prototype with nothing in it is not accepted if the queue is to be too
large: there is no result at all. -/
theorem Instance.create_blank_boundless :
    Compile.WellFormed StandardNode.registry boundless.maxSubroutineDepth.toNat 0 blank ∧
      (Instance.create StandardNode.registry boundless default blank).result? = none := by
  constructor
  · have succeeds : (Instance.create StandardNode.registry boundless default
        blank).outcome.isOk = true := by
      decide +kernel
    exact Instance.create_succeeds_iff.mp (exists_eq_ok succeeds)
  · rw [← Option.isNone_iff_eq_none]
    decide +kernel

end NodeGraph
