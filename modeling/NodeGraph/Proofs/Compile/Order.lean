import NodeGraph.Proofs.Compile.Wires
import NodeGraph.Proofs.Schedule

namespace NodeGraph

/-! The order in which the nodes of a prototype run. What constrains it are the
value wires between nodes; it exists exactly if these form no cycle. -/

/-! ## Edges -/

/-- The nodes between which a wire carries a value. -/
def Wire.edge? : Wire → Option Schedule.Edge
  | .value (.nodeOutput source _) (.nodeInput destination _) => some (source, destination)
  | _ => none

theorem Wire.edge?_eq_some_iff {wire : Wire} {source destination : Nat} :
    wire.edge? = some (source, destination) ↔
      ∃ output input, wire = .value (.nodeOutput source output) (.nodeInput destination input) := by
  cases wire with
  | value start sink => cases start <;> cases sink <;> simp [edge?]
  | event start target => simp [edge?]

namespace Endpoints

variable {endpoints : Endpoints}

theorem edge?_eq_none_of_kind {connection : Connection} {wire : Wire}
    (looked : endpoints.wire connection = .ok wire)
    (other : connection.kind ≠ .nodeValueToNode) : wire.edge? = none := by
  cases edge : wire.edge? with
  | none => rfl
  | some positions =>
      rcases Wire.edge?_eq_some_iff.mp edge with ⟨output, input, equal⟩
      subst equal
      rcases (wire_eq_ok_iff.mp looked).2.2 with
        ⟨-, _, _, -, -, impossible⟩ | ⟨carriesValue, source, sink, sourceFound, sinkFound, equal⟩
      · cases impossible
      · cases equal
        have sourceScope := (valueSource_eq_nodeOutput_iff.mp sourceFound).1
        have sinkScope := (valueSink_eq_nodeInput_iff.mp sinkFound).1
        cases kind : connection.kind <;>
          simp_all [ConnectionKind.sourceScope, ConnectionKind.destinationScope,
            ConnectionKind.isEvent]

theorem edge_of_kind {connection : Connection} {wire : Wire}
    (looked : endpoints.wire connection = .ok wire)
    (kind : connection.kind = .nodeValueToNode) :
    ∃ source destination, endpoints.position? connection.source.node = some source ∧
      endpoints.position? connection.destination.node = some destination ∧
      wire.edge? = some (source, destination) := by
  rcases (wire_eq_ok_iff.mp looked).2.2 with
    ⟨isEvent, -⟩ | ⟨-, source, sink, sourceFound, sinkFound, equal⟩
  · simp [kind, ConnectionKind.isEvent] at isEvent
  · simp only [kind, ConnectionKind.sourceScope, ConnectionKind.destinationScope, valueSource,
      valueSink, except_bind_eq_ok_iff, pure, Except.pure, Except.ok.injEq] at sourceFound sinkFound
    rcases sourceFound with ⟨⟨first, output⟩, sourcePlug, rfl⟩
    rcases sinkFound with ⟨⟨second, input⟩, sinkPlug, rfl⟩
    exact ⟨first, second, (plug_eq_ok_iff.mp sourcePlug).1, (plug_eq_ok_iff.mp sinkPlug).1,
      by simp [equal, Wire.edge?]⟩

/-- The edges that constrain the order are those of the wires. -/
theorem edges_eq_of_wires {connections : List Connection} {wires : List Wire}
    (looked : endpoints.LooksUp connections wires) :
    Compile.edges endpoints.prototype connections = .ok (wires.filterMap Wire.edge?) := by
  induction looked with
  | nil => rfl
  | @cons connection wire _ _ first _ induction =>
      unfold Compile.edges
      by_cases kind : connection.kind = .nodeValueToNode
      · rcases edge_of_kind first kind with ⟨source, destination, sourceFound, sinkFound, edge⟩
        have sourcePosition : Compile.positionOf endpoints.prototype connection.source =
            .ok source := node_eq_ok_iff.mpr sourceFound
        have sinkPosition : Compile.positionOf endpoints.prototype connection.destination =
            .ok destination := node_eq_ok_iff.mpr sinkFound
        simp [kind, sourcePosition, sinkPosition, induction, edge, bind, Except.bind, pure,
          Except.pure]
      · simp [kind, induction, edge?_eq_none_of_kind first kind]

theorem position?_lt {node : NodeId} {index : Nat}
    (found : endpoints.position? node = some index) :
    index < endpoints.prototype.nodes.length := by
  unfold position? at found
  rw [List.findIdx?_eq_some_iff_getElem] at found
  exact found.1

theorem edges_bounded {connections : List Connection} {wires : List Wire}
    (looked : endpoints.LooksUp connections wires) :
    ∀ edge ∈ wires.filterMap Wire.edge?,
      edge.1 < endpoints.prototype.nodes.length ∧ edge.2 < endpoints.prototype.nodes.length := by
  intro edge listed
  rcases List.mem_filterMap.mp listed with ⟨wire, member, isEdge⟩
  rcases exists_connection_of_mem looked member with ⟨connection, -, found⟩
  by_cases kind : connection.kind = .nodeValueToNode
  · rcases edge_of_kind found kind with ⟨source, destination, sourceFound, sinkFound, same⟩
    rw [isEdge] at same
    cases same
    exact ⟨position?_lt sourceFound, position?_lt sinkFound⟩
  · rw [edge?_eq_none_of_kind found kind] at isEdge
    cases isEdge

end Endpoints

namespace Compile

/-! ## Orders -/

theorem order_eq_ok_iff {endpoints : Endpoints} {wires : List Wire} {order : List Nat}
    (looked : endpoints.LooksUp endpoints.prototype.connections wires) :
    Compile.order endpoints.prototype = .ok order ↔
      Schedule.order (wires.filterMap Wire.edge?) endpoints.prototype.nodes.length =
        .ok order := by
  simp only [Compile.order, Endpoints.edges_eq_of_wires looked, bind, Except.bind]
  cases Schedule.order (wires.filterMap Wire.edge?) endpoints.prototype.nodes.length <;>
    simp [pure, Except.pure, throw, throwThe, MonadExceptOf.throw]

theorem Wired.looked {endpoints : Endpoints} {wires : List Wire} {order : List Nat}
    (wired : Wired endpoints wires order) :
    endpoints.LooksUp endpoints.prototype.connections wires :=
  (Endpoints.wireAll_eq_ok_iff.mp wired.wires).1

theorem Wired.apart {endpoints : Endpoints} {wires : List Wire} {order : List Nat}
    (wired : Wired endpoints wires order) :
    wires.Pairwise fun earlier later => ¬ earlier.SharesSink later :=
  (Endpoints.wireAll_eq_ok_iff.mp wired.wires).2

/-- The order of a compiled prototype runs every node once, each after those
whose values it reads. -/
theorem Wired.isOrder {endpoints : Endpoints} {wires : List Wire} {order : List Nat}
    (wired : Wired endpoints wires order) :
    Schedule.IsOrder (wires.filterMap Wire.edge?) endpoints.prototype.nodes.length order :=
  Schedule.isOrder_of_order ((order_eq_ok_iff wired.looked).mp wired.order)

end Compile

end NodeGraph
