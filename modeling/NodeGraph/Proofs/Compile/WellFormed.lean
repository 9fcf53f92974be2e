import NodeGraph.Proofs.Compile.Order

namespace NodeGraph

/-! Well-formed prototypes. What makes a prototype well-formed is said in terms
of the prototype and of the registry alone: of ids, plugs and connections, and
not of positions, wires or orders. Each check that compiling makes is shown to
ask for its part of this. -/

/-! ## The parts of a level -/

/-- The endpoints contain one of that id. -/
def Declares (endpoints : List Endpoint) (id : Identifier) : Prop :=
  ∃ endpoint ∈ endpoints, (endpoint.id == id) = true

/-- The events contain that id. -/
def Fires (events : List Identifier) (id : Identifier) : Prop :=
  ∃ event ∈ events, (event == id) = true

namespace Compile

variable [Processor κ]

/-- The terminus is on a node whose plugs have what `names` asks for. -/
def OnNode (registry : Registry κ) (prototype : Prototype)
    (names : Layout → Identifier → Prop) (terminus : Terminus) : Prop :=
  ∃ placed ∈ prototype.nodes, placed.id = terminus.node ∧
    ∃ layout, layout? registry placed = some layout ∧ names layout terminus.endpoint

/-- What the source of a connection refers to exists. -/
def SourceExists (registry : Registry κ) (prototype : Prototype) (connection : Connection) :
    Prop :=
  match connection.kind.sourceScope with
  | .node =>
      OnNode registry prototype (fun layout id =>
        if connection.kind.isEvent then Fires layout.outputEvents id
        else Declares layout.outputs id) connection.source
  | .graph => Declares prototype.inputs connection.source.endpoint
  | .localVariable => Declares prototype.locals connection.source.endpoint

/-- What the destination of a connection refers to exists. -/
def DestinationExists (registry : Registry κ) (prototype : Prototype)
    (connection : Connection) : Prop :=
  match connection.kind.destinationScope with
  | .node =>
      OnNode registry prototype (fun layout id =>
        if connection.kind.isEvent then Fires layout.inputEvents id
        else Declares layout.inputs id) connection.destination
  | .graph | .localVariable => Declares prototype.outputs connection.destination.endpoint

/-- A connection that can be wired: its ends are on the graph exactly where its
kind puts them there, and what they refer to exists. -/
structure Connects (registry : Registry κ) (prototype : Prototype) (connection : Connection) :
    Prop where
  sourceSide : connection.source.node = graphNodeId ↔ connection.kind.sourceScope ≠ .node
  destinationSide :
    connection.destination.node = graphNodeId ↔ connection.kind.destinationScope ≠ .node
  source : SourceExists registry prototype connection
  destination : DestinationExists registry prototype connection

/-- An override names an input plug and has the kind of its default, unless that
default is void. -/
def Overrides (layout : Layout) (override : Endpoint) : Prop :=
  ∃ plug, (layout.inputs.find? fun plug => plug.id == override.id) = some plug ∧
    (plug.default.kind = .void ∨ plug.default.kind = override.default.kind)

end Compile

/-- Both connections carry a value to the same destination. -/
def Connection.Collides (first second : Connection) : Prop :=
  first.kind.isEvent = false ∧ second.kind.isEvent = false ∧
    first.destination.node = second.destination.node ∧
    (first.destination.endpoint == second.destination.endpoint) = true

theorem Connection.Collides.symm {first second : Connection} (collides : first.Collides second) :
    second.Collides first :=
  ⟨collides.2.1, collides.1, collides.2.2.1.symm, BEq.symm collides.2.2.2⟩

/-- A connection carries a value from one node to another. -/
def Prototype.ValueEdge (prototype : Prototype) (source destination : NodeId) : Prop :=
  ∃ connection ∈ prototype.connections, connection.kind = .nodeValueToNode ∧
    connection.source.node = source ∧ connection.destination.node = destination

namespace Compile

/-- What a well-formed prototype keeps to on its own level, whatever is in its
subroutines. -/
structure WellFormedLevel [Processor κ] (registry : Registry κ) (prototype : Prototype) :
    Prop where
  idsNonzero : ∀ placed ∈ prototype.nodes, placed.id ≠ graphNodeId
  idsDistinct : (prototype.nodes.map PrototypeNode.id).Nodup
  registered : ∀ placed ∈ prototype.nodes, placed.subroutine = none →
    registry.contains placed.type = true
  overrides : ∀ placed ∈ prototype.nodes, ∀ layout, layout? registry placed = some layout →
    ∀ override ∈ placed.overrides, Overrides layout override
  connects : ∀ connection ∈ prototype.connections, Connects registry prototype connection
  apart : prototype.connections.Pairwise fun first second => ¬ first.Collides second
  acyclic : ∀ node, ¬ Relation.TransGen prototype.ValueEdge node node

/-- A prototype that is well-formed at a level of nesting, as are its subroutines
one level deeper. Only on levels below `limit` may nodes have subroutines. -/
inductive WellFormed [Processor κ] (registry : Registry κ) (limit : Nat) :
    (level : Nat) → Prototype → Prop where
  | intro {level : Nat} {prototype : Prototype}
      (here : WellFormedLevel registry prototype)
      (room : ∀ placed ∈ prototype.nodes, placed.subroutine ≠ none → level < limit)
      (below : ∀ placed ∈ prototype.nodes, ∀ subroutine, placed.subroutine = some subroutine →
        WellFormed registry limit (level + 1) subroutine) :
      WellFormed registry limit level prototype

/-! ## Ids -/

theorem checkIds_eq_ok_iff {seen : List NodeId} {nodes : List PrototypeNode} :
    checkIds seen nodes = .ok () ↔
      (∀ placed ∈ nodes, placed.id ≠ graphNodeId ∧ placed.id ∉ seen) ∧
        (nodes.map PrototypeNode.id).Nodup := by
  induction nodes generalizing seen with
  | nil => simp [checkIds]
  | cons first rest induction =>
      unfold checkIds
      by_cases reserved : first.id = graphNodeId
      · simp [reserved]
      · by_cases used : first.id ∈ seen
        · simp [reserved, used]
        · rw [if_neg reserved, if_neg used, induction, List.map_cons, List.nodup_cons,
            List.forall_mem_cons]
          simp only [List.mem_cons, not_or, List.mem_map, not_exists, not_and]
          constructor
          · intro checked
            rcases checked with ⟨fresh, nodup⟩
            exact ⟨⟨⟨reserved, used⟩, fun placed member =>
              ⟨(fresh placed member).1, (fresh placed member).2.2⟩⟩,
              fun placed member => (fresh placed member).2.1, nodup⟩
          · intro checked
            rcases checked with ⟨⟨-, fresh⟩, different, nodup⟩
            exact ⟨fun placed member => ⟨(fresh placed member).1, different placed member,
              (fresh placed member).2⟩, nodup⟩

theorem Wired.idsDistinct {endpoints : Endpoints} {wires : List Wire} {order : List Nat}
    (wired : Wired endpoints wires order) :
    (endpoints.prototype.nodes.map PrototypeNode.id).Nodup :=
  (checkIds_eq_ok_iff.mp wired.ids).2

/-! ## Overrides -/

theorem checkOverride_eq_ok_iff {node : NodeId} {layout : Layout} {override : Endpoint} :
    checkOverride node layout override = .ok () ↔ Overrides layout override := by
  unfold checkOverride Overrides
  cases layout.inputs.find? fun plug => plug.id == override.id with
  | none => simp
  | some plug =>
      by_cases fits : plug.default.kind = .void ∨ plug.default.kind = override.default.kind <;>
        simp [fits]

theorem checkOverrides_eq_ok_iff {nodes : List (PrototypeNode × Layout)} :
    checkOverrides nodes = .ok () ↔
      ∀ node ∈ nodes, ∀ override ∈ node.1.overrides, Overrides node.2 override := by
  induction nodes with
  | nil => simp [checkOverrides]
  | cons first rest induction =>
      rcases first with ⟨placed, layout⟩
      simp only [checkOverrides, except_seq_eq_ok_iff, induction, forM_eq_ok_iff,
        checkOverride_eq_ok_iff, List.forall_mem_cons]

end Compile

end NodeGraph
