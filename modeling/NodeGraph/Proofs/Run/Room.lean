import NodeGraph.Proofs.Compile.Acceptance
import NodeGraph.Proofs.Run.Alike

namespace NodeGraph

/-! Room for subroutines. How deep subroutines may nest shows in the type of a
graph, but it makes no difference to what the graph does: two graphs that have
been compiled from one prototype with different room look the same, and always
will if the same is done to them. -/

/-! ## Nodes without regard to room -/

/-- A node with all that is inside it, however deep. -/
inductive Tree (κ : Type) : Type where
  | plain (node : κ)
  | composite (inside : Subroutine (Tree κ))

/-- What is to be seen of a node if one does not ask how deep it could nest. -/
def Nested.view : {room : Nat} → Nested κ room → Tree κ
  | 0 => Tree.plain
  | _ + 1 => Sum.elim Tree.plain fun inside => .composite (inside.map Nested.view)

/-- What is to be seen of a graph if one does not ask how deep it could nest. -/
def Graph.view (graph : Graph (Nested κ room)) : Graph (Tree κ) :=
  graph.map Nested.view

theorem Graph.view_eq_iff {left : Graph (Nested κ room)} {right : Graph (Nested κ otherRoom)} :
    left.view = right.view ↔ left.circuit = right.circuit ∧
      left.state.cells.map (Cell.map Nested.view) =
        right.state.cells.map (Cell.map Nested.view) ∧
      left.state.values = right.state.values ∧ left.state.outgoing = right.state.outgoing := by
  rw [view, view, map_eq_iff, State.map_eq_iff]

/-- The view of a node leaves nothing out but the room that is left unused. -/
theorem Nested.view_injective :
    {room : Nat} → Function.Injective (Nested.view : Nested κ room → Tree κ)
  | 0 => fun _ _ => Tree.plain.inj
  | room + 1 => by
      rintro (left | left) (right | right) same
      · exact congrArg Sum.inl (Tree.plain.inj same)
      · cases same
      · cases same
      · exact congrArg Sum.inr (Subroutine.map_injective view_injective (Tree.composite.inj same))

/-- So graphs with the same room that look the same are the same. -/
theorem Graph.view_injective : Function.Injective (Graph.view : Graph (Nested κ room) → _) :=
  Graph.map_injective Nested.view_injective

/-- Nested nodes that look the same do the same, whatever room they have. -/
theorem Nested.alike [Processor κ] (room otherRoom : Nat) :
    Processor.Alike (Nested.view : Nested κ room → Tree κ)
      (Nested.view : Nested κ otherRoom → Tree κ) := by
  have plain : Processor.Alike (Tree.plain : κ → Tree κ) Tree.plain :=
    .of_injective fun _ _ => Tree.plain.inj
  have plainAmong (room : Nat) :
      Processor.Alike (Tree.plain : κ → Tree κ) (Nested.view : Nested κ (room + 1) → Tree κ) :=
    plain.inl fun _ _ => nofun
  induction room generalizing otherRoom with
  | zero =>
      cases otherRoom with
      | zero => exact plain
      | succ otherRoom => exact plainAmong otherRoom
  | succ room induction =>
      cases otherRoom with
      | zero => exact (plainAmong room).symm
      | succ otherRoom =>
          have injective : Function.Injective (Tree.composite : Subroutine (Tree κ) → Tree κ) :=
            fun _ _ => Tree.composite.inj
          have composites := (Subroutine.alike (induction otherRoom)).comp injective
          exact plain.sum composites (fun _ _ => nofun) fun _ _ => nofun

/-! ## Compiling with different room -/

namespace Compile

variable [Processor κ] {registry : Registry κ} {config otherConfig : Config}

/-- The configurations agree in what running a graph depends on. -/
structure SameLimits (config otherConfig : Config) : Prop where
  hops : config.maxEventHops = otherConfig.maxEventHops
  capacity : config.eventQueueCapacity = otherConfig.eventQueueCapacity

theorem SameLimits.circuit (limits : SameLimits config otherConfig) (endpoints : Endpoints)
    (wires : List Wire) (order : List Nat) :
    Assembly.circuit config endpoints wires order =
      Assembly.circuit otherConfig endpoints wires order := by
  simp only [Assembly.circuit, limits.hops]

theorem Wired.unique {endpoints : Endpoints} {wires otherWires : List Wire}
    {order otherOrder : List Nat} (first : Wired endpoints wires order)
    (second : Wired endpoints otherWires otherOrder) : wires = otherWires ∧ order = otherOrder :=
  ⟨Except.ok.inj (first.wires.symm.trans second.wires),
    Except.ok.inj (first.order.symm.trans second.order)⟩

private theorem built_view {room otherRoom : Nat} (limits : SameLimits config otherConfig)
    (nodes : ∀ placed (left : Nested κ room) (right : Nested κ otherRoom),
      (createNode registry config room placed).outcome = .ok left →
      (createNode registry otherConfig otherRoom placed).outcome = .ok right →
      left.view = right.view)
    {prototype : Prototype} {left : Graph (Nested κ room)} {right : Graph (Nested κ otherRoom)}
    (leftBuilt : (build registry config room prototype).outcome = .ok left)
    (rightBuilt : (build registry otherConfig otherRoom prototype).outcome = .ok right) :
    left.view = right.view := by
  rcases build_eq_ok_iff.mp leftBuilt with ⟨leftNodes, wires, order, leftCreated, wired, rfl⟩
  rcases build_eq_ok_iff.mp rightBuilt with
    ⟨rightNodes, otherWires, otherOrder, rightCreated, otherWired, rfl⟩
  rcases wired.unique otherWired with ⟨rfl, rfl⟩
  unfold Graph.view
  rw [Graph.pristine_map, Graph.pristine_map, limits.circuit, limits.capacity,
    map_eq_of_forall₂ nodes leftCreated rightCreated]

/-- What is to be seen of a fresh node: one of its type, or a graph that has been
compiled with less room. -/
theorem createNode_seen {room : Nat} {placed : PrototypeNode} {node : Nested κ room}
    (created : (createNode registry config room placed).outcome = .ok node) :
    (placed.subroutine = none ∧
      ∃ plain, registry.create? placed.type placed.id = some plain ∧ node.view = .plain plain) ∨
    ∃ nested smaller, ∃ graph : Graph (Nested κ smaller), placed.subroutine = some nested ∧
      smaller < room ∧ (build registry config smaller nested).outcome = .ok graph ∧
      node.view = .composite ⟨graph.view, Subroutine.layoutOf nested⟩ := by
  cases room with
  | zero =>
      rcases createPlain_eq_ok_iff.mp created with ⟨plain, found⟩
      exact .inl ⟨plain, node, found, rfl⟩
  | succ room =>
      rcases createNested_eq_ok_iff.mp created with
        ⟨notComposite, plain, found, rfl⟩ | ⟨nested, graph, composite, compiled, rfl⟩
      · exact .inl ⟨notComposite, plain, found, rfl⟩
      · exact .inr ⟨nested, room, graph, composite, Nat.lt_succ_self room, compiled, rfl⟩

theorem createNode_view (limits : SameLimits config otherConfig) {room otherRoom : Nat}
    {placed : PrototypeNode} {left : Nested κ room} {right : Nested κ otherRoom}
    (leftCreated : (createNode registry config room placed).outcome = .ok left)
    (rightCreated : (createNode registry otherConfig otherRoom placed).outcome = .ok right) :
    left.view = right.view := by
  induction room using Nat.strong_induction_on generalizing otherRoom placed with
  | h room induction =>
      rcases createNode_seen leftCreated with
        ⟨isPlain, leftPlain, leftFound, leftSeen⟩ |
          ⟨nested, leftRoom, leftGraph, composite, smaller, leftBuilt, leftSeen⟩ <;>
      rcases createNode_seen rightCreated with
        ⟨otherIsPlain, rightPlain, rightFound, rightSeen⟩ |
          ⟨otherNested, rightRoom, rightGraph, otherComposite, -, rightBuilt, rightSeen⟩
      · rw [leftFound, Option.some.injEq] at rightFound
        rw [leftSeen, rightSeen, rightFound]
      · rw [isPlain] at otherComposite
        cases otherComposite
      · rw [otherIsPlain] at composite
        cases composite
      · rw [composite, Option.some.injEq] at otherComposite
        subst otherComposite
        have graphs : leftGraph.view = rightGraph.view :=
          built_view limits (fun _ _ _ => induction leftRoom smaller) leftBuilt rightBuilt
        rw [leftSeen, rightSeen, graphs]

/-- With whatever room a prototype has been compiled, the graph looks the
same. -/
theorem build_view (limits : SameLimits config otherConfig) {room otherRoom : Nat}
    {prototype : Prototype} {left : Graph (Nested κ room)} {right : Graph (Nested κ otherRoom)}
    (leftBuilt : (build registry config room prototype).outcome = .ok left)
    (rightBuilt : (build registry otherConfig otherRoom prototype).outcome = .ok right) :
    left.view = right.view :=
  built_view limits (fun _ _ _ => createNode_view limits) leftBuilt rightBuilt

end Compile

end NodeGraph
