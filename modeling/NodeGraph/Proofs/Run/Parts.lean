import NodeGraph.Proofs.Run.Reachable
import NodeGraph.Proofs.Run.Subroutine

namespace NodeGraph

/-! Graphs inside of graphs, at any depth. A part of a graph is named by the
positions of the nodes that lead to it. Whatever is done to a graph, each of its
parts is a graph that was compiled from the prototype at the same place and then
called; so what holds of all reachable graphs holds of all their parts. -/

/-! ## Places -/

/-- The prototype that one comes to by entering the subroutines of the nodes at
some positions, one inside the other. -/
def Prototype.inside? (prototype : Prototype) : (path : List Nat) → Option Prototype
  | [] => some prototype
  | index :: path =>
      (prototype.nodes[index]?.bind PrototypeNode.subroutine).bind fun nested =>
        nested.inside? path

/-- The subroutine that a node is, if it is one. -/
def Nested.subroutine? : Nested κ (room + 1) → Option (Subroutine (Nested κ room))
  | .inl _ => none
  | .inr subroutine => some subroutine

/-- The subroutine at a position, if there is one. -/
def State.subroutine? (state : State (Nested κ (room + 1))) (index : Nat) :
    Option (Subroutine (Nested κ room)) :=
  state.cells[index]?.bind fun cell => cell.node.subroutine?

theorem State.subroutine?_eq_some_iff {state : State (Nested κ (room + 1))} {index : Nat}
    {subroutine : Subroutine (Nested κ room)} :
    state.subroutine? index = some subroutine ↔
      ∃ consumed, state.cells[index]? = some { node := .inr subroutine, consumed } := by
  unfold subroutine?
  rw [Option.bind_eq_some_iff]
  constructor
  · intro found
    rcases found with ⟨⟨node, consumed⟩, present, isSubroutine⟩
    cases node with
    | inl plain => cases isSubroutine
    | inr inner =>
        cases isSubroutine
        exact ⟨consumed, present⟩
  · intro found
    rcases found with ⟨consumed, present⟩
    exact ⟨_, present, rfl⟩

/-- A graph is what one comes to by entering the nodes at some positions. -/
inductive Graph.Contains : {outer inner : Nat} → Graph (Nested κ outer) → (path : List Nat) →
    Graph (Nested κ inner) → Prop
  | itself {room : Nat} (graph : Graph (Nested κ room)) : Contains graph [] graph
  | inside {outer inner : Nat} {graph : Graph (Nested κ (outer + 1))} {index : Nat}
      {subroutine : Subroutine (Nested κ outer)} {path : List Nat}
      {part : Graph (Nested κ inner)} (found : graph.state.subroutine? index = some subroutine)
      (below : Contains subroutine.graph path part) : Contains graph (index :: path) part

namespace Compile

variable [Processor κ] {registry : Registry κ} {config : Config} {prototype : Prototype}
  {room : Nat}

/-! ## Nodes in their places -/

/-- A node suits its place in a prototype: it is a subroutine exactly if the
place has one, with the plugs of that prototype and a graph that is reachable
from it. -/
def Suits (registry : Registry κ) (config : Config) (placed : PrototypeNode) :
    κ ⊕ Subroutine (Nested κ room) → Prop :=
  Sum.elim (fun _ => placed.subroutine = none) fun subroutine =>
    ∃ nested, placed.subroutine = some nested ∧
      subroutine.layout = Subroutine.layoutOf nested ∧
      Reachable registry config nested subroutine.graph

theorem suits_of_createNode {placed : PrototypeNode} {node : Nested κ (room + 1)}
    (created : (createNode registry config (room + 1) placed).outcome = .ok node) :
    Suits registry config placed node := by
  rcases createNested_eq_ok_iff.mp created with
    ⟨plain, _, -, rfl⟩ | ⟨nested, graph, composite, compiled, rfl⟩
  · exact plain
  · exact ⟨nested, composite, rfl, graph, [], compiled, rfl⟩

theorem suits_keeps (placed : PrototypeNode) :
    Processor.Keeps (ν := Nested κ (room + 1)) (Suits registry config placed) := by
  apply Processor.Keeps.sum
  · exact ⟨fun _ _ _ => id, fun _ _ _ => id, fun _ _ _ _ => id, fun _ => id⟩
  · apply Subroutine.keeps_of_perform
    intro subroutine call before
    rcases before with ⟨nested, composite, plugs, reachable⟩
    exact ⟨nested, composite, plugs, reachable.afterCalls [call]⟩

theorem Reachable.every_suits {graph : Graph (Nested κ (room + 1))}
    (reachable : Reachable registry config prototype graph) :
    graph.state.Every fun index node => ∀ placed, prototype.nodes[index]? = some placed →
      Suits registry config placed node := by
  rcases reachable with ⟨built, calls, compiled, rfl⟩
  refine Graph.afterCalls_keeps (built.circuit.keeps_every fun _ => .all suits_keeps) ?_ calls
  intro index cell present placed listed
  rcases build_eq_ok_iff.mp compiled with ⟨nodes, wires, order, created, -, rfl⟩
  rcases Graph.pristine_cell.mp present with ⟨node, made, rfl⟩
  exact suits_of_createNode (forall₂_getElem? created listed made)

/-- In a reachable graph every node suits its place. -/
theorem Reachable.suits {graph : Graph (Nested κ (room + 1))}
    (reachable : Reachable registry config prototype graph) {index : Nat}
    {cell : Cell (Nested κ (room + 1))} (found : graph.state.cells[index]? = some cell) :
    ∃ placed, prototype.nodes[index]? = some placed ∧ Suits registry config placed cell.node := by
  have bound : index < prototype.nodes.length := by
    rw [← reachable.placements_size, ← reachable.fits.cells]
    exact (Array.getElem?_eq_some_iff.mp found).1
  have listed := List.getElem?_eq_getElem bound
  exact ⟨_, listed, reachable.every_suits index cell found _ listed⟩

/-! ## Parts -/

/-- Every part of a reachable graph is reachable from the prototype that lies at
the same place. -/
theorem Reachable.part {inner : Nat} {graph : Graph (Nested κ room)}
    {part : Graph (Nested κ inner)} {path : List Nat}
    (reachable : Reachable registry config prototype graph)
    (contains : graph.Contains path part) :
    ∃ nested, prototype.inside? path = some nested ∧ Reachable registry config nested part := by
  induction contains generalizing prototype with
  | itself graph => exact ⟨prototype, rfl, reachable⟩
  | inside found below induction =>
      rcases State.subroutine?_eq_some_iff.mp found with ⟨consumed, present⟩
      rcases reachable.suits present with ⟨placed, listed, nested, composite, -, entered⟩
      rcases induction entered with ⟨deeper, place, deepest⟩
      exact ⟨deeper, by simpa [Prototype.inside?, listed, composite] using place, deepest⟩

end Compile

end NodeGraph
