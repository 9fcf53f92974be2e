import NodeGraph.Proofs.Run.Reachable
import NodeGraph.Proofs.Run.Subroutine
import NodeGraph.Standard

namespace NodeGraph

/-! Rewinding. Whatever has happened to a node, resetting it yields the same
node; so resetting a graph after any calls yields the same graph, and of a
compiled graph this is the graph as it was compiled. Main statement: for the
standard nodes, a reset undoes all that was ever done to a graph, and a graph
that is reset and initialized is as good as a new one. -/

/-! ## Nodes that rewind -/

namespace Processor

/-- Whatever happens to a node, a reset afterwards yields what a reset before
would have yielded. -/
structure Rewinds (ν : Type) [Processor ν] : Prop where
  init : ∀ context (node : ν) panel,
    reset ((Processor.init context node).run panel).1 = reset node
  process : ∀ timeStep (node : ν) panel,
    reset ((Processor.process timeStep node).run panel).1.1 = reset node
  onEvent : ∀ input event (node : ν) panel,
    reset ((Processor.onEvent input event node).run panel).1 = reset node
  reset : ∀ node : ν, reset (reset node) = reset node

variable [Processor ν] [Processor μ]

/-- What can be said of a node once it is reset, can be said whatever happens to
the node. -/
theorem Rewinds.keeps (rewinds : Rewinds ν) (holds : ν → Prop) :
    Keeps fun node : ν => holds (Processor.reset node) where
  init context node panel before := by rwa [rewinds.init]
  process timeStep node panel before := by rwa [rewinds.process]
  onEvent input event node panel before := by rwa [rewinds.onEvent]
  reset node before := by rwa [rewinds.reset]

theorem Rewinds.of_keeps
    (keeps : ∀ target : ν, Keeps fun node => Processor.reset node = target) : Rewinds ν where
  init context node panel := (keeps _).init context node panel rfl
  process timeStep node panel := (keeps _).process timeStep node panel rfl
  onEvent input event node panel := (keeps _).onEvent input event node panel rfl
  reset node := (keeps _).reset node rfl

theorem Rewinds.sum (left : Rewinds ν) (right : Rewinds μ) : Rewinds (ν ⊕ μ) := by
  apply Rewinds.of_keeps
  intro target
  have bySide : (fun node : ν ⊕ μ => Processor.reset node = target) =
      Sum.elim (fun node => .inl (Processor.reset node) = target)
        fun node => .inr (Processor.reset node) = target := by
    funext node
    cases node <;> rfl
  rw [bySide]
  exact (left.keeps fun node => .inl node = target).sum (right.keeps fun node => .inr node = target)

end Processor

/-! ## Graphs of nodes that rewind -/

namespace Graph

variable [Processor ν]

/-- Resetting a cell forgets what was put into it if that rewinds to the same
node. -/
private theorem reset_setCell {circuit : Circuit} {state : State ν} {index : Nat}
    {before after : Cell ν} (present : state.cells[index]? = some before)
    (same : Processor.reset after.node = Processor.reset before.node) (values : Array Value) :
    reset ⟨circuit, { state with cells := state.cells.setIfInBounds index after, values }⟩ =
      reset ⟨circuit, state⟩ := by
  have cells : (state.cells.setIfInBounds index after).map
      (fun cell => ({ node := Processor.reset cell.node } : Cell ν)) =
        state.cells.map fun cell => { node := Processor.reset cell.node } := by
    apply Array.ext_getElem?
    intro other
    rw [Array.getElem?_map, Array.getElem?_map]
    by_cases here : index = other
    · subst here
      rw [Array.getElem?_setIfInBounds_self_of_lt (Array.getElem?_eq_some_iff.mp present).1,
        present, Option.map_some, Option.map_some, same]
    · rw [Array.getElem?_setIfInBounds_ne here]
  simp only [reset, cells]

theorem keeps_reset (rewinds : Processor.Rewinds ν) (circuit : Circuit) (target : Graph ν) :
    circuit.Keeps fun state => reset ⟨circuit, state⟩ = target where
  runs index happening state before := by
    rcases state.runCell_cases circuit index happening.program with
      ⟨placement, cell, placed, present⟩ | unchanged
    · rw [State.runCell_eq placed present, reset_setCell present _ _]
      · exact before
      · cases happening with
        | init context => simpa [Happening.program] using rewinds.init context cell.node _
        | process timeStep => simpa [Happening.program] using rewinds.process timeStep cell.node _
        | onEvent input event =>
            simpa [Happening.program] using rewinds.onEvent input event cell.node _
    · rw [unchanged]
      exact before
  queues state id outgoing _ queued before := by
    rw [← before]
    unfold OutgoingQueue.push? at queued
    split at queued
    · cases queued
      rfl
    · cases queued
  sets state slot value before := before
  drains state before := before
  resets state before := by
    rw [← before]
    simp [reset, OutgoingQueue.clear, rewinds.reset]

/-- Resetting a graph undoes all that was done to it. -/
theorem afterCalls_reset (rewinds : Processor.Rewinds ν) (graph : Graph ν) (calls : List Call) :
    (graph.afterCalls calls).reset = graph.reset := by
  have kept := afterCalls_keeps (keeps_reset rewinds graph.circuit graph.reset) rfl calls
  rwa [← afterCalls_circuit graph calls] at kept

end Graph

theorem Subroutine.rewinds [Processor ν] (rewinds : Processor.Rewinds ν) :
    Processor.Rewinds (Subroutine ν) := by
  apply Processor.Rewinds.of_keeps
  intro target
  apply keeps_of_perform
  intro subroutine call before
  rw [← before]
  exact congrArg (fun graph => { subroutine with graph })
    (subroutine.graph.afterCalls_reset rewinds [call])

/-- Nested nodes rewind at any depth if plain ones do. -/
theorem Nested.rewinds [Processor κ] (plain : Processor.Rewinds κ) (room : Nat) :
    Processor.Rewinds (Nested κ room) := by
  induction room with
  | zero => exact plain
  | succ room induction => exact plain.sum (Subroutine.rewinds induction)

/-! ## Graphs as compiled -/

theorem Graph.pristine_reset [Processor ν] {circuit : Circuit} {capacity : Nat} {nodes : List ν}
    (fresh : ∀ node ∈ nodes, Processor.reset node = node) :
    (pristine circuit capacity nodes).reset = pristine circuit capacity nodes := by
  have cells : (nodes.map fun node => ({ node } : Cell ν)).toArray.map
      (fun cell => ({ node := Processor.reset cell.node } : Cell ν)) =
        (nodes.map fun node => { node }).toArray := by
    rw [List.map_toArray, List.map_map]
    congr 1
    apply List.map_congr_left
    intro node member
    simp [fresh node member]
  simp only [reset, pristine, cells, OutgoingQueue.clear]

namespace Compile

variable [Processor κ] {registry : Registry κ} {config : Config} {prototype : Prototype}
  {room : Nat}

private theorem built_reset
    (fresh : ∀ placed (node : Nested κ room),
      (createNode registry config room placed).outcome = .ok node → Processor.reset node = node)
    {built : Graph (Nested κ room)}
    (compiled : (build registry config room prototype).outcome = .ok built) :
    built.reset = built := by
  rcases build_eq_ok_iff.mp compiled with ⟨nodes, wires, order, created, -, rfl⟩
  apply Graph.pristine_reset
  intro node member
  rcases List.mem_iff_getElem?.mp member with ⟨index, found⟩
  have bound : index < prototype.nodes.length := by
    rw [created.length_eq]
    exact (List.getElem?_eq_some_iff.mp found).1
  exact fresh _ node (forall₂_getElem? created (List.getElem?_eq_getElem bound) found)

/-- A node is created as it is after a reset, if the nodes of the registry are. -/
theorem createNode_reset
    (fresh : ∀ type id node, registry.create? type id = some node → Processor.reset node = node)
    {placed : PrototypeNode} {node : Nested κ room}
    (created : (createNode registry config room placed).outcome = .ok node) :
    Processor.reset node = node := by
  induction room generalizing placed with
  | zero => exact fresh _ _ _ (createPlain_eq_ok_iff.mp created).2
  | succ room induction =>
      rcases createNested_eq_ok_iff.mp created with
        ⟨-, plain, found, rfl⟩ | ⟨nested, graph, -, compiled, rfl⟩
      · exact congrArg Sum.inl (fresh _ _ _ found)
      · have inside : graph.reset = graph := built_reset (fun _ _ => induction) compiled
        exact congrArg (fun graph => Sum.inr (Subroutine.ofPrototype nested graph)) inside

theorem build_reset
    (fresh : ∀ type id node, registry.create? type id = some node → Processor.reset node = node)
    {built : Graph (Nested κ room)}
    (compiled : (build registry config room prototype).outcome = .ok built) :
    built.reset = built :=
  built_reset (fun _ _ => createNode_reset fresh) compiled

/-- A reachable graph rewinds to the graph as it was compiled. -/
theorem Reachable.build_eq_reset (rewinds : Processor.Rewinds κ)
    (fresh : ∀ type id node, registry.create? type id = some node → Processor.reset node = node)
    {graph : Graph (Nested κ room)} (reachable : Reachable registry config prototype graph) :
    (build registry config room prototype).outcome = .ok graph.reset := by
  rcases reachable with ⟨built, calls, compiled, rfl⟩
  rw [built.afterCalls_reset (Nested.rewinds rewinds room), build_reset fresh compiled, compiled]

end Compile

/-! ## Standard nodes -/

namespace Registry

theorem mem_register {registry : Registry κ} {type : Identifier} {make : NodeId → κ}
    {entry : Identifier × (NodeId → κ)} (member : entry ∈ (registry.register type make).entries) :
    entry.2 = make ∨ ∃ earlier ∈ registry.entries, entry.2 = earlier.2 := by
  unfold register at member
  split at member
  · rcases List.mem_map.mp member with ⟨earlier, listed, rfl⟩
    by_cases same : (earlier.1 == type) = true
    · simp [same]
    · exact .inr ⟨earlier, listed, by simp [same]⟩
  · rcases List.mem_append.mp member with listed | added
    · exact .inr ⟨entry, listed, rfl⟩
    · exact .inl (by rw [List.mem_singleton.mp added])

private theorem mem_registerAll {types : List (Identifier × (NodeId → κ))}
    {registry : Registry κ} {entry : Identifier × (NodeId → κ)}
    (member : entry ∈ (types.foldl (fun registry entry =>
      registry.register entry.1 entry.2) registry).entries) :
    (∃ listed ∈ types, listed.2 = entry.2) ∨ ∃ earlier ∈ registry.entries, entry.2 = earlier.2 := by
  induction types generalizing registry with
  | nil => exact .inr ⟨entry, member, rfl⟩
  | cons first types induction =>
      rcases induction member with ⟨listed, later, same⟩ | ⟨earlier, registered, same⟩
      · exact .inl ⟨listed, .tail _ later, same⟩
      · rcases mem_register registered with added | ⟨before, present, equal⟩
        · exact .inl ⟨first, .head _, by rw [same, added]⟩
        · exact .inr ⟨before, present, same.trans equal⟩

/-- A registry creates no nodes but those it was made of. -/
theorem create?_ofList {types : List (Identifier × (NodeId → κ))} {type : Identifier}
    {id : NodeId} {node : κ} (created : (ofList types).create? type id = some node) :
    ∃ entry ∈ types, entry.2 id = node := by
  rcases Option.map_eq_some_iff.mp created with ⟨entry, found, rfl⟩
  rcases mem_registerAll (List.mem_of_find?_eq_some found) with
    ⟨listed, member, same⟩ | ⟨_, nothing, -⟩
  · exact ⟨listed, member, congrFun same id⟩
  · cases nothing

end Registry

namespace StandardNode

/-- Of the standard nodes only counters change, and a reset forgets what they
have counted. -/
theorem rewinds : Processor.Rewinds StandardNode where
  init context node panel := by
    cases node with
    | triggerCounter counter => simp [Processor.init, Processor.reset, init, reset]
    | element type => simp [Processor.init, init]
    | _ => rfl
  process timeStep node panel := by simp [Processor.process]
  onEvent input event node panel := by
    cases node with
    | triggerCounter counter => simp [Processor.onEvent, Processor.reset, onEvent, reset]
    | element type => simp [Processor.onEvent, onEvent]
    | _ => rfl
  reset node := by cases node <;> rfl

theorem create?_reset {type : Identifier} {id : NodeId} {node : StandardNode}
    (created : registry.create? type id = some node) : Processor.reset node = node := by
  have fresh : ∀ entry ∈ types, reset entry.2 = entry.2 := by decide
  rcases Registry.create?_ofList created with ⟨_, member, rfl⟩
  rcases List.mem_map.mp member with ⟨entry, listed, rfl⟩
  exact fresh entry listed

end StandardNode

namespace Compile

variable {config : Config} {prototype : Prototype}

/-- A reset really rewinds. Whatever has been done to a graph of standard nodes,
after a reset it is what compiling yields, inside and out; initialized again, it
is what creating an instance yields. So all that is done to it from then on has
the same effects and answers as on a new instance. -/
theorem Reachable.reset_rewinds {graph : Instance StandardNode config}
    (reachable : Reachable StandardNode.registry config prototype graph) (context : Context) :
    (build StandardNode.registry config config.maxSubroutineDepth.toNat prototype).outcome =
      .ok graph.reset ∧
    ∃ fresh,
      (Instance.create StandardNode.registry config context prototype).outcome = .ok fresh ∧
      graph.afterCalls [.reset, .init context] = fresh ∧
      ∀ calls, graph.afterCalls ([.reset, .init context] ++ calls) = fresh.afterCalls calls ∧
        ∀ call, ((graph.afterCalls ([.reset, .init context] ++ calls)).perform call).2 =
          ((fresh.afterCalls calls).perform call).2 := by
  have rewound := reachable.build_eq_reset StandardNode.rewinds fun _ _ _ =>
    StandardNode.create?_reset
  refine ⟨rewound, graph.afterCalls [.reset, .init context], ?_, rfl, ?_⟩
  · exact Instance.create_eq_ok_iff.mpr ⟨graph.reset, rewound, rfl⟩
  · intro calls
    rw [Graph.afterCalls_append]
    exact ⟨rfl, fun _ => rfl⟩

/-- A graph inside of which events are counted. -/
def counterInside : Prototype where
  name := "Outer"
  id := 1
  inputs := [⟨.named "Count", .void⟩]
  outputs := []
  locals := []
  nodes := [⟨.named "Counting", 7, [], some {
    name := "Inner"
    id := 2
    inputs := [⟨.named "Count", .void⟩]
    outputs := []
    locals := []
    nodes := [⟨.named "Trigger Counter", 1, [], none⟩]
    connections := [
      ⟨⟨graphNodeId, .named "Count"⟩, ⟨1, .named "Trigger"⟩, .graphEventToNode⟩] }⟩]
  connections := [
    ⟨⟨graphNodeId, .named "Count"⟩, ⟨7, .named "Count"⟩, .graphEventToNode⟩]

theorem counterInside_reset_rewinds :
    ∃ graph : Instance StandardNode Config.default,
      Reachable StandardNode.registry Config.default counterInside graph ∧
      (build StandardNode.registry Config.default Config.default.maxSubroutineDepth.toNat
        counterInside).outcome = .ok graph.reset ∧
      (Instance.create StandardNode.registry Config.default default counterInside).outcome =
        .ok (graph.afterCalls [.reset, .init default]) := by
  have compiles : (build StandardNode.registry Config.default
      Config.default.maxSubroutineDepth.toNat counterInside).outcome.isOk = true := by
    decide +kernel
  rcases exists_eq_ok compiles with ⟨built, compiled⟩
  have fresh : Reachable StandardNode.registry Config.default counterInside built :=
    ⟨built, [], compiled, rfl⟩
  have reachable := fresh.afterCalls [.init default, .post (.named "Count")]
  rcases reachable.reset_rewinds default with ⟨rewound, _, created, rfl, -⟩
  exact ⟨_, reachable, rewound, created⟩

end Compile

end NodeGraph
