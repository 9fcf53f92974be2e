import NodeGraph.Proofs.Run.Forwarding
import NodeGraph.Proofs.Run.Rewind
import NodeGraph.Proofs.Run.Settling
import NodeGraph.Proofs.Showing

namespace NodeGraph

/-! Initializing a graph of standard nodes again changes nothing. Standard nodes
settle: what they write when they are initialized depends on their inputs alone.
A subroutine settles because the graph inside it does, level by level. Main
statement: after any calls, initializing twice leaves the graph as initializing
once does, and an instance that was just created is as it would be if it were
initialized again. -/

/-! ## Standard nodes -/

namespace StandardNode

/-- A node that has been initialized would be initialized in the same way. -/
theorem init_init (node : StandardNode) (panel : Panel) :
    (node.init.run panel).1.init = node.init := by
  cases node with
  | triggerCounter counter => simp [init]
  | element type => simp [init]
  | _ => rfl

theorem settles : Processor.Settles fun _ : StandardNode => True where
  keeps _ _ _ _ := trivial
  emitted context node panel _ :=
    ((node.init_heeds fun _ => False).run_silent (fun _ => id) (fun _ => id) panel).1
  journal context node panel _ :=
    ((node.init_heeds fun _ => False).run_silent (fun _ => id) (fun _ => id) panel).2
  contextFree _ _ _ _ _ := rfl
  again context node panel _ owns := by
    show ((node.init.run panel).1.init).run (node.init.run panel).2 = node.init.run panel
    rw [init_init]
    exact (node.init_heeds fun _ => False).run_again (fun _ => id) (fun _ => id) (fun _ => id) owns

end StandardNode

/-! ## Subroutines -/

/-- Draining a graph in which nothing waits changes nothing. -/
theorem Graph.drain_of_quiet {graph : Graph ν} (quiet : graph.state.outgoing.waiting = []) :
    graph.drain = ([], graph) := by
  obtain ⟨circuit, cells, values, ⟨waiting, capacity⟩⟩ := graph
  cases quiet
  rfl

section
variable [Processor ν]

/-- All that initializing does to a subroutine is to initialize the graph inside it. -/
theorem Subroutine.Quiet.init_run {subroutine : Subroutine ν} (quiet : subroutine.Quiet)
    (settled : subroutine.graph.Settled) (context : Context) (panel : Panel) :
    (subroutine.init context).run panel =
      ({ subroutine with graph := (subroutine.graph.init context).1 }, panel) := by
  have waiting : (subroutine.graph.init context).1.state.outgoing.waiting = [] :=
    (congrArg OutgoingQueue.waiting (settled.outgoing context)).trans quiet
  simp [Subroutine.init, Subroutine.forward, settled.journal context,
    Graph.drain_of_quiet waiting, Program.reportAll, Subroutine.fireAll]

/-- Subroutines settle if the graphs inside them do. -/
theorem Subroutine.settles {holds : Subroutine ν → Prop}
    (keeps : ∀ context subroutine, holds subroutine →
      holds { subroutine with graph := (subroutine.graph.init context).1 })
    (quiet : ∀ subroutine, holds subroutine → subroutine.Quiet)
    (settled : ∀ subroutine, holds subroutine → subroutine.graph.Settled) :
    Processor.Settles holds := by
  have run (context : Context) (subroutine : Subroutine ν) (panel : Panel)
      (before : holds subroutine) :
      (Processor.init context subroutine).run panel =
        ({ subroutine with graph := (subroutine.graph.init context).1 }, panel) :=
    (quiet _ before).init_run (settled _ before) context panel
  constructor
  case keeps =>
    intro context subroutine panel before
    rw [run context subroutine panel before]
    exact keeps context subroutine before
  case emitted =>
    intro context subroutine panel before
    rw [run context subroutine panel before]
  case journal =>
    intro context subroutine panel before
    rw [run context subroutine panel before]
  case contextFree =>
    intro first second subroutine panel before
    rw [run first subroutine panel before, run second subroutine panel before,
      (settled _ before).contextFree first second]
  case again =>
    intro context subroutine panel before _
    rw [run context subroutine panel before]
    show (Processor.init context _).run panel = _
    rw [run context _ panel (keeps context subroutine before),
      (settled _ before).again context context]

end

/-! ## Compiled graphs -/

namespace Compile

variable {registry : Registry StandardNode} {config : Config} {prototype : Prototype}

/-- A node as it occurs in compiled graphs: if it is a subroutine, the graph inside
it is reachable and nothing waits there. -/
def Compiled [Processor κ] (registry : Registry κ) (config : Config) :
    {room : Nat} → Nested κ room → Prop
  | 0, _ => True
  | _ + 1, .inl _ => True
  | _ + 1, .inr subroutine =>
      subroutine.Quiet ∧ ∃ nested, Reachable registry config nested subroutine.graph

theorem Reachable.every_compiled [Processor κ] {registry : Registry κ} {room : Nat}
    {graph : Graph (Nested κ room)} (reachable : Reachable registry config prototype graph) :
    graph.state.Every fun _ => Compiled registry config := by
  intro index cell present
  cases room with
  | zero => trivial
  | succ room =>
      obtain ⟨placed, -, suits⟩ := reachable.suits present
      have quiet := reachable.every_quiet index cell present
      obtain ⟨node, consumed⟩ := cell
      cases node with
      | inl plain => trivial
      | inr subroutine =>
          obtain ⟨nested, -, -, inside⟩ := suits
          exact ⟨quiet, nested, inside⟩

/-- Where the nodes settle, reachable graphs do. -/
theorem Reachable.settled_of {room : Nat} {graph : Graph (Nested StandardNode room)}
    (settles : Processor.Settles (ν := Nested StandardNode room) (Compiled registry config))
    (reachable : Reachable registry config prototype graph) : graph.Settled :=
  settles.graph_settled reachable.flowsForward ⟨reachable.fits, reachable.every_compiled⟩

/-- Standard nodes settle however deep graphs of them are nested. -/
theorem nested_settles (registry : Registry StandardNode) (config : Config) (room : Nat) :
    Processor.Settles (ν := Nested StandardNode room) (Compiled registry config) := by
  induction room with
  | zero => exact StandardNode.settles
  | succ room induction =>
      have subroutines : Processor.Settles fun subroutine : Subroutine (Nested StandardNode room) =>
          subroutine.Quiet ∧ ∃ nested, Reachable registry config nested subroutine.graph := by
        have settled (subroutine : Subroutine (Nested StandardNode room))
            (compiled : subroutine.Quiet ∧
              ∃ nested, Reachable registry config nested subroutine.graph) :
            subroutine.graph.Settled := by
          obtain ⟨-, nested, inside⟩ := compiled
          exact inside.settled_of induction
        apply Subroutine.settles _ (fun _ => And.left) settled
        intro context subroutine compiled
        have outgoing := (settled subroutine compiled).outgoing context
        obtain ⟨quiet, nested, inside⟩ := compiled
        exact ⟨(congrArg OutgoingQueue.waiting outgoing).trans quiet, nested,
          inside.afterCalls [.init context]⟩
      have bySide : (Compiled registry config : Nested StandardNode (room + 1) → Prop) =
          Sum.elim (fun _ => True) fun subroutine =>
            subroutine.Quiet ∧ ∃ nested, Reachable registry config nested subroutine.graph := by
        funext node
        cases node <;> rfl
      rw [bySide]
      exact StandardNode.settles.sum subroutines

theorem Reachable.settled {room : Nat} {graph : Graph (Nested StandardNode room)}
    (reachable : Reachable registry config prototype graph) : graph.Settled :=
  reachable.settled_of (nested_settles registry config room)

/-- Initializing is idempotent. Whatever has been done to an instance of standard
nodes, initialized with one context and then with another it is, inside and out,
what the second alone would have made of it. No event is queued, nothing at all is
put on record. So an instance that was just created stays as it is when it is
initialized again. -/
theorem Reachable.init_idempotent {graph : Instance StandardNode config}
    (reachable : Reachable registry config prototype graph) (first second : Context) :
    ((graph.init first).1.init second).1 = (graph.init second).1 ∧
      (graph.init second).1.state.outgoing = graph.state.outgoing ∧
      (graph.init second).2 = #[] ∧
      ∀ context fresh, (Instance.create registry config context prototype).outcome = .ok fresh →
        (fresh.init second).1 = fresh := by
  have settled := reachable.settled
  refine ⟨congrArg Prod.fst (settled.again first second), settled.outgoing second,
    settled.journal second, ?_⟩
  intro context fresh created
  obtain ⟨built, compiled, rfl⟩ := Instance.create_eq_ok_iff.mp created
  have builtReachable : Reachable registry config prototype built := ⟨built, [], compiled, rfl⟩
  have again := builtReachable.settled.again context second
  rw [builtReachable.settled.contextFree second context] at again
  exact congrArg Prod.fst again

/-- A graph in which a counter chooses what to pick, next to a subroutine in which
another one does. The nodes that pick are listed before the counters. -/
def countedPick : Prototype where
  name := "Outer"
  id := 1
  inputs := [⟨.named "Count", .void⟩]
  outputs := [⟨.named "Element", .int32 0⟩]
  locals := []
  nodes := [
    ⟨.named "Get (Int)", 1, [⟨.named "Array", .array [.int32 4, .int32 8]⟩], none⟩,
    ⟨.named "Trigger Counter", 2, [], none⟩,
    ⟨.named "Counting", 3, [], some {
      name := "Inner"
      id := 2
      inputs := [⟨.named "Count", .void⟩]
      outputs := []
      locals := []
      nodes := [
        ⟨.named "Get (Int)", 1, [⟨.named "Array", .array [.int32 4, .int32 8]⟩], none⟩,
        ⟨.named "Trigger Counter", 2, [], none⟩]
      connections := [
        ⟨⟨graphNodeId, .named "Count"⟩, ⟨2, .named "Trigger"⟩, .graphEventToNode⟩,
        ⟨⟨2, .named "Count"⟩, ⟨1, .named "Index"⟩, .nodeValueToNode⟩] }⟩]
  connections := [
    ⟨⟨graphNodeId, .named "Count"⟩, ⟨2, .named "Trigger"⟩, .graphEventToNode⟩,
    ⟨⟨graphNodeId, .named "Count"⟩, ⟨3, .named "Count"⟩, .graphEventToNode⟩,
    ⟨⟨2, .named "Count"⟩, ⟨1, .named "Index"⟩, .nodeValueToNode⟩,
    ⟨⟨1, .named "Element"⟩, ⟨graphNodeId, .named "Element"⟩, .nodeValueToGraph⟩]

/-- After a count and a tick 8 is shown; initialized, once or twice, 4. -/
theorem countedPick_init_idempotent :
    ∃ graph : Instance StandardNode Config.default,
      Reachable StandardNode.registry Config.default countedPick graph ∧
      graph.readOutput? (.named "Element") = some (.int32 8) ∧
      (graph.init default).1.readOutput? (.named "Element") = some (.int32 4) ∧
      ((graph.init ⟨.zero, some ⟨2, fun _ => none⟩⟩).1.init default).1 = (graph.init default).1 := by
  have shows : ((build StandardNode.registry Config.default
      Config.default.maxSubroutineDepth.toNat countedPick).outcome.toOption.any fun built =>
        let graph := built.afterCalls [.post (.named "Count"), .process .zero]
        graph.readOutput? (.named "Element") == some (.int32 8) &&
          (graph.init default).1.readOutput? (.named "Element") == some (.int32 4)) = true := by
    decide +kernel
  obtain ⟨built, compiled, shows⟩ := exists_of_any shows
  simp only [Bool.and_eq_true, beq_iff_eq] at shows
  have fresh : Reachable StandardNode.registry Config.default countedPick built :=
    ⟨built, [], compiled, rfl⟩
  have reachable := fresh.afterCalls [.post (.named "Count"), .process .zero]
  exact ⟨_, reachable, shows.1, shows.2,
    (reachable.init_idempotent ⟨.zero, some ⟨2, fun _ => none⟩⟩ default).1⟩

end Compile

end NodeGraph
