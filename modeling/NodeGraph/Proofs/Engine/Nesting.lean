import NodeGraph.Proofs.Engine.Calls
import NodeGraph.Proofs.Run.Boundary
import NodeGraph.Proofs.Run.Crossing

namespace NodeGraph

/-! Graphs with buffers inside of graphs with buffers. Main statement: nodes that hold their
graphs with buffers do what nodes do that hold them without, at any depth, as long as the
buffers hold nothing between calls. -/

/-! ## Kinds of nodes -/

/-- Nodes that have nothing to look up are what they look like. -/
theorem Worker.refines_ofProcessor [Processor κ] :
    @Worker.Refines κ κ Worker.ofProcessor _ id fun _ => True :=
  letI : Worker κ := Worker.ofProcessor
  { work := fun _ _ _ _ => ⟨_, rfl, rfl, trivial⟩
    reset := fun _ _ => ⟨rfl, trivial⟩ }

section
variable [Processor ν] [Processor ρ]

/-- A node that is one of two types does what nodes of its own type do. -/
theorem Happening.program_inl_run (happening : Happening) (node : ν) (consumed : Binary32)
    (panel : Panel) :
    (happening.program (⟨.inl node, consumed⟩ : Cell (ν ⊕ ρ))).run panel =
      (((happening.program ⟨node, consumed⟩).run panel).1.map Sum.inl,
        ((happening.program ⟨node, consumed⟩).run panel).2) := by
  cases happening <;> simp [program, Processor.init, Processor.process, Processor.onEvent, Cell.map]

theorem Happening.program_inr_run (happening : Happening) (node : ρ) (consumed : Binary32)
    (panel : Panel) :
    (happening.program (⟨.inr node, consumed⟩ : Cell (ν ⊕ ρ))).run panel =
      (((happening.program ⟨node, consumed⟩).run panel).1.map Sum.inr,
        ((happening.program ⟨node, consumed⟩).run panel).2) := by
  cases happening <;> simp [program, Processor.init, Processor.process, Processor.onEvent, Cell.map]

/-- Of nodes of two types, each is what it looks like. -/
theorem Worker.Refines.sum [Worker μ] [Worker τ] {look : μ → ν} {other : τ → ρ} {safe : μ → Prop}
    {otherSafe : τ → Prop} (left : Worker.Refines look safe)
    (right : Worker.Refines other otherSafe) :
    Worker.Refines (Sum.map look other) (Sum.elim safe otherSafe) where
  work happening cell panel kept := by
    rcases cell with ⟨node | node, consumed⟩
    · rcases left.work happening ⟨node, consumed⟩ panel kept with ⟨after, worked, looks, safe⟩
      have ran := happening.program_inl_run (ρ := ρ) (look node) consumed panel
      refine ⟨after.map Sum.inl, ?_, ?_, safe⟩
      · exact (congrArg (· >>= _) worked).trans
          (congrArg (fun out => Except.ok (after.map Sum.inl, out)) (congrArg Prod.snd ran).symm)
      · exact (congrArg (Cell.map Sum.inl) looks).trans (congrArg Prod.fst ran).symm
    · rcases right.work happening ⟨node, consumed⟩ panel kept with ⟨after, worked, looks, safe⟩
      have ran := happening.program_inr_run (ν := ν) (other node) consumed panel
      refine ⟨after.map Sum.inr, ?_, ?_, safe⟩
      · exact (congrArg (· >>= _) worked).trans
          (congrArg (fun out => Except.ok (after.map Sum.inr, out)) (congrArg Prod.snd ran).symm)
      · exact (congrArg (Cell.map Sum.inr) looks).trans (congrArg Prod.fst ran).symm
  reset node kept := by
    cases node with
    | inl node =>
        rcases left.reset node kept with ⟨looks, safe⟩
        exact ⟨congrArg Sum.inl looks, safe⟩
    | inr node =>
        rcases right.reset node kept with ⟨looks, safe⟩
        exact ⟨congrArg Sum.inr looks, safe⟩

end

/-! ## Across the boundary -/

namespace Subengine

/-- Events that are fired one by one as they are handed over are those that a subroutine
fires. -/
theorem foldl_fire (layout : Layout) (events : List Identifier) (panel : Panel) :
    events.foldl (fire layout) panel = ((Subroutine.fireAll layout events).run panel).2 := by
  induction events generalizing panel with
  | nil => rfl
  | cons event events induction =>
      rw [List.foldl_cons, induction, Subroutine.fireAll, fire]
      cases layout.outputEventIndex? event <;> rfl

variable [Worker μ] [Processor ν] {look : μ → ν} {safe : μ → Prop} {engine : Engine μ}
  {graph : Graph ν}

omit [Worker μ] [Processor ν] in
theorem record_eq (engine : Engine μ) (panel : Panel) :
    record engine panel = ((Program.reportAll engine.journal.toList).run panel).2 := by
  rw [Subroutine.reportAll_run]
  rfl

omit [Worker μ] [Processor ν] in
theorem forward_eq (rests : engine.Rests look safe graph) (before : Subengine μ) (panel : Panel) :
    ∃ node out, forward before.layout engine panel = (node, out) ∧
      ((before.bare look).forward graph).run panel = (node.bare look, out) ∧
      node.engine.Idle safe := by
  rcases rests.handleOutgoing (fire before.layout) panel with ⟨fired, resting, -⟩
  refine ⟨_, _, rfl, Prod.ext ?_ ?_, resting.toIdle⟩
  · have drained := resting.graph_eq
    rw [Graph.handleOutgoing_eq] at drained
    rw [Subroutine.forward_result]
    exact congrArg (Subroutine.mk · before.layout) drained.symm
  · rw [Graph.handleOutgoing_eq, foldl_fire] at fired
    refine Eq.trans ?_ fired.symm
    simp [Subroutine.forward, bare]

omit [Worker μ] in
theorem copyIn_eq (rests : engine.Rests look safe graph) (panel : Panel) (plug : Nat)
    (plugs : List Endpoint) :
    ∃ after, copyIn panel plug plugs engine = .ok after ∧
      after.Rests look safe (graph.afterCalls (Subroutine.settings panel plug plugs)) := by
  induction plugs generalizing plug engine graph with
  | nil => exact ⟨engine, rfl, rests⟩
  | cons endpoint plugs induction =>
      rcases rests.setInput? endpoint.id (panel.input plug) with ⟨set, went, follow⟩
      have resting : (set.getD engine).Rests look safe
          ((graph.setInput? endpoint.id (panel.input plug)).getD graph) := by
        cases found : graph.setInput? endpoint.id (panel.input plug) with
        | none =>
            rw [found] at follow
            cases follow
            exact rests
        | some after =>
            rw [found] at follow
            cases follow with
            | some follows => exact follows.1
      rw [Subroutine.settings, Graph.afterCalls_cons, Graph.perform_setInput, copyIn, went, ok_bind]
      exact induction resting (plug + 1)

omit [Worker μ] [Processor ν] in
theorem copyOut_eq (rests : engine.Rests look safe graph) (plug : Nat) (plugs : List Endpoint)
    (panel : Panel) :
    copyOut engine plug plugs panel =
      .ok ((Subroutine.copyOut plug plugs graph).run panel).2 := by
  induction plugs generalizing plug panel with
  | nil => rfl
  | cons endpoint plugs induction =>
      rw [copyOut, rests.readOutput?, ok_bind, Subroutine.copyOut_cons_run]
      exact induction _ _

/-! ## What happens to a node -/

theorem init_eq (inside : Worker.Refines look safe) {before : Subengine μ}
    (idle : before.engine.Idle safe) (context : Context) (consumed : Binary32) (panel : Panel) :
    ∃ node out, work (.init context) ⟨before, consumed⟩ panel = .ok (⟨node, consumed⟩, out) ∧
      ((before.bare look).init context).run panel = (node.bare look, out) ∧
      node.engine.Idle safe := by
  rcases (idle.rests look).init inside context with ⟨after, went, resting, journal⟩
  rcases forward_eq resting before (record after panel) with ⟨node, out, passed, ran, kept⟩
  refine ⟨node, out, ?_, ?_, kept⟩
  · simp only [work, went, ok_bind, passed]
    rfl
  · rw [record_eq, journal] at ran
    rw [Subroutine.init, Program.run_bind]
    exact ran

theorem process_eq (inside : Worker.Refines look safe) {before : Subengine μ}
    (idle : before.engine.Idle safe) (timeStep : Binary32) (consumed : Binary32) (panel : Panel) :
    ∃ node used out, work (.process timeStep) ⟨before, consumed⟩ panel =
        .ok (⟨node, used⟩, out) ∧
      ((before.bare look).process timeStep).run panel = ((node.bare look, used), out) ∧
      node.engine.Idle safe := by
  rcases copyIn_eq (idle.rests look) panel 0 before.layout.inputs with ⟨entered, copied, enters⟩
  have enters : entered.Rests look safe ((before.bare look).entered panel) := enters
  rcases enters.process inside timeStep with ⟨after, went, resting, journal⟩
  have shown := copyOut_eq resting 0 before.layout.outputs (record after panel)
  rcases forward_eq resting before ((Subroutine.copyOut 0 before.layout.outputs
    (((before.bare look).entered panel).process timeStep).1).run (record after panel)).2 with
    ⟨node, out, passed, ran, kept⟩
  refine ⟨node, (((before.bare look).entered panel).process timeStep).2.1, out, ?_, ?_, kept⟩
  · simp only [work, copied, ok_bind, went, shown, passed]
    rfl
  · rw [record_eq, journal] at ran
    simp only [Subroutine.process, Program.run_bind, Subroutine.copyIn_run]
    exact congrArg (fun ran : Subroutine ν × Panel => ((ran.1, _), ran.2)) ran

theorem onEvent_eq (inside : Worker.Refines look safe) {before : Subengine μ}
    (idle : before.engine.Idle safe) (input : Nat) (event : Identifier) (consumed : Binary32)
    (panel : Panel) :
    ∃ node out, work (.onEvent input event) ⟨before, consumed⟩ panel =
        .ok (⟨node, consumed⟩, out) ∧
      ((before.bare look).onEvent input).run panel = (node.bare look, out) ∧
      node.engine.Idle safe := by
  have plugs : (before.bare look).layout = before.layout := rfl
  unfold Subroutine.onEvent
  rw [plugs, work]
  cases before.layout.inputEvents[input]? with
  | none => exact ⟨before, panel, rfl, rfl, idle⟩
  | some id =>
      rcases (idle.rests look).post? inside id with ⟨posted, went, follow⟩
      replace follow : Option.Rel _ posted ((before.bare look).graph.post? id) := follow
      simp only [went, ok_bind]
      cases found : (before.bare look).graph.post? id with
      | none =>
          rw [found] at follow
          cases follow
          rcases forward_eq (idle.rests look) before panel with ⟨node, out, passed, ran, kept⟩
          refine ⟨node, out, ?_, ran, kept⟩
          simp only [passed]
          rfl
      | some result =>
          rw [found] at follow
          cases follow with
          | @some after _ follows =>
              obtain ⟨resting, journal⟩ := follows
              rcases forward_eq resting before (record after panel) with
                ⟨node, out, passed, ran, kept⟩
              refine ⟨node, out, ?_, ?_, kept⟩
              · simp only [passed]
                rfl
              · rw [record_eq, journal] at ran
                rw [Program.run_bind]
                exact ran

/-- A node that holds its graph with buffers does what a subroutine does. -/
theorem refines (inside : Worker.Refines look safe) :
    Worker.Refines (bare look) fun subengine => subengine.engine.Idle safe where
  work happening cell panel idle := by
    obtain ⟨before, consumed⟩ := cell
    cases happening with
    | init context =>
        rcases init_eq inside idle context consumed panel with ⟨node, out, worked, ran, kept⟩
        have program : ((Happening.init context).program (Cell.map (bare look)
            ⟨before, consumed⟩)).run panel = (Cell.map (bare look) ⟨node, consumed⟩, out) := by
          simp only [Happening.program, Program.run_bind, Cell.map]
          exact congrArg (fun ran => ((⟨ran.1, consumed⟩ : Cell _), ran.2)) ran
        rw [program]
        exact ⟨_, worked, rfl, kept⟩
    | process timeStep =>
        rcases process_eq inside idle timeStep consumed panel with
          ⟨node, used, out, worked, ran, kept⟩
        have program : ((Happening.process timeStep).program (Cell.map (bare look)
            ⟨before, consumed⟩)).run panel = (Cell.map (bare look) ⟨node, used⟩, out) := by
          simp only [Happening.program, Program.run_bind, Cell.map]
          exact congrArg (fun ran => ((⟨ran.1.1, ran.1.2⟩ : Cell _), ran.2)) ran
        rw [program]
        exact ⟨_, worked, rfl, kept⟩
    | onEvent input event =>
        rcases onEvent_eq inside idle input event consumed panel with
          ⟨node, out, worked, ran, kept⟩
        have program : ((Happening.onEvent input event).program (Cell.map (bare look)
            ⟨before, consumed⟩)).run panel = (Cell.map (bare look) ⟨node, consumed⟩, out) := by
          simp only [Happening.program, Program.run_bind, Cell.map]
          exact congrArg (fun ran => ((⟨ran.1, consumed⟩ : Cell _), ran.2)) ran
        rw [program]
        exact ⟨_, worked, rfl, kept⟩
  reset subengine idle := by
    rcases (Engine.Idle.rests idle look).reset inside with ⟨resting, -⟩
    exact ⟨congrArg (Subroutine.mk · subengine.layout) resting.graph_eq, resting.toIdle⟩

end Subengine

/-! ## Any depth -/

/-- Nothing is left over in the buffers inside of a node, at any depth, and everything that is
looked up there exists. -/
def Engines.Quiet : {room : Nat} → Engines κ room → Prop
  | 0 => fun _ => True
  | _ + 1 => Sum.elim (fun _ => True) fun inside => inside.engine.Idle Engines.Quiet

theorem Engines.refines [Processor κ] (room : Nat) :
    Worker.Refines (Engines.bare : Engines κ room → Nested κ room) Engines.Quiet := by
  let _ : Worker κ := Worker.ofProcessor
  have plain := @Worker.refines_ofProcessor κ _
  induction room with
  | zero => exact plain
  | succ room induction => exact plain.sum (Subengine.refines induction)

/-! ### Parts -/

/-- What is said of a graph with its buffers is said of all such graphs inside of it. -/
theorem Engine.Idle.part {outer inner : Nat} {engine : Engine (Engines κ outer)}
    {path : List Nat} {part : Engine (Engines κ inner)} (idle : engine.Idle Engines.Quiet)
    (contains : engine.Contains path part) : part.Idle Engines.Quiet := by
  induction contains with
  | itself engine => exact idle
  | inside found _ induction => exact induction (idle.ready.nodes _ _ found)

/-- What is inside of a graph with its buffers is inside of the graph without them. -/
theorem Engine.Contains.bare {outer inner : Nat} {engine : Engine (Engines κ outer)}
    {path : List Nat} {part : Engine (Engines κ inner)} (contains : engine.Contains path part) :
    engine.bare.Contains path part.bare := by
  induction contains with
  | itself engine => exact .itself _
  | @inside _ _ engine index subengine consumed _ _ found _ induction =>
      have held : engine.bare.state.subroutine? index = some (subengine.bare Engines.bare) := by
        rw [State.subroutine?_eq_some_iff]
        refine ⟨consumed, ?_⟩
        rw [Engine.bare, Graph.map, State.map, Array.getElem?_map, found]
        rfl
      exact .inside held induction

/-- And every graph inside of the graph without buffers has its buffers. -/
theorem Engine.exists_contains {outer inner : Nat} {engine : Engine (Engines κ outer)}
    {path : List Nat} {part : Graph (Nested κ inner)} (contains : engine.bare.Contains path part) :
    ∃ buffered : Engine (Engines κ inner), engine.Contains path buffered ∧
      buffered.bare = part := by
  generalize same : engine.bare = graph at contains
  induction contains with
  | itself graph => exact ⟨engine, .itself engine, same⟩
  | inside found _ induction =>
      rcases State.subroutine?_eq_some_iff.mp found with ⟨consumed, present⟩
      rw [← same, Engine.bare, Graph.map, State.map, Array.getElem?_map,
        Option.map_eq_some_iff] at present
      rcases present with ⟨⟨node | inside, used⟩, held, looks⟩
      · cases looks
      · cases looks
        rcases induction rfl with ⟨buffered, below, bare⟩
        exact ⟨buffered, .inside held below, bare⟩

/-! ### Leaving out buffers and putting them in -/

theorem Graph.map_map (look : ν → ρ) (other : μ → ν) (graph : Graph μ) :
    (graph.map other).map look = graph.map (look ∘ other) := by
  simp only [Graph.map, State.map, Array.map_map]
  rfl

theorem Graph.map_self {look : ν → ν} (same : ∀ node, look node = node) (graph : Graph ν) :
    graph.map look = graph := by
  obtain rfl : look = id := funext same
  have cells : (Cell.map id : Cell ν → Cell ν) = id := rfl
  simp [Graph.map, State.map, cells]

theorem Nested.bare_buffered : {room : Nat} → (node : Nested κ room) →
    node.buffered.bare = node
  | 0, _ => rfl
  | _ + 1, .inl _ => rfl
  | _ + 1, .inr inside => by
      refine congrArg Sum.inr (congrArg (Subroutine.mk · inside.layout) ?_)
      exact (Graph.map_map ..).trans (Graph.map_self Nested.bare_buffered inside.graph)

theorem Graph.bare_buffered (graph : Graph (Nested κ room)) : graph.buffered.bare = graph :=
  (Graph.map_map ..).trans (Graph.map_self Nested.bare_buffered graph)

end NodeGraph
