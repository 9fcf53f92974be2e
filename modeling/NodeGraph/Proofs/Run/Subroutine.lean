import NodeGraph.Proofs.Run.Nodes
import NodeGraph.Subroutine

namespace NodeGraph

/-! What a subroutine does with the graph inside it. Everything that happens to
the node comes to a few calls into its graph, the calls that a host could make,
so whatever holds of a graph after any calls holds of the graph inside a node. -/

namespace Graph

variable [Processor ν]

theorem perform_setInput (graph : Graph ν) (id : Identifier) (value : Value) :
    (graph.perform (.setInput id value)).1 = (graph.setInput? id value).getD graph := by
  simp only [perform]
  cases graph.setInput? id value <;> rfl

theorem perform_post_graph (graph : Graph ν) (id : Identifier) :
    (graph.perform (.post id)).1 = ((graph.post? id).getD (graph, #[])).1 := by
  simp only [perform]
  cases graph.post? id <;> rfl

@[simp] theorem afterCalls_nil (graph : Graph ν) : graph.afterCalls [] = graph := rfl

@[simp] theorem afterCalls_cons (graph : Graph ν) (call : Call) (calls : List Call) :
    graph.afterCalls (call :: calls) = (graph.perform call).1.afterCalls calls := rfl

theorem afterCalls_append (graph : Graph ν) (first second : List Call) :
    graph.afterCalls (first ++ second) = (graph.afterCalls first).afterCalls second := by
  simp [afterCalls]

end Graph

namespace Subroutine

/-! ## What the pieces of a program leave behind -/

theorem reportAll_values (entries : List Entry) (panel : Panel) :
    ((Program.reportAll entries).run panel).2.values = panel.values := by
  induction entries generalizing panel with
  | nil => rfl
  | cons entry entries induction => exact induction _

theorem fireAll_values (layout : Layout) (events : List Identifier) (panel : Panel) :
    ((fireAll layout events).run panel).2.values = panel.values := by
  induction events generalizing panel with
  | nil => rfl
  | cons event events induction =>
      unfold fireAll
      cases layout.outputEventIndex? event with
      | none => exact induction panel
      | some output => exact induction (panel.emit ⟨output, event⟩)

@[simp] theorem forward_result (subroutine : Subroutine ν) (graph : Graph ν) (panel : Panel) :
    ((subroutine.forward graph).run panel).1 = { subroutine with graph := graph.drain.2 } := by
  simp [forward]

@[simp] theorem forward_values (subroutine : Subroutine ν) (graph : Graph ν) (panel : Panel) :
    ((subroutine.forward graph).run panel).2.values = panel.values := by
  simp [forward, fireAll_values]

variable [Processor ν]

/-! ## Calls into the graph inside -/

/-- The calls that set inputs of a graph to what plugs read, from position `plug`
on. -/
def settings (panel : Panel) (plug : Nat) : List Endpoint → List Call
  | [] => []
  | endpoint :: plugs =>
      .setInput endpoint.id (panel.input plug) :: settings panel (plug + 1) plugs

/-- Copying values in sets the inputs of the graph, and does nothing else. -/
theorem copyIn_run (plug : Nat) (plugs : List Endpoint) (graph : Graph ν) (panel : Panel) :
    (copyIn plug plugs graph).run panel =
      (graph.afterCalls (settings panel plug plugs), panel) := by
  induction plugs generalizing plug graph with
  | nil => rfl
  | cons endpoint plugs induction =>
      rw [settings, Graph.afterCalls_cons, Graph.perform_setInput]
      exact induction (plug + 1) _

/-- The graph inside once values have been copied in. -/
def entered (subroutine : Subroutine ν) (panel : Panel) : Graph ν :=
  subroutine.graph.afterCalls (settings panel 0 subroutine.layout.inputs)

theorem process_result (timeStep : Binary32) (subroutine : Subroutine ν) (panel : Panel) :
    ((subroutine.process timeStep).run panel).1.1 =
      { subroutine with
        graph := (subroutine.entered panel).afterCalls [.process timeStep, .drain] } := by
  simp [process, copyIn_run, entered, Graph.perform]

theorem process_consumed (timeStep : Binary32) (subroutine : Subroutine ν) (panel : Panel) :
    ((subroutine.process timeStep).run panel).1.2 =
      ((subroutine.entered panel).process timeStep).1.mostConsumed := by
  simp [process, copyIn_run, entered, Graph.process]

/-- A tick writes the plugs of the node only once the graph inside has run. -/
theorem process_values (timeStep : Binary32) (subroutine : Subroutine ν) (panel : Panel) :
    ∃ middle : Panel, middle.values = panel.values ∧ middle.inputs = panel.inputs ∧
      middle.outputs = panel.outputs ∧
      ((subroutine.process timeStep).run panel).2.values =
        ((copyOut 0 subroutine.layout.outputs
          ((subroutine.entered panel).process timeStep).1).run middle).2.values := by
  refine ⟨((Program.reportAll ((subroutine.entered panel).process timeStep).2.2.toList).run
    panel).2, reportAll_values _ _, by simp, by simp, ?_⟩
  simp [process, copyIn_run, entered]

theorem init_result (context : Context) (subroutine : Subroutine ν) (panel : Panel) :
    ((subroutine.init context).run panel).1 =
      { subroutine with graph := subroutine.graph.afterCalls [.init context, .drain] } := by
  simp [init, Graph.perform]

theorem init_values (context : Context) (subroutine : Subroutine ν) (panel : Panel) :
    ((subroutine.init context).run panel).2.values = panel.values := by
  simp [init, reportAll_values]

theorem onEvent_result (input : Nat) (subroutine : Subroutine ν) (panel : Panel) :
    ((subroutine.onEvent input).run panel).1 =
      match subroutine.layout.inputEvents[input]? with
      | none => subroutine
      | some id => { subroutine with graph := subroutine.graph.afterCalls [.post id, .drain] } := by
  unfold onEvent
  cases subroutine.layout.inputEvents[input]? with
  | none => rfl
  | some id =>
      simp only [Graph.afterCalls_cons, Graph.perform_post_graph]
      simp [Graph.perform]

theorem onEvent_values (input : Nat) (subroutine : Subroutine ν) (panel : Panel) :
    ((subroutine.onEvent input).run panel).2.values = panel.values := by
  unfold onEvent
  cases subroutine.layout.inputEvents[input]? with
  | none => rfl
  | some id => simp [reportAll_values]

/-- What every call into the graph inside a node keeps, nothing that happens to
the node destroys. -/
theorem keeps_of_perform {holds : Subroutine ν → Prop}
    (performs : ∀ subroutine call, holds subroutine →
      holds { subroutine with graph := (subroutine.graph.perform call).1 }) :
    Processor.Keeps holds := by
  have calls (subroutine : Subroutine ν) (calls : List Call) (before : holds subroutine) :
      holds { subroutine with graph := subroutine.graph.afterCalls calls } := by
    induction calls generalizing subroutine with
    | nil => exact before
    | cons call calls induction => exact induction _ (performs subroutine call before)
  constructor
  · intro context subroutine panel before
    exact (init_result context subroutine panel).symm ▸ calls subroutine _ before
  · intro timeStep subroutine panel before
    refine (process_result timeStep subroutine panel).symm ▸ ?_
    rw [entered, ← Graph.afterCalls_append]
    exact calls subroutine _ before
  · intro input event subroutine panel before
    refine (onEvent_result input subroutine panel).symm ▸ ?_
    split
    · exact before
    · exact calls subroutine _ before
  · intro subroutine before
    exact performs subroutine .reset before

end Subroutine

end NodeGraph
