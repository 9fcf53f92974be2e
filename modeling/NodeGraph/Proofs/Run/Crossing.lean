import NodeGraph.Proofs.Run.Delivery
import NodeGraph.Proofs.Run.Parts

namespace NodeGraph

/-! What a subroutine makes known of the graph inside it. Whatever happens to the
node comes to one call into its graph. The journal of that call is put on record,
and the output events that wait once it is over are fired, each on the output of
its own name. -/

namespace Subroutine

/-- What the node fires for events of its graph. An event that is no output of
the node is passed over. -/
def fired (layout : Layout) (events : List Identifier) : List Emission :=
  events.filterMap fun event =>
    (layout.outputEventIndex? event).map fun output => { output, event }

/-! ## What the pieces of a program make known -/

theorem reportAll_run (entries : List Entry) (panel : Panel) :
    (Program.reportAll entries).run panel =
      ((), { panel with journal := panel.journal ++ entries.toArray }) := by
  induction entries generalizing panel with
  | nil => simp [Program.reportAll]
  | cons entry entries induction =>
      rw [Program.reportAll, Program.run, induction]
      simp [Panel.report]

theorem fireAll_run (layout : Layout) (events : List Identifier) (panel : Panel) :
    (fireAll layout events).run panel =
      ((), { panel with emitted := panel.emitted ++ (fired layout events).toArray }) := by
  induction events generalizing panel with
  | nil => simp [fireAll, fired]
  | cons event events induction =>
      unfold fireAll
      cases found : layout.outputEventIndex? event with
      | none =>
          have passedOver : fired layout (event :: events) = fired layout events := by
            simp [fired, found]
          rw [passedOver]
          exact induction panel
      | some output =>
          have first : fired layout (event :: events) =
              { output, event } :: fired layout events := by
            simp [fired, found]
          rw [first]
          have rest := induction (panel.emit ⟨output, event⟩)
          simpa [Program.fire, Program.run, Panel.emit] using rest

/-- Copying values out makes nothing known. -/
theorem copyOut_quiet (plug : Nat) (plugs : List Endpoint) (graph : Graph ν) (panel : Panel) :
    ((copyOut plug plugs graph).run panel).2.emitted = panel.emitted ∧
      ((copyOut plug plugs graph).run panel).2.journal = panel.journal := by
  induction plugs generalizing plug panel with
  | nil => exact ⟨rfl, rfl⟩
  | cons endpoint plugs induction =>
      unfold copyOut
      cases graph.readOutput? endpoint.id with
      | none => exact induction (plug + 1) panel
      | some value =>
          have rest := induction (plug + 1) (panel.setOutput plug value)
          simpa [Program.write, Program.run] using rest

theorem forward_emitted (subroutine : Subroutine ν) (graph : Graph ν) (panel : Panel) :
    ((subroutine.forward graph).run panel).2.emitted =
      panel.emitted ++ (fired subroutine.layout graph.state.outgoing.waiting).toArray := by
  simp [forward, fireAll_run, Graph.drain]

theorem forward_journal (subroutine : Subroutine ν) (graph : Graph ν) (panel : Panel) :
    ((subroutine.forward graph).run panel).2.journal = panel.journal := by
  simp [forward, fireAll_run]

/-! ## Calls across the boundary -/

variable [Processor ν]

/-- What something that happens to the node comes to: the graph inside as it is
by then, and a call into it. An event on an input that the node does not have
comes to nothing. -/
def inward (subroutine : Subroutine ν) (panel : Panel) : Happening → Option (Graph ν × Call)
  | .init context => some (subroutine.graph, .init context)
  | .process timeStep => some (subroutine.entered panel, .process timeStep)
  | .onEvent input _ =>
      (subroutine.layout.inputEvents[input]?).map fun id => (subroutine.graph, .post id)

/-- A posted event that leads somewhere is delivered. -/
theorem getD_post? {graph : Graph ν} {id : Identifier} (leads : graph.circuit.entrance id ≠ []) :
    (graph.post? id).getD (graph, #[]) =
      ((graph.perform (.post id)).1, (graph.perform (.post id)).2.2) := by
  simp only [Graph.perform, Graph.post?]
  cases targets : graph.circuit.entrance id with
  | nil => exact absurd targets leads
  | cons target rest => rfl

/-- What a subroutine does whenever something happens to it. -/
theorem run_inward {subroutine : Subroutine ν} {panel : Panel} {happening : Happening}
    {graph : Graph ν} {call : Call} (entered : subroutine.inward panel happening = some (graph, call))
    (leads : ∀ id, call = .post id → graph.circuit.entrance id ≠ []) (consumed : Binary32) :
    let ran := (happening.program { node := subroutine, consumed }).run panel
    ran.1.node = { subroutine with graph := (graph.perform call).1.drain.2 } ∧
    ran.2.emitted = panel.emitted ++
      (fired subroutine.layout (graph.perform call).1.state.outgoing.waiting).toArray ∧
    ran.2.journal = panel.journal ++ (graph.perform call).2.2 := by
  cases happening with
  | init context =>
      simp only [inward, Option.some.injEq, Prod.mk.injEq] at entered
      rcases entered with ⟨rfl, rfl⟩
      simp [Happening.program, Processor.init, init, forward_emitted, forward_journal,
        reportAll_run, Graph.perform]
  | process timeStep =>
      simp only [inward, Option.some.injEq, Prod.mk.injEq] at entered
      rcases entered with ⟨rfl, rfl⟩
      have quiet := copyOut_quiet 0 subroutine.layout.outputs
        ((subroutine.entered panel).process timeStep).1
      unfold entered at quiet ⊢
      simp [Happening.program, Processor.process, process, copyIn_run, forward_emitted,
        forward_journal, reportAll_run, Graph.perform, quiet]
  | onEvent input event =>
      simp only [inward, Option.map_eq_some_iff, Prod.mk.injEq] at entered
      rcases entered with ⟨id, plug, rfl, rfl⟩
      simp [Happening.program, Processor.onEvent, onEvent, plug, getD_post? (leads id rfl),
        forward_emitted, forward_journal, reportAll_run]

/-- An event on an input that the node does not have leaves the node as it is and
makes nothing known. -/
theorem run_nothing {subroutine : Subroutine ν} {panel : Panel} {happening : Happening}
    (nothing : subroutine.inward panel happening = none) (consumed : Binary32) :
    let cell : Cell (Subroutine ν) := { node := subroutine, consumed }
    (happening.program cell).run panel = (cell, panel) := by
  cases happening with
  | init context => cases nothing
  | process timeStep => cases nothing
  | onEvent input event =>
      simp only [inward, Option.map_eq_none_iff] at nothing
      simp [Happening.program, Processor.onEvent, onEvent, nothing]

end Subroutine

/-- A node that is a subroutine does what the subroutine does. -/
theorem Nested.run_subroutine [Processor κ] (happening : Happening)
    (subroutine : Subroutine (Nested κ room)) (consumed : Binary32) (panel : Panel) :
    (happening.program
        ({ node := .inr subroutine, consumed } : Cell (Nested κ (room + 1)))).run panel =
      let ran := (happening.program { node := subroutine, consumed }).run panel
      ({ node := .inr ran.1.node, consumed := ran.1.consumed }, ran.2) := by
  cases happening with
  | init context =>
      have ran := Program.run_map (Sum.inr (α := κ)) (subroutine.init context) panel
      simp only [Happening.program, Program.run_bind, Program.run_pure]
      exact congrArg (fun ran => (({ node := ran.1, consumed } : Cell _), ran.2)) ran
  | process timeStep =>
      have ran := Program.run_map (Prod.map (Sum.inr (α := κ)) id) (subroutine.process timeStep)
        panel
      simp only [Happening.program, Program.run_bind, Program.run_pure]
      exact congrArg (fun ran => (({ node := ran.1.1, consumed := ran.1.2 } : Cell _), ran.2)) ran
  | onEvent input event =>
      have ran := Program.run_map (Sum.inr (α := κ)) (subroutine.onEvent input) panel
      simp only [Happening.program, Program.run_bind, Program.run_pure]
      exact congrArg (fun ran => (({ node := ran.1, consumed } : Cell _), ran.2)) ran

/-- What the surroundings learn of a subroutine when something happens to it. -/
theorem State.runCell_inward [Processor κ] {circuit : Circuit} {index : Nat}
    {placement : Placement} (located : circuit.placements[index]? = some placement)
    {state : State (Nested κ (room + 1))} {subroutine : Subroutine (Nested κ room)}
    (present : state.subroutine? index = some subroutine) {happening : Happening}
    {graph : Graph (Nested κ room)} {call : Call}
    (entered : subroutine.inward (placement.window state.values) happening = some (graph, call))
    (leads : ∀ id, call = .post id → graph.circuit.entrance id ≠ []) :
    (state.runCell circuit index happening.program).2 =
      ((Subroutine.fired subroutine.layout
        (graph.perform call).1.state.outgoing.waiting).toArray, (graph.perform call).2.2) := by
  rcases State.subroutine?_eq_some_iff.mp present with ⟨consumed, held⟩
  rcases Subroutine.run_inward entered leads consumed with ⟨-, emitted, journal⟩
  rw [runCell_fired located held, Nested.run_subroutine]
  simp only [emitted, journal]
  simp [Placement.window]

theorem State.runCell_nothing [Processor κ] {circuit : Circuit} {index : Nat}
    {placement : Placement} (located : circuit.placements[index]? = some placement)
    {state : State (Nested κ (room + 1))} {subroutine : Subroutine (Nested κ room)}
    (present : state.subroutine? index = some subroutine) {happening : Happening}
    (nothing : subroutine.inward (placement.window state.values) happening = none) :
    (state.runCell circuit index happening.program).2 = (#[], #[]) := by
  rcases State.subroutine?_eq_some_iff.mp present with ⟨consumed, held⟩
  rw [runCell_fired located held, Nested.run_subroutine, Subroutine.run_nothing nothing]
  rfl

/-! ## Compiled graphs -/

namespace Compile

variable [Processor κ] {registry : Registry κ} {config : Config} {nested : Prototype}
  {room : Nat}

/-- The input events of a subroutine lead somewhere in the graph inside it: the
plugs and the routes are read off the same connections. -/
theorem Reachable.inputEvent_leads {graph : Graph (Nested κ room)}
    (reachable : Reachable registry config nested graph) {id : Identifier}
    (listed : id ∈ (Subroutine.layoutOf nested).inputEvents) :
    graph.circuit.entrance id ≠ [] := by
  rcases List.mem_map.mp listed with ⟨input, chosen, rfl⟩
  have isEventInput := (List.mem_filter.mp chosen).2
  rcases List.any_eq_true.mp isEventInput with ⟨connection, member, starts⟩
  rw [Bool.and_eq_true, Bool.and_eq_true] at starts
  exact (reachable.opening_ne_nil_iff input.id).mpr
    ⟨connection, member, starts.1.1, eq_of_beq starts.1.2, starts.2⟩

/-- Whatever happens to a subroutine, the call that it comes to finds a reachable
graph, and an event that it posts leads somewhere. -/
theorem Reachable.inward {subroutine : Subroutine (Nested κ room)}
    (reachable : Reachable registry config nested subroutine.graph)
    (plugs : subroutine.layout = Subroutine.layoutOf nested) {panel : Panel}
    {happening : Happening} {graph : Graph (Nested κ room)} {call : Call}
    (entered : subroutine.inward panel happening = some (graph, call)) :
    Reachable registry config nested graph ∧
      ∀ id, call = .post id → graph.circuit.entrance id ≠ [] := by
  cases happening with
  | init context =>
      cases entered
      exact ⟨reachable, fun id isPost => by cases isPost⟩
  | process timeStep =>
      cases entered
      exact ⟨reachable.afterCalls _, fun id isPost => by cases isPost⟩
  | onEvent input event =>
      simp only [Subroutine.inward, Option.map_eq_some_iff, Prod.mk.injEq] at entered
      rcases entered with ⟨posted, plug, rfl, rfl⟩
      refine ⟨reachable, fun id isPost => ?_⟩
      cases isPost
      exact reachable.inputEvent_leads (plugs ▸ List.mem_of_getElem? plug)

/-- That every node suits its place is kept throughout every turn. -/
theorem turns_suit (registry : Registry κ) (config : Config) (prototype : Prototype)
    (circuit : Circuit) :
    circuit.Turns (State.Every fun index (node : Nested κ (room + 1)) =>
      ∀ placed, prototype.nodes[index]? = some placed → Suits registry config placed node) :=
  (circuit.keeps_every fun _ => .all suits_keeps).toTurns

/-- What happens inside the node in the place of a subroutine: nothing, if the node
is not there or has no such input, and otherwise what a call into its graph does. -/
theorem runCell_journal_inside {prototype : Prototype} {state : State (Nested κ (room + 1))}
    (suits : state.Every fun index node =>
      ∀ placed, prototype.nodes[index]? = some placed → Suits registry config placed node)
    {index : Nat} {placed : PrototypeNode} (listed : prototype.nodes[index]? = some placed)
    (composite : placed.subroutine = some nested) (circuit : Circuit) (happening : Happening) :
    (state.runCell circuit index happening.program).2.2 = #[] ∨
      ∃ (subroutine : Subroutine (Nested κ room)) (panel : Panel)
        (graph : Graph (Nested κ room)) (call : Call),
        subroutine.inward panel happening = some (graph, call) ∧
        Reachable registry config nested graph ∧
        (state.runCell circuit index happening.program).2.2 = (graph.perform call).2.2 := by
  rcases state.runCell_cases circuit index happening.program with
    ⟨placement, ⟨node, consumed⟩, located, held⟩ | unchanged
  · cases node with
    | inl plain =>
        have none : placed.subroutine = none := suits index _ held placed listed
        rw [composite] at none
        cases none
    | inr subroutine =>
        rcases suits index _ held placed listed with ⟨nestedHere, sameNested, plugs, inside⟩
        rw [composite, Option.some.injEq] at sameNested
        subst sameNested
        have present : state.subroutine? index = some subroutine :=
          State.subroutine?_eq_some_iff.mpr ⟨consumed, held⟩
        cases entered : subroutine.inward (placement.window state.values) happening with
        | none => exact .inl (congrArg Prod.snd (State.runCell_nothing located present entered))
        | some entry =>
            rcases entry with ⟨graph, call⟩
            rcases inside.inward plugs entered with ⟨reachable, leads⟩
            exact .inr ⟨subroutine, _, graph, call, entered, reachable,
              congrArg Prod.snd (State.runCell_inward located present entered leads)⟩
  · exact .inl (congrArg (fun ran => ran.2.2) unchanged)

end Compile

end NodeGraph
