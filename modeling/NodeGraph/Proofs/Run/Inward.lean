import NodeGraph.Proofs.Run.Coherence
import NodeGraph.Proofs.Run.Parts

namespace NodeGraph

/-! How calls reach the graphs inside. A node that is a subroutine calls the graph inside of it
whenever something happens to the node, and in no other way; so the calls to a graph that lies
deeper are those that the nodes on the way to it make, one after the other. Main statement:
every graph inside of a compiled graph is what has been compiled at its place, called in just
this way. -/

/-! ## Calls of a node -/

/-- What a node with those plugs calls the graph inside for if something happens to it. -/
def Layout.callsInward (layout : Layout) (panel : Panel) : Happening → List Call
  | .init context => [.init context, .drain]
  | .process timeStep =>
      Subroutine.settings panel 0 layout.inputs ++ [.process timeStep, .drain]
  | .onEvent input _ =>
      match layout.inputEvents[input]? with
      | none => []
      | some id => [.post id, .drain]

/-- Whatever happens to the node, the graph inside is called for that, and nothing else is
done to it. -/
theorem Subroutine.program_node [Processor κ] [Processor ν] (happening : Happening)
    (subroutine : Subroutine ν) (consumed : Binary32) (panel : Panel) :
    ((happening.program (⟨.inr subroutine, consumed⟩ : Cell (κ ⊕ Subroutine ν))).run
      panel).1.node =
      .inr { subroutine with
        graph := subroutine.graph.afterCalls (subroutine.layout.callsInward panel happening) } := by
  cases happening with
  | init context =>
      simpa [Happening.program, Processor.init, Layout.callsInward] using
        subroutine.init_result context panel
  | process timeStep =>
      have ticked := subroutine.process_result timeStep panel
      rw [Subroutine.entered, ← Graph.afterCalls_append] at ticked
      simpa [Happening.program, Processor.process, Layout.callsInward] using ticked
  | onEvent input event =>
      have posted := subroutine.onEvent_result input panel
      unfold Layout.callsInward
      cases plug : subroutine.layout.inputEvents[input]? with
      | none => simpa [Happening.program, Processor.onEvent, plug] using posted
      | some id => simpa [Happening.program, Processor.onEvent, plug] using posted

/-! ## Calls in a turn -/

section
variable [Processor κ] {room : Nat}

/-- A state passes to another one in a turn, and meanwhile the node at a position, which has
those plugs, makes those calls into the graph inside of it. -/
inductive Circuit.PassesInward (circuit : Circuit) (index : Nat) (layout : Layout)
    (start : State (Nested κ room)) : List Call → State (Nested κ room) → Prop where
  | starts : PassesInward circuit index layout start [] start
  | runs {calls : List Call} {state : State (Nested κ room)} {placement : Placement}
      (before : PassesInward circuit index layout start calls state)
      (placed : circuit.placements[index]? = some placement) (happening : Happening) :
      PassesInward circuit index layout start
        (calls ++ layout.callsInward (placement.window state.values) happening)
        (state.runCell circuit index happening.program).1
  | runsOther {calls : List Call} {state : State (Nested κ room)} {other : Nat}
      (before : PassesInward circuit index layout start calls state) (apart : other ≠ index)
      (happening : Happening) :
      PassesInward circuit index layout start calls
        (state.runCell circuit other happening.program).1
  | queues {calls : List Call} {state : State (Nested κ room)} {id : Identifier}
      {outgoing : OutgoingQueue} (before : PassesInward circuit index layout start calls state)
      (leads : circuit.LeadsTo (.graphOutput id))
      (queued : state.outgoing.push? id = some outgoing) :
      PassesInward circuit index layout start calls { state with outgoing }

/-- Any turn can be followed with an eye on one node. -/
theorem Circuit.turns_passesInward {circuit : Circuit} {index : Nat} {placement : Placement}
    (placed : circuit.placements[index]? = some placement) (layout : Layout)
    (start : State (Nested κ room)) :
    circuit.Turns fun state => ∃ calls, circuit.PassesInward index layout start calls state where
  runs other happening state passed := by
    rcases passed with ⟨calls, before⟩
    by_cases same : other = index
    · subst same
      exact ⟨_, before.runs placed happening⟩
    · exact ⟨calls, before.runsOther same happening⟩
  queues state id outgoing leads queued passed := by
    rcases passed with ⟨calls, before⟩
    exact ⟨calls, before.queues leads queued⟩

end

/-- The graph inside has been called as the node has called it, and not otherwise. -/
theorem Circuit.PassesInward.subroutine? [Processor κ] {room : Nat} {circuit : Circuit}
    {index : Nat} {start after : State (Nested κ (room + 1))} {calls : List Call}
    {subroutine : Subroutine (Nested κ room)}
    (found : start.subroutine? index = some subroutine)
    (passes : circuit.PassesInward index subroutine.layout start calls after) :
    after.subroutine? index =
      some { subroutine with graph := subroutine.graph.afterCalls calls } := by
  induction passes with
  | starts => exact found
  | @runs calls state placement _ placed happening induction =>
      rcases State.subroutine?_eq_some_iff.mp induction with ⟨consumed, present⟩
      have bound := (Array.getElem?_eq_some_iff.mp present).1
      have ran := Subroutine.program_node (κ := κ) happening
        { subroutine with graph := subroutine.graph.afterCalls calls } consumed
        (placement.window state.values)
      rw [State.subroutine?, State.runCell_window placed present]
      simp only [Array.getElem?_setIfInBounds_self_of_lt bound, Option.bind_some,
        Graph.afterCalls_append]
      exact congrArg Nested.subroutine? ran
  | runsOther _ apart happening induction =>
      rw [State.subroutine?, State.runCell_other _ apart.symm]
      exact induction
  | queues _ _ _ induction => exact induction

/-! ## Calls in the long run -/

/-- In the course of such a call nodes run. -/
def Call.isTurn : Call → Bool
  | .process _ | .post _ | .init _ => true
  | .setInput .. | .setLocal .. | .drain | .reset => false

def Call.rewinds : Call → Bool
  | .reset => true
  | _ => false

namespace Graph

/-- Calls to a graph, and those that the node at a position, which has those plugs, makes in
the course of them into the graph inside of it. Rewinding a node rewinds the graph inside. -/
inductive CallsInward [Processor κ] {room : Nat} (index : Nat) (layout : Layout) :
    Graph (Nested κ room) → (calls inward : List Call) → Prop where
  | ends (graph : Graph (Nested κ room)) : CallsInward index layout graph [] []
  | turns {graph : Graph (Nested κ room)} {call : Call} {calls inward later : List Call}
      (turn : call.isTurn = true)
      (passes : graph.circuit.PassesInward index layout graph.state inward
        (graph.perform call).1.state)
      (rest : CallsInward index layout (graph.perform call).1 calls later) :
      CallsInward index layout graph (call :: calls) (inward ++ later)
  | rewinds {graph : Graph (Nested κ room)} {calls later : List Call}
      (rest : CallsInward index layout graph.reset calls later) :
      CallsInward index layout graph (.reset :: calls) (.reset :: later)
  | stays {graph : Graph (Nested κ room)} {call : Call} {calls later : List Call}
      (turn : call.isTurn = false) (proceeds : call.rewinds = false)
      (rest : CallsInward index layout (graph.perform call).1 calls later) :
      CallsInward index layout graph (call :: calls) later

variable [Processor κ] {room : Nat}

/-- In a call in which nodes run, nothing else happens than that they do. -/
theorem perform_passes [Processor ν] (graph : Graph ν) {call : Call} (turn : call.isTurn = true) :
    graph.circuit.Passes graph.state (graph.perform call).1.state := by
  cases call with
  | process timeStep => exact graph.sweep_passes (.process timeStep)
  | init context => exact graph.sweep_passes (.init context)
  | post id =>
      simp only [perform, post?]
      cases leads : graph.circuit.entrance id with
      | nil => exact .refl
      | cons target targets =>
          have routes := graph.circuit.routes_entrance id
          rw [leads] at routes
          exact Turn.settle_keeps (graph.circuit.turns_passes graph.state) _ _ _ routes .refl
  | setInput | setLocal | drain | reset => cases turn

/-- In a call in which no nodes run, and which does not rewind them, they stay as they are. -/
theorem perform_cells [Processor ν] (graph : Graph ν) {call : Call} (turn : call.isTurn = false)
    (proceeds : call.rewinds = false) : (graph.perform call).1.state.cells = graph.state.cells := by
  cases call with
  | setInput id value =>
      rw [perform_setInput, setInput?]
      cases graph.circuit.inputSlot? id <;> rfl
  | setLocal id value =>
      simp only [perform, setLocal?]
      cases graph.circuit.localSlot? id <;> rfl
  | drain => rfl
  | reset => cases proceeds
  | process | post | init => cases turn

/-- The graph inside has been called as its node has called it. -/
theorem CallsInward.subroutine? {graph : Graph (Nested κ (room + 1))} {index : Nat}
    {calls inward : List Call} {subroutine : Subroutine (Nested κ room)}
    (found : graph.state.subroutine? index = some subroutine)
    (called : graph.CallsInward index subroutine.layout calls inward) :
    (graph.afterCalls calls).state.subroutine? index =
      some { subroutine with graph := subroutine.graph.afterCalls inward } := by
  obtain ⟨inside, layout⟩ := subroutine
  replace called : graph.CallsInward index layout calls inward := called
  induction called generalizing inside with
  | ends graph => exact found
  | turns turn passes rest induction =>
      rw [afterCalls_cons, afterCalls_append]
      exact induction _ (passes.subroutine? found)
  | rewinds rest induction =>
      rcases State.subroutine?_eq_some_iff.mp found with ⟨consumed, present⟩
      refine induction inside.reset (State.subroutine?_eq_some_iff.mpr ⟨.zero, ?_⟩)
      simp only [reset, Array.getElem?_map, present, Option.map_some]
      rfl
  | stays turn proceeds rest induction =>
      refine induction inside ?_
      rw [State.subroutine?, perform_cells _ turn proceeds]
      exact found

theorem exists_callsInward (graph : Graph (Nested κ room)) {index : Nat} {placement : Placement}
    (placed : graph.circuit.placements[index]? = some placement) (layout : Layout)
    (calls : List Call) : ∃ inward, graph.CallsInward index layout calls inward := by
  induction calls generalizing graph with
  | nil => exact ⟨[], .ends graph⟩
  | cons call calls induction =>
      rcases induction (graph.perform call).1 (by rwa [perform_circuit]) with ⟨later, rest⟩
      cases turn : call.isTurn with
      | true =>
          have turns := Circuit.turns_passesInward placed layout graph.state
          rcases turns.passes (graph.perform_passes turn) ⟨[], .starts⟩ with ⟨inward, passes⟩
          exact ⟨_, .turns turn passes rest⟩
      | false =>
          cases rewound : call.rewinds with
          | true =>
              cases call <;> cases rewound
              exact ⟨_, .rewinds rest⟩
          | false => exact ⟨later, .stays turn rewound rest⟩

/-! ## Calls at any depth -/

/-- Calls to a graph, and those that come of them to a graph inside of it. `part` is the graph
at the end of the path before any of the calls. -/
inductive CallsInside [Processor κ] : {outer inner : Nat} → Graph (Nested κ outer) →
    (calls : List Call) → (path : List Nat) → (part : Graph (Nested κ inner)) →
    (inside : List Call) → Prop where
  | itself {room : Nat} (graph : Graph (Nested κ room)) (calls : List Call) :
      CallsInside graph calls [] graph calls
  | inside {outer inner : Nat} {graph : Graph (Nested κ (outer + 1))} {calls : List Call}
      {index : Nat} {subroutine : Subroutine (Nested κ outer)} {inward : List Call}
      {path : List Nat} {part : Graph (Nested κ inner)} {inside : List Call}
      (found : graph.state.subroutine? index = some subroutine)
      (called : graph.CallsInward index subroutine.layout calls inward)
      (below : CallsInside subroutine.graph inward path part inside) :
      CallsInside graph calls (index :: path) part inside

end Graph

namespace Compile

variable [Processor κ] {registry : Registry κ} {config : Config} {prototype : Prototype}
  {room : Nat}

/-- A subroutine in a graph to which nothing has happened holds the graph that has been
compiled for it. -/
theorem compiled_inside {built : Graph (Nested κ (room + 1))}
    (compiled : (build registry config (room + 1) prototype).outcome = .ok built) {index : Nat}
    {placed : PrototypeNode} {nested : Prototype}
    (listed : prototype.nodes[index]? = some placed) (composite : placed.subroutine = some nested) :
    ∃ subroutine, built.state.subroutine? index = some subroutine ∧
      (build registry config room nested).outcome = .ok subroutine.graph := by
  rcases build_eq_ok_iff.mp compiled with ⟨nodes, wires, order, created, -, rfl⟩
  have bound : index < nodes.length := by
    rw [← created.length_eq]
    exact (List.getElem?_eq_some_iff.mp listed).1
  have made := List.getElem?_eq_getElem bound
  rcases createNested_eq_ok_iff.mp (forall₂_getElem? created listed made) with
    ⟨plain, -⟩ | ⟨inner, graph, compositeHere, rebuilt, equal⟩
  · rw [plain] at composite
    cases composite
  · rw [composite, Option.some.injEq] at compositeHere
    subst compositeHere
    rw [equal] at made
    exact ⟨_, State.subroutine?_eq_some_iff.mpr ⟨_, Graph.pristine_cell.mpr ⟨_, made, rfl⟩⟩, rebuilt⟩

/-- Every graph inside of a compiled graph that has been called is what has been compiled at
the same place, called as the nodes on the way to it have called. -/
theorem exists_callsInside {inner : Nat} {built : Graph (Nested κ room)}
    (compiled : (build registry config room prototype).outcome = .ok built) {calls : List Call}
    {part : Graph (Nested κ inner)} {path : List Nat}
    (contains : (built.afterCalls calls).Contains path part) :
    ∃ nested original inside, prototype.inside? path = some nested ∧
      (build registry config inner nested).outcome = .ok original ∧
      built.CallsInside calls path original inside ∧ part = original.afterCalls inside := by
  generalize after : built.afterCalls calls = graph at contains
  induction contains generalizing prototype calls with
  | itself graph => exact ⟨prototype, built, calls, rfl, compiled, .itself built calls, after.symm⟩
  | @inside _ _ graph index subroutine path part found below induction =>
      have reachable : Reachable registry config prototype graph := ⟨built, calls, compiled, after.symm⟩
      rcases State.subroutine?_eq_some_iff.mp found with ⟨consumed, present⟩
      rcases reachable.suits present with ⟨placed, listed, nested, composite, -, -⟩
      rcases compiled_inside compiled listed composite with ⟨original, fresh, rebuilt⟩
      have bound : index < built.circuit.placements.size := by
        have started : Reachable registry config prototype built := ⟨built, [], compiled, rfl⟩
        rw [started.placements_size]
        exact (List.getElem?_eq_some_iff.mp listed).1
      rcases built.exists_callsInward (Array.getElem?_eq_getElem bound) original.layout calls with
        ⟨inward, called⟩
      have same := called.subroutine? fresh
      rw [after, found, Option.some.injEq] at same
      subst same
      rcases induction rebuilt rfl with ⟨deeper, deepest, inside, place, remade, below, equal⟩
      exact ⟨deeper, deepest, inside, by simpa [Prototype.inside?, listed, composite] using place,
        remade, .inside fresh called below, equal⟩

end Compile

end NodeGraph
