import NodeGraph.Proofs.Compile.Spectator
import NodeGraph.Proofs.Run.Embedding

namespace NodeGraph

/-! Nodes that feed nobody cannot be observed. A circuit and the one with such a
node run side by side: whenever one of the other nodes runs, the same happens in
both, and when the node that is added runs, nothing else changes. What it fires is
for nobody, so it takes nothing from the budget of the call. -/

/-! ## Parcels -/

namespace Parcel

variable {node : Nat → Nat}

/-- The same event on its way to the same nodes, which stand elsewhere. -/
def rename (node : Nat → Nat) (parcel : Parcel) : Parcel where
  event := parcel.event
  targets := parcel.targets.map (Target.rename node)

def Delivery.rename (node : Nat → Nat) (delivery : Delivery) : Delivery where
  target := delivery.target.rename node
  event := delivery.event
  rest := delivery.rest.map (Parcel.rename node)

theorem next?_rename (parcels : List Parcel) :
    next? (parcels.map (rename node)) = (next? parcels).map (Delivery.rename node) := by
  induction parcels with
  | nil => rfl
  | cons parcel later induction =>
      rcases parcel with ⟨event, targets⟩
      cases targets with
      | nil => exact induction
      | cons target targets => rfl

end Parcel

/-! ## Turns -/

/-- The states match, the same events wait for the host, and the budgets are the
same. -/
structure Turn.Matches (node : Nat → Nat) (meets : Slot → Slot → Prop) (small large : Circuit)
    (turn other : Turn ν) : Prop where
  states : turn.state.Matches node meets small large other.state
  outgoing : other.state.outgoing = turn.state.outgoing
  hops : other.hops = turn.hops

namespace Turn.Matches

variable {node : Nat → Nat} {meets : Slot → Slot → Prop} {spectator : Nat} {small large : Circuit}
  {turn other : Turn ν} (same : turn.Matches node meets small large other)
  (adds : small.AddsSpectator node meets spectator large) (flows : small.FlowsForward)
  (otherFlows : large.FlowsForward)
include same adds

section
include flows otherFlows

/-- Running one of the other nodes does the same and fires the same. -/
theorem runCell (index : Nat) (program : Cell ν → Program (Cell ν)) :
    Matches node meets small large (turn.runCell small index program).1
        (other.runCell large (node index) program).1 ∧
      (other.runCell large (node index) program).2 =
        (turn.runCell small index program).2.map (Parcel.rename node) := by
  rcases same.states.runCell adds.toEmbeds flows otherFlows index program with ⟨states, fired⟩
  refine ⟨⟨states, ?_, same.hops⟩, ?_⟩
  · rw [Turn.runCell_state, Turn.runCell_state, State.runCell_outgoing, State.runCell_outgoing,
      same.outgoing]
  · simp only [Turn.runCell, fired, List.map_map]
    refine List.map_congr_left fun emission _ => ?_
    simp only [Function.comp_apply, Parcel.ofEmission, Parcel.rename, adds.targets]

variable [Processor ν]

/-- Delivering an event does the same and gives rise to the same. -/
theorem deliver (target : Target) (event : Identifier) :
    Matches node meets small large (deliver small target event turn).1
        (deliver large (target.rename node) event other).1 ∧
      (deliver large (target.rename node) event other).2 =
        (deliver small target event turn).2.map (Parcel.rename node) := by
  cases target with
  | node index input =>
      have noted : Matches node meets small large
          { turn with journal := turn.journal.push (.delivered (.node index input) event) }
          { other with
            journal := other.journal.push (.delivered (.node (node index) input) event) } :=
        ⟨same.states, same.outgoing, same.hops⟩
      exact noted.runCell adds flows otherFlows index (Happening.onEvent input event).program
  | graphOutput id =>
      simp only [Turn.deliver, Target.rename, same.outgoing]
      cases turn.state.outgoing.push? id with
      | none => exact ⟨⟨same.states, same.outgoing, same.hops⟩, rfl⟩
      | some outgoing => exact ⟨⟨same.states.withOutgoing _ _, rfl, same.hops⟩, rfl⟩

omit same in
/-- Delivering parcels, and all that gives rise to, does the same. The induction is
on the deliveries that are left, which are as many on both sides. -/
theorem settle {state otherState : State ν}
    (states : state.Matches node meets small large otherState)
    (outgoing : otherState.outgoing = state.outgoing) (journal otherJournal : Array Entry)
    (hops : Nat) (parcels : List Parcel) :
    Matches node meets small large (Turn.settle small state journal hops parcels)
      (Turn.settle large otherState otherJournal hops (parcels.map (Parcel.rename node))) := by
  induction hops generalizing state otherState journal otherJournal parcels with
  | zero =>
      unfold Turn.settle
      rw [Parcel.next?_rename]
      cases Parcel.next? parcels <;> exact ⟨states, outgoing, rfl⟩
  | succ hops induction =>
      unfold Turn.settle
      rw [Parcel.next?_rename]
      cases Parcel.next? parcels with
      | none => exact ⟨states, outgoing, rfl⟩
      | some delivery =>
          have start : Matches node meets small large ⟨state, hops, journal⟩
              ⟨otherState, hops, otherJournal⟩ := ⟨states, outgoing, rfl⟩
          rcases start.deliver adds flows otherFlows delivery.target delivery.event with
            ⟨delivered, parcels⟩
          simp only [Option.map_some, Parcel.Delivery.rename, parcels, ← List.map_append]
          exact induction delivered.states delivered.outgoing _ _ _

theorem visit (program : Cell ν → Program (Cell ν)) (index : Nat) :
    Matches node meets small large (Turn.visit small program turn index)
      (Turn.visit large program other (node index)) := by
  rcases same.runCell adds flows otherFlows index program with ⟨ran, parcels⟩
  rw [Turn.visit_eq, Turn.visit_eq, parcels, ran.hops]
  exact settle adds flows otherFlows ran.states ran.outgoing _ _ _ _

end

variable [Processor ν]

/-- When the node that is added runs, nothing else changes, and nothing is spent of
the budget. -/
theorem visit_spectator (program : Cell ν → Program (Cell ν)) :
    Matches node meets small large turn (Turn.visit large program other spectator) := by
  have nobody : Parcel.deliveries (other.runCell large spectator program).2 = [] := by
    simp [Turn.runCell, Parcel.deliveries, Parcel.ofEmission, adds.silent]
  have unwritten {slot otherSlot : Slot} (here : meets slot otherSlot) :
      otherSlot ∉ large.outputsAt spectator := by
    intro written
    rcases adds.written here written with ⟨index, isSpectator, -⟩
    exact adds.apart index isSpectator
  rw [Turn.visit_eq, Turn.settle_nothing _ _ _ _ nobody]
  exact {
    states := {
      fits := same.states.fits
      otherFits := same.states.otherFits.runCell spectator program
      cells := fun index => by
        rw [Turn.runCell_state, State.runCell_other _ (adds.apart index), same.states.cells]
      values := fun here => by
        rw [Turn.runCell_state, State.runCell_unwritten _ (unwritten here),
          same.states.values here] }
    outgoing := by rw [Turn.runCell_state, State.runCell_outgoing, same.outgoing]
    hops := same.hops }

/-- Running nodes one after the other does the same, wherever the node that is
added comes among them. The induction is on the nodes of the larger circuit. -/
theorem visits (flows : small.FlowsForward) (otherFlows : large.FlowsForward)
    (program : Cell ν → Program (Cell ν)) {indices others : List Nat}
    (listed : others.filter (· != spectator) = indices.map node) :
    Matches node meets small large (indices.foldl (Turn.visit small program) turn)
      (others.foldl (Turn.visit large program) other) := by
  induction others generalizing indices turn other with
  | nil =>
      rw [List.map_eq_nil_iff.mp listed.symm]
      exact same
  | cons next others induction =>
      by_cases isSpectator : next = spectator
      · rw [List.filter_cons_of_neg (by simpa using isSpectator)] at listed
        rw [List.foldl_cons, isSpectator]
        exact induction (same.visit_spectator adds program) listed
      · rw [List.filter_cons_of_pos (by simpa using isSpectator), eq_comm,
          List.map_eq_cons_iff] at listed
        rcases listed with ⟨index, later, rfl, rfl, rest⟩
        exact induction (same.visit adds flows otherFlows program index) rest.symm

end Turn.Matches

/-! ## Calls -/

/-- The other graph has one more node. The states match, and the same events wait
for the host. -/
structure Graph.AddsSpectator (node : Nat → Nat) (meets : Slot → Slot → Prop) (spectator : Nat)
    (graph other : Graph ν) : Prop extends graph.Matches node meets other where
  adds : graph.circuit.AddsSpectator node meets spectator other.circuit
  outgoing : other.state.outgoing = graph.state.outgoing

namespace Graph.AddsSpectator

variable [Processor ν] {node : Nat → Nat} {meets : Slot → Slot → Prop} {spectator : Nat}
  {graph other : Graph ν} (same : graph.AddsSpectator node meets spectator other)
include same

theorem sweep (happening : Happening) :
    Turn.Matches node meets graph.circuit other.circuit (graph.sweep happening.program)
      (other.sweep happening.program) := by
  have start : Turn.Matches node meets graph.circuit other.circuit graph.begin other.begin :=
    ⟨same.states, same.outgoing, same.adds.hopLimit⟩
  exact start.visits same.adds same.flows same.otherFlows happening.program same.adds.order

/-- An event that is posted is taken by both or by neither, and does the same. -/
theorem post (id : Identifier) :
    (graph.perform (.post id)).1.state.Matches node meets graph.circuit other.circuit
        (other.perform (.post id)).1.state ∧
      (other.perform (.post id)).1.state.outgoing = (graph.perform (.post id)).1.state.outgoing ∧
      (other.perform (.post id)).2.1 = (graph.perform (.post id)).2.1 := by
  simp only [Graph.perform, post?, same.adds.entrance, same.adds.hopLimit]
  cases graph.circuit.entrance id with
  | nil => exact ⟨same.states, same.outgoing, rfl⟩
  | cons target targets =>
      have settled := Turn.Matches.settle same.adds same.flows same.otherFlows same.states
        same.outgoing #[] #[] graph.circuit.hopLimit [⟨id, target :: targets⟩]
      exact ⟨settled.states, settled.outgoing, rfl⟩

theorem perform (call : Call) :
    (graph.perform call).1.AddsSpectator node meets spectator (other.perform call).1 where
  toMatches := same.toMatches.perform (fun happening => (same.sweep happening).states)
    (fun id => (same.post id).1) call
  adds := by
    rw [Graph.perform_circuit, Graph.perform_circuit]
    exact same.adds
  outgoing := by
    cases call with
    | setInput id value =>
        simp only [Graph.perform, setInput?]
        cases graph.circuit.inputSlot? id <;> cases other.circuit.inputSlot? id <;>
          exact same.outgoing
    | setLocal id value =>
        simp only [Graph.perform, setLocal?]
        cases graph.circuit.localSlot? id <;> cases other.circuit.localSlot? id <;>
          exact same.outgoing
    | process timeStep => exact (same.sweep (.process timeStep)).outgoing
    | post id => exact (same.post id).2.1
    | drain | reset => exact congrArg OutgoingQueue.clear same.outgoing
    | init context => exact (same.sweep (.init context)).outgoing

theorem afterCalls (calls : List Call) :
    (graph.afterCalls calls).AddsSpectator node meets spectator (other.afterCalls calls) := by
  induction calls generalizing graph other with
  | nil => exact same
  | cons call calls induction => exact induction (same.perform call)

/-- Calls are answered the same. A tick answers how much was used up, which the
node that is added may change. -/
theorem answer_eq {call : Call} (noTick : ∀ timeStep, call ≠ .process timeStep) :
    (other.perform call).2.1 = (graph.perform call).2.1 := by
  cases call with
  | setInput id value =>
      exact (same.toMatches.setSlot? (Circuit.NamesMeet.lastSlot? same.embeds.inputs id) _ _
        value).2
  | setLocal id value =>
      exact (same.toMatches.setSlot? (Circuit.NamesMeet.lastSlot? same.embeds.locals id) _ _
        value).2
  | process timeStep => exact absurd rfl (noTick timeStep)
  | post id => exact (same.post id).2.2
  | drain => exact congrArg (fun queue => Answer.events queue.waiting) same.outgoing
  | reset | init context => rfl

end Graph.AddsSpectator

/-! ## Prototypes -/

/-- Freshly compiled, the two graphs start out the same. -/
theorem Prototype.AddsSpectator.graphs [Processor κ] {registry : Registry κ} {config : Config}
    {limit : Nat} {prototype extended : Prototype} {watcher : PrototypeNode}
    (adds : prototype.AddsSpectator registry limit extended watcher)
    {graph other : Graph (Nested κ limit)} (distinct : prototype.ids.Nodup)
    (built : (Compile.build registry config limit prototype).outcome = .ok graph)
    (otherBuilt : (Compile.build registry config limit extended).outcome = .ok other) :
    graph.AddsSpectator (prototype.relocate extended)
      (graph.circuit.Meets (prototype.relocate extended) other.circuit)
      (extended.position watcher.id) other where
  toMatches := Compile.matches_of_build (adds.sitsIn distinct) built otherBuilt
  adds := adds.circuits built otherBuilt
  outgoing := (Compile.build_outgoing otherBuilt).trans (Compile.build_outgoing built).symm

/-- A node that feeds nobody cannot be observed. With it, a prototype is compiled as
before, and the other nodes run in the same order. Whatever the calls, even if
their budgets are used up, every output shows the same and all other nodes have
used up the same; and every call but a tick is answered the same, whether it sets
something, posts an event or takes the events that wait. -/
theorem Prototype.AddsSpectator.unobservable [Processor κ] {registry : Registry κ}
    {config : Config} {context : Context} {prototype extended : Prototype}
    {watcher : PrototypeNode} (adds : prototype.AddsSpectator registry
      config.maxSubroutineDepth.toNat extended watcher) {graph : Instance κ config}
    (created : (Instance.create registry config context prototype).outcome = .ok graph) :
    (∃ other, (Instance.create registry config context extended).outcome = .ok other) ∧
    (∃ order, dependencyOrder extended = .ok order ∧
      dependencyOrder prototype = .ok (order.filter (· != watcher.id))) ∧
    ∀ other, (Instance.create registry config context extended).outcome = .ok other → ∀ calls,
      (∀ id, (other.afterCalls calls).readOutput? id = (graph.afterCalls calls).readOutput? id) ∧
      (∀ id, id ≠ watcher.id →
        (other.afterCalls calls).consumed? id = (graph.afterCalls calls).consumed? id) ∧
      ∀ call, (∀ timeStep, call ≠ .process timeStep) →
        ((other.afterCalls calls).perform call).2.1 =
          ((graph.afterCalls calls).perform call).2.1 := by
  rcases Instance.create_eq_ok_iff.mp created with ⟨built, compiled, rfl⟩
  rcases adds.exists_build ⟨built, compiled⟩ with ⟨otherBuilt, otherCompiled⟩
  have reachable : Compile.Reachable registry config prototype built := ⟨_, [], compiled, rfl⟩
  have otherReachable : Compile.Reachable registry config extended otherBuilt :=
    ⟨_, [], otherCompiled, rfl⟩
  rcases reachable.circuit_eq with ⟨_, _, wired, -⟩
  rcases otherReachable.circuit_eq with ⟨_, _, otherWired, -⟩
  refine ⟨Instance.exists_create_iff.mpr ⟨otherBuilt, otherCompiled⟩,
    adds.dependencyOrder_filter wired otherWired, fun other otherCreated calls => ?_⟩
  -- There is only one graph that compiling yields.
  rcases Instance.create_eq_ok_iff.mp otherCreated with ⟨_, compiledAgain, rfl⟩
  rw [otherCompiled, Except.ok.injEq] at compiledAgain
  subst compiledAgain
  have same := (adds.graphs wired.idsDistinct compiled otherCompiled).afterCalls
    (.init context :: calls)
  refine ⟨same.toMatches.readOutput?, fun id different => ?_, fun call noTick =>
    same.answer_eq noTick⟩
  refine Compile.consumed?_eq (adds.sitsIn wired.idsDistinct) (reachable.afterCalls _)
    (otherReachable.afterCalls _) same.toMatches fun named => ?_
  exact (List.mem_cons.mp (adds.ids_perm.mem_iff.mp named)).resolve_left different

/-- A counter that is started in every tick and then counts its own events until the
budget of the tick is used up. -/
def echo : Prototype where
  name := "Echo"
  id := 0
  inputs := [⟨.named "Value", .bool false⟩]
  outputs := [⟨.named "Count", .int32 0⟩]
  locals := []
  nodes := [⟨.named "Bool Trigger", 1, [], none⟩, ⟨.named "Trigger Counter", 2, [], none⟩]
  connections := [
    ⟨⟨1, .named "OnFalse"⟩, ⟨2, .named "Trigger"⟩, .nodeEventToNode⟩,
    ⟨⟨2, .named "OnTrigger"⟩, ⟨2, .named "Trigger"⟩, .nodeEventToNode⟩,
    ⟨⟨2, .named "Count"⟩, ⟨graphNodeId, .named "Count"⟩, .nodeValueToGraph⟩]

/-- A node that fires in every tick. -/
def listener : PrototypeNode :=
  ⟨.named "Bool Trigger", 3, [], none⟩

/-- The same with a node in front that nobody listens to. -/
def echoWithListener : Prototype :=
  { echo with
    nodes := listener :: echo.nodes
    connections :=
      ⟨⟨graphNodeId, .named "Value"⟩, ⟨3, .named "Value"⟩, .graphValueToNode⟩ ::
        echo.connections }

/-- Configured for eight deliveries, both count to eight. -/
theorem echoWithListener_unobservable :
    ∃ graph other : Instance StandardNode { Config.default with maxEventHops := 8 },
      (Instance.create StandardNode.registry { Config.default with maxEventHops := 8 } default
        echo).outcome = .ok graph ∧
      (Instance.create StandardNode.registry { Config.default with maxEventHops := 8 } default
        echoWithListener).outcome = .ok other ∧
      (graph.afterCalls [.process .one]).readOutput? (.named "Count") = some (.int32 8) ∧
      (other.afterCalls [.process .one]).readOutput? (.named "Count") = some (.int32 8) ∧
      ((other.afterCalls [.process .one]).perform .drain).2.1 =
        ((graph.afterCalls [.process .one]).perform .drain).2.1 := by
  have counts : ((Instance.create StandardNode.registry { Config.default with maxEventHops := 8 }
      default echo).outcome.toOption.any fun graph =>
        decide ((graph.afterCalls [.process .one]).readOutput? (.named "Count") =
          some (.int32 8))) = true := by
    decide +kernel
  have known : ∃ layout, Compile.layout? StandardNode.registry listener = some layout ∧
      Declares layout.inputs (.named "Value") := by
    have named : ((Compile.layout? StandardNode.registry listener).any fun layout =>
        layout.inputs.any fun input => input.id == .named "Value") = true := by
      decide +kernel
    simpa only [Option.any_eq_true, List.any_eq_true, Declares] using named
  have adds : echo.AddsSpectator StandardNode.registry 16 echoWithListener listener := {
    inputs := rfl
    locals := rfl
    outputs := rfl
    nodes := ⟨[], echo.nodes, rfl, rfl⟩
    nonzero := by decide
    fresh := by decide
    registered := Compile.exists_layout_iff.mp (known.imp fun _ => And.left)
    nested := by simp [listener]
    overrides := by simp [listener]
    kept := rfl
    watches := by
      intro connection listed
      rw [List.mem_singleton.mp listed]
      exact {
        isValue := rfl
        toNode := rfl
        sourceSide := by decide
        source := ⟨_, .head _, rfl⟩
        plug := known }
    apart := List.pairwise_singleton _ _ }
  rcases exists_of_any counts with ⟨graph, created, counts⟩
  rcases adds.unobservable created with ⟨⟨other, otherCreated⟩, -, same⟩
  rcases same other otherCreated [.process .one] with ⟨shown, -, answers⟩
  have count := of_decide_eq_true counts
  exact ⟨graph, other, created, otherCreated, count, (shown _).trans count,
    answers .drain (fun _ => Call.noConfusion)⟩

end NodeGraph
