import NodeGraph.Proofs.Run.Budget
import NodeGraph.Proofs.Run.Outgoing

namespace NodeGraph

/-! What a graph hands over to its host in the long run. Output events join the queue
when they are delivered, and the host takes them from it now and then. Main statement:
nothing is handed over twice, out of order or without having been delivered; what is
lost is what found the queue full. -/

/-! ## Handing over -/

namespace OutgoingQueue

/-- Handed over one by one, the events are those that a host gets which takes them all
at once. -/
theorem handOver_eq (receive : σ → Identifier → σ) (state : σ) (queue : OutgoingQueue) :
    queue.handOver receive state = (queue.waiting.foldl receive state, queue.clear) := by
  fun_induction handOver receive state queue with
  | case1 state queue nothing =>
      rcases queue with ⟨waiting, capacity⟩
      cases waiting with
      | nil => rfl
      | cons event rest => cases nothing
  | case2 state queue event rest popped induction =>
      rcases queue with ⟨waiting, capacity⟩
      cases waiting with
      | nil => cases popped
      | cons first others =>
          cases popped
          exact induction

end OutgoingQueue

namespace Graph

theorem handleOutgoing_eq (graph : Graph ν) (receive : σ → Identifier → σ) (state : σ) :
    graph.handleOutgoing receive state = (graph.drain.1.foldl receive state, graph.drain.2) := by
  simp only [handleOutgoing, OutgoingQueue.handOver_eq]
  rfl

theorem hasOutgoing_iff {graph : Graph ν} :
    graph.hasOutgoing = true ↔ graph.state.outgoing.waiting ≠ [] := by
  simp [hasOutgoing, OutgoingQueue.isEmpty]

end Graph

/-! ## Arrivals -/

/-- An output event of the graph that is delivered, and how many were waiting then. -/
structure Arrival where
  event : Identifier
  waiting : Nat
  deriving Repr

/-- The events that found room in a queue of that capacity, in the order in which they
arrived. -/
def Arrival.admitted (capacity : Nat) (arrivals : List Arrival) : List Identifier :=
  (arrivals.filter fun arrival => arrival.waiting < capacity).map Arrival.event

@[simp] theorem Arrival.admitted_nil (capacity : Nat) : admitted capacity [] = [] := rfl

@[simp] theorem Arrival.admitted_append (capacity : Nat) (first second : List Arrival) :
    admitted capacity (first ++ second) = admitted capacity first ++ admitted capacity second := by
  simp [admitted]

/-! ## The course of a turn -/

namespace Turn

/-- What arrives at the queue if that target is delivered to. -/
def arriving (turn : Turn ν) : Target → List Arrival
  | .node .. => []
  | .graphOutput id => [⟨id, turn.state.outgoing.size⟩]

theorem arriving_events (turn : Turn ν) (target : Target) :
    (turn.arriving target).map Arrival.event = target.output?.toList := by
  cases target <;> rfl

/-- What happens one after the other in a turn, and what arrives at the queue
meanwhile. -/
inductive Course [Processor ν] (circuit : Circuit) : Turn ν → List Arrival → Turn ν → Prop where
  | ends (turn : Turn ν) : Course circuit turn [] turn
  | runs {turn after : Turn ν} {arrivals : List Arrival} (index : Nat) (happening : Happening)
      (rest : Course circuit (turn.runCell circuit index happening.program).1 arrivals after) :
      Course circuit turn arrivals after
  | delivers {turn after : Turn ν} {arrivals : List Arrival} {hops : Nat}
      (paid : turn.hops = hops + 1) (target : Target) (event : Identifier)
      (rest : Course circuit (deliver circuit target event { turn with hops }).1 arrivals after) :
      Course circuit turn (turn.arriving target ++ arrivals) after
  | exhausts {turn after : Turn ν} {arrivals : List Arrival} (spent : turn.hops = 0)
      (dropped : Nat)
      (rest : Course circuit { turn with
        journal := turn.journal.push (.exhausted circuit.name circuit.hopLimit dropped) }
        arrivals after) :
      Course circuit turn arrivals after

variable [Processor ν] {circuit : Circuit}

theorem Course.trans {first second third : Turn ν} {early late : List Arrival}
    (before : Course circuit first early second) (after : Course circuit second late third) :
    Course circuit first (early ++ late) third := by
  induction before with
  | ends => exact after
  | runs index happening _ induction => exact .runs index happening (induction after)
  | delivers paid target event _ induction =>
      rw [List.append_assoc]
      exact .delivers paid target event (induction after)
  | exhausts spent dropped _ induction => exact .exhausts spent dropped (induction after)

/-- The induction is on the budget. -/
theorem exists_course_settle (circuit : Circuit) (state : State ν) (journal : Array Entry)
    (hops : Nat) (parcels : List Parcel) :
    ∃ arrivals,
      Course circuit { state, hops, journal } arrivals
        (settle circuit state journal hops parcels) := by
  induction hops generalizing state journal parcels with
  | zero =>
      unfold settle
      cases Parcel.next? parcels with
      | none => exact ⟨[], .ends _⟩
      | some delivery => exact ⟨[], .exhausts rfl delivery.pending (.ends _)⟩
  | succ hops induction =>
      unfold settle
      cases Parcel.next? parcels with
      | none => exact ⟨[], .ends _⟩
      | some delivery =>
          let delivered := deliver circuit delivery.target delivery.event
            ({ state, hops, journal } : Turn ν)
          have left : delivered.1.hops = hops := deliver_hops circuit _ _ _
          have same : (⟨delivered.1.state, hops, delivered.1.journal⟩ : Turn ν) = delivered.1 :=
            congrArg (Turn.mk delivered.1.state · delivered.1.journal) left.symm
          rcases induction delivered.1.state delivered.1.journal
            (delivery.rest ++ delivered.2) with ⟨arrivals, course⟩
          rw [same] at course
          exact ⟨_, .delivers rfl delivery.target delivery.event course⟩

theorem exists_course_visits (circuit : Circuit) (happening : Happening) (turn : Turn ν)
    (indices : List Nat) :
    ∃ arrivals,
      Course circuit turn arrivals (indices.foldl (visit circuit happening.program) turn) := by
  induction indices generalizing turn with
  | nil => exact ⟨[], .ends turn⟩
  | cons index indices induction =>
      rcases exists_course_settle circuit
        (turn.runCell circuit index happening.program).1.state
        (turn.runCell circuit index happening.program).1.journal
        (turn.runCell circuit index happening.program).1.hops
        (turn.runCell circuit index happening.program).2 with ⟨early, settled⟩
      rcases induction (visit circuit happening.program turn index) with ⟨late, rest⟩
      exact ⟨early ++ late, (Course.runs index happening settled).trans rest⟩

/-! ## What a turn comes to -/

/-- One delivery puts to the queue what arrives there. -/
theorem deliver_waiting (circuit : Circuit) (target : Target) (event : Identifier)
    (turn : Turn ν) :
    (deliver circuit target event turn).1.state.outgoing.capacity =
        turn.state.outgoing.capacity ∧
      (deliver circuit target event turn).1.state.outgoing.waiting =
        turn.state.outgoing.waiting ++
          Arrival.admitted turn.state.outgoing.capacity (turn.arriving target) := by
  cases target with
  | node index input =>
      simp only [deliver, runCell_state, State.runCell_outgoing, arriving, Arrival.admitted_nil,
        List.append_nil, and_self]
  | graphOutput id =>
      by_cases room : turn.state.outgoing.size < turn.state.outgoing.capacity
      · simp [deliver, OutgoingQueue.push?, room, arriving, Arrival.admitted]
      · simp [deliver, OutgoingQueue.push?, room, arriving, Arrival.admitted]

/-- What waits is what waited before and what has found room since. -/
theorem Course.waiting {before after : Turn ν} {arrivals : List Arrival}
    (course : Course circuit before arrivals after) :
    after.state.outgoing.capacity = before.state.outgoing.capacity ∧
      after.state.outgoing.waiting =
        before.state.outgoing.waiting ++
          Arrival.admitted before.state.outgoing.capacity arrivals := by
  induction course with
  | ends => simp
  | runs index happening _ induction =>
      rw [runCell_state, State.runCell_outgoing] at induction
      exact induction
  | @delivers turn after arrivals hops paid target event _ induction =>
      have delivered := deliver_waiting circuit target event { turn with hops }
      rw [delivered.1, delivered.2] at induction
      refine ⟨induction.1, ?_⟩
      rw [induction.2, Arrival.admitted_append, List.append_assoc]
      rfl
  | exhausts _ _ _ induction => exact induction

/-- Whatever arrives is on record as delivered, and every delivery has cost one hop,
also one that found no room. -/
theorem Course.budget {before after : Turn ν} {arrivals : List Arrival}
    (course : Course circuit before arrivals after) :
    ∃ entries,
      after.journal.toList = before.journal.toList ++ entries ∧
      arrivals.map Arrival.event = outputsOf entries ∧
      (deliveriesOf entries).length + after.hops = before.hops := by
  induction course with
  | ends => exact ⟨[], by simp⟩
  | @runs turn after arrivals index happening _ induction =>
      rcases runCell_journal circuit index happening.program turn with
        ⟨entries, journal, silent, -, hops⟩
      rcases induction with ⟨later, laterJournal, arrived, spent⟩
      refine ⟨entries ++ later, ?_, ?_, ?_⟩
      · rw [laterJournal, journal, List.append_assoc]
      · rw [outputsOf_append, outputsOf_eq_nil silent, List.nil_append, arrived]
      · rw [deliveriesOf_append, silent, List.nil_append, spent, hops]
  | @delivers turn after arrivals hops paid target event _ induction =>
      rcases deliver_journal circuit target event { turn with hops } with
        ⟨entries, journal, silent, -⟩
      rcases induction with ⟨later, laterJournal, arrived, spent⟩
      refine ⟨.delivered target event :: entries ++ later, ?_, ?_, ?_⟩
      · rw [laterJournal, journal, List.append_assoc]
      · rw [List.cons_append, outputsOf_delivered, outputsOf_append, outputsOf_eq_nil silent,
          List.map_append, arriving_events, arrived, List.nil_append]
      · rw [deliver_hops] at spent
        rw [List.cons_append, deliveriesOf_delivered, deliveriesOf_append, silent,
          List.nil_append, List.length_cons, Nat.add_right_comm, spent, paid]
  | @exhausts turn after arrivals spent dropped _ induction =>
      rcases induction with ⟨later, laterJournal, arrived, spent⟩
      exact ⟨.exhausted circuit.name circuit.hopLimit dropped :: later, by simp [laterJournal],
        arrived, spent⟩

end Turn

/-! ## Errands -/

/-- What a host does with a graph. Besides its calls, it may have the waiting events
handed over one by one. -/
inductive Errand where
  | call (call : Call)
  | handle

/-- The events that an answer hands over. -/
def Answer.handed : Answer → List Identifier
  | .events ids => ids
  | .accepted _ | .consumed _ | .done => []

namespace Graph

variable [Processor ν]

/-- The events that are handed over on an errand, and the graph afterwards. -/
def attend (graph : Graph ν) : Errand → List Identifier × Graph ν
  | .call call => ((graph.perform call).2.1.handed, (graph.perform call).1)
  | .handle => graph.handleOutgoing (fun handed event => handed ++ [event]) []

/-- All events that are handed over on some errands, and the graph afterwards. -/
def attendAll (graph : Graph ν) : (errands : List Errand) → List Identifier × Graph ν
  | [] => ([], graph)
  | errand :: errands =>
      let (handed, after) := graph.attend errand
      let (more, last) := after.attendAll errands
      (handed ++ more, last)

/-- The turn that an errand is, if nodes run or events are delivered on it. -/
def turn? (graph : Graph ν) : Errand → Option (Turn ν)
  | .call (.process timeStep) => some (graph.sweep (Happening.process timeStep).program)
  | .call (.init context) => some (graph.sweep (Happening.init context).program)
  | .call (.post id) =>
      match graph.circuit.entrance id with
      | [] => none
      | targets =>
          some (Turn.settle graph.circuit graph.state #[] graph.circuit.hopLimit [⟨id, targets⟩])
  | .call (.setInput ..) | .call (.setLocal ..) | .call .drain | .call .reset | .handle => none

/-- What arrives at the queue on an errand. -/
inductive Receives (graph : Graph ν) : Errand → List Arrival → Prop where
  | turn {errand : Errand} {turn : Turn ν} {arrivals : List Arrival}
      (is : graph.turn? errand = some turn)
      (course : Turn.Course graph.circuit graph.begin arrivals turn) :
      Receives graph errand arrivals
  | nothing {errand : Errand} (none : graph.turn? errand = none) : Receives graph errand []

/-- What arrives at the queue on some errands, one after the other. -/
inductive ReceivesAll : Graph ν → List Errand → List Arrival → Prop where
  | nil (graph : Graph ν) : ReceivesAll graph [] []
  | cons {graph : Graph ν} {errand : Errand} {errands : List Errand} {first later : List Arrival}
      (receives : graph.Receives errand first)
      (rest : ReceivesAll (graph.attend errand).2 errands later) :
      ReceivesAll graph (errand :: errands) (first ++ later)

/-! ## One errand -/

theorem exists_course_turn {graph : Graph ν} {errand : Errand} {turn : Turn ν}
    (is : graph.turn? errand = some turn) :
    ∃ arrivals, Turn.Course graph.circuit graph.begin arrivals turn := by
  cases errand with
  | handle => cases is
  | call call =>
      cases call with
      | process timeStep =>
          cases is
          exact Turn.exists_course_visits graph.circuit (.process timeStep) _ _
      | init context =>
          cases is
          exact Turn.exists_course_visits graph.circuit (.init context) _ _
      | post id =>
          simp only [turn?] at is
          split at is
          next => cases is
          next =>
            cases is
            exact Turn.exists_course_settle graph.circuit _ _ _ _
      | setInput | setLocal | drain | reset => cases is

theorem perform_turn {graph : Graph ν} {call : Call} {turn : Turn ν}
    (is : graph.turn? (.call call) = some turn) :
    (graph.perform call).2.1.handed = [] ∧ (graph.perform call).1 = graph.finish turn ∧
      (graph.perform call).2.2 = turn.journal := by
  cases call with
  | process timeStep =>
      cases is
      exact ⟨rfl, rfl, rfl⟩
  | init context =>
      cases is
      exact ⟨rfl, rfl, rfl⟩
  | post id =>
      simp only [perform, post?]
      cases leads : graph.circuit.entrance id with
      | nil =>
          simp only [turn?, leads] at is
          cases is
      | cons target targets =>
          simp only [turn?, leads] at is
          cases is
          exact ⟨rfl, rfl, rfl⟩
  | setInput | setLocal | drain | reset => cases is

/-- An errand on which nodes run hands over nothing. -/
theorem attend_turn {graph : Graph ν} {errand : Errand} {turn : Turn ν}
    (is : graph.turn? errand = some turn) : graph.attend errand = ([], graph.finish turn) := by
  cases errand with
  | handle => cases is
  | call call =>
      rcases perform_turn is with ⟨handed, after, -⟩
      exact Prod.ext handed after

theorem exists_receives (graph : Graph ν) (errand : Errand) :
    ∃ arrivals, graph.Receives errand arrivals := by
  cases is : graph.turn? errand with
  | none => exact ⟨[], .nothing is⟩
  | some turn =>
      rcases exists_course_turn is with ⟨arrivals, course⟩
      exact ⟨arrivals, .turn is course⟩

theorem attend_circuit (graph : Graph ν) (errand : Errand) :
    (graph.attend errand).2.circuit = graph.circuit := by
  cases errand with
  | call call => exact graph.perform_circuit call
  | handle => rfl

/-- It makes no difference in which of the two ways the host takes the events. -/
theorem attend_handle (graph : Graph ν) : graph.attend .handle = graph.drain := by
  rw [attend, handleOutgoing_eq, List.foldl_append_eq_append, ← List.flatMap_def,
    List.flatMap_singleton', List.nil_append]

/-- On any other errand the queue stays as it is or is handed over. -/
theorem attend_nothing {graph : Graph ν} {errand : Errand} (none : graph.turn? errand = none)
    (noReset : errand ≠ .call .reset) :
    (graph.attend errand).2.state.outgoing.capacity = graph.state.outgoing.capacity ∧
      (graph.attend errand).1 ++ (graph.attend errand).2.state.outgoing.waiting =
        graph.state.outgoing.waiting := by
  have taken : graph.drain.2.state.outgoing.capacity = graph.state.outgoing.capacity ∧
      graph.drain.1 ++ graph.drain.2.state.outgoing.waiting = graph.state.outgoing.waiting :=
    ⟨rfl, List.append_nil _⟩
  cases errand with
  | handle => rwa [attend_handle]
  | call call =>
      cases call with
      | process | init => cases none
      | reset => exact absurd rfl noReset
      | drain => exact taken
      | setInput id value =>
          simp only [attend, perform, setInput?]
          cases graph.circuit.inputSlot? id <;> exact ⟨rfl, rfl⟩
      | setLocal id value =>
          simp only [attend, perform, setLocal?]
          cases graph.circuit.localSlot? id <;> exact ⟨rfl, rfl⟩
      | post id =>
          cases leads : graph.circuit.entrance id with
          | nil =>
              simp only [attend, perform, post?, leads]
              exact ⟨rfl, rfl⟩
          | cons target targets =>
              simp only [turn?, leads] at none
              cases none

/-- What waited before and what has found room since is what has been handed over and what
is waiting now. -/
theorem attend_waiting {graph : Graph ν} {errand : Errand} {arrivals : List Arrival}
    (receives : graph.Receives errand arrivals) (noReset : errand ≠ .call .reset) :
    (graph.attend errand).2.state.outgoing.capacity = graph.state.outgoing.capacity ∧
      (graph.attend errand).1 ++ (graph.attend errand).2.state.outgoing.waiting =
        graph.state.outgoing.waiting ++
          Arrival.admitted graph.state.outgoing.capacity arrivals := by
  cases receives with
  | turn is course =>
      rw [attend_turn is]
      exact course.waiting
  | nothing none =>
      rw [Arrival.admitted_nil, List.append_nil]
      exact attend_nothing none noReset

/-! ## Many errands -/

theorem exists_receivesAll (graph : Graph ν) (errands : List Errand) :
    ∃ arrivals, graph.ReceivesAll errands arrivals := by
  induction errands generalizing graph with
  | nil => exact ⟨[], .nil graph⟩
  | cons errand errands induction =>
      rcases graph.exists_receives errand with ⟨first, receives⟩
      rcases induction (graph.attend errand).2 with ⟨later, rest⟩
      exact ⟨first ++ later, .cons receives rest⟩

/-- Events are conserved. The induction is on the errands. -/
theorem ReceivesAll.conserved {graph : Graph ν} {errands : List Errand} {arrivals : List Arrival}
    (receives : graph.ReceivesAll errands arrivals) (noReset : .call .reset ∉ errands) :
    (graph.attendAll errands).1 ++ (graph.attendAll errands).2.state.outgoing.waiting =
      graph.state.outgoing.waiting ++
        Arrival.admitted graph.state.outgoing.capacity arrivals := by
  induction receives with
  | nil => simp [attendAll]
  | cons first rest induction =>
      rw [List.mem_cons, not_or] at noReset
      rcases attend_waiting first (Ne.symm noReset.1) with ⟨capacity, conserved⟩
      rw [Arrival.admitted_append, ← List.append_assoc, ← conserved, ← capacity,
        List.append_assoc, ← induction noReset.2, ← List.append_assoc]
      rfl

theorem attendAll_append (graph : Graph ν) (first second : List Errand) :
    (graph.attendAll (first ++ second)).2 =
      ((graph.attendAll first).2.attendAll second).2 := by
  induction first generalizing graph with
  | nil => rfl
  | cons errand errands induction => exact induction (graph.attend errand).2

theorem attendAll_circuit (graph : Graph ν) (errands : List Errand) :
    (graph.attendAll errands).2.circuit = graph.circuit := by
  induction errands generalizing graph with
  | nil => rfl
  | cons errand errands induction =>
      exact (induction (graph.attend errand).2).trans (graph.attend_circuit errand)

theorem attendAll_capacity (graph : Graph ν) (errands : List Errand) :
    (graph.attendAll errands).2.state.outgoing.capacity = graph.state.outgoing.capacity := by
  induction errands generalizing graph with
  | nil => rfl
  | cons errand errands induction =>
      refine (induction (graph.attend errand).2).trans ?_
      by_cases rewinds : errand = .call .reset
      · rw [rewinds]
        rfl
      · rcases graph.exists_receives errand with ⟨arrivals, receives⟩
        exact (attend_waiting receives rewinds).1

/-- Nothing waits in a graph that has just been compiled or reset. -/
theorem attendAll_fresh {graph : Graph ν} {errands : List Errand}
    (empty : graph.state.outgoing.waiting = [])
    (fresh : errands = [] ∨ errands.getLast? = some (.call .reset)) :
    (graph.attendAll errands).2.state.outgoing.waiting = [] := by
  rcases fresh with rfl | last
  · exact empty
  · rcases List.getLast?_eq_some_iff.mp last with ⟨earlier, rfl⟩
    rw [attendAll_append]
    rfl

end Graph

namespace Compile

variable [Processor κ] {registry : Registry κ} {config : Config} {prototype : Prototype}
  {room : Nat}

/-- Events are lost at the end of the queue only, and in no other way. From when a graph is
compiled or reset, the initialization of a fresh instance being the first errand: what
has been handed over to the host, followed by what is waiting, is what has arrived and
found room, in the order of arrival. What arrives is on record as delivered, and each
delivery has cost a hop, whether it found room or not. Whichever way the host takes the
waiting events, it gets them all, and none is left; and it is told that there are some
exactly if there are. -/
theorem outgoing_conserved {built after : Graph (Nested κ room)} {earlier errands : List Errand}
    {handed : List Identifier}
    (compiled : (build registry config room prototype).outcome = .ok built)
    (fresh : earlier = [] ∨ earlier.getLast? = some (.call .reset))
    (noReset : .call .reset ∉ errands)
    (ran : (built.attendAll earlier).2.attendAll errands = (handed, after)) :
    (∃ arrivals, (built.attendAll earlier).2.ReceivesAll errands arrivals) ∧
    (∀ arrivals, (built.attendAll earlier).2.ReceivesAll errands arrivals →
      handed ++ after.state.outgoing.waiting =
        Arrival.admitted config.eventQueueCapacity.toNat arrivals) ∧
    (∀ call turn arrivals, after.turn? (.call call) = some turn →
      Turn.Course after.circuit after.begin arrivals turn →
        arrivals.map Arrival.event = outputsOf (after.perform call).2.2.toList ∧
        (deliveriesOf (after.perform call).2.2.toList).length + turn.hops =
          config.maxEventHops.toNat) ∧
    (after.hasOutgoing = true ↔ after.state.outgoing.waiting ≠ []) ∧
    (after.drain.1 = after.state.outgoing.waiting ∧ after.drain.2.hasOutgoing = false) ∧
    ∀ (σ : Type) (receive : σ → Identifier → σ) (state : σ),
      after.handleOutgoing receive state = (after.drain.1.foldl receive state, after.drain.2) := by
  have reachable : Reachable registry config prototype built := ⟨built, [], compiled, rfl⟩
  refine ⟨Graph.exists_receivesAll _ _, ?conserved, ?budget, Graph.hasOutgoing_iff, ⟨rfl, rfl⟩,
    fun _ => after.handleOutgoing_eq⟩
  case conserved =>
    intro arrivals receives
    have empty : built.state.outgoing.waiting = [] := by
      rcases build_eq_ok compiled with ⟨nodes, wires, order, -, -, rfl⟩
      rfl
    have conserved := receives.conserved noReset
    rw [ran, Graph.attendAll_fresh empty fresh, Graph.attendAll_capacity,
      reachable.within.capacity_eq] at conserved
    exact conserved
  case budget =>
    intro call turn arrivals is course
    have circuit : after.circuit = built.circuit := by
      have kept := Graph.attendAll_circuit (built.attendAll earlier).2 errands
      rw [ran] at kept
      exact kept.trans (built.attendAll_circuit earlier)
    rcases course.budget with ⟨entries, journal, arrived, spent⟩
    have recorded : turn.journal.toList = entries := journal
    rw [(Graph.perform_turn is).2.2, recorded, ← reachable.hopLimit_eq, ← circuit]
    exact ⟨arrived, spent⟩

/-- A graph that hands on a click and has a node report it, too. -/
def announcer : Prototype where
  name := "Announcer"
  id := 1
  inputs := [⟨.named "Click", .void⟩]
  outputs := [⟨.named "Heard", .void⟩, ⟨.named "Counted", .void⟩]
  locals := []
  nodes := [⟨.named "Trigger Counter", 1, [], none⟩]
  connections := [
    ⟨⟨graphNodeId, .named "Click"⟩, ⟨1, .named "Trigger"⟩, .graphEventToNode⟩,
    ⟨⟨graphNodeId, .named "Click"⟩, ⟨graphNodeId, .named "Heard"⟩, .graphEventToGraph⟩,
    ⟨⟨1, .named "OnTrigger"⟩, ⟨graphNodeId, .named "Counted"⟩, .nodeEventToGraph⟩]

/-- A queue with room for one event. -/
def roomForOne : Config :=
  { Config.default with eventQueueCapacity := 1 }

/-- What a host does that takes what it has heard between two clicks. -/
def clicks : List Errand :=
  [.call (.init default), .call (.post (.named "Click")), .handle,
    .call (.post (.named "Click"))]

/-- Of the two events of each click the one that the node reports is lost. -/
theorem announcer_outgoing_conserved :
    ∃ (built : Graph (Nested StandardNode 0)) (arrivals : List Arrival),
      (build counters roomForOne 0 announcer).outcome = .ok built ∧
      Errand.call .reset ∉ clicks ∧
      (built.attendAll []).2.ReceivesAll clicks arrivals ∧
      (built.attendAll clicks).1 ++ (built.attendAll clicks).2.state.outgoing.waiting =
        Arrival.admitted 1 arrivals ∧
      ((built.attendAll clicks).1 == [.named "Heard"]) = true ∧
      ((built.attendAll clicks).2.state.outgoing.waiting == [.named "Heard"]) = true := by
  have hears : ((build counters roomForOne 0 announcer).outcome.toOption.any fun built =>
      (built.attendAll clicks).1 == [.named "Heard"] &&
        (built.attendAll clicks).2.state.outgoing.waiting == [.named "Heard"]) = true := by
    decide +kernel
  rcases exists_of_any hears with ⟨built, compiled, hears⟩
  rw [Bool.and_eq_true] at hears
  have noReset : Errand.call .reset ∉ clicks := by simp [clicks]
  rcases outgoing_conserved compiled (.inl rfl) noReset rfl with
    ⟨⟨arrivals, receives⟩, conserved, -⟩
  exact ⟨built, arrivals, compiled, noReset, receives, conserved arrivals receives, hears⟩

end Compile

end NodeGraph
