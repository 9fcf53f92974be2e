import NodeGraph.Proofs.Run.Broadcast
import NodeGraph.Proofs.Run.Invariant

namespace NodeGraph

/-! The queue of output events in the course of a call. An output event that is
delivered joins the queue if there is room and is lost if there is none. So what
waits after a call is what waited before, followed by those of the delivered
events that found room, in the order of their deliveries. -/

/-! ## Queues -/

namespace OutgoingQueue

/-- The queue once some events have been put to it, one after the other. -/
def after (queue : OutgoingQueue) (events : List Identifier) : OutgoingQueue :=
  events.foldl (fun queue event => (queue.push? event).getD queue) queue

/-- Those of the events that find room. -/
def accepted (queue : OutgoingQueue) : (events : List Identifier) → List Identifier
  | [] => []
  | event :: events =>
      match queue.push? event with
      | some pushed => event :: pushed.accepted events
      | none => queue.accepted events

@[simp] theorem after_nil (queue : OutgoingQueue) : queue.after [] = queue := rfl

theorem after_append (queue : OutgoingQueue) (first second : List Identifier) :
    queue.after (first ++ second) = (queue.after first).after second :=
  List.foldl_append

theorem push?_waiting {queue pushed : OutgoingQueue} {event : Identifier}
    (queued : queue.push? event = some pushed) : pushed.waiting = queue.waiting ++ [event] := by
  unfold push? at queued
  split at queued
  next room =>
    rw [Option.some.injEq] at queued
    rw [← queued]
  next full => cases queued

/-- What is accepted is what is added. -/
theorem waiting_after (queue : OutgoingQueue) (events : List Identifier) :
    (queue.after events).waiting = queue.waiting ++ queue.accepted events := by
  induction events generalizing queue with
  | nil => exact (List.append_nil _).symm
  | cons event events induction =>
      have first : queue.after (event :: events) =
          ((queue.push? event).getD queue).after events := rfl
      rw [first, induction, accepted]
      cases queued : queue.push? event with
      | none => rfl
      | some pushed =>
          rw [Option.getD_some, push?_waiting queued, List.append_assoc, List.singleton_append]

end OutgoingQueue

/-! ## Delivered output events -/

/-- The output event of the graph that a target is. -/
def Target.output? : Target → Option Identifier
  | .node .. => none
  | .graphOutput id => some id

/-- The output events that a journal records as delivered. -/
def outputsOf (entries : List Entry) : List Identifier :=
  (deliveriesOf entries).filterMap fun delivery => delivery.1.output?

@[simp] theorem outputsOf_nil : outputsOf [] = [] := rfl

@[simp] theorem outputsOf_append (first second : List Entry) :
    outputsOf (first ++ second) = outputsOf first ++ outputsOf second := by
  simp [outputsOf]

theorem outputsOf_delivered (target : Target) (event : Identifier) (entries : List Entry) :
    outputsOf (.delivered target event :: entries) =
      target.output?.toList ++ outputsOf entries := by
  cases target <;> simp [outputsOf, Target.output?]

theorem outputsOf_eq_nil {entries : List Entry} (nothing : deliveriesOf entries = []) :
    outputsOf entries = [] := by
  rw [outputsOf, nothing, List.filterMap_nil]

/-! ## Turns -/

namespace Turn

/-- The output events that one turn puts on record more than the other are those
that its queue has been put. -/
def Queues (before after : Turn ν) : Prop :=
  ∃ entries, after.journal.toList = before.journal.toList ++ entries ∧
    after.state.outgoing = before.state.outgoing.after (outputsOf entries)

theorem Queues.refl (turn : Turn ν) : Queues turn turn :=
  ⟨[], (List.append_nil _).symm, rfl⟩

theorem Queues.trans {first second third : Turn ν} (before : Queues first second)
    (after : Queues second third) : Queues first third := by
  obtain ⟨early, earlyJournal, earlyQueue⟩ := before
  obtain ⟨late, lateJournal, lateQueue⟩ := after
  refine ⟨early ++ late, ?_, ?_⟩
  · rw [lateJournal, earlyJournal, List.append_assoc]
  · rw [lateQueue, earlyQueue, outputsOf_append, OutgoingQueue.after_append]

/-- What a node fires joins no queue before it is delivered. -/
theorem runCell_queues (circuit : Circuit) (index : Nat) (program : Cell ν → Program (Cell ν))
    (turn : Turn ν) : Queues turn (turn.runCell circuit index program).1 := by
  obtain ⟨entries, journal, delivered, -, -⟩ := runCell_journal circuit index program turn
  refine ⟨entries, journal, ?_⟩
  rw [outputsOf_eq_nil delivered, runCell_state, State.runCell_outgoing]
  rfl

variable [Processor ν]

theorem deliver_queues (circuit : Circuit) (target : Target) (event : Identifier)
    (turn : Turn ν) : Queues turn (deliver circuit target event turn).1 := by
  cases target with
  | graphOutput id =>
      simp only [deliver]
      split
      next outgoing queued =>
        exact ⟨[.delivered (.graphOutput id) event], by simp,
          by simp [outputsOf, Target.output?, OutgoingQueue.after, queued]⟩
      next refused =>
        have lost : deliveriesOf [.queueFull id] = [] := rfl
        exact ⟨[.delivered (.graphOutput id) event, .queueFull id], by simp,
          by simp [outputsOf, lost, Target.output?, OutgoingQueue.after, refused]⟩
  | node index input =>
      have recorded : Queues turn
          { turn with journal := turn.journal.push (.delivered (.node index input) event) } :=
        ⟨[.delivered (.node index input) event], by simp, by simp [outputsOf, Target.output?]⟩
      exact recorded.trans (runCell_queues circuit index _ _)

/-- The induction is on the budget. -/
theorem settle_queues (circuit : Circuit) (state : State ν) (journal : Array Entry) (hops : Nat)
    (parcels : List Parcel) :
    Queues { state, hops, journal } (settle circuit state journal hops parcels) := by
  induction hops generalizing state journal parcels with
  | zero =>
      unfold settle
      cases Parcel.next? parcels with
      | none => exact Queues.refl _
      | some delivery => exact ⟨[.exhausted circuit.name circuit.hopLimit delivery.pending], by simp, rfl⟩
  | succ hops induction =>
      unfold settle
      cases Parcel.next? parcels with
      | none => exact Queues.refl _
      | some delivery =>
          have delivered : Queues _ _ := deliver_queues circuit delivery.target delivery.event
            ({ state, hops, journal } : Turn ν)
          exact delivered.trans (induction _ _ _)

theorem visits_queue (circuit : Circuit) (program : Cell ν → Program (Cell ν)) (turn : Turn ν)
    (indices : List Nat) : Queues turn (indices.foldl (visit circuit program) turn) := by
  induction indices generalizing turn with
  | nil => exact Queues.refl turn
  | cons index indices induction =>
      have visited : Queues turn (visit circuit program turn index) :=
        (runCell_queues circuit index program turn).trans (settle_queues circuit _ _ _ _)
      exact visited.trans (induction _)

end Turn

/-! ## Calls -/

namespace Graph

variable [Processor ν]

theorem sweep_outgoing (graph : Graph ν) (program : Cell ν → Program (Cell ν)) :
    (graph.sweep program).state.outgoing =
      graph.state.outgoing.after (outputsOf (graph.sweep program).journal.toList) := by
  obtain ⟨entries, journal, queue⟩ :=
    Turn.visits_queue graph.circuit program graph.begin graph.circuit.order
  have recorded : (graph.sweep program).journal.toList = entries := journal
  rw [recorded]
  exact queue

/-- Unless a call empties the queue, it puts to the queue what its journal records
as delivered to outputs. -/
theorem perform_outgoing (graph : Graph ν) {call : Call} (noDrain : call ≠ .drain)
    (noReset : call ≠ .reset) :
    (graph.perform call).1.state.outgoing =
      graph.state.outgoing.after (outputsOf (graph.perform call).2.2.toList) := by
  cases call with
  | setInput id value =>
      simp only [perform, setInput?]
      cases graph.circuit.inputSlot? id <;> rfl
  | setLocal id value =>
      simp only [perform, setLocal?]
      cases graph.circuit.localSlot? id <;> rfl
  | process timeStep => exact graph.sweep_outgoing _
  | post id =>
      simp only [perform, post?]
      cases graph.circuit.entrance id with
      | nil => rfl
      | cons target targets =>
          obtain ⟨entries, journal, queue⟩ := Turn.settle_queues graph.circuit graph.state #[]
            graph.circuit.hopLimit [⟨id, target :: targets⟩]
          simp only [List.nil_append] at journal
          simp only [settled, journal]
          exact queue
  | drain => exact absurd rfl noDrain
  | reset => exact absurd rfl noReset
  | init context => exact graph.sweep_outgoing _

end Graph

end NodeGraph
