import NodeGraph.Journal

namespace NodeGraph

/-! How events travel. Event wires may form cycles; what keeps a cycle from
running forever is the budget of the call that delivers, not the routes. -/

/-! ## Routes -/

/-- For each node and each of its output events the targets, in the order in
which they were connected. -/
structure EventRoutes where
  rows : List (List (List Target)) := []
  deriving Repr

namespace EventRoutes

/-- Makes room for one more node with that many output events. -/
def addNode (routes : EventRoutes) (outputEvents : Nat) : EventRoutes :=
  ⟨routes.rows ++ [List.replicate outputEvents []]⟩

/-- The targets of a node's output event; an event that does not exist has
none. -/
def targets (routes : EventRoutes) (node output : Nat) : List Target :=
  match routes.rows[node]? with
  | some events => events[output]?.getD []
  | none => []

def hasOutput (routes : EventRoutes) (node output : Nat) : Bool :=
  match routes.rows[node]? with
  | some events => output < events.length
  | none => false

/-- Adds a target to an output event; `none` if there is no such event. -/
def connect? (routes : EventRoutes) (node output : Nat) (target : Target) : Option EventRoutes :=
  if routes.hasOutput node output then
    some ⟨routes.rows.modify node fun events => events.modify output (· ++ [target])⟩
  else
    none

example :
    ((addNode {} 1).connect? 0 0 (.node 0 2)).map (·.targets 0 0) = some [.node 0 2] := rfl

example : ((addNode {} 1).connect? 0 1 (.node 0 2)).isNone = true := rfl

end EventRoutes

/-! ## The outgoing queue -/

/-- Output events waiting for the host, oldest first, at most `capacity` of
them. -/
structure OutgoingQueue where
  waiting : List Identifier := []
  capacity : Nat
  deriving Repr

namespace OutgoingQueue

/-- The bytes that a waiting event takes: the hash of its identifier and a reference
to the name that the identifier remembers. -/
def eventBytes : Nat := 24

/-- The most bytes that can be asked for at a time. -/
def mostBytes : Nat := 0x7fffffffffffffff

/-- Room for so many events can be asked for. A queue has all its room set aside when
it is made, and to ask for more than that ends the whole process. -/
def CanReserve (capacity : Nat) : Prop :=
  capacity * eventBytes ≤ mostBytes

instance (capacity : Nat) : Decidable (CanReserve capacity) :=
  inferInstanceAs (Decidable (_ ≤ _))

def size (queue : OutgoingQueue) : Nat :=
  queue.waiting.length

def isEmpty (queue : OutgoingQueue) : Bool :=
  queue.waiting.isEmpty

/-- Puts an event behind the others; `none` if the queue is full. -/
def push? (queue : OutgoingQueue) (event : Identifier) : Option OutgoingQueue :=
  if queue.size < queue.capacity then
    some { queue with waiting := queue.waiting ++ [event] }
  else
    none

/-- The oldest event and the queue without it. -/
def pop? (queue : OutgoingQueue) : Option (Identifier × OutgoingQueue) :=
  match queue.waiting with
  | [] => none
  | event :: rest => some (event, { queue with waiting := rest })

def clear (queue : OutgoingQueue) : OutgoingQueue :=
  { queue with waiting := [] }

theorem size_lt_of_pop? {queue rest : OutgoingQueue} {event : Identifier}
    (popped : queue.pop? = some (event, rest)) : rest.size < queue.size := by
  unfold pop? at popped
  split at popped
  next => cases popped
  next waiting =>
    rw [Option.some.injEq, Prod.mk.injEq] at popped
    simp [size, waiting, ← popped.2]

/-- Hands the waiting events over one by one, oldest first, until none is left. What
receives them has a state of its own. -/
def handOver (receive : σ → Identifier → σ) (state : σ) (queue : OutgoingQueue) :
    σ × OutgoingQueue :=
  match _ : queue.pop? with
  | none => (state, queue)
  | some (event, rest) => handOver receive (receive state event) rest
termination_by queue.size
decreasing_by exact size_lt_of_pop? ‹_›

end OutgoingQueue

/-! ## Parcels -/

/-- A fired event on its way: the targets that it has not reached yet. -/
structure Parcel where
  event : Identifier
  targets : List Target
  deriving Repr

namespace Parcel

def ofEmission (routes : EventRoutes) (node : Nat) (emission : Emission) : Parcel :=
  ⟨emission.event, routes.targets node emission.output⟩

/-- An event that reaches one target, and the queue of parcels that it leaves. -/
structure Delivery where
  target : Target
  event : Identifier
  rest : List Parcel

/-- What is delivered next from a queue of parcels: the first target of the
first parcel that has one. Parcels before it, which have reached everything, are
dropped. -/
def next? : List Parcel → Option Delivery
  | [] => none
  | ⟨_, []⟩ :: later => next? later
  | ⟨event, target :: targets⟩ :: later => some ⟨target, event, ⟨event, targets⟩ :: later⟩

/-- Parcels not yet fully delivered when a delivery is refused: the one being
delivered and all behind it. -/
def Delivery.pending (delivery : Delivery) : Nat :=
  delivery.rest.length

/-- Every delivery a queue stands for, in order. -/
def deliveries (parcels : List Parcel) : List (Target × Identifier) :=
  parcels.flatMap fun parcel => parcel.targets.map fun target => (target, parcel.event)

theorem deliveries_eq_nil_of_next?_eq_none {parcels : List Parcel}
    (nothingNext : next? parcels = none) : deliveries parcels = [] := by
  induction parcels with
  | nil => rfl
  | cons parcel later induction =>
      obtain ⟨event, targets⟩ := parcel
      cases targets with
      | nil => simpa [deliveries] using induction nothingNext
      | cons target targets => simp [next?] at nothingNext

theorem deliveries_of_next?_eq_some {parcels : List Parcel} {delivery : Delivery}
    (isNext : next? parcels = some delivery) :
    deliveries parcels = (delivery.target, delivery.event) :: deliveries delivery.rest := by
  induction parcels with
  | nil => simp [next?] at isNext
  | cons parcel later induction =>
      obtain ⟨event, targets⟩ := parcel
      cases targets with
      | nil => simpa [deliveries] using induction isNext
      | cons target targets =>
          obtain rfl : _ = delivery := by simpa [next?] using isNext
          simp [deliveries]

end Parcel

end NodeGraph
