import NodeGraph.Host

namespace NodeGraph

/-! How a call delivers events. The journal of a call says which events the
graph's own nodes fired and which deliveries were made. Delivery is a broadcast,
first come first served: the deliveries are those that the fired events call
for, in the order in which the events were fired, as far as the budget of the
call reaches. -/

/-! ## What a journal records -/

/-- The deliveries that a journal records for the graph itself. -/
def deliveriesOf (entries : List Entry) : List (Target × Identifier) :=
  entries.filterMap Entry.delivery?

/-- The events that a journal records as fired by the graph's own nodes. -/
def emissionsOf (entries : List Entry) : List (Nat × Emission) :=
  entries.filterMap Entry.emission?

@[simp] theorem deliveriesOf_nil : deliveriesOf [] = [] := rfl

@[simp] theorem emissionsOf_nil : emissionsOf [] = [] := rfl

@[simp] theorem deliveriesOf_append (first second : List Entry) :
    deliveriesOf (first ++ second) = deliveriesOf first ++ deliveriesOf second := by
  simp [deliveriesOf]

@[simp] theorem emissionsOf_append (first second : List Entry) :
    emissionsOf (first ++ second) = emissionsOf first ++ emissionsOf second := by
  simp [emissionsOf]

@[simp] theorem deliveriesOf_delivered (target : Target) (event : Identifier)
    (entries : List Entry) :
    deliveriesOf (.delivered target event :: entries) =
      (target, event) :: deliveriesOf entries := rfl

@[simp] theorem emissionsOf_delivered (target : Target) (event : Identifier)
    (entries : List Entry) :
    emissionsOf (.delivered target event :: entries) = emissionsOf entries := rfl

@[simp] theorem deliveriesOf_inside (index : Nat) (entries : List Entry) :
    deliveriesOf (entries.map (Entry.inside index)) = [] := by
  simp [deliveriesOf, Entry.delivery?]

@[simp] theorem emissionsOf_inside (index : Nat) (entries : List Entry) :
    emissionsOf (entries.map (Entry.inside index)) = [] := by
  simp [emissionsOf, Entry.emission?]

@[simp] theorem deliveriesOf_emitted (index : Nat) (emissions : List Emission) :
    deliveriesOf (emissions.map (Entry.emitted index)) = [] := by
  simp [deliveriesOf, Entry.delivery?]

@[simp] theorem emissionsOf_emitted (index : Nat) (emissions : List Emission) :
    emissionsOf (emissions.map (Entry.emitted index)) =
      emissions.map fun emission => (index, emission) := by
  induction emissions with
  | nil => rfl
  | cons emission emissions induction =>
      simpa [emissionsOf, Entry.emission?] using induction

/-! ## What fired events call for -/

/-- The deliveries that fired events call for: every target of the first event,
then every target of the second, and so on. -/
def EventRoutes.due (routes : EventRoutes) (emissions : List (Nat × Emission)) :
    List (Target × Identifier) :=
  emissions.flatMap fun (node, emission) =>
    (routes.targets node emission.output).map fun target => (target, emission.event)

@[simp] theorem EventRoutes.due_nil (routes : EventRoutes) : routes.due [] = [] := rfl

@[simp] theorem EventRoutes.due_append (routes : EventRoutes)
    (first second : List (Nat × Emission)) :
    routes.due (first ++ second) = routes.due first ++ routes.due second := by
  simp [EventRoutes.due]

@[simp] theorem Parcel.deliveries_append (first second : List Parcel) :
    deliveries (first ++ second) = deliveries first ++ deliveries second := by
  simp [deliveries]

/-- The parcels of fired events stand for the deliveries that the events call
for. -/
theorem Parcel.deliveries_ofEmission (routes : EventRoutes) (node : Nat)
    (emissions : List Emission) :
    deliveries (emissions.map (Parcel.ofEmission routes node)) =
      routes.due (emissions.map fun emission => (node, emission)) := by
  simp [deliveries, EventRoutes.due, Parcel.ofEmission, List.flatMap_map]

/-! ## Broadcasts -/

/-- Some entries of a journal are a broadcast if their deliveries are those of
`opening` and those that their emissions call for, as far as `hops` deliveries
reach. `left` is what then remains of the budget. -/
structure Broadcast (routes : EventRoutes) (opening : List (Target × Identifier))
    (hops : Nat) (entries : List Entry) (left : Nat) : Prop where
  deliveries : deliveriesOf entries = (opening ++ routes.due (emissionsOf entries)).take hops
  budget : left = hops - (deliveriesOf entries).length

namespace Broadcast

variable {routes : EventRoutes}

theorem nothing (hops : Nat) : Broadcast routes [] hops [] hops :=
  ⟨by simp, by simp⟩

/-- A refused delivery ends a broadcast. -/
theorem refused (opening : List (Target × Identifier)) (graph : String) (limit dropped : Nat) :
    Broadcast routes opening 0 [.exhausted graph limit dropped] 0 :=
  ⟨by simp [deliveriesOf, Entry.delivery?], by simp⟩

/-- Entries that deliver nothing leave their emissions to be delivered first by
what follows. -/
theorem of_emissions {fired entries : List Entry} {opening : List (Target × Identifier)}
    {hops left : Nat} (delivered : deliveriesOf fired = [])
    (rest : Broadcast routes (opening ++ routes.due (emissionsOf fired)) hops entries left) :
    Broadcast routes opening hops (fired ++ entries) left where
  deliveries := by simpa [delivered] using rest.deliveries
  budget := by simpa [delivered] using rest.budget

/-- A delivery takes the head of the opening and one hop. -/
theorem of_delivery {entries : List Entry} {target : Target} {event : Identifier}
    {opening : List (Target × Identifier)} {hops left : Nat}
    (rest : Broadcast routes opening hops entries left) :
    Broadcast routes ((target, event) :: opening) (hops + 1)
      (.delivered target event :: entries) left where
  deliveries := by simp [rest.deliveries]
  budget := by simp [rest.budget]

/-- One broadcast after another is a broadcast. If the first one uses the budget
up, nothing is left for the second; if not, everything in the first was
delivered. -/
theorem append {first second : List Entry} {opening : List (Target × Identifier)}
    {hops middle left : Nat} (before : Broadcast routes opening hops first middle)
    (after : Broadcast routes [] middle second left) :
    Broadcast routes opening hops (first ++ second) left := by
  have lengths : (deliveriesOf first).length =
      min hops (opening ++ routes.due (emissionsOf first)).length := by
    rw [before.deliveries, List.length_take]
  have remaining : middle = hops - (opening ++ routes.due (emissionsOf first)).length := by
    rw [before.budget, lengths]
    omega
  constructor
  · rw [deliveriesOf_append, emissionsOf_append, EventRoutes.due_append, ← List.append_assoc,
      List.take_append, ← before.deliveries, after.deliveries, ← remaining, List.nil_append]
  · rw [after.budget, before.budget, deliveriesOf_append, List.length_append]
    omega

end Broadcast

/-! ## Turns -/

namespace Turn

/-- What a turn adds to its journal is a broadcast. -/
def Continues (routes : EventRoutes) (opening : List (Target × Identifier))
    (before after : Turn ν) : Prop :=
  ∃ entries, after.journal.toList = before.journal.toList ++ entries ∧
    Broadcast routes opening before.hops entries after.hops

theorem Continues.trans {routes : EventRoutes} {opening : List (Target × Identifier)}
    {first second third : Turn ν} (before : Continues routes opening first second)
    (after : Continues routes [] second third) : Continues routes opening first third := by
  rcases before with ⟨early, earlyJournal, earlyBroadcast⟩
  rcases after with ⟨late, lateJournal, lateBroadcast⟩
  exact ⟨early ++ late, by rw [lateJournal, earlyJournal, List.append_assoc],
    earlyBroadcast.append lateBroadcast⟩

/-- Running a node delivers nothing. Its parcels stand for what its emissions
call for. -/
theorem runCell_journal (circuit : Circuit) (index : Nat)
    (program : Cell ν → Program (Cell ν)) (turn : Turn ν) :
    ∃ entries,
      (turn.runCell circuit index program).1.journal.toList = turn.journal.toList ++ entries ∧
      deliveriesOf entries = [] ∧
      Parcel.deliveries (turn.runCell circuit index program).2 =
        circuit.routes.due (emissionsOf entries) ∧
      (turn.runCell circuit index program).1.hops = turn.hops := by
  rcases ran : turn.state.runCell circuit index program with ⟨state, emitted, journal⟩
  refine ⟨journal.toList.map (Entry.inside index) ++
    emitted.toList.map (Entry.emitted index), ?_, ?_, ?_, ?_⟩
  · simp [runCell, ran]
  · simp
  · simp [runCell, ran, Parcel.deliveries_ofEmission]
  · simp [runCell, ran]

variable [Processor ν]

/-- A delivery is put on record, followed by what the target does. -/
theorem deliver_journal (circuit : Circuit) (target : Target) (event : Identifier)
    (turn : Turn ν) :
    ∃ entries,
      (deliver circuit target event turn).1.journal.toList =
        turn.journal.toList ++ .delivered target event :: entries ∧
      deliveriesOf entries = [] ∧
      Parcel.deliveries (deliver circuit target event turn).2 =
        circuit.routes.due (emissionsOf entries) := by
  cases target with
  | graphOutput id =>
      simp only [deliver]
      split
      · exact ⟨[], by simp, rfl, rfl⟩
      · exact ⟨[.queueFull id], by simp, rfl, rfl⟩
  | node index input =>
      rcases runCell_journal circuit index (fun cell => do
          let node ← Processor.onEvent input event cell.node
          pure { cell with node })
          { turn with journal := turn.journal.push (.delivered (.node index input) event) } with
        ⟨entries, journal, delivered, parcels, -⟩
      exact ⟨entries, by simpa [deliver] using journal, delivered, parcels⟩

/-- Settling broadcasts what its parcels stand for and all that this gives rise
to. The induction is on the budget; whatever a delivery fires joins the end of
the queue. -/
theorem settle_continues (circuit : Circuit) (state : State ν) (journal : Array Entry)
    (hops : Nat) (parcels : List Parcel) :
    Continues circuit.routes (Parcel.deliveries parcels) { state, hops, journal }
      (settle circuit state journal hops parcels) := by
  induction hops generalizing state journal parcels with
  | zero =>
      unfold settle
      cases isNext : Parcel.next? parcels with
      | none =>
          rw [Parcel.deliveries_eq_nil_of_next?_eq_none isNext]
          exact ⟨[], by simp, .nothing 0⟩
      | some delivery =>
          exact ⟨[.exhausted circuit.name circuit.hopLimit delivery.pending], by simp,
            .refused _ _ _ _⟩
  | succ hops induction =>
      unfold settle
      cases isNext : Parcel.next? parcels with
      | none =>
          rw [Parcel.deliveries_eq_nil_of_next?_eq_none isNext]
          exact ⟨[], by simp, .nothing (hops + 1)⟩
      | some delivery =>
          rcases deliver_journal circuit delivery.target delivery.event
            { state, hops, journal } with ⟨fired, firedJournal, delivered, firedParcels⟩
          rcases induction
            (deliver circuit delivery.target delivery.event { state, hops, journal }).1.state
            (deliver circuit delivery.target delivery.event { state, hops, journal }).1.journal
            (delivery.rest ++
              (deliver circuit delivery.target delivery.event { state, hops, journal }).2) with
            ⟨entries, restJournal, rest⟩
          rw [Parcel.deliveries_append, firedParcels] at rest
          refine ⟨.delivered delivery.target delivery.event :: (fired ++ entries), ?_, ?_⟩
          · simpa [firedJournal] using restJournal
          · rw [Parcel.deliveries_of_next?_eq_some isNext]
            exact .of_delivery (.of_emissions delivered rest)

/-- Visiting a node broadcasts what it fires. -/
theorem visit_continues (circuit : Circuit) (program : Cell ν → Program (Cell ν))
    (turn : Turn ν) (index : Nat) :
    Continues circuit.routes [] turn (visit circuit program turn index) := by
  rcases runCell_journal circuit index program turn with
    ⟨fired, firedJournal, delivered, firedParcels, hops⟩
  rcases settle_continues circuit (turn.runCell circuit index program).1.state
    (turn.runCell circuit index program).1.journal (turn.runCell circuit index program).1.hops
    (turn.runCell circuit index program).2 with ⟨entries, restJournal, rest⟩
  rw [firedParcels, hops] at rest
  refine ⟨fired ++ entries, ?_, .of_emissions delivered rest⟩
  simpa [visit, firedJournal] using restJournal

theorem visits_continue (circuit : Circuit) (program : Cell ν → Program (Cell ν))
    (turn : Turn ν) (indices : List Nat) :
    Continues circuit.routes [] turn (indices.foldl (visit circuit program) turn) := by
  induction indices generalizing turn with
  | nil => exact ⟨[], by simp, .nothing _⟩
  | cons index indices induction =>
      exact (visit_continues circuit program turn index).trans (induction _)

end Turn

end NodeGraph
