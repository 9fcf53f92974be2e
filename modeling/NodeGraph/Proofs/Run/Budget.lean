import Mathlib.Algebra.BigOperators.Intervals
import NodeGraph.Proofs.Run.Crossing

namespace NodeGraph

/-! How many events a call delivers in the graphs inside a graph. The budget is
one of each call into each graph. A graph inside is called whenever something
happens to its node, so in one call from the host it may be called once, and once
more for every event that the graph around it delivers; each time it has its
whole budget again. Main statement: what this comes to at most, at any depth. -/

/-! ## What a journal records of graphs inside -/

/-- What an entry records of the graph inside the node at a position. -/
def Entry.inside? (index : Nat) : Entry → Option Entry
  | .inside node entry => if node = index then some entry else none
  | _ => none

/-- What a journal records of the graph that one comes to by entering the nodes
at some positions, one inside the other. -/
def entriesAt : (path : List Nat) → List Entry → List Entry
  | [], entries => entries
  | index :: path, entries => entriesAt path (entries.filterMap (Entry.inside? index))

/-- The deliveries that a journal records for that graph. -/
def deliveriesAt (path : List Nat) (entries : List Entry) : List (Target × Identifier) :=
  deliveriesOf (entriesAt path entries)

@[simp] theorem entriesAt_nil (path : List Nat) : entriesAt path [] = [] := by
  induction path with
  | nil => rfl
  | cons index path induction => exact induction

theorem entriesAt_append (path : List Nat) (first second : List Entry) :
    entriesAt path (first ++ second) = entriesAt path first ++ entriesAt path second := by
  induction path generalizing first second with
  | nil => rfl
  | cons index path induction =>
      unfold entriesAt
      rw [List.filterMap_append, induction]

@[simp] theorem deliveriesAt_nil (path : List Nat) : deliveriesAt path [] = [] := by
  simp [deliveriesAt]

@[simp] theorem deliveriesAt_append (path : List Nat) (first second : List Entry) :
    deliveriesAt path (first ++ second) = deliveriesAt path first ++ deliveriesAt path second := by
  simp [deliveriesAt, entriesAt_append]

/-- What happened inside a node is what is recorded of the graph there. -/
@[simp] theorem filterMap_inside (index : Nat) (entries : List Entry) :
    (entries.map (Entry.inside index)).filterMap (Entry.inside? index) = entries := by
  rw [List.filterMap_map]
  have kept : Entry.inside? index ∘ Entry.inside index = some := by
    funext entry
    simp [Entry.inside?]
  rw [kept, List.filterMap_some]

theorem filterMap_inside_of_ne {index other : Nat} (different : other ≠ index)
    (entries : List Entry) :
    (entries.map (Entry.inside other)).filterMap (Entry.inside? index) = [] := by
  simp [Entry.inside?, different]

@[simp] theorem filterMap_emitted (index node : Nat) (emissions : List Emission) :
    (emissions.map (Entry.emitted node)).filterMap (Entry.inside? index) = [] := by
  simp [Entry.inside?]

/-! ## Turns

What a turn has brought about inside a node, and what its budget may still bring
about there: while events are delivered the sum does not grow, if no delivery
brings about more than `each`. -/

namespace Turn

/-- What has been delivered below the node at a position, and `each` delivery
that is left charged for. -/
def charge (index : Nat) (path : List Nat) (each : Nat) (turn : Turn ν) : Nat :=
  (deliveriesAt (index :: path) turn.journal.toList).length + each * turn.hops

variable {circuit : Circuit} {index : Nat} {path : List Nat} {each : Nat}

/-- A node that runs is charged with what happens inside it. -/
theorem charge_runCell (program : Cell ν → Program (Cell ν)) (turn : Turn ν) :
    (turn.runCell circuit index program).1.charge index path each =
      turn.charge index path each + (deliveriesAt path
        (turn.state.runCell circuit index program).2.2.toList).length := by
  rcases ran : turn.state.runCell circuit index program with ⟨state, emitted, journal⟩
  simp only [runCell, ran, charge, Array.toList_append, Array.toList_map, deliveriesAt,
    entriesAt, List.filterMap_append, filterMap_inside, filterMap_emitted, List.append_nil,
    entriesAt_append, deliveriesOf_append, List.length_append]
  omega

/-- Other nodes are not charged. -/
theorem charge_runCell_other {other : Nat} (different : other ≠ index)
    (program : Cell ν → Program (Cell ν)) (turn : Turn ν) :
    (turn.runCell circuit other program).1.charge index path each =
      turn.charge index path each := by
  rcases ran : turn.state.runCell circuit other program with ⟨state, emitted, journal⟩
  simp only [runCell, ran, charge, Array.toList_append, Array.toList_map, deliveriesAt,
    entriesAt, List.filterMap_append, filterMap_inside_of_ne different, filterMap_emitted,
    List.append_nil]

/-- Nothing is charged for an entry that is not of what is inside the node. -/
theorem charge_record (index : Nat) (path : List Nat) (each : Nat) {entry : Entry}
    (elsewhere : entry.inside? index = none) (turn : Turn ν) :
    charge index path each { turn with journal := turn.journal.push entry } =
      turn.charge index path each := by
  have nothing : [entry].filterMap (Entry.inside? index) = [] := by simp [elsewhere]
  simp only [charge, deliveriesAt, entriesAt, Array.toList_push, List.filterMap_append, nothing,
    List.append_nil]

variable [Processor ν] {holds : State ν → Prop}

/-- No event brings about more than `each` deliveries inside a node. -/
def Cheap (circuit : Circuit) (holds : State ν → Prop) (index : Nat) (path : List Nat)
    (each : Nat) : Prop :=
  ∀ input event (state : State ν), holds state →
    (deliveriesAt path (state.runCell circuit index
      (Happening.onEvent input event).program).2.2.toList).length ≤ each

theorem deliver_hops (circuit : Circuit) (target : Target) (event : Identifier)
    (turn : Turn ν) : (deliver circuit target event turn).1.hops = turn.hops := by
  cases target with
  | graphOutput id =>
      simp only [deliver]
      split <;> rfl
  | node node input => rfl

/-- A delivery costs no more than `each`. -/
theorem charge_deliver (cheap : Cheap circuit holds index path each) (target : Target)
    (event : Identifier) (turn : Turn ν) (before : holds turn.state) :
    (deliver circuit target event turn).1.charge index path each ≤
      turn.charge index path each + each := by
  have outside : (Entry.delivered target event).inside? index = none := rfl
  have recorded := charge_record index path each outside turn
  cases target with
  | graphOutput id =>
      simp only [deliver]
      split
      next outgoing queued => exact Nat.le_add_right_of_le (Nat.le_of_eq recorded)
      next refused =>
        have lostOutside : (Entry.queueFull id).inside? index = none := rfl
        have lost := charge_record index path each lostOutside
          { turn with journal := turn.journal.push (.delivered (.graphOutput id) event) }
        exact Nat.le_add_right_of_le (Nat.le_of_eq (lost.trans recorded))
  | node node input =>
      simp only [deliver]
      by_cases same : node = index
      · subst same
        rw [charge_runCell, recorded]
        exact Nat.add_le_add_left (cheap input event turn.state before) _
      · rw [charge_runCell_other same, recorded]
        exact Nat.le_add_right _ _

/-- Settling never raises the charge: every delivery is paid for by the hop that
it takes. The induction is on the budget. -/
theorem charge_settle (keeps : circuit.Turns holds) (cheap : Cheap circuit holds index path each)
    (state : State ν) (journal : Array Entry) (hops : Nat) {parcels : List Parcel}
    (routes : circuit.Routes parcels) (before : holds state) :
    (settle circuit state journal hops parcels).charge index path each ≤
      charge index path each { state, hops, journal } := by
  induction hops generalizing state journal parcels with
  | zero =>
      unfold settle
      cases Parcel.next? parcels with
      | none => exact Nat.le_refl _
      | some delivery =>
          exact Nat.le_of_eq
            (charge_record index path each rfl ({ state, hops := 0, journal } : Turn ν))
  | succ hops induction =>
      unfold settle
      cases isNext : Parcel.next? parcels with
      | none => exact Nat.le_refl _
      | some delivery =>
          rw [Circuit.Routes, Parcel.deliveries_of_next?_eq_some isNext] at routes
          have rest : circuit.Routes delivery.rest := fun later member =>
            routes later (.tail _ member)
          have paid : charge index path each { state, hops := hops + 1, journal } =
              charge index path each { state, hops, journal } + each := by
            simp only [charge]
            rw [Nat.mul_add_one]
            omega
          have delivered := charge_deliver cheap delivery.target delivery.event
            { state, hops, journal } before
          have sameHops := deliver_hops circuit delivery.target delivery.event
            { state, hops, journal }
          have fired := deliver_routes circuit delivery.target delivery.event
            { state, hops, journal }
          have after := deliver_keeps keeps (routes _ (.head _)) delivery.event
            { state, hops, journal } before
          rw [paid]
          refine (induction _ _ (rest.append fired) after).trans (Nat.le_trans ?_ delivered)
          simp only [charge, sameHops]
          exact Nat.le_refl _

/-- A visit raises the charge by what happens inside the node when it is its own
turn, and not at all when it is that of another. -/
theorem charge_visit (keeps : circuit.Turns holds) (cheap : Cheap circuit holds index path each)
    (happening : Happening) (turn : Turn ν) (visited : Nat) (before : holds turn.state) :
    (visit circuit happening.program turn visited).charge index path each ≤
      (turn.runCell circuit visited happening.program).1.charge index path each := by
  rw [visit_eq]
  exact charge_settle keeps cheap _ _ _ (runCell_routes circuit visited _ turn)
    (keeps.runs visited happening _ before)

/-- Nodes that are visited one after the other, none of them twice, raise the
charge by what happens once inside the node at `index`. -/
theorem charge_visits (keeps : circuit.Turns holds) (cheap : Cheap circuit holds index path each)
    (happening : Happening) {once : Nat}
    (bounded : ∀ state, holds state → (deliveriesAt path
      (state.runCell circuit index happening.program).2.2.toList).length ≤ once)
    (turn : Turn ν) {indices : List Nat} (nodup : indices.Nodup) (before : holds turn.state) :
    (indices.foldl (visit circuit happening.program) turn).charge index path each ≤
      turn.charge index path each + if index ∈ indices then once else 0 := by
  induction indices generalizing turn with
  | nil => exact Nat.le_refl _
  | cons visited indices induction =>
      have visit := charge_visit keeps cheap happening turn visited before
      have after : holds (Turn.visit circuit happening.program turn visited).state :=
        visits_keep keeps happening turn [visited] before
      have rest := induction _ (List.nodup_cons.mp nodup).2 after
      rw [List.foldl_cons]
      by_cases same : visited = index
      · subst same
        rw [if_neg (List.nodup_cons.mp nodup).1] at rest
        rw [charge_runCell] at visit
        rw [if_pos List.mem_cons_self]
        have own := bounded turn.state before
        omega
      · rw [charge_runCell_other same] at visit
        simp only [List.mem_cons, Ne.symm same, false_or]
        omega

end Turn

/-! ## Calls -/

/-- The most that an event brings about in a graph that lies `depth` subroutines
deep: it uses up the budget on every level. -/
def eventWork (hops depth : Nat) : Nat :=
  hops ^ (depth + 1)

/-- The most that a tick brings about there: it also runs every node once. -/
def tickWork (hops depth : Nat) : Nat :=
  ∑ level ∈ Finset.range (depth + 1), eventWork hops level

theorem tickWork_succ (hops depth : Nat) :
    tickWork hops (depth + 1) = tickWork hops depth + eventWork hops depth * hops := by
  rw [tickWork, Finset.sum_range_succ]
  exact congrArg (tickWork hops depth + ·) (Nat.pow_succ hops (depth + 1))

/-- The most deliveries that something that happens to a node brings about in a
graph `depth` subroutines below it. -/
def Happening.mostDeliveries (hops depth : Nat) : Happening → Nat
  | .onEvent _ _ => eventWork hops depth
  | .process _ | .init _ => tickWork hops depth

theorem Happening.mostDeliveries_le (hops depth : Nat) (happening : Happening) :
    happening.mostDeliveries hops depth ≤ tickWork hops depth := by
  cases happening with
  | onEvent input event =>
      rw [mostDeliveries, tickWork, Finset.sum_range_succ]
      exact Nat.le_add_left _ _
  | _ => exact Nat.le_refl _

/-- The most deliveries that a call brings about in a graph `depth` subroutines
deep. -/
def Call.mostDeliveries (hops depth : Nat) : Call → Nat
  | .post _ => eventWork hops depth
  | .process _ | .init _ => tickWork hops depth
  | _ => 0

/-- A refusal is put on record, and that is all. -/
theorem deliveriesAt_refusal {refusal : Entry} (nothing : refusal.delivery? = none)
    (outside : ∀ index, refusal.inside? index = none) (path : List Nat) :
    deliveriesAt path [refusal] = [] := by
  cases path with
  | nil => simp [deliveriesAt, entriesAt, deliveriesOf, nothing]
  | cons index path => simp [deliveriesAt, entriesAt, outside]

namespace Graph

theorem deliveriesAt_settled (graph : Graph ν) {refusal : Entry}
    (nothing : refusal.delivery? = none) (outside : ∀ index, refusal.inside? index = none)
    (accepted : Option (Graph ν)) (path : List Nat) :
    deliveriesAt path
      (graph.settled refusal (accepted.map fun after => (after, #[]))).2.2.toList = [] := by
  cases accepted with
  | none => exact deliveriesAt_refusal nothing outside path
  | some after => exact deliveriesAt_nil path

variable [Processor ν] {graph : Graph ν}

/-- On the level of the graph itself a call keeps to the budget. -/
theorem deliveriesAt_nil_le (graph : Graph ν) (call : Call) :
    (deliveriesAt [] (graph.perform call).2.2.toList).length ≤
      call.mostDeliveries graph.circuit.hopLimit 0 := by
  have within : (deliveriesAt [] (graph.perform call).2.2.toList).length ≤
      graph.circuit.hopLimit := by
    rw [deliveriesAt, entriesAt, graph.perform_broadcast]
    exact List.length_take_le _ _
  have event : eventWork graph.circuit.hopLimit 0 = graph.circuit.hopLimit := Nat.pow_one _
  have tick : tickWork graph.circuit.hopLimit 0 = graph.circuit.hopLimit := by
    simp [tickWork, event]
  cases call with
  | setInput id value =>
      exact Nat.le_of_eq (congrArg List.length
        (graph.deliveriesAt_settled rfl (fun _ => rfl) (graph.setInput? id value) []))
  | setLocal id value =>
      exact Nat.le_of_eq (congrArg List.length
        (graph.deliveriesAt_settled rfl (fun _ => rfl) (graph.setLocal? id value) []))
  | process timeStep => exact within.trans (Nat.le_of_eq tick.symm)
  | post id => exact within.trans (Nat.le_of_eq event.symm)
  | drain => exact Nat.le_refl 0
  | reset => exact Nat.le_refl 0
  | init context => exact within.trans (Nat.le_of_eq tick.symm)

/-- In a sweep every delivery may be an event for the node, and the node runs once
besides. -/
theorem deliveriesAt_sweep_le {holds : State ν → Prop} (keeps : graph.circuit.Turns holds)
    (nodup : graph.circuit.order.Nodup) (before : holds graph.state) {index depth : Nat}
    {path : List Nat}
    (cheap : Turn.Cheap graph.circuit holds index path
      (eventWork graph.circuit.hopLimit depth)) (happening : Happening)
    (bounded : ∀ state, holds state → (deliveriesAt path
      (state.runCell graph.circuit index happening.program).2.2.toList).length ≤
        happening.mostDeliveries graph.circuit.hopLimit depth) :
    (deliveriesAt (index :: path) (graph.sweep happening.program).journal.toList).length ≤
      tickWork graph.circuit.hopLimit (depth + 1) := by
  have charged := Turn.charge_visits keeps cheap happening
    (fun state suits => (bounded state suits).trans (happening.mostDeliveries_le _ _))
    graph.begin nodup before
  have once : (if index ∈ graph.circuit.order then tickWork graph.circuit.hopLimit depth
      else 0) ≤ tickWork graph.circuit.hopLimit depth := by
    split <;> omega
  have start : graph.begin.charge index path (eventWork graph.circuit.hopLimit depth) =
      eventWork graph.circuit.hopLimit depth * graph.circuit.hopLimit := by
    simp [Turn.charge, begin]
  rw [start, Turn.charge] at charged
  rw [tickWork_succ, sweep]
  omega

/-- One level down, a call keeps to the budget if all that happens to the node
does. -/
theorem deliveriesAt_cons_le {holds : State ν → Prop} (keeps : graph.circuit.Turns holds)
    (nodup : graph.circuit.order.Nodup) (before : holds graph.state) {index depth : Nat}
    {path : List Nat}
    (bounded : ∀ (happening : Happening) state, holds state → (deliveriesAt path
      (state.runCell graph.circuit index happening.program).2.2.toList).length ≤
        happening.mostDeliveries graph.circuit.hopLimit depth) (call : Call) :
    (deliveriesAt (index :: path) (graph.perform call).2.2.toList).length ≤
      call.mostDeliveries graph.circuit.hopLimit (depth + 1) := by
  have cheap : Turn.Cheap graph.circuit holds index path
      (eventWork graph.circuit.hopLimit depth) := fun input event =>
    bounded (.onEvent input event)
  have ticks (happening : Happening) :
      (deliveriesAt (index :: path) (graph.sweep happening.program).journal.toList).length ≤
        tickWork graph.circuit.hopLimit (depth + 1) :=
    deliveriesAt_sweep_le keeps nodup before cheap happening (bounded happening)
  cases call with
  | setInput id value =>
      exact Nat.le_of_eq (congrArg List.length
        (graph.deliveriesAt_settled rfl (fun _ => rfl) (graph.setInput? id value) _))
  | setLocal id value =>
      exact Nat.le_of_eq (congrArg List.length
        (graph.deliveriesAt_settled rfl (fun _ => rfl) (graph.setLocal? id value) _))
  | process timeStep => exact ticks (.process timeStep)
  | post id =>
      simp only [perform, post?]
      cases leads : graph.circuit.entrance id with
      | nil => exact Nat.le_trans (Nat.le_of_eq (congrArg List.length
          (deliveriesAt_refusal rfl (fun _ => rfl) _))) (Nat.zero_le _)
      | cons target targets =>
          have routes := graph.circuit.routes_entrance id
          rw [leads] at routes
          have charged := Turn.charge_settle keeps cheap graph.state #[] graph.circuit.hopLimit
            routes before
          simp only [Turn.charge, deliveriesAt_nil, List.length_nil] at charged
          have work : eventWork graph.circuit.hopLimit (depth + 1) =
            eventWork graph.circuit.hopLimit depth * graph.circuit.hopLimit := Nat.pow_succ _ _
          simp only [settled, Call.mostDeliveries, work]
          omega
  | drain => exact Nat.le_of_eq (congrArg List.length (deliveriesAt_nil _))
  | reset => exact Nat.le_of_eq (congrArg List.length (deliveriesAt_nil _))
  | init context => exact ticks (.init context)

end Graph

/-! ## Compiled graphs -/

/-- A call into the graph inside a node brings about no more than what happens to
the node does. -/
theorem Subroutine.mostDeliveries_inward [Processor ν] {subroutine : Subroutine ν} {panel : Panel}
    {happening : Happening} {graph : Graph ν} {call : Call}
    (entered : subroutine.inward panel happening = some (graph, call)) (hops depth : Nat) :
    call.mostDeliveries hops depth = happening.mostDeliveries hops depth := by
  cases happening with
  | init context =>
      cases entered
      rfl
  | process timeStep =>
      cases entered
      rfl
  | onEvent input event =>
      simp only [inward, Option.map_eq_some_iff, Prod.mk.injEq] at entered
      rcases entered with ⟨id, -, -, rfl⟩
      rfl

namespace Compile

variable [Processor κ] {registry : Registry κ} {config : Config} {prototype nested : Prototype}
  {room : Nat}

/-- Where no subroutine may be, there is none. -/
theorem Reachable.no_subroutine {graph : Graph (Nested κ 0)}
    (reachable : Reachable registry config prototype graph) {placed : PrototypeNode}
    (listed : placed ∈ prototype.nodes) : placed.subroutine = none := by
  rcases reachable with ⟨built, -, compiled, -⟩
  rcases build_eq_ok_iff.mp compiled with ⟨nodes, -, -, created, -, -⟩
  rcases List.getElem?_of_mem listed with ⟨index, found⟩
  have bound : index < nodes.length := created.length_eq ▸ (List.getElem?_eq_some_iff.mp found).1
  exact (createPlain_eq_ok_iff.mp
    (forall₂_getElem? created found (List.getElem?_eq_getElem bound))).1

/-- How many events one call delivers in a graph inside: on the level of the graph
that is called no more than the budget, and with each level down, for every
delivery on the level above, the whole budget again. -/
theorem Reachable.deliveriesAt_le {graph : Graph (Nested κ room)}
    (reachable : Reachable registry config prototype graph) {path : List Nat}
    (place : prototype.inside? path = some nested) (call : Call) :
    (deliveriesAt path (graph.perform call).2.2.toList).length ≤
      call.mostDeliveries config.maxEventHops.toNat path.length := by
  induction path generalizing room prototype call with
  | nil =>
      rw [← reachable.hopLimit_eq]
      exact graph.deliveriesAt_nil_le call
  | cons index path induction =>
      simp only [Prototype.inside?, Option.bind_eq_some_iff] at place
      rcases place with ⟨inner, ⟨placed, listed, composite⟩, deeper⟩
      cases room with
      | zero =>
          have plain := reachable.no_subroutine (List.mem_of_getElem? listed)
          rw [composite] at plain
          cases plain
      | succ room =>
          rw [← reachable.hopLimit_eq]
          refine Graph.deliveriesAt_cons_le (turns_suit registry config prototype graph.circuit)
            reachable.flowsForward.order_nodup reachable.every_suits ?_ call
          intro happening state suits
          rcases runCell_journal_inside suits listed composite graph.circuit happening with
            silent | ⟨subroutine, panel, start, made, entered, below, told⟩
          · rw [silent]
            exact Nat.le_trans (Nat.le_of_eq (congrArg List.length (deliveriesAt_nil path)))
              (Nat.zero_le _)
          · rw [told, ← Subroutine.mostDeliveries_inward entered, reachable.hopLimit_eq]
            exact induction below deeper made

/-- A graph in which each event that enters is counted twice. -/
def countsTwice : Prototype where
  name := "Inner"
  id := 2
  inputs := [⟨.named "Start", .void⟩]
  outputs := [⟨.named "Count", .int32 0⟩]
  locals := []
  nodes := [⟨.named "Trigger Counter", 1, [], none⟩]
  connections := [
    ⟨⟨graphNodeId, .named "Start"⟩, ⟨1, .named "Trigger"⟩, .graphEventToNode⟩,
    ⟨⟨graphNodeId, .named "Start"⟩, ⟨1, .named "Trigger"⟩, .graphEventToNode⟩,
    ⟨⟨1, .named "Count"⟩, ⟨graphNodeId, .named "Count"⟩, .nodeValueToGraph⟩]

/-- A graph that hands each event twice to `countsTwice`. -/
def handsOnTwice : Prototype where
  name := "Outer"
  id := 1
  inputs := countsTwice.inputs
  outputs := countsTwice.outputs
  locals := []
  nodes := [⟨.named "Sub", 1, [], some countsTwice⟩]
  connections := [
    ⟨⟨graphNodeId, .named "Start"⟩, ⟨1, .named "Start"⟩, .graphEventToNode⟩,
    ⟨⟨graphNodeId, .named "Start"⟩, ⟨1, .named "Start"⟩, .graphEventToNode⟩,
    ⟨⟨1, .named "Count"⟩, ⟨graphNodeId, .named "Count"⟩, .nodeValueToGraph⟩]

/-- The only node type of `countsTwice`. -/
def counters : Registry StandardNode :=
  ⟨[(.named "Trigger Counter", fun _ => .triggerCounter {})]⟩

/-- A budget of two deliveries. -/
def twoHops : Config :=
  { Config.default with maxEventHops := 2 }

theorem handsOnTwice_deliveriesAt_le :
    ∃ graph : Graph (Nested StandardNode 1),
      Reachable counters twoHops handsOnTwice graph ∧
      handsOnTwice.inside? [0] = some countsTwice ∧
      (deliveriesAt [0] (graph.perform (.post (.named "Start"))).2.2.toList).length ≤ 4 ∧
      (deliveriesAt [0] (graph.perform (.process .one)).2.2.toList).length ≤ 6 := by
  have compiles : (build counters twoHops 1 handsOnTwice).outcome.isOk = true := by
    decide +kernel
  rcases exists_eq_ok compiles with ⟨built, compiled⟩
  have reachable : Reachable counters twoHops handsOnTwice built := ⟨built, [], compiled, rfl⟩
  have place : handsOnTwice.inside? [0] = some countsTwice := rfl
  exact ⟨built, reachable, place, reachable.deliveriesAt_le place _,
    reachable.deliveriesAt_le place _⟩

/-- With a budget of two deliveries, posting one event makes four of them in the
graph inside: the node gets the event twice, and each time the graph inside has
its whole budget. -/
theorem handsOnTwice_exceeds_budget :
    ∃ graph : Graph (Nested StandardNode 1),
      Reachable counters twoHops handsOnTwice graph ∧
      handsOnTwice.inside? [0] = some countsTwice ∧
      twoHops.maxEventHops.toNat = 2 ∧
      (deliveriesAt [0] (graph.perform (.post (.named "Start"))).2.2.toList).length = 4 := by
  have counted : ((build counters twoHops 1 handsOnTwice).outcome.toOption.any fun built =>
      (deliveriesAt [0] (built.perform (.post (.named "Start"))).2.2.toList).length == 4) =
        true := by
    decide +kernel
  rcases exists_of_any counted with ⟨built, compiled, four⟩
  exact ⟨built, ⟨built, [], compiled, rfl⟩, rfl, rfl, eq_of_beq four⟩

end Compile

end NodeGraph
