import NodeGraph.Proofs.Engine
import NodeGraph.Proofs.Run.Budget

namespace NodeGraph

/-! Turns of graphs with buffers. As long as everything is there that a circuit leads to, no
look-up goes wrong, and a graph with buffers is at every moment where the graph without them
is, with the parcels on their way in its buffer. Main statement: delivering what waits ends
with both buffers empty, whether the deliveries were enough or not. -/

/-! ## What does not go wrong -/

/-- The nodes do what the nodes of the other type do that they look like, and stay safe. -/
structure Worker.Refines [Worker μ] [Processor ν] (look : μ → ν) (safe : μ → Prop) : Prop where
  work : ∀ happening (cell : Cell μ) panel, safe cell.node → ∃ after,
    Worker.work happening cell panel =
      .ok (after, ((happening.program (cell.map look)).run panel).2) ∧
    after.map look = ((happening.program (cell.map look)).run panel).1 ∧ safe after.node
  reset : ∀ node, safe node →
    look (Worker.reset node) = Processor.reset (look node) ∧ safe (Worker.reset node)

/-- Everything that the circuit leads to is there, and no node runs twice. -/
structure Circuit.Grounded (circuit : Circuit) : Prop where
  order_nodup : circuit.order.Nodup
  order_exists : ∀ index ∈ circuit.order, index < circuit.placements.size
  targets_exist : ∀ index input, circuit.LeadsTo (.node index input) →
    index < circuit.placements.size
  tables_exist : ∀ entry ∈ circuit.inputs ++ circuit.locals ++ circuit.outputs,
    entry.2 < circuit.defaults.size

/-- Everything that a graph looks up is there, and all its nodes are safe. -/
structure Graph.Ready (safe : μ → Prop) (graph : Graph μ) : Prop where
  grounded : graph.circuit.Grounded
  fits : graph.state.Fits graph.circuit
  nodes : graph.state.Every fun _ => safe

theorem present_getElem? {table : Array α} {index : Nat} (bound : index < table.size) :
    present table[index]? = .ok table[index] :=
  present_eq_ok_iff.mpr (Array.getElem?_eq_getElem bound)

theorem lookUps_eq (table : List α) : lookUps table = table.map .ok := by
  apply List.ext_getElem (by simp [lookUps])
  intro position _ bound
  have present : position < table.length := by simpa using bound
  simp [lookUps, entry_eq_ok_iff, present]

/-! ## What nodes use up -/

/-- An event does not change what a node has used up. -/
theorem State.runCell_onEvent_consumedBy [Processor ν] (circuit : Circuit) (index input : Nat)
    (event : Identifier) (state : State ν) :
    (state.runCell circuit index (Happening.onEvent input event).program).1.consumedBy index =
      state.consumedBy index := by
  rcases state.runCell_cases circuit index (Happening.onEvent input event).program with
    ⟨placement, cell, placed, present⟩ | unchanged
  · have bound := (Array.getElem?_eq_some_iff.mp present).1
    rw [runCell_eq placed present, consumedBy, consumedBy, present]
    simp [bound, Happening.program]
  · rw [unchanged]

namespace Turn

/-- What a node that is there does in a turn. -/
theorem runCell_eq {circuit : Circuit} {index : Nat} {program : Cell ν → Program (Cell ν)}
    {turn : Turn ν} {placement : Placement} {cell : Cell ν}
    (placed : circuit.placements[index]? = some placement)
    (present : turn.state.cells[index]? = some cell) :
    turn.runCell circuit index program =
      let ran := (program cell).run (placement.window turn.state.values)
      ({ turn with
          state := { turn.state with
            cells := turn.state.cells.setIfInBounds index ran.1
            values := ran.2.values }
          journal := turn.journal ++ ran.2.journal.map (Entry.inside index) ++
            ran.2.emitted.map (Entry.emitted index) },
        ran.2.emitted.toList.map (Parcel.ofEmission circuit.routes index)) := by
  simp [runCell, State.runCell, placed, present, Placement.window]

/-- A node uses up nothing while another one runs. -/
theorem runCell_consumedBy {circuit : Circuit} (program : Cell ν → Program (Cell ν))
    (turn : Turn ν) {index other : Nat} (different : other ≠ index) :
    (turn.runCell circuit index program).1.state.consumedBy other =
      turn.state.consumedBy other := by
  rw [runCell_state, State.consumedBy, State.consumedBy, State.runCell_other _ different]

variable [Processor ν] {circuit : Circuit}

theorem deliver_consumedBy (target : Target) (event : Identifier) (turn : Turn ν) (other : Nat) :
    (deliver circuit target event turn).1.state.consumedBy other =
      turn.state.consumedBy other := by
  cases target with
  | graphOutput id =>
      simp only [deliver]
      split <;> rfl
  | node index input =>
      by_cases same : other = index
      · subst same
        exact State.runCell_onEvent_consumedBy circuit other input event turn.state
      · exact runCell_consumedBy _ _ same

theorem settle_consumedBy (state : State ν) (journal : Array Entry) (hops : Nat)
    (parcels : List Parcel) (other : Nat) :
    (settle circuit state journal hops parcels).state.consumedBy other =
      state.consumedBy other := by
  induction hops generalizing state journal parcels with
  | zero =>
      unfold settle
      cases Parcel.next? parcels <;> rfl
  | succ hops induction =>
      unfold settle
      cases Parcel.next? parcels with
      | none => rfl
      | some delivery => exact (induction _ _ _).trans (deliver_consumedBy _ _ _ _)

theorem visits_consumedBy (happening : Happening) (turn : Turn ν) {indices : List Nat}
    {other : Nat} (apart : other ∉ indices) :
    (indices.foldl (visit circuit happening.program) turn).state.consumedBy other =
      turn.state.consumedBy other := by
  induction indices generalizing turn with
  | nil => rfl
  | cons index indices induction =>
      rw [List.mem_cons, not_or] at apart
      rw [List.foldl_cons, induction _ apart.2, visit_eq, settle_consumedBy]
      exact runCell_consumedBy _ _ apart.1

end Turn

/-! ## Where a turn stands -/

namespace Engine

/-- The turn that a graph is in, if the buffers are left out. -/
def turn (look : μ → ν) (engine : Engine μ) : Turn ν where
  state := engine.state.map look
  hops := engine.hops
  journal := engine.journal

/-- The parcels on their way, of which none has reached any target. -/
def parcels (engine : Engine μ) : List Parcel :=
  engine.pending.map fun waiting => Parcel.ofEmission engine.circuit.routes waiting.1 waiting.2

/-- In the middle of a call, a graph with that circuit is where the turn is, and the parcels
are on their way. -/
structure Stands (look : μ → ν) (safe : μ → Prop) (engine : Engine μ) (circuit : Circuit)
    (turn : Turn ν) (parcels : List Parcel) : Prop where
  ready : engine.Ready safe
  circuit_eq : engine.circuit = circuit
  turn_eq : engine.turn look = turn
  parcels_eq : engine.parcels = parcels
  emitted : engine.emitted = #[]

variable [Worker μ] [Processor ν] {look : μ → ν} {safe : μ → Prop} {engine : Engine μ}
  {circuit : Circuit} {turn : Turn ν} {parcels : List Parcel}

theorem Stands.work (refines : Worker.Refines look safe)
    (stands : engine.Stands look safe circuit turn parcels) {index : Nat}
    (bound : index < circuit.placements.size) (happening : Happening) :
    ∃ after, engine.work index happening = .ok after ∧
      (after.collect index).Stands look safe circuit
        (turn.runCell circuit index happening.program).1
        (parcels ++ (turn.runCell circuit index happening.program).2) := by
  obtain ⟨⟨grounded, fits, nodes⟩, rfl, rfl, rfl, emitted⟩ := stands
  have cellBound : index < engine.state.cells.size := fits.cells.symm ▸ bound
  have present := Array.getElem?_eq_getElem cellBound
  have seen : (engine.turn look).state.cells[index]? =
      some (engine.state.cells[index].map look) := by
    simp [Engine.turn, State.map, cellBound]
  rcases refines.work happening engine.state.cells[index]
    { values := engine.state.values
      inputs := engine.circuit.placements[index].inputs
      outputs := engine.circuit.placements[index].outputs }
    (nodes index _ present) with ⟨cell, worked, looks, kept⟩
  refine ⟨_, by
    simp only [Engine.work, present_getElem? bound, present_getElem? cellBound, ok_bind, emitted,
      worked]
    rfl, ?_⟩
  rw [Turn.runCell_eq (Array.getElem?_eq_getElem bound) seen]
  refine ⟨⟨grounded, ?fits, ?nodes⟩, rfl, ?turn, ?parcels, rfl⟩
  case fits => exact ⟨by simpa [collect] using fits.cells, by simpa [collect] using fits.values⟩
  case nodes =>
    intro other found located
    by_cases same : index = other
    · subst same
      simp only [collect, Array.getElem?_setIfInBounds_self_of_lt cellBound,
        Option.some.injEq] at located
      exact located ▸ kept
    · simp only [collect, Array.getElem?_setIfInBounds_ne same] at located
      exact nodes other found located
  case turn =>
    simp only [Engine.turn, collect, State.map, Array.map_setIfInBounds, looks]
    rfl
  case parcels =>
    simp only [Engine.parcels, collect, List.map_append, List.map_map]
    rfl

omit [Worker μ] [Processor ν] in
theorem Stands.consumedBy (stands : engine.Stands look safe circuit turn parcels) (index : Nat) :
    engine.state.consumedBy index = turn.state.consumedBy index := by
  rw [← stands.turn_eq, Engine.turn, State.consumedBy_map]

/-! ## Deliveries -/

/-- A delivery that is left is made. -/
theorem Stands.deliver (refines : Worker.Refines look safe)
    (stands : engine.Stands look safe circuit turn parcels) {hops : Nat}
    (paid : turn.hops = hops + 1) {target : Target} (leads : circuit.LeadsTo target)
    (event : Identifier) :
    ∃ after, engine.deliver target event = .ok (true, after) ∧
      after.Stands look safe circuit (Turn.deliver circuit target event { turn with hops }).1
        (parcels ++ (Turn.deliver circuit target event { turn with hops }).2) := by
  obtain ⟨ready, rfl, rfl, rfl, emitted⟩ := stands
  have left : engine.hops = hops + 1 := paid
  unfold Engine.deliver
  rw [left]
  cases target with
  | graphOutput id =>
      simp only [Turn.deliver, Engine.turn, State.map]
      cases queued : engine.state.outgoing.push? id with
      | none =>
          refine ⟨_, rfl, ⟨ready.grounded, ready.fits, ready.nodes⟩, rfl, rfl, ?_, emitted⟩
          simp [Engine.parcels]
      | some outgoing =>
          refine ⟨_, rfl, ⟨ready.grounded, ⟨ready.fits.cells, ready.fits.values⟩, ready.nodes⟩,
            rfl, rfl, ?_, emitted⟩
          simp [Engine.parcels]
  | node index input =>
      have bound := ready.grounded.targets_exist index input leads
      let paying : Engine μ :=
        { engine with hops, journal := engine.journal.push (.delivered (.node index input) event) }
      have stands : paying.Stands look safe engine.circuit (paying.turn look) engine.parcels :=
        ⟨ready, rfl, rfl, rfl, emitted⟩
      rcases stands.work refines bound (.onEvent input event) with ⟨after, worked, standing⟩
      exact ⟨_, by simp only [paying] at worked; simp only [worked, ok_bind]; rfl, standing⟩

omit [Processor ν] in
/-- If no delivery is left, all that is in the buffers is given up. -/
theorem Stands.deliver_spent (stands : engine.Stands look safe circuit turn parcels)
    (spent : turn.hops = 0) (target : Target) (event : Identifier) :
    ∃ after, engine.deliver target event = .ok (false, after) ∧
      after.Stands look safe circuit
        { turn with
          journal := turn.journal.push
            (.exhausted circuit.name circuit.hopLimit (parcels.length + 1)) } [] := by
  obtain ⟨ready, rfl, rfl, rfl, emitted⟩ := stands
  have none : engine.hops = 0 := spent
  unfold Engine.deliver
  rw [none]
  refine ⟨_, rfl, ready, rfl, ?_, rfl, rfl⟩
  simp [Engine.turn, Engine.parcels, none]

/-! ### One event after the other -/

omit [Processor ν] in
theorem serve_cons (event : Identifier) (target : Target) (targets : List (Except Trap Target))
    (engine : Engine μ) :
    engine.serve event (.ok target :: targets) = (do
      let (enough, engine) ← engine.deliver target event
      if enough then engine.serve event targets else pure engine) := by
  rw [serve, deliverAll, ok_bind]
  rcases engine.deliver target event with trap | ⟨enough, after⟩
  · rfl
  · cases enough <;> rfl

omit [Processor ν] in
theorem flush_nil (nothing : engine.pending = []) : engine.flush = .ok engine := by
  unfold flush
  split
  next => rfl
  next source emission later waiting =>
    rw [nothing] at waiting
    cases waiting

omit [Processor ν] in
theorem flush_cons {source : Nat} {emission : Emission} {later : List (Nat × Emission)}
    (waiting : engine.pending = (source, emission) :: later) :
    engine.flush =
      serve emission.event (lookUps (engine.circuit.routes.targets source emission.output))
        { engine with pending := later } := by
  rw [flush, serve]
  split
  next nothing =>
    rw [nothing] at waiting
    cases waiting
  next other fired rest found =>
    rw [found] at waiting
    cases waiting
    split
    next trap went => rw [went]; rfl
    next after went => rw [went]; rfl
    next after went => rw [went]; rfl

/-! ### All that waits -/

omit [Worker μ] in
/-- A parcel that has reached all its targets makes no difference. -/
theorem settle_delivered (circuit : Circuit) (state : State ν) (journal : Array Entry)
    (hops : Nat) (event : Identifier) (parcels : List Parcel) :
    Turn.settle circuit state journal hops (⟨event, []⟩ :: parcels) =
      Turn.settle circuit state journal hops parcels := by
  have same : Parcel.next? (⟨event, []⟩ :: parcels) = Parcel.next? parcels := rfl
  unfold Turn.settle
  rw [same]

/-- With that many deliveries left, a graph with buffers delivers an event that has targets,
and what waits behind it, as a graph without them does. -/
def ServesAt (look : μ → ν) (safe : μ → Prop) (circuit : Circuit) (hops : Nat) : Prop :=
  ∀ (engine : Engine μ) (turn : Turn ν) (parcels : List Parcel) (event : Identifier)
    (target : Target) (targets : List Target), turn.hops = hops →
    engine.Stands look safe circuit turn parcels →
    (∀ reached ∈ target :: targets, circuit.LeadsTo reached) →
    ∃ after, engine.serve event ((target :: targets).map .ok) = .ok after ∧
      after.Stands look safe circuit
        (Turn.settle circuit turn.state turn.journal hops (⟨event, target :: targets⟩ :: parcels))
        []

/-- Events without targets come first, if at all; the induction is on what waits. -/
theorem Stands.flush_of_servesAt {hops : Nat} (serves : ServesAt look safe circuit hops)
    (stands : engine.Stands look safe circuit turn parcels) (left : turn.hops = hops) :
    ∃ after, engine.flush = .ok after ∧
      after.Stands look safe circuit (Turn.settle circuit turn.state turn.journal hops parcels)
        [] := by
  generalize waiting : engine.pending = pending
  induction pending generalizing engine parcels with
  | nil =>
      obtain rfl : parcels = [] := by
        rw [← stands.parcels_eq, Engine.parcels, waiting]
        rfl
      refine ⟨engine, flush_nil waiting, ?_⟩
      rw [Turn.settle_nothing circuit turn.state turn.journal hops rfl, ← left]
      exact stands
  | cons first later induction =>
      obtain ⟨source, emission⟩ := first
      let rest : Engine μ := { engine with pending := later }
      have standing : rest.Stands look safe circuit turn rest.parcels :=
        ⟨stands.ready, stands.circuit_eq, stands.turn_eq, rfl, stands.emitted⟩
      obtain rfl : parcels =
          ⟨emission.event, circuit.routes.targets source emission.output⟩ :: rest.parcels := by
        rw [← stands.parcels_eq, ← stands.circuit_eq, Engine.parcels, waiting]
        rfl
      have leads (reached) (listed : reached ∈ circuit.routes.targets source emission.output) :
          circuit.LeadsTo reached :=
        .inl ⟨source, emission.output, listed⟩
      rw [flush_cons waiting, stands.circuit_eq, lookUps_eq]
      cases listed : circuit.routes.targets source emission.output with
      | nil =>
          rw [settle_delivered]
          exact induction standing rfl
      | cons target targets => exact serves _ _ _ _ _ _ left standing (listed ▸ leads)

theorem Stands.serve_of_servesAt {hops : Nat} (serves : ServesAt look safe circuit hops)
    (stands : engine.Stands look safe circuit turn parcels) (left : turn.hops = hops)
    (event : Identifier) {targets : List Target}
    (leads : ∀ target ∈ targets, circuit.LeadsTo target) :
    ∃ after, engine.serve event (targets.map .ok) = .ok after ∧
      after.Stands look safe circuit
        (Turn.settle circuit turn.state turn.journal hops (⟨event, targets⟩ :: parcels)) [] := by
  cases targets with
  | nil =>
      rw [settle_delivered]
      exact stands.flush_of_servesAt serves left
  | cons target targets => exact serves _ _ _ _ _ _ left stands leads

/-- The induction is on the budget. -/
theorem servesAt (refines : Worker.Refines look safe) (circuit : Circuit) (hops : Nat) :
    ServesAt look safe circuit hops := by
  induction hops with
  | zero =>
      intro engine turn parcels event target targets spent stands _
      rcases stands.deliver_spent spent target event with ⟨after, given, standing⟩
      refine ⟨after, ?_, ?_⟩
      · rw [List.map_cons, serve_cons, given]
        rfl
      · obtain ⟨state, hops, journal⟩ := turn
        obtain rfl : hops = 0 := spent
        exact standing
  | succ hops induction =>
      intro engine turn parcels event target targets paid stands leads
      rcases List.forall_mem_cons.mp leads with ⟨first, others⟩
      rcases stands.deliver refines paid first event with ⟨after, delivered, standing⟩
      have left : (Turn.deliver circuit target event { turn with hops }).1.hops = hops :=
        Turn.deliver_hops circuit target event { turn with hops }
      rcases standing.serve_of_servesAt induction left event others with ⟨last, served, done⟩
      refine ⟨last, ?_, done⟩
      rw [List.map_cons, serve_cons, delivered]
      exact served

theorem Stands.serve (refines : Worker.Refines look safe)
    (stands : engine.Stands look safe circuit turn parcels) (event : Identifier)
    {targets : List Target} (leads : ∀ target ∈ targets, circuit.LeadsTo target) :
    ∃ after, engine.serve event (targets.map .ok) = .ok after ∧
      after.Stands look safe circuit
        (Turn.settle circuit turn.state turn.journal turn.hops (⟨event, targets⟩ :: parcels)) [] :=
  stands.serve_of_servesAt (servesAt refines circuit _) rfl event leads

/-- The events that wait are delivered, and both buffers are empty afterwards. -/
theorem Stands.flush (refines : Worker.Refines look safe)
    (stands : engine.Stands look safe circuit turn parcels) :
    ∃ after, engine.flush = .ok after ∧
      after.Stands look safe circuit
        (Turn.settle circuit turn.state turn.journal turn.hops parcels) [] :=
  stands.flush_of_servesAt (servesAt refines circuit _) rfl

/-! ## Sweeps -/

/-- One node after the other works. The running maximum is what one finds at the end: a node
that has worked does not work again, and events do not change what it has used up. -/
theorem Stands.sweep (refines : Worker.Refines look safe)
    (stands : engine.Stands look safe circuit turn []) (happening : Happening)
    {indices : List Nat} (nodup : indices.Nodup)
    (exist : ∀ index ∈ indices, index < circuit.placements.size) (most : Binary32) :
    let last := indices.foldl (Turn.visit circuit happening.program) turn
    ∃ after, engine.sweep happening (indices.map .ok) most =
        .ok (indices.foldl (fun most index => most.max (last.state.consumedBy index)) most, after) ∧
      after.Stands look safe circuit last [] := by
  induction indices generalizing engine turn most with
  | nil => exact ⟨engine, rfl, stands⟩
  | cons index indices induction =>
      rcases List.nodup_cons.mp nodup with ⟨apart, nodup⟩
      rcases List.forall_mem_cons.mp exist with ⟨bound, exist⟩
      rcases stands.work refines bound happening with ⟨worked, works, working⟩
      rcases working.flush refines with ⟨flushed, flushes, standing⟩
      rw [List.nil_append, ← Turn.visit_eq] at standing
      have used : worked.state.consumedBy index =
          (indices.foldl (Turn.visit circuit happening.program)
            (Turn.visit circuit happening.program turn index)).state.consumedBy index := by
        rw [Turn.visits_consumedBy happening _ apart, Turn.visit_eq, Turn.settle_consumedBy]
        exact working.consumedBy index
      rcases induction standing nodup exist (most.max (worked.state.consumedBy index)) with
        ⟨last, swept, done⟩
      refine ⟨last, ?_, done⟩
      rw [List.map_cons, Engine.sweep, ok_bind, works, ok_bind, flushes, ok_bind, swept, used]
      rfl

end Engine

end NodeGraph
