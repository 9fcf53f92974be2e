import NodeGraph.Proofs.Engine.Turns

namespace NodeGraph

/-! Calls into graphs with buffers. Main statement: whatever a host does to a graph with
buffers that has nothing left over, no look-up goes wrong, the host gets what it gets from the
graph without buffers, and again nothing is left over. -/

namespace Engine

/-- Everything that is looked up is there, and nothing is left over from an earlier call. -/
structure Idle (safe : μ → Prop) (engine : Engine μ) : Prop where
  ready : engine.Ready safe
  pending : engine.pending = []
  emitted : engine.emitted = #[]

/-- Between calls, a graph with buffers is that graph, if the buffers are left out, and has
nothing left over. -/
structure Rests (look : μ → ν) (safe : μ → Prop) (engine : Engine μ) (graph : Graph ν) : Prop
    extends engine.Idle safe where
  graph_eq : engine.toGraph.map look = graph

variable {look : μ → ν} {safe : μ → Prop} {engine : Engine μ} {graph : Graph ν}

theorem Idle.rests (idle : engine.Idle safe) (look : μ → ν) :
    engine.Rests look safe (engine.toGraph.map look) :=
  ⟨idle, rfl⟩

theorem Rests.begin (rests : engine.Rests look safe graph) :
    engine.begin.Stands look safe graph.circuit graph.begin [] := by
  obtain ⟨⟨ready, pending, emitted⟩, rfl⟩ := rests
  exact ⟨⟨ready.grounded, ready.fits, ready.nodes⟩, rfl, rfl, by simp [parcels, Engine.begin, pending],
    emitted⟩

/-- When no parcel is left, the call is over. -/
theorem Stands.rests {circuit : Circuit} {turn : Turn ν}
    (stands : engine.Stands look safe circuit turn []) :
    engine.Rests look safe ⟨circuit, turn.state⟩ := by
  obtain ⟨ready, rfl, rfl, parcels, emitted⟩ := stands
  exact ⟨⟨ready, List.map_eq_nil_iff.mp parcels, emitted⟩, rfl⟩

theorem Stands.journal_eq {circuit : Circuit} {turn : Turn ν} {parcels : List Parcel}
    (stands : engine.Stands look safe circuit turn parcels) : engine.journal = turn.journal :=
  congrArg Turn.journal stands.turn_eq

end Engine

/-! ## Reading -/

namespace Circuit.Grounded

variable {circuit : Circuit} {id : Identifier} {slot : Slot}

theorem inputSlot?_lt (grounded : circuit.Grounded)
    (located : circuit.inputSlot? id = some slot) : slot < circuit.defaults.size := by
  rcases Assembly.lastSlot?_mem located with ⟨other, declared, -⟩
  exact grounded.tables_exist (other, slot) (by simp [declared])

theorem localSlot?_lt (grounded : circuit.Grounded)
    (located : circuit.localSlot? id = some slot) : slot < circuit.defaults.size := by
  rcases Assembly.lastSlot?_mem located with ⟨other, declared, -⟩
  exact grounded.tables_exist (other, slot) (by simp [declared])

theorem outputSlot?_lt (grounded : circuit.Grounded)
    (located : circuit.outputSlot? id = some slot) : slot < circuit.defaults.size := by
  rcases Option.map_eq_some_iff.mp located with ⟨⟨other, position⟩, found, rfl⟩
  have declared := List.mem_of_find?_eq_some found
  exact grounded.tables_exist (other, position) (by simp [declared])

end Circuit.Grounded

namespace Engine

variable {look : μ → ν} {safe : μ → Prop} {engine : Engine μ} {graph : Graph ν}

theorem Rests.readOutput? (rests : engine.Rests look safe graph) (id : Identifier) :
    engine.readOutput? id = .ok (graph.readOutput? id) := by
  obtain ⟨⟨⟨grounded, fits, -⟩, -, -⟩, rfl⟩ := rests
  unfold Engine.readOutput? Graph.readOutput?
  cases located : engine.circuit.outputSlot? id with
  | none =>
      simp only [Graph.map, located]
      rfl
  | some slot =>
      have bound : slot < engine.state.values.size :=
        fits.values.symm ▸ grounded.outputSlot?_lt located
      simp only [Graph.map, State.map, located, Option.mapM_some, Option.map_some,
        Array.getElem?_eq_getElem bound]
      rfl

theorem Rests.consumed? (rests : engine.Rests look safe graph) (id : NodeId) :
    engine.consumed? id = .ok (graph.consumed? id) := by
  obtain ⟨⟨⟨-, fits, -⟩, -, -⟩, rfl⟩ := rests
  unfold Engine.consumed? Graph.consumed?
  cases located : engine.circuit.position? id with
  | none =>
      simp only [Graph.map, located]
      rfl
  | some index =>
      have bound : index < engine.state.cells.size :=
        fits.cells.symm ▸ (Array.findIdx?_eq_some_iff_getElem.mp located).1
      have used : (engine.state.map look).consumedBy index = engine.state.cells[index].consumed := by
        rw [State.consumedBy_map, State.consumedBy, Array.getElem?_eq_getElem bound]
      simp only [Graph.map, located, Option.mapM_some, Option.map_some, used,
        Array.getElem?_eq_getElem bound]
      rfl

theorem mapM_present {table : Array α} {indices : List Nat}
    (exist : ∀ index ∈ indices, index < table.size) (field : α → β) :
    (indices.mapM fun index => field <$> present table[index]?) =
      .ok (indices.filterMap fun index => table[index]?.map field) := by
  induction indices with
  | nil => rfl
  | cons index indices induction =>
      rcases List.forall_mem_cons.mp exist with ⟨bound, exist⟩
      rw [List.mapM_cons, induction exist, present_getElem? bound]
      simp [bound]
      rfl

theorem Rests.orderIds (rests : engine.Rests look safe graph) :
    engine.orderIds = .ok graph.circuit.orderIds := by
  obtain ⟨⟨⟨grounded, -, -⟩, -, -⟩, rfl⟩ := rests
  exact mapM_present grounded.order_exists Placement.id

/-! ## Turns -/

variable [Worker μ] [Processor ν]

/-- All nodes work in order, with all deliveries left at first. -/
theorem Rests.sweep (refines : Worker.Refines look safe) (rests : engine.Rests look safe graph)
    (happening : Happening) :
    ∃ after, engine.begin.sweep happening (lookUps engine.circuit.order) .zero =
        .ok ((graph.finish (graph.sweep happening.program)).mostConsumed, after) ∧
      after.Rests look safe (graph.finish (graph.sweep happening.program)) ∧
      after.journal = (graph.sweep happening.program).journal := by
  have grounded := rests.ready.grounded
  have circuits : engine.circuit = graph.circuit := congrArg Graph.circuit rests.graph_eq
  rw [lookUps_eq]
  rw [circuits] at grounded ⊢
  rcases rests.begin.sweep refines happening grounded.order_nodup grounded.order_exists .zero with
    ⟨after, swept, stands⟩
  exact ⟨after, swept, stands.rests, stands.journal_eq⟩

theorem Rests.init (refines : Worker.Refines look safe) (rests : engine.Rests look safe graph)
    (context : Context) :
    ∃ after, engine.init context = .ok after ∧ after.Rests look safe (graph.init context).1 ∧
      after.journal = (graph.init context).2 := by
  rcases rests.sweep refines (.init context) with ⟨after, swept, resting, journal⟩
  refine ⟨after, ?_, resting, journal⟩
  rw [Engine.init, swept]
  rfl

theorem Rests.process (refines : Worker.Refines look safe) (rests : engine.Rests look safe graph)
    (timeStep : Binary32) :
    ∃ after, engine.process timeStep = .ok ((graph.process timeStep).2.1, after) ∧
      after.Rests look safe (graph.process timeStep).1 ∧
      after.journal = (graph.process timeStep).2.2 :=
  rests.sweep refines (.process timeStep)

/-- An engine and the graph without buffers have gone on alike, and the same is on record. -/
def Follows (look : μ → ν) (safe : μ → Prop) (after : Engine μ) (result : Graph ν × Array Entry) :
    Prop :=
  after.Rests look safe result.1 ∧ after.journal = result.2

theorem Rests.post? (refines : Worker.Refines look safe) (rests : engine.Rests look safe graph)
    (id : Identifier) :
    ∃ after, engine.post? id = .ok after ∧
      Option.Rel (Follows look safe) after (graph.post? id) := by
  have circuits : engine.circuit = graph.circuit := congrArg Graph.circuit rests.graph_eq
  unfold Engine.post? Graph.post?
  rw [circuits]
  cases enters : graph.circuit.entrance id with
  | nil => exact ⟨none, rfl, .none⟩
  | cons target targets =>
      have leads (reached) (listed : reached ∈ target :: targets) :
          graph.circuit.LeadsTo reached :=
        .inr ⟨id, enters ▸ listed⟩
      rcases rests.begin.serve refines id leads with ⟨after, served, stands⟩
      exact ⟨some after, by simp only [served]; rfl, .some ⟨stands.rests, stands.journal_eq⟩⟩

/-! ## Other calls -/

omit [Worker μ] [Processor ν] in
theorem Rests.setSlot (rests : engine.Rests look safe graph) {slot : Slot}
    (bound : slot < graph.circuit.defaults.size) (value : Value) :
    ∃ after, engine.setSlot slot value = .ok after ∧
      Follows look safe after (graph.setSlot slot value, #[]) := by
  obtain ⟨⟨⟨grounded, fits, nodes⟩, pending, emitted⟩, rfl⟩ := rests
  have there : slot < engine.state.values.size := fits.values.symm ▸ bound
  let after : Engine μ :=
    { engine with
      state := { engine.state with values := engine.state.values.setIfInBounds slot value }
      journal := #[] }
  refine ⟨after, ?_, ⟨⟨⟨grounded, ⟨fits.cells, ?_⟩, nodes⟩, pending, emitted⟩, rfl⟩, rfl⟩
  · simp only [Engine.setSlot, present_getElem? there, ok_bind]
    rfl
  · simpa [after] using fits.values

omit [Worker μ] [Processor ν] in
theorem Rests.setSlot? (rests : engine.Rests look safe graph) {slot? : Option Slot}
    (exist : ∀ slot, slot? = some slot → slot < graph.circuit.defaults.size) (value : Value) :
    ∃ after, (slot?.mapM fun slot => engine.setSlot slot value) = .ok after ∧
      Option.Rel (Follows look safe) after
        ((slot?.map fun slot => graph.setSlot slot value).map fun after => (after, #[])) := by
  cases slot? with
  | none => exact ⟨none, rfl, .none⟩
  | some slot =>
      rcases rests.setSlot (exist slot rfl) value with ⟨after, set, follows⟩
      exact ⟨some after, by rw [Option.mapM_some, set]; rfl, .some follows⟩

omit [Worker μ] [Processor ν] in
theorem Rests.setInput? (rests : engine.Rests look safe graph) (id : Identifier) (value : Value) :
    ∃ after, engine.setInput? id value = .ok after ∧
      Option.Rel (Follows look safe) after
        ((graph.setInput? id value).map fun after => (after, #[])) := by
  have grounded := rests.ready.grounded
  have circuits : engine.circuit = graph.circuit := congrArg Graph.circuit rests.graph_eq
  rw [Engine.setInput?, circuits]
  exact rests.setSlot? (fun slot located => (circuits ▸ grounded).inputSlot?_lt located) value

omit [Worker μ] [Processor ν] in
theorem Rests.setLocal? (rests : engine.Rests look safe graph) (id : Identifier) (value : Value) :
    ∃ after, engine.setLocal? id value = .ok after ∧
      Option.Rel (Follows look safe) after
        ((graph.setLocal? id value).map fun after => (after, #[])) := by
  have grounded := rests.ready.grounded
  have circuits : engine.circuit = graph.circuit := congrArg Graph.circuit rests.graph_eq
  rw [Engine.setLocal?, circuits]
  exact rests.setSlot? (fun slot located => (circuits ▸ grounded).localSlot?_lt located) value

omit [Worker μ] [Processor ν] in
theorem Rests.handleOutgoing (rests : engine.Rests look safe graph)
    (receive : σ → Identifier → σ) (state : σ) :
    (engine.handleOutgoing receive state).1 = (graph.handleOutgoing receive state).1 ∧
      Follows look safe (engine.handleOutgoing receive state).2
        ((graph.handleOutgoing receive state).2, #[]) := by
  obtain ⟨⟨⟨grounded, fits, nodes⟩, pending, emitted⟩, rfl⟩ := rests
  exact ⟨rfl, ⟨⟨⟨grounded, ⟨fits.cells, fits.values⟩, nodes⟩, pending, emitted⟩, rfl⟩, rfl⟩

omit [Worker μ] in
/-- The waiting events that are handed over one by one are those that a graph drains. -/
theorem Rests.drain (rests : engine.Rests look safe graph) :
    engine.drain.1 = graph.drain.1 ∧ Follows look safe engine.drain.2 (graph.drain.2, #[]) := by
  have handed := rests.handleOutgoing (fun handed event => handed ++ [event]) []
  have drained : graph.handleOutgoing (fun handed event => handed ++ [event]) [] = graph.drain :=
    graph.attend_handle
  rwa [drained] at handed

theorem Rests.reset (refines : Worker.Refines look safe) (rests : engine.Rests look safe graph) :
    Follows look safe engine.reset (graph.reset, #[]) := by
  obtain ⟨⟨⟨grounded, fits, nodes⟩, pending, emitted⟩, rfl⟩ := rests
  refine ⟨⟨⟨⟨grounded, ⟨?_, rfl⟩, ?_⟩, rfl, rfl⟩, ?_⟩, rfl⟩
  · simpa [Engine.reset] using fits.cells
  · intro index cell found
    simp only [Engine.reset, Array.getElem?_map, Option.map_eq_some_iff] at found
    rcases found with ⟨earlier, present, rfl⟩
    exact (refines.reset earlier.node (nodes index earlier present)).2
  · have cells : (engine.state.cells.map fun cell =>
          ({ node := Worker.reset cell.node } : Cell μ)).map (Cell.map look) =
        (engine.state.cells.map (Cell.map look)).map fun cell =>
          { node := Processor.reset cell.node } := by
      rw [Array.map_map, Array.map_map, Array.map_inj_left]
      intro cell listed
      rcases Array.mem_iff_getElem?.mp listed with ⟨index, present⟩
      exact congrArg (Cell.mk · .zero) (refines.reset cell.node (nodes index cell present)).1
    simp only [Graph.map, Engine.reset, State.map, cells]
    rfl

/-! ## Calls and errands -/

omit [Worker μ] [Processor ν] in
theorem Rests.settled (rests : engine.Rests look safe graph) (refusal : Entry)
    {after? : Option (Engine μ)} {result? : Option (Graph ν × Array Entry)}
    (follow : Option.Rel (Follows look safe) after? result?) :
    (engine.settled refusal after?).1 = (graph.settled refusal result?).2.1 ∧
      Follows look safe (engine.settled refusal after?).2
        ((graph.settled refusal result?).1, (graph.settled refusal result?).2.2) := by
  cases follow with
  | none =>
      exact ⟨rfl, ⟨⟨rests.ready, rests.pending, rests.emitted⟩, rests.graph_eq⟩, rfl⟩
  | some follows => exact ⟨rfl, follows⟩

/-- Whatever the call, no look-up goes wrong, and the host gets the same answer. -/
theorem Rests.perform (refines : Worker.Refines look safe) (rests : engine.Rests look safe graph)
    (call : Call) :
    ∃ after, engine.perform call = .ok ((graph.perform call).2.1, after) ∧
      Follows look safe after ((graph.perform call).1, (graph.perform call).2.2) := by
  have circuits : engine.circuit = graph.circuit := congrArg Graph.circuit rests.graph_eq
  have settles (refusal : Entry) {outcome : Except Trap (Option (Engine μ))}
      {result? : Option (Graph ν × Array Entry)}
      (went : ∃ after?, outcome = .ok after? ∧ Option.Rel (Follows look safe) after? result?) :
      ∃ after, engine.settled refusal <$> outcome =
          .ok ((graph.settled refusal result?).2.1, after) ∧
        Follows look safe after
          ((graph.settled refusal result?).1, (graph.settled refusal result?).2.2) := by
    rcases went with ⟨after?, rfl, follow⟩
    rcases rests.settled refusal follow with ⟨answer, follows⟩
    exact ⟨_, congrArg Except.ok (Prod.ext answer rfl), follows⟩
  cases call with
  | setInput id value =>
      rw [Engine.perform, circuits]
      exact settles _ (rests.setInput? id value)
  | setLocal id value =>
      rw [Engine.perform, circuits]
      exact settles _ (rests.setLocal? id value)
  | process timeStep =>
      rcases rests.process refines timeStep with ⟨after, processed, resting, journal⟩
      exact ⟨after, by rw [Engine.perform, processed]; rfl, resting, journal⟩
  | post id =>
      rw [Engine.perform, circuits]
      exact settles _ (rests.post? refines id)
  | drain =>
      rcases rests.drain with ⟨drained, follows⟩
      exact ⟨_, congrArg (fun events => Except.ok (Answer.events events, engine.drain.2)) drained,
        follows⟩
  | reset => exact ⟨_, rfl, rests.reset refines⟩
  | init context =>
      rcases rests.init refines context with ⟨after, initialized, resting, journal⟩
      exact ⟨after, by rw [Engine.perform, initialized]; rfl, resting, journal⟩

theorem Rests.attend (refines : Worker.Refines look safe) (rests : engine.Rests look safe graph)
    (errand : Errand) :
    ∃ after, engine.attend errand = .ok ((graph.attend errand).1, after) ∧
      after.Rests look safe (graph.attend errand).2 := by
  cases errand with
  | call call =>
      rcases rests.perform refines call with ⟨after, performed, follows⟩
      exact ⟨after, by rw [Engine.attend, performed]; rfl, follows.1⟩
  | handle =>
      rcases rests.handleOutgoing (fun handed event => handed ++ [event]) [] with ⟨handed, follows⟩
      exact ⟨_, congrArg Except.ok (Prod.ext handed rfl), follows.1⟩

theorem Rests.attendAll (refines : Worker.Refines look safe)
    (rests : engine.Rests look safe graph) (errands : List Errand) :
    ∃ after, engine.attendAll errands = .ok ((graph.attendAll errands).1, after) ∧
      after.Rests look safe (graph.attendAll errands).2 := by
  induction errands generalizing engine graph with
  | nil => exact ⟨engine, rfl, rests⟩
  | cons errand errands induction =>
      rcases rests.attend refines errand with ⟨middle, attended, resting⟩
      rcases induction resting with ⟨last, rest, done⟩
      refine ⟨last, ?_, done⟩
      rw [Engine.attendAll, attended, ok_bind]
      simp only [rest, ok_bind]
      rfl

end Engine

end NodeGraph
