import NodeGraph.Proofs.Run.Inward
import NodeGraph.Proofs.Run.Wiring

namespace NodeGraph

/-! Who changes a slot. Slots lie side by side, nodes write them by number, and a
slot may be shared: by a plug that reads what another node writes, and by an output
of the graph that shows an input. Main statement: still nothing but its owner
changes a slot. Inputs and local variables hold what the host has set since the
graph was last rewound, or else what they are declared with; plugs that nothing is
connected to never change; an output plug changes only while its own node runs, or
when the graph is rewound; and setting changes the one slot that is named, or if
there is none, nothing. -/

/-! ## What the host has set -/

namespace Call

/-- The value that a call asks to write to that input. -/
def inputSet? (id : Identifier) : Call → Option Value
  | .setInput other value => if other == id then some value else none
  | _ => none

/-- The value that a call asks to write to that local variable. -/
def localSet? (id : Identifier) : Call → Option Value
  | .setLocal other value => if other == id then some value else none
  | _ => none

/-- The last value that calls set since the graph was last rewound. -/
def lastSet? (set? : Call → Option Value) (calls : List Call) : Option Value :=
  (calls.reverse.takeWhile fun call => !call.rewinds).findSome? set?

variable {set? : Call → Option Value} {calls : List Call} {call : Call}

theorem lastSet?_concat (proceeds : call.rewinds = false) :
    lastSet? set? (calls ++ [call]) = (set? call).or (lastSet? set? calls) := by
  cases isSet : set? call <;> simp [lastSet?, proceeds, isSet]

theorem lastSet?_concat_reset : lastSet? set? (calls ++ [.reset]) = none := by
  simp [lastSet?, rewinds]

end Call

example (id : Identifier) :
    Call.lastSet? (Call.inputSet? id) [.setInput id .void, .reset, .setLocal id .void] = none := rfl

/-- The value that a call writes to that slot. -/
def Circuit.setTo? (circuit : Circuit) (slot : Slot) : Call → Option Value
  | .setInput id value => if circuit.inputSlot? id = some slot then some value else none
  | .setLocal id value => if circuit.localSlot? id = some slot then some value else none
  | _ => none

/-! ## Steps of a call -/

/-- One step of a call. What does not happen in turns happens in one step. -/
inductive Circuit.Step [Processor ν] (circuit : Circuit) : Call → State ν → State ν → Prop where
  | moves {call : Call} {before after : State ν} (turn : call.isTurn = true)
      (moves : circuit.Moves before after) : Step circuit call before after
  | sets {call : Call} {slot : Slot} {value : Value} (set : circuit.setTo? slot call = some value)
      (state : State ν) :
      Step circuit call state { state with values := state.values.setIfInBounds slot value }
  | drains (state : State ν) :
      Step circuit .drain state { state with outgoing := state.outgoing.clear }
  | resets (state : State ν) : Step circuit .reset state (Graph.reset ⟨circuit, state⟩).state

section
variable [Processor ν]

/-- A slot changes in a step only if a node runs that writes it, if the call sets
it, or if the graph is rewound. -/
theorem Circuit.Step.changes {circuit : Circuit} {call : Call} {before after : State ν}
    {slot : Slot} (step : circuit.Step call before after)
    (changed : after.values[slot]? ≠ before.values[slot]?) :
    (∃ (index : Nat) (happening : Happening), slot ∈ circuit.outputsAt index ∧
      after = (before.runCell circuit index happening.program).1) ∨
    (∃ value, circuit.setTo? slot call = some value) ∨ call = .reset := by
  cases step with
  | moves turn moves =>
      cases moves with
      | runs index happening =>
          refine .inl ⟨index, happening, ?_, rfl⟩
          by_contra unwritten
          exact changed (before.runCell_unwritten unwritten)
      | queues leads queued => exact absurd rfl changed
  | @sets _ target value set =>
      by_cases here : target = slot
      · exact .inr (.inl ⟨value, here ▸ set⟩)
      · exact absurd (Array.getElem?_setIfInBounds_ne here) changed
  | drains => exact absurd rfl changed
  | resets => exact .inr (.inr rfl)

namespace Graph

variable {graph : Graph ν}

/-- A call comes about by its steps. -/
theorem perform_steps (graph : Graph ν) (call : Call) :
    Relation.ReflTransGen (graph.circuit.Step call) graph.state
      (graph.perform call).1.state := by
  cases turn : call.isTurn with
  | true =>
      exact Relation.ReflTransGen.mono (fun _ _ moves => .moves turn moves) _ _
        (graph.perform_passes turn)
  | false =>
      cases call with
      | process | post | init => cases turn
      | drain => exact .single (.drains graph.state)
      | reset => exact .single (.resets graph.state)
      | setInput id value =>
          simp only [perform, setInput?]
          cases located : graph.circuit.inputSlot? id with
          | none => exact .refl
          | some slot =>
              have set : graph.circuit.setTo? slot (.setInput id value) = some value :=
                if_pos located
              exact .single (.sets set graph.state)
      | setLocal id value =>
          simp only [perform, setLocal?]
          cases located : graph.circuit.localSlot? id with
          | none => exact .refl
          | some slot =>
              have set : graph.circuit.setTo? slot (.setLocal id value) = some value :=
                if_pos located
              exact .single (.sets set graph.state)

/-! ## Slots that only the host changes -/

/-- The slot holds that value, and goes on to hold it in every state to which a
turn may come. -/
def Holds (graph : Graph ν) (slot : Slot) (value : Value) : Prop :=
  ∀ state, graph.circuit.Passes graph.state state → state.values[slot]? = some value

theorem holds_of_unwritten {slot : Slot} {value : Value}
    (unwritten : ∀ writer, slot ∉ graph.circuit.outputsAt writer)
    (held : graph.state.values[slot]? = some value) : graph.Holds slot value :=
  fun _ passes => (Circuit.turns_unwritten unwritten _).passes passes held

theorem perform_setInput_settled (graph : Graph ν) (id : Identifier) (value : Value) :
    graph.perform (.setInput id value) =
      graph.settled (.unknownInput graph.circuit.name id)
        ((graph.circuit.inputSlot? id).map fun slot => (graph.setSlot slot value, #[])) := by
  rw [perform, setInput?, Option.map_map]
  rfl

theorem perform_setLocal_settled (graph : Graph ν) (id : Identifier) (value : Value) :
    graph.perform (.setLocal id value) =
      graph.settled (.unknownLocal graph.circuit.name id)
        ((graph.circuit.localSlot? id).map fun slot => (graph.setSlot slot value, #[])) := by
  rw [perform, setLocal?, Option.map_map]
  rfl

omit [Processor ν] in
theorem settled_values {slot : Slot} {slot? : Option Slot} {value other : Value} (refusal : Entry)
    (held : graph.state.values[slot]? = some value) :
    (graph.settled refusal
      (slot?.map fun target => (graph.setSlot target other, #[]))).1.state.values[slot]? =
        some ((if slot? = some slot then some other else none).getD value) := by
  have bound := (Array.getElem?_eq_some_iff.mp held).1
  cases slot? with
  | none => simpa [settled] using held
  | some target =>
      by_cases here : target = slot
      · subst here
        simp [settled, setSlot, bound]
      · rw [if_neg (by simpa using here), Option.getD_none, ← held]
        exact Array.getElem?_setIfInBounds_ne here

/-- In a slot that no node writes there is, after a call that does not rewind the
graph, what the call has set, or else what was there before. -/
theorem perform_values {slot : Slot} {value : Value} {call : Call}
    (unwritten : ∀ writer, slot ∉ graph.circuit.outputsAt writer)
    (held : graph.state.values[slot]? = some value) (proceeds : call.rewinds = false) :
    (graph.perform call).1.state.values[slot]? =
      some ((graph.circuit.setTo? slot call).getD value) := by
  cases call with
  | process | post | init =>
      -- Such a call sets nothing: what is asked for is the value before.
      exact holds_of_unwritten unwritten held _ (graph.perform_passes rfl)
  | drain => exact held
  | reset => cases proceeds
  | setInput id other =>
      rw [perform_setInput_settled]
      exact settled_values _ held
  | setLocal id other =>
      rw [perform_setLocal_settled]
      exact settled_values _ held

/-- A slot that no node writes holds what the calls have set last since the graph
was rewound, or else what it held at first. -/
theorem afterCalls_values {slot : Slot} {resting : Value}
    (unwritten : ∀ writer, slot ∉ graph.circuit.outputsAt writer)
    (rests : graph.circuit.defaults[slot]? = some resting)
    (fresh : graph.state.values[slot]? = some resting) (calls : List Call) :
    (graph.afterCalls calls).state.values[slot]? =
      some ((Call.lastSet? (graph.circuit.setTo? slot) calls).getD resting) := by
  induction calls using List.reverseRecOn with
  | nil => exact fresh
  | append_singleton calls call induction =>
      have sameCircuit := graph.afterCalls_circuit calls
      rw [afterCalls_append, afterCalls_cons, afterCalls_nil]
      cases rewound : call.rewinds with
      | true =>
          cases call <;> cases rewound
          rw [Call.lastSet?_concat_reset]
          show (graph.afterCalls calls).circuit.defaults[slot]? = _
          rw [sameCircuit, rests, Option.getD_none]
      | false =>
          have after := perform_values (sameCircuit ▸ unwritten) induction rewound
          rw [after, sameCircuit, Call.lastSet?_concat rewound]
          cases graph.circuit.setTo? slot call <;> rfl

/-- A call that sets is accepted exactly if there is a slot to be set. Then it
changes that slot, and else nothing. -/
structure Sets (graph : Graph ν) (call : Call) (declared : Prop) (slot? : Option Slot)
    (value : Value) : Prop where
  accepts : (graph.perform call).2.1 = .accepted true ↔ declared
  accepted : declared → ∃ slot, slot? = some slot ∧ slot < graph.state.values.size ∧
    (graph.perform call).1 = graph.setSlot slot value
  refused : ¬ declared →
    (graph.perform call).1 = graph ∧ (graph.perform call).2.1 = .accepted false

theorem sets_of_settled {call : Call} {declared : Prop} {slot? : Option Slot} {value : Value}
    (refusal : Entry)
    (performed : graph.perform call =
      graph.settled refusal (slot?.map fun slot => (graph.setSlot slot value, #[])))
    (located : declared ↔ ∃ slot, slot? = some slot)
    (bounded : ∀ slot, slot? = some slot → slot < graph.state.values.size) :
    graph.Sets call declared slot? value := by
  cases slot? with
  | none =>
      have undeclared : ¬ declared := fun present => by simpa using located.mp present
      refine ⟨?_, fun present => absurd present undeclared, fun _ => by simp [performed, settled]⟩
      simp [performed, settled, undeclared]
  | some slot =>
      have present : declared := located.mpr ⟨slot, rfl⟩
      refine ⟨?_, fun _ => ⟨slot, rfl, bounded slot rfl, ?_⟩, fun absent => absurd present absent⟩
      · simp [performed, settled, present]
      · rw [performed]
        rfl

end Graph

end

/-! ## Slots of declarations -/

namespace Assembly

/-- The last endpoint of that id. -/
def lastDeclared? (declared : List Endpoint) (id : Identifier) : Option Endpoint :=
  declared.reverse.find? fun endpoint => endpoint.id == id

variable {first slot : Slot} {declared : List Endpoint} {id other : Identifier}

theorem lastSlot?_number_eq_none (absent : ¬ Declares declared id) :
    Circuit.lastSlot? (number first declared) id = none := by
  rw [Option.eq_none_iff_forall_ne_some]
  intro slot located
  obtain ⟨_, listed, same⟩ := lastSlot?_mem located
  obtain ⟨endpoint, member, rfl⟩ := mem_number listed
  exact absent ⟨endpoint, member, same⟩

theorem declares_iff_exists_lastSlot? :
    Declares declared id ↔ ∃ slot, Circuit.lastSlot? (number first declared) id = some slot := by
  constructor
  · exact exists_lastSlot?_number first
  · intro located
    obtain ⟨slot, located⟩ := located
    by_contra absent
    rw [lastSlot?_number_eq_none absent] at located
    cases located

/-- An id stands for the last endpoint that it is declared with. -/
theorem lastSlot?_number_of_lastDeclared? (first : Slot) {endpoint : Endpoint}
    (last : lastDeclared? declared id = some endpoint) :
    ∃ position, declared[position]? = some endpoint ∧
      Circuit.lastSlot? (number first declared) id = some (first + position) := by
  induction declared generalizing first with
  | nil => cases last
  | cons head declared induction =>
      rw [lastDeclared?, List.reverse_cons, List.find?_append] at last
      rw [number, lastSlot?_cons]
      -- Both look-ups begin at the end, so the tail decides if it declares the id.
      cases later : lastDeclared? declared id with
      | some found =>
          have same : found = endpoint := by
            rw [lastDeclared?] at later
            rwa [later, Option.some_or, Option.some.injEq] at last
          subst same
          obtain ⟨position, listed, located⟩ := induction (first + 1) later
          refine ⟨position + 1, listed, ?_⟩
          rw [located, Option.some_or, Nat.add_assoc, Nat.add_comm 1]
      | none =>
          have absent : ¬ Declares declared id := by
            intro present
            obtain ⟨other, member, same⟩ := present
            exact List.find?_eq_none.mp later other (List.mem_reverse.mpr member) same
          rw [lastDeclared?] at later
          rw [later, Option.none_or] at last
          have same : (head.id == id) = true := by
            by_contra different
            simp [different] at last
          refine ⟨0, by simpa [same] using last, ?_⟩
          rw [lastSlot?_number_eq_none absent, Option.none_or, if_pos same, Nat.add_zero]

theorem number_unique {name otherName : Identifier} (listed : (name, slot) ∈ number first declared)
    (otherListed : (otherName, slot) ∈ number first declared) : name = otherName := by
  obtain ⟨position, found⟩ := List.getElem?_of_mem listed
  obtain ⟨otherPosition, otherFound⟩ := List.getElem?_of_mem otherListed
  rw [number_getElem?, Option.map_eq_some_iff] at found otherFound
  obtain ⟨endpoint, present, equal⟩ := found
  obtain ⟨otherEndpoint, otherPresent, otherEqual⟩ := otherFound
  rw [Prod.mk.injEq] at equal otherEqual
  have same : position = otherPosition := Nat.add_left_cancel (equal.2.trans otherEqual.2.symm)
  rw [same, otherPresent, Option.some.injEq] at present
  rw [← equal.1, ← otherEqual.1, present]

/-- Ids that stand for one slot are the same. -/
theorem lastSlot?_number_iff (located : Circuit.lastSlot? (number first declared) id = some slot) :
    Circuit.lastSlot? (number first declared) other = some slot ↔ (other == id) = true := by
  constructor
  · intro otherLocated
    obtain ⟨name, listed, same⟩ := lastSlot?_mem located
    obtain ⟨otherName, otherListed, otherSame⟩ := lastSlot?_mem otherLocated
    rw [number_unique otherListed listed] at otherSame
    exact PartialEquivBEq.trans (BEq.symm otherSame) same
  · intro same
    rw [Compile.lastSlot?_congr same, located]

end Assembly

/-! ## Compiled graphs -/

namespace Compile

section
variable [Processor κ] {registry : Registry κ} {config : Config} {prototype : Prototype}
  {room : Nat} {graph : Graph (Nested κ room)}

theorem Reachable.locals_eq (reachable : Reachable registry config prototype graph) :
    graph.circuit.locals = Assembly.localSlots prototype := by
  obtain ⟨wires, order, -, equal⟩ := reachable.circuit_eq
  rw [equal]
  rfl

/-- Even if an id names both, its input and its local variable lie apart. -/
theorem Reachable.inputs_apart_locals (reachable : Reachable registry config prototype graph)
    {id other : Identifier} {slot : Slot} (input : graph.circuit.inputSlot? id = some slot) :
    graph.circuit.localSlot? other ≠ some slot := by
  intro located
  obtain ⟨_, listed, -⟩ := Assembly.lastSlot?_mem located
  rw [reachable.locals_eq] at listed
  exact Nat.not_lt_of_le (Assembly.number_bounds listed).1 (reachable.inputSlot?_lt input)

theorem Reachable.setTo?_input (reachable : Reachable registry config prototype graph)
    {id : Identifier} {slot : Slot} (located : graph.circuit.inputSlot? id = some slot) :
    graph.circuit.setTo? slot = Call.inputSet? id := by
  funext call
  cases call with
  | setInput other value =>
      have same : graph.circuit.inputSlot? other = some slot ↔ (other == id) = true := by
        rw [Circuit.inputSlot?, reachable.inputs_eq] at located ⊢
        exact Assembly.lastSlot?_number_iff located
      simp only [Circuit.setTo?, Call.inputSet?, same]
  | setLocal other value => exact if_neg (reachable.inputs_apart_locals located)
  | process | post | drain | reset | init => rfl

theorem Reachable.setTo?_local (reachable : Reachable registry config prototype graph)
    {id : Identifier} {slot : Slot} (located : graph.circuit.localSlot? id = some slot) :
    graph.circuit.setTo? slot = Call.localSet? id := by
  funext call
  cases call with
  | setInput other value =>
      exact if_neg fun input => reachable.inputs_apart_locals input located
  | setLocal other value =>
      have same : graph.circuit.localSlot? other = some slot ↔ (other == id) = true := by
        rw [Circuit.localSlot?, reachable.locals_eq] at located ⊢
        exact Assembly.lastSlot?_number_iff located
      simp only [Circuit.setTo?, Call.localSet?, same]
  | process | post | drain | reset | init => rfl

/-- The slots of local variables hold at first what the prototype says. -/
theorem Reachable.defaults_local (reachable : Reachable registry config prototype graph)
    {position : Nat} {endpoint : Endpoint} (listed : prototype.locals[position]? = some endpoint) :
    graph.circuit.defaults[prototype.inputs.length + position]? = some endpoint.default := by
  obtain ⟨wires, order, -, equal⟩ := reachable.circuit_eq
  have bound := (List.getElem?_eq_some_iff.mp listed).1
  have lies : (Assembly.circuit config (endpointsOf registry prototype) wires order).slotAt?
      (.localVariable position) = some (prototype.inputs.length + position) :=
    Assembly.slotAt?_localVariable_iff.mpr ⟨bound, rfl⟩
  rw [equal, Assembly.defaults_slotAt? (endpointsOf_complete registry prototype) lies rfl]
  show prototype.locals[position]?.map Endpoint.default = _
  rw [listed, Option.map_some]

theorem Reachable.settable_bounded (reachable : Reachable registry config prototype graph)
    {id : Identifier} {slot : Slot}
    (located : graph.circuit.inputSlot? id = some slot ∨ graph.circuit.localSlot? id = some slot) :
    slot < graph.state.values.size := by
  rw [reachable.fits.values]
  obtain input | variable_ := located
  · obtain ⟨other, listed, -⟩ := Assembly.lastSlot?_mem input
    exact reachable.circuit_sound.tables_exist (other, slot)
      (List.mem_append_left _ (List.mem_append_left _ listed))
  · obtain ⟨other, listed, -⟩ := Assembly.lastSlot?_mem variable_
    exact reachable.circuit_sound.tables_exist (other, slot)
      (List.mem_append_left _ (List.mem_append_right _ listed))

theorem Reachable.sets_input (reachable : Reachable registry config prototype graph)
    (id : Identifier) (value : Value) :
    graph.Sets (.setInput id value) (Declares prototype.inputs id) (graph.circuit.inputSlot? id)
      value := by
  apply Graph.sets_of_settled _ (graph.perform_setInput_settled id value)
  · rw [Circuit.inputSlot?, reachable.inputs_eq]
    exact Assembly.declares_iff_exists_lastSlot?
  · exact fun slot located => reachable.settable_bounded (.inl located)

theorem Reachable.sets_local (reachable : Reachable registry config prototype graph)
    (id : Identifier) (value : Value) :
    graph.Sets (.setLocal id value) (Declares prototype.locals id) (graph.circuit.localSlot? id)
      value := by
  apply Graph.sets_of_settled _ (graph.perform_setLocal_settled id value)
  · rw [Circuit.localSlot?, reachable.locals_eq]
    exact Assembly.declares_iff_exists_lastSlot?
  · exact fun slot located => reachable.settable_bounded (.inr located)

/-- A slot that the host sets holds what the host has set last, or else what it
held at first. -/
theorem holds_set {built : Graph (Nested κ room)}
    (compiled : (build registry config room prototype).outcome = .ok built) {id : Identifier}
    {slot : Slot} {resting : Value}
    (located : built.circuit.inputSlot? id = some slot ∨ built.circuit.localSlot? id = some slot)
    (rests : built.circuit.defaults[slot]? = some resting) (calls : List Call) :
    (built.afterCalls calls).Holds slot
      ((Call.lastSet? (built.circuit.setTo? slot) calls).getD resting) := by
  have fresh : Reachable registry config prototype built := ⟨built, [], compiled, rfl⟩
  have unwritten := fresh.settable_unwritten located
  have held : built.state.values[slot]? = some resting := build_values compiled ▸ rests
  apply Graph.holds_of_unwritten
  · rwa [Graph.afterCalls_circuit]
  · exact Graph.afterCalls_values unwritten rests held calls

theorem exists_holds_input {built : Graph (Nested κ room)}
    (compiled : (build registry config room prototype).outcome = .ok built) {id : Identifier}
    {input : Endpoint} (last : Assembly.lastDeclared? prototype.inputs id = some input)
    (calls : List Call) :
    ∃ slot, (built.afterCalls calls).circuit.inputSlot? id = some slot ∧
      (built.afterCalls calls).Holds slot
        ((Call.lastSet? (Call.inputSet? id) calls).getD input.default) := by
  have fresh : Reachable registry config prototype built := ⟨built, [], compiled, rfl⟩
  obtain ⟨position, listed, located⟩ := Assembly.lastSlot?_number_of_lastDeclared? 0 last
  rw [Nat.zero_add] at located
  have bound := (List.getElem?_eq_some_iff.mp listed).1
  have located : built.circuit.inputSlot? id = some position := by
    rwa [Circuit.inputSlot?, fresh.inputs_eq]
  have rests : built.circuit.defaults[position]? = some input.default := by
    rw [fresh.defaults_input bound, listed, Option.map_some]
  refine ⟨position, by rwa [Graph.afterCalls_circuit], ?_⟩
  rw [← fresh.setTo?_input located]
  exact holds_set compiled (.inl located) rests calls

theorem exists_holds_local {built : Graph (Nested κ room)}
    (compiled : (build registry config room prototype).outcome = .ok built) {id : Identifier}
    {variable_ : Endpoint} (last : Assembly.lastDeclared? prototype.locals id = some variable_)
    (calls : List Call) :
    ∃ slot, (built.afterCalls calls).circuit.localSlot? id = some slot ∧
      (built.afterCalls calls).Holds slot
        ((Call.lastSet? (Call.localSet? id) calls).getD variable_.default) := by
  have fresh : Reachable registry config prototype built := ⟨built, [], compiled, rfl⟩
  obtain ⟨position, listed, located⟩ :=
    Assembly.lastSlot?_number_of_lastDeclared? prototype.inputs.length last
  have located : built.circuit.localSlot? id = some (prototype.inputs.length + position) := by
    rwa [Circuit.localSlot?, fresh.locals_eq]
  refine ⟨_, by rwa [Graph.afterCalls_circuit], ?_⟩
  rw [← fresh.setTo?_local located]
  exact holds_set compiled (.inr located) (fresh.defaults_local listed) calls

theorem liesWired_plug {built : Graph (Nested κ room)}
    (compiled : (build registry config room prototype).outcome = .ok built)
    {index plug : Nat} {placed : PrototypeNode} {layout : Layout} {endpoint : Endpoint}
    (listed : prototype.nodes[index]? = some placed)
    (layoutKnown : layout? registry placed = some layout)
    (declared : layout.inputs[plug]? = some endpoint) :
    LiesWired registry prototype built (.nodeInput index plug)
      (Assembly.restingValue placed.overrides endpoint)
      (prototype.connections.filter fun connection =>
        connection.feedsPlug placed layout plug) := by
  obtain ⟨nodes, wires, order, created, wired, rfl⟩ := build_eq_ok_iff.mp compiled
  have distinct := (checkIds_eq_ok_iff.mp wired.ids).2
  have known : ∀ placed ∈ prototype.nodes, ∃ layout, layout? registry placed = some layout := by
    intro other otherListed
    obtain ⟨node, made⟩ := exists_forall₂_iff.mp ⟨nodes, created⟩ other otherListed
    exact ⟨_, createNode_layout made⟩
  have located : (endpointsOf registry prototype).layouts[index]? = some layout :=
    layouts_eq_some_iff.mpr ⟨placed, listed, by simp [layoutKnown]⟩
  apply liesWired_of_ends wired distinct known rfl
  · show prototype.nodes[index]?.bind _ = _
    simp [listed, located, declared]
  · exact fun _ _ => feedsPlug_iff distinct known listed layoutKnown

/-- A plug on which no connection ends reads a slot that nobody changes. -/
theorem exists_holds_plug {built : Graph (Nested κ room)}
    (compiled : (build registry config room prototype).outcome = .ok built)
    {index plug : Nat} {placed : PrototypeNode} {layout : Layout} {endpoint : Endpoint}
    (listed : prototype.nodes[index]? = some placed)
    (layoutKnown : layout? registry placed = some layout)
    (declared : layout.inputs[plug]? = some endpoint)
    (unfed : ∀ connection ∈ prototype.connections,
      connection.feedsPlug placed layout plug = false) (calls : List Call) :
    ∃ slot, ((built.afterCalls calls).circuit.inputsAt index)[plug]? = some slot ∧
      (built.afterCalls calls).Holds slot
        (Assembly.restingValue placed.overrides endpoint) := by
  have nothing : (prototype.connections.filter fun connection =>
      connection.feedsPlug placed layout plug) = [] := by
    simpa [List.filter_eq_nil_iff] using unfed
  have lies := liesWired_plug compiled listed layoutKnown declared
  rw [nothing] at lies
  cases lies with
  | @own slot lies apart constant =>
      refine ⟨slot, by rwa [Graph.afterCalls_circuit], Graph.holds_of_unwritten ?_ (constant calls)⟩
      intro writer written
      rw [Graph.afterCalls_circuit] at written
      obtain ⟨output, found⟩ := Circuit.exists_slotAt?_nodeOutput written
      cases apart _ found

/-- Nothing but its owner changes a slot of the graph, which comes about by the
calls from one that was compiled from the prototype. -/
structure Framed (registry : Registry κ) (prototype : Prototype) (graph : Graph (Nested κ room))
    (calls : List Call) : Prop where
  /-- The slot of an input holds what has been set last, or else the default of the
  last declaration; also while nodes run. No call that sets it is refused. -/
  inputs : ∀ id input, Assembly.lastDeclared? prototype.inputs id = some input →
    ∃ slot, graph.circuit.inputSlot? id = some slot ∧
      graph.Holds slot ((Call.lastSet? (Call.inputSet? id) calls).getD input.default)
  locals : ∀ id variable_, Assembly.lastDeclared? prototype.locals id = some variable_ →
    ∃ slot, graph.circuit.localSlot? id = some slot ∧
      graph.Holds slot ((Call.lastSet? (Call.localSet? id) calls).getD variable_.default)
  /-- A plug on which no connection ends reads the first override of that name, or
  else its default. -/
  plugs : ∀ index placed layout plug endpoint, prototype.nodes[index]? = some placed →
    layout? registry placed = some layout → layout.inputs[plug]? = some endpoint →
    (∀ connection ∈ prototype.connections, connection.feedsPlug placed layout plug = false) →
    ∃ slot, (graph.circuit.inputsAt index)[plug]? = some slot ∧
      graph.Holds slot (Assembly.restingValue placed.overrides endpoint)
  steps : ∀ call, Relation.ReflTransGen (graph.circuit.Step call) graph.state
    (graph.perform call).1.state
  /-- In a step an output plug changes only if its own node runs, or if the graph is
  rewound. -/
  outputs : ∀ (call : Call) (before after : State (Nested κ room)) (owner slot : Nat),
    graph.circuit.Step call before after →
    slot ∈ graph.circuit.outputsAt owner → after.values[slot]? ≠ before.values[slot]? →
    (∃ happening : Happening,
      after = (before.runCell graph.circuit owner happening.program).1) ∨ call = .reset
  setInput : ∀ id value, graph.Sets (.setInput id value) (Declares prototype.inputs id)
    (graph.circuit.inputSlot? id) value
  setLocal : ∀ id value, graph.Sets (.setLocal id value) (Declares prototype.locals id)
    (graph.circuit.localSlot? id) value

/-- An output plug changes only in a step of its own node, or when the graph is
rewound. -/
theorem Reachable.output_changes (reachable : Reachable registry config prototype graph)
    {call : Call} {before after : State (Nested κ room)} {owner : Nat} {slot : Slot}
    (step : graph.circuit.Step call before after) (owned : slot ∈ graph.circuit.outputsAt owner)
    (changed : after.values[slot]? ≠ before.values[slot]?) :
    (∃ happening : Happening,
      after = (before.runCell graph.circuit owner happening.program).1) ∨ call = .reset := by
  have flows := reachable.flowsForward
  obtain ⟨index, happening, written, equal⟩ | ⟨value, set⟩ | reset := step.changes changed
  · have same : index = owner := by
      by_contra different
      exact flows.outputs_apart index owner different slot written owned
    exact .inl ⟨happening, same ▸ equal⟩
  · have unset : graph.circuit.setTo? slot call = none := by
      cases call with
      | setInput id value =>
          exact if_neg fun located => reachable.settable_unwritten (.inl located) owner owned
      | setLocal id value =>
          exact if_neg fun located => reachable.settable_unwritten (.inr located) owner owned
      | process | post | drain | reset | init => rfl
    rw [unset] at set
    cases set
  · exact .inr reset

theorem framed_afterCalls {built : Graph (Nested κ room)}
    (compiled : (build registry config room prototype).outcome = .ok built) (calls : List Call) :
    Framed registry prototype (built.afterCalls calls) calls := by
  have fresh : Reachable registry config prototype built := ⟨built, [], compiled, rfl⟩
  have reachable := fresh.afterCalls calls
  exact {
    inputs := fun id input last => exists_holds_input compiled last calls
    locals := fun id variable_ last => exists_holds_local compiled last calls
    plugs := fun index placed layout plug endpoint listed layoutKnown declared unfed =>
      exists_holds_plug compiled listed layoutKnown declared unfed calls
    steps := Graph.perform_steps _
    outputs := fun call before after owner slot step owned changed =>
      reachable.output_changes step owned changed
    setInput := reachable.sets_input
    setLocal := reachable.sets_local }

/-- Whatever a host calls, nothing but its owner changes a slot, of a compiled graph
and of all graphs inside of it. Those are set, and called, by the nodes that they are in:
each is what has been compiled at its place, after the calls that these nodes have made.
An instance that a host creates is such a graph, initialized by the first call. -/
theorem framed_everywhere {built : Graph (Nested κ room)}
    (compiled : (build registry config room prototype).outcome = .ok built) (calls : List Call) :
    Framed registry prototype (built.afterCalls calls) calls ∧
      ∀ (inner : Nat) (part : Graph (Nested κ inner)) (path : List Nat),
        (built.afterCalls calls).Contains path part →
        ∃ nested original callsInside, prototype.inside? path = some nested ∧
          (build registry config inner nested).outcome = .ok original ∧
          built.CallsInside calls path original callsInside ∧
          part = original.afterCalls callsInside ∧
          Framed registry nested part callsInside := by
  refine ⟨framed_afterCalls compiled calls, ?_⟩
  intro inner part path contains
  rcases exists_callsInside compiled contains with
    ⟨nested, original, callsInside, place, rebuilt, called, rfl⟩
  exact ⟨nested, original, callsInside, place, rebuilt, called, rfl,
    framed_afterCalls rebuilt callsInside⟩

end

/-- An input and a local variable of one name. The input is declared twice, and shown
as it is; nothing is connected to the index, for which there are two overrides. -/
def namesakes : Prototype where
  name := "Namesakes"
  id := 0
  inputs := [⟨.named "Value", .int32 1⟩, ⟨.named "Value", .int32 2⟩, ⟨.named "Start", .void⟩]
  outputs := [⟨.named "Shown", .int32 0⟩, ⟨.named "Element", .int32 0⟩]
  locals := [⟨.named "Value", .array [.int32 4, .int32 8]⟩]
  nodes := [⟨.named "Get (Int)", 1,
    [⟨.named "Index", .int32 1⟩, ⟨.named "Index", .int32 0⟩], none⟩]
  connections := [
    ⟨⟨graphNodeId, .named "Value"⟩, ⟨graphNodeId, .named "Shown"⟩, .graphValueToGraph⟩,
    ⟨⟨graphNodeId, .named "Value"⟩, ⟨1, .named "Array"⟩, .localValueToNode⟩,
    ⟨⟨graphNodeId, .named "Start"⟩, ⟨1, .named "Trigger"⟩, .graphEventToNode⟩,
    ⟨⟨1, .named "Element"⟩, ⟨graphNodeId, .named "Element"⟩, .nodeValueToGraph⟩]

theorem namesakes_framed :
    let calls : List Call := [.init default, .setInput (.named "Value") (.int32 3),
      .setLocal (.named "Value") .void, .reset, .setInput (.named "Value") (.int32 7),
      .post (.named "Start")]
    ∃ built : Graph (Nested StandardNode 0),
      (build elements Config.default 0 namesakes).outcome = .ok built ∧
      Framed elements namesakes (built.afterCalls calls) calls ∧
      (∃ slot, (built.afterCalls calls).circuit.inputSlot? (.named "Value") = some slot ∧
        (built.afterCalls calls).circuit.outputSlot? (.named "Shown") = some slot ∧
        (built.afterCalls calls).Holds slot (.int32 7)) ∧
      (∃ slot, (built.afterCalls calls).circuit.localSlot? (.named "Value") = some slot ∧
        (built.afterCalls calls).Holds slot (.array [.int32 4, .int32 8])) ∧
      ∃ slot, ((built.afterCalls calls).circuit.inputsAt 0)[1]? = some slot ∧
        (built.afterCalls calls).Holds slot (.int32 1) := by
  intro calls
  have shows : ((build elements Config.default 0 namesakes).outcome.toOption.any fun built =>
      built.circuit.outputSlot? (.named "Shown") == built.circuit.inputSlot? (.named "Value")) =
        true := by
    decide +kernel
  obtain ⟨built, compiled, shown⟩ := exists_of_any shows
  have framed := (framed_everywhere compiled calls).1
  refine ⟨built, compiled, framed, ?_, ?_, ?_⟩
  · obtain ⟨slot, located, holds⟩ :=
      framed.inputs (.named "Value") ⟨.named "Value", .int32 2⟩ rfl
    refine ⟨slot, located, ?_, holds⟩
    rw [Graph.afterCalls_circuit] at located ⊢
    rw [eq_of_beq shown, located]
  · exact framed.locals (.named "Value") ⟨.named "Value", _⟩ rfl
  · exact framed.plugs 0 _ _ 1 _ rfl rfl rfl (by decide +kernel)

end Compile

end NodeGraph
