import NodeGraph.Proofs.Compile.Success

namespace NodeGraph

/-! The wires of a prototype are its connections, looked up one by one. They are
wired exactly if every end can be found and no two values arrive at the same
place. -/

/-! ## Looking up ends -/

namespace Endpoints

variable {endpoints : Endpoints} {terminus : Terminus}

/-- Where a node lies. -/
def position? (endpoints : Endpoints) (node : NodeId) : Option Nat :=
  endpoints.prototype.nodes.findIdx? fun placed => placed.id == node

theorem node_eq_ok_iff {index : Nat} :
    endpoints.node terminus = .ok index ↔ endpoints.position? terminus.node = some index := by
  unfold node position?
  cases endpoints.prototype.nodes.findIdx? fun placed => placed.id == terminus.node <;> simp

theorem plug_eq_ok_iff {find : Layout → Identifier → Option Nat} {index plug : Nat} :
    endpoints.plug find terminus = .ok (index, plug) ↔
      endpoints.position? terminus.node = some index ∧
        ∃ layout, endpoints.layouts[index]? = some layout ∧
          find layout terminus.endpoint = some plug := by
  simp only [Endpoints.plug, except_bind_eq_ok_iff, node_eq_ok_iff]
  constructor
  · intro found
    rcases found with ⟨other, found, plugFound⟩
    cases located : endpoints.layouts[other]?.bind fun layout => find layout terminus.endpoint with
    | none => simp [located] at plugFound
    | some position =>
        simp only [located, Except.ok.injEq, Prod.mk.injEq] at plugFound
        rcases plugFound with ⟨rfl, rfl⟩
        exact ⟨found, Option.bind_eq_some_iff.mp located⟩
  · intro found
    rcases found with ⟨found, located⟩
    exact ⟨index, found, by simp [Option.bind_eq_some_iff.mpr located]⟩

theorem declared_eq_ok_iff {found : Option Endpoint} {id : Identifier} :
    declared found terminus = .ok id ↔ found.map Endpoint.id = some id := by
  cases found <;> simp [declared]

/-- An id as declared is the id that was looked up. -/
theorem declared_beq {endpoints : List Endpoint} {id : Identifier}
    (found : declared (endpoints.find? fun endpoint => endpoint.id == terminus.endpoint)
      terminus = .ok id) : (id == terminus.endpoint) = true := by
  rcases Option.map_eq_some_iff.mp (declared_eq_ok_iff.mp found) with ⟨input, located, equal⟩
  subst equal
  exact List.find?_some (p := fun endpoint : Endpoint => endpoint.id == terminus.endpoint) located

theorem exists_declared_of_eq_ok {endpoints : List Endpoint} {id : Identifier}
    (found : declared (endpoints.find? fun endpoint => endpoint.id == terminus.endpoint)
      terminus = .ok id) : ∃ endpoint ∈ endpoints, (endpoint.id == id) = true := by
  rcases Option.map_eq_some_iff.mp (declared_eq_ok_iff.mp found) with ⟨endpoint, located, rfl⟩
  exact ⟨endpoint, List.mem_of_find?_eq_some located, BEq.rfl⟩

theorem checkScope_eq_ok_iff {kind : ConnectionKind} {scope : Scope} :
    checkScope kind scope terminus = .ok () ↔ (terminus.node = graphNodeId ↔ scope ≠ .node) := by
  have reads : (terminus.node == graphNodeId) = decide (terminus.node = graphNodeId) := rfl
  by_cases onGraph : terminus.node = graphNodeId <;> cases scope <;>
    simp [checkScope, reads, onGraph]

/-! ## Ends on nodes -/

theorem valueSource_eq_nodeOutput_iff {scope : Scope} {index plug : Nat} :
    endpoints.valueSource scope terminus = .ok (.nodeOutput index plug) ↔
      scope = .node ∧ endpoints.plug Layout.outputIndex? terminus = .ok (index, plug) := by
  cases scope with
  | node => simp [valueSource, except_bind_eq_ok_iff, pure, Except.pure]
  | graph => cases found : endpoints.graphInput terminus <;> simp [valueSource, found]
  | localVariable => cases found : endpoints.localVariable terminus <;> simp [valueSource, found]

theorem valueSink_eq_nodeInput_iff {scope : Scope} {index plug : Nat} :
    endpoints.valueSink scope terminus = .ok (.nodeInput index plug) ↔
      scope = .node ∧ endpoints.plug Layout.inputIndex? terminus = .ok (index, plug) := by
  cases scope with
  | node => simp [valueSink, except_bind_eq_ok_iff, pure, Except.pure]
  | graph | localVariable =>
      cases found : endpoints.graphOutput terminus <;> simp [valueSink, found]

theorem eventSource_eq_nodeEvent_iff {scope : Scope} {index output : Nat} :
    endpoints.eventSource scope terminus = .ok (.nodeEvent index output) ↔
      scope = .node ∧ endpoints.plug Layout.outputEventIndex? terminus = .ok (index, output) := by
  cases scope with
  | node => simp [eventSource, except_bind_eq_ok_iff, pure, Except.pure]
  | graph | localVariable =>
      cases found : endpoints.graphInput terminus <;> simp [eventSource, found]

theorem eventTarget_eq_node_iff {scope : Scope} {index input : Nat} :
    endpoints.eventTarget scope terminus = .ok (.node index input) ↔
      scope = .node ∧ endpoints.plug Layout.inputEventIndex? terminus = .ok (index, input) := by
  cases scope with
  | node => simp [eventTarget, except_bind_eq_ok_iff, pure, Except.pure]
  | graph | localVariable =>
      cases found : endpoints.graphOutput terminus <;> simp [eventTarget, found]

/-! ## Ends on the graph -/

theorem valueSource_eq_graphInput_iff {scope : Scope} {id : Identifier} :
    endpoints.valueSource scope terminus = .ok (.graphInput id) ↔
      scope = .graph ∧ endpoints.graphInput terminus = .ok id := by
  cases scope with
  | node => simp [valueSource, except_bind_eq_ok_iff, pure, Except.pure]
  | graph => cases found : endpoints.graphInput terminus <;> simp [valueSource, found]
  | localVariable => cases found : endpoints.localVariable terminus <;> simp [valueSource, found]

theorem valueSource_eq_localVariable_iff {scope : Scope} {id : Identifier} :
    endpoints.valueSource scope terminus = .ok (.localVariable id) ↔
      scope = .localVariable ∧ endpoints.localVariable terminus = .ok id := by
  cases scope with
  | node => simp [valueSource, except_bind_eq_ok_iff, pure, Except.pure]
  | graph => cases found : endpoints.graphInput terminus <;> simp [valueSource, found]
  | localVariable => cases found : endpoints.localVariable terminus <;> simp [valueSource, found]

theorem valueSink_eq_graphOutput_iff {scope : Scope} {id : Identifier} :
    endpoints.valueSink scope terminus = .ok (.graphOutput id) ↔
      scope ≠ .node ∧ endpoints.graphOutput terminus = .ok id := by
  cases scope with
  | node => simp [valueSink, except_bind_eq_ok_iff, pure, Except.pure]
  | graph | localVariable =>
      cases found : endpoints.graphOutput terminus <;> simp [valueSink, found]

theorem eventSource_eq_graphInput_iff {scope : Scope} {id : Identifier} :
    endpoints.eventSource scope terminus = .ok (.graphInput id) ↔
      scope ≠ .node ∧ endpoints.graphInput terminus = .ok id := by
  cases scope with
  | node => simp [eventSource, except_bind_eq_ok_iff, pure, Except.pure]
  | graph | localVariable =>
      cases found : endpoints.graphInput terminus <;> simp [eventSource, found]

theorem eventTarget_eq_graphOutput_iff {scope : Scope} {id : Identifier} :
    endpoints.eventTarget scope terminus = .ok (.graphOutput id) ↔
      scope ≠ .node ∧ endpoints.graphOutput terminus = .ok id := by
  cases scope with
  | node => simp [eventTarget, except_bind_eq_ok_iff, pure, Except.pure]
  | graph | localVariable =>
      cases found : endpoints.graphOutput terminus <;> simp [eventTarget, found]

/-- What a value wire ends on is a plug of a node or an output of the graph. -/
theorem valueSink_cases {scope : Scope} {sink : ValueSink}
    (found : endpoints.valueSink scope terminus = .ok sink) :
    (∃ index plug, scope = .node ∧ sink = .nodeInput index plug ∧
        endpoints.plug Layout.inputIndex? terminus = .ok (index, plug)) ∨
      ∃ id, scope ≠ .node ∧ sink = .graphOutput id ∧ endpoints.graphOutput terminus = .ok id := by
  cases sink with
  | nodeInput index plug =>
      have located := valueSink_eq_nodeInput_iff.mp found
      exact .inl ⟨index, plug, located.1, rfl, located.2⟩
  | graphOutput id =>
      have located := valueSink_eq_graphOutput_iff.mp found
      exact .inr ⟨id, located.1, rfl, located.2⟩

/-! ## Single wires -/

theorem wire_eq_ok_iff {connection : Connection} {wire : Wire} :
    endpoints.wire connection = .ok wire ↔
      checkScope connection.kind connection.kind.sourceScope connection.source = .ok () ∧
      checkScope connection.kind connection.kind.destinationScope connection.destination =
        .ok () ∧
      ((connection.kind.isEvent = true ∧ ∃ source target,
          endpoints.eventSource connection.kind.sourceScope connection.source = .ok source ∧
          endpoints.eventTarget connection.kind.destinationScope connection.destination =
            .ok target ∧
          wire = .event source target) ∨
        (connection.kind.isEvent = false ∧ ∃ source sink,
          endpoints.valueSource connection.kind.sourceScope connection.source = .ok source ∧
          endpoints.valueSink connection.kind.destinationScope connection.destination =
            .ok sink ∧
          wire = .value source sink)) := by
  simp only [Endpoints.wire, except_seq_eq_ok_iff]
  cases connection.kind.isEvent with
  | false =>
      simp only [Bool.false_eq_true, if_false, except_bind_eq_ok_iff, pure, Except.pure,
        Except.ok.injEq, false_and, true_and, false_or, eq_comm (a := wire)]
      simp only [exists_and_left]
  | true =>
      simp only [if_true, except_bind_eq_ok_iff, pure, Except.pure, Except.ok.injEq, true_and,
        reduceCtorEq, false_and, or_false, eq_comm (a := wire)]
      simp only [exists_and_left]

theorem wire_eq_value_iff {connection : Connection} {source : ValueSource} {sink : ValueSink} :
    endpoints.wire connection = .ok (.value source sink) ↔
      checkScope connection.kind connection.kind.sourceScope connection.source = .ok () ∧
      checkScope connection.kind connection.kind.destinationScope connection.destination =
        .ok () ∧
      connection.kind.isEvent = false ∧
      endpoints.valueSource connection.kind.sourceScope connection.source = .ok source ∧
      endpoints.valueSink connection.kind.destinationScope connection.destination = .ok sink := by
  rw [wire_eq_ok_iff]
  simp only [reduceCtorEq, and_false, exists_false, false_or, Wire.value.injEq]
  refine and_congr Iff.rfl (and_congr Iff.rfl (and_congr Iff.rfl ?_))
  constructor
  · intro found
    rcases found with ⟨_, _, sourceFound, sinkFound, rfl, rfl⟩
    exact ⟨sourceFound, sinkFound⟩
  · intro found
    exact ⟨source, sink, found.1, found.2, rfl, rfl⟩

theorem wire_eq_event_iff {connection : Connection} {source : EventSource} {target : Target} :
    endpoints.wire connection = .ok (.event source target) ↔
      checkScope connection.kind connection.kind.sourceScope connection.source = .ok () ∧
      checkScope connection.kind connection.kind.destinationScope connection.destination =
        .ok () ∧
      connection.kind.isEvent = true ∧
      endpoints.eventSource connection.kind.sourceScope connection.source = .ok source ∧
      endpoints.eventTarget connection.kind.destinationScope connection.destination =
        .ok target := by
  rw [wire_eq_ok_iff]
  simp only [reduceCtorEq, and_false, exists_false, or_false, Wire.event.injEq]
  refine and_congr Iff.rfl (and_congr Iff.rfl (and_congr Iff.rfl ?_))
  constructor
  · intro found
    rcases found with ⟨_, _, sourceFound, targetFound, rfl, rfl⟩
    exact ⟨sourceFound, targetFound⟩
  · intro found
    exact ⟨source, target, found.1, found.2, rfl, rfl⟩

end Endpoints

/-! ## Sinks -/

@[simp] theorem ValueSink.nodeInput_beq_nodeInput (node plug otherNode otherPlug : Nat) :
    (nodeInput node plug == nodeInput otherNode otherPlug) =
      (node == otherNode && plug == otherPlug) := rfl

@[simp] theorem ValueSink.graphOutput_beq_graphOutput (id other : Identifier) :
    (graphOutput id == graphOutput other) = (id == other) := rfl

@[simp] theorem ValueSink.nodeInput_beq_graphOutput (node plug : Nat) (id : Identifier) :
    (nodeInput node plug == graphOutput id) = false := rfl

@[simp] theorem ValueSink.graphOutput_beq_nodeInput (node plug : Nat) (id : Identifier) :
    (graphOutput id == nodeInput node plug) = false := rfl

theorem ValueSink.beq_nodeInput_iff {sink : ValueSink} {node plug : Nat} :
    (sink == nodeInput node plug) = true ↔ sink = nodeInput node plug := by
  cases sink <;> simp

instance : EquivBEq ValueSink where
  rfl {sink} := by cases sink <;> simp
  symm {first second} same := by
    cases first <;> cases second <;> simp_all [BEq.comm]
  trans {first second third} same next := by
    cases first <;> cases second <;> cases third <;> simp_all
    exact PartialEquivBEq.trans same next

/-- Both wires carry a value to the same place. -/
def Wire.SharesSink (first second : Wire) : Prop :=
  ∃ left right, first.sink? = some left ∧ second.sink? = some right ∧ (left == right) = true

theorem Wire.sourceOf?_isSome_iff {wires : List Wire} {sink : ValueSink} :
    (sourceOf? wires sink).isSome = true ↔
      ∃ wire ∈ wires, ∃ other, wire.sink? = some other ∧ (other == sink) = true := by
  rw [sourceOf?, List.isSome_findSome?, List.any_eq_true]
  constructor
  · intro found
    rcases found with ⟨wire, member, found⟩
    refine ⟨wire, member, ?_⟩
    cases wire with
    | value source other =>
        by_cases same : other == sink
        · exact ⟨other, rfl, same⟩
        · simp [same] at found
    | event => simp at found
  · intro found
    rcases found with ⟨wire, member, other, ends, same⟩
    refine ⟨wire, member, ?_⟩
    cases wire with
    | value source _ =>
        cases ends
        simp [same]
    | event => cases ends

theorem Wire.sourceOf?_congr {wires : List Wire} {sink other : ValueSink}
    (same : (sink == other) = true) : sourceOf? wires sink = sourceOf? wires other := by
  unfold sourceOf?
  congr 1
  funext wire
  cases wire with
  | value source last => simp only [BEq.congr_right same]
  | event source target => rfl

theorem Wire.mem_of_sourceOf?_eq_some {wires : List Wire} {sink : ValueSink}
    {source : ValueSource} (found : sourceOf? wires sink = some source) :
    ∃ other, .value source other ∈ wires ∧ (other == sink) = true := by
  rcases List.exists_of_findSome?_eq_some found with ⟨wire, member, ends⟩
  cases wire with
  | value start other =>
      by_cases same : other == sink
      · simp only [same, if_true, Option.some.injEq] at ends
        exact ⟨other, ends ▸ member, same⟩
      · simp [same] at ends
  | event => simp at ends

namespace Endpoints

variable {endpoints : Endpoints}

theorem checkSink_eq_ok_iff {wires : List Wire} {connection : Connection} {wire : Wire} :
    checkSink wires connection wire = .ok () ↔
      ∀ earlier ∈ wires, ¬ earlier.SharesSink wire := by
  unfold checkSink Wire.SharesSink
  cases ends : wire.sink? with
  | none => simp
  | some sink =>
      by_cases taken : (Wire.sourceOf? wires sink).isSome = true
      · simp only [if_pos taken, reduceCtorEq, false_iff]
        rcases Wire.sourceOf?_isSome_iff.mp taken with ⟨earlier, member, other, otherEnds, same⟩
        exact fun free => free earlier member ⟨other, sink, otherEnds, rfl, same⟩
      · simp only [if_neg taken, true_iff]
        intro earlier member shared
        rcases shared with ⟨other, last, otherEnds, lastEnds, same⟩
        cases lastEnds
        exact taken (Wire.sourceOf?_isSome_iff.mpr ⟨earlier, member, other, otherEnds, same⟩)

/-! ## All wires -/

/-- The wires are the connections, looked up one by one. -/
abbrev LooksUp (endpoints : Endpoints) (connections : List Connection)
    (wires : List Wire) : Prop :=
  List.Forall₂ (fun connection wire => endpoints.wire connection = .ok wire) connections wires

private theorem wireAll_append_eq_ok_iff {wired wires : List Wire}
    {connections : List Connection} :
    (endpoints.wireAll wired connections).outcome = .ok wires ↔
      ∃ added, wires = wired ++ added ∧ endpoints.LooksUp connections added ∧
        added.Pairwise (fun earlier later => ¬ earlier.SharesSink later) ∧
        ∀ earlier ∈ wired, ∀ later ∈ added, ¬ earlier.SharesSink later := by
  induction connections generalizing wired with
  | nil =>
      simp only [wireAll, Compilation.outcome_pure, Except.ok.injEq, List.forall₂_nil_left_iff]
      constructor
      · intro equal
        subst equal
        exact ⟨[], by simp⟩
      · intro parts
        rcases parts with ⟨added, equal, rfl, -⟩
        simpa using equal.symm
  | cons connection connections induction =>
      simp only [wireAll, Compilation.outcome_bind_eq_ok_iff, Compilation.outcome_ofExcept,
        Compilation.outcome_note, induction]
      constructor
      · intro looked
        rcases looked with
          ⟨wire, looked, _, checked, _, -, added, equal, lookedAll, apart, freeAll⟩
        have free := checkSink_eq_ok_iff.mp checked
        refine ⟨wire :: added, by simp [equal], .cons looked lookedAll, ?_, ?_⟩
        · exact List.pairwise_cons.mpr ⟨freeAll wire (by simp), apart⟩
        · intro earlier member later
          rw [List.mem_cons]
          intro laterMember
          rcases laterMember with rfl | laterMember
          · exact free earlier member
          · exact freeAll earlier (by simp [member]) later laterMember
      · intro parts
        rcases parts with ⟨added, equal, lookedAll, apart, freeAll⟩
        cases lookedAll with
        | @cons _ wire _ added looked lookedAll =>
            rcases List.pairwise_cons.mp apart with ⟨freeFirst, apart⟩
            have free : ∀ earlier ∈ wired, ¬ earlier.SharesSink wire :=
              fun earlier member => freeAll earlier member wire (by simp)
            refine ⟨wire, looked, (), checkSink_eq_ok_iff.mpr free, (), trivial, added,
              by simp [equal], lookedAll, apart, ?_⟩
            intro earlier member later laterMember
            rcases List.mem_append.mp member with member | member
            · exact freeAll earlier member later (by simp [laterMember])
            · rw [List.mem_singleton.mp member]
              exact freeFirst later laterMember

theorem wireAll_eq_ok_iff {wires : List Wire} {connections : List Connection} :
    (endpoints.wireAll [] connections).outcome = .ok wires ↔
      endpoints.LooksUp connections wires ∧
        wires.Pairwise fun earlier later => ¬ earlier.SharesSink later := by
  rw [wireAll_append_eq_ok_iff]
  simp

theorem exists_wire_of_mem {connections : List Connection} {wires : List Wire}
    (looked : endpoints.LooksUp connections wires) {connection : Connection}
    (listed : connection ∈ connections) :
    ∃ wire ∈ wires, endpoints.wire connection = .ok wire := by
  induction looked with
  | nil => cases listed
  | @cons head wire _ _ first _ induction =>
      rcases List.mem_cons.mp listed with isHead | later
      · subst isHead
        exact ⟨wire, List.mem_cons_self, first⟩
      · rcases induction later with ⟨wire, member, found⟩
        exact ⟨wire, List.mem_cons_of_mem _ member, found⟩

theorem exists_connection_of_mem {connections : List Connection} {wires : List Wire}
    (looked : endpoints.LooksUp connections wires) {wire : Wire} (listed : wire ∈ wires) :
    ∃ connection ∈ connections, endpoints.wire connection = .ok wire := by
  induction looked with
  | nil => cases listed
  | @cons connection head _ _ first _ induction =>
      rcases List.mem_cons.mp listed with isHead | later
      · subst isHead
        exact ⟨connection, List.mem_cons_self, first⟩
      · rcases induction later with ⟨connection, member, found⟩
        exact ⟨connection, List.mem_cons_of_mem _ member, found⟩

end Endpoints

end NodeGraph
