import NodeGraph.Proofs.Compile.Fault

namespace NodeGraph

/-! Compiling reports the first fault. Each check fails with exactly what is a
fault in its phase, so one check after the other fails with what is a fault in
the first phase that has any. Main statement: the errors of compiling are the
first faults of prototypes, reported through the nodes inside of which they lie. -/

/-! ## Failing with faults -/

/-- The errors of an outcome are exactly the faults. -/
def FailsWith (outcome : Except ε α) (fault : ε → Prop) : Prop :=
  ∀ error, outcome = .error error ↔ fault error

namespace FailsWith

variable {outcome : Except ε α} {phase other rest : ε → Prop}

theorem congr (fails : FailsWith outcome phase) (same : ∀ error, phase error ↔ other error) :
    FailsWith outcome other :=
  fun error => (fails error).trans (same error)

theorem ok (value : α) : FailsWith (.ok value : Except ε α) (FirstOf []) := by
  intro error
  simp [FirstOf]

theorem error (fault : ε) : FailsWith (.error fault : Except ε α) (· = fault) := by
  intro error
  rw [Except.error.injEq, eq_comm]

/-- What fails in one way only fails so unless all is well. -/
theorem of_exists {fine : Prop} {fault : ε} (good : (∃ value, outcome = .ok value) ↔ fine)
    (only : ∀ error, outcome = .error error → error = fault) :
    FailsWith outcome fun error => ¬ fine ∧ error = fault := by
  intro error
  rw [← good]
  constructor
  · intro failed
    exact ⟨fun succeeded => by simp [failed] at succeeded, only error failed⟩
  · intro found
    rcases found with ⟨bad, rfl⟩
    cases result : outcome with
    | ok value => exact absurd ⟨value, result⟩ bad
    | error cause => rw [only cause result]

/-- What comes next fails only if what comes first does not. -/
theorem bind {next : α → Except ε β} (first : FailsWith outcome phase)
    (others : ∀ value, outcome = .ok value → FailsWith (next value) rest) :
    FailsWith (outcome >>= next) (FirstThen phase rest) := by
  intro error
  cases result : outcome with
  | error cause =>
      rw [result] at first
      have found := (first cause).mp rfl
      have same := first error
      rw [Except.error.injEq] at same
      show Except.error cause = Except.error error ↔ _
      rw [Except.error.injEq, same]
      exact ⟨.inl, fun either => either.elim id fun later => absurd found (later.1 cause)⟩
  | ok value =>
      have clean (cause : ε) : ¬ phase cause := by
        rw [← first cause, result]
        exact nofun
      show next value = Except.error error ↔ _
      rw [others value result error]
      exact ⟨fun later => .inr ⟨clean, later⟩, fun either => either.elim
        (fun found => absurd found (clean error)) And.right⟩

theorem map (change : α → β) (fails : FailsWith outcome phase) :
    FailsWith (change <$> outcome) phase := by
  intro error
  rw [← fails error]
  cases outcome <;> simp

theorem ite {condition : Prop} [Decidable condition] {fault : ε}
    (otherwise : FailsWith outcome rest) :
    FailsWith (if condition then .error fault else outcome)
      (FirstThen (fun error => condition ∧ error = fault) rest) := by
  intro error
  by_cases holds : condition
  · simp [holds, FirstThen, eq_comm]
  · simp [holds, FirstThen, otherwise error]

/-- Checking each item fails with what is a fault of the first item that has
any. -/
theorem forM {check : α → Except ε PUnit} {wrong : α → ε → Prop} {items : List α}
    (fails : ∀ item ∈ items, FailsWith (check item) (wrong item)) :
    FailsWith (items.forM check) (FirstAmong (fun _ => wrong) items) := by
  rw [List.forM_eq_forM]
  induction items with
  | nil => exact (ok _).congr fun error => by simp [FirstOf]
  | cons item items induction =>
      rcases List.forall_mem_cons.mp fails with ⟨first, others⟩
      rw [List.forM_cons]
      exact (first.bind fun _ _ => induction others).congr fun error => by rw [firstAmong_cons]

theorem each {step : α → Compilation β} {wrong : α → CompileError → Prop} {items : List α}
    (fails : ∀ item ∈ items, FailsWith (step item).outcome (wrong item)) :
    FailsWith (Compilation.each step items).outcome (FirstAmong (fun _ => wrong) items) := by
  induction items with
  | nil => exact (ok _).congr fun error => by simp [FirstOf]
  | cons item items induction =>
      rcases List.forall_mem_cons.mp fails with ⟨first, others⟩
      have next (result : β) : FailsWith ((result :: ·) <$> Compilation.each step items).outcome
          (FirstAmong (fun _ => wrong) items) := by
        rw [Compilation.outcome_map]
        exact (induction others).map _
      rw [Compilation.each, Compilation.outcome_bind]
      exact (first.bind fun result _ => next result).congr fun error => by rw [firstAmong_cons]

end FailsWith

/-! ## Ends of connections -/

namespace Endpoints

variable {endpoints : Endpoints} {terminus : Terminus} {scope : Scope} {error : CompileError}

theorem node_error (failed : endpoints.node terminus = .error error) :
    error = .dangling terminus := by
  unfold node at failed
  split at failed
  · cases failed
  · exact (Except.error.inj failed).symm

/-- Whatever is missing of a plug, its terminus is reported. -/
theorem plug_error {find : Layout → Identifier → Option Nat}
    (failed : endpoints.plug find terminus = .error error) : error = .dangling terminus := by
  unfold plug at failed
  cases located : endpoints.node terminus with
  | error cause =>
      rw [located] at failed
      cases failed
      exact node_error located
  | ok index =>
      simp only [located, bind, Except.bind] at failed
      split at failed
      · cases failed
      · exact (Except.error.inj failed).symm

theorem declared_error {found : Option Endpoint}
    (failed : declared found terminus = .error error) : error = .dangling terminus := by
  cases found with
  | none => exact (Except.error.inj failed).symm
  | some endpoint => cases failed

theorem map_error {outcome : Except ε α} {change : α → β} {cause : ε}
    (failed : change <$> outcome = .error cause) : outcome = .error cause := by
  cases outcome with
  | error other => exact congrArg Except.error (Except.error.inj failed)
  | ok value => cases failed

theorem bind_pure_error {outcome : Except ε α} {change : α → β} {cause : ε}
    (failed : (outcome >>= fun value => pure (change value)) = .error cause) :
    outcome = .error cause := by
  cases outcome with
  | error other => exact congrArg Except.error (Except.error.inj failed)
  | ok value => cases failed

theorem valueSource_error (failed : endpoints.valueSource scope terminus = .error error) :
    error = .dangling terminus := by
  cases scope with
  | node => exact plug_error (bind_pure_error failed)
  | graph => exact declared_error (map_error failed)
  | localVariable => exact declared_error (map_error failed)

theorem valueSink_error (failed : endpoints.valueSink scope terminus = .error error) :
    error = .dangling terminus := by
  cases scope with
  | node => exact plug_error (bind_pure_error failed)
  | graph | localVariable => exact declared_error (map_error failed)

theorem eventSource_error (failed : endpoints.eventSource scope terminus = .error error) :
    error = .dangling terminus := by
  cases scope with
  | node => exact plug_error (bind_pure_error failed)
  | graph | localVariable => exact declared_error (map_error failed)

theorem eventTarget_error (failed : endpoints.eventTarget scope terminus = .error error) :
    error = .dangling terminus := by
  cases scope with
  | node => exact plug_error (bind_pure_error failed)
  | graph | localVariable => exact declared_error (map_error failed)

theorem checkScope_failsWith {kind : ConnectionKind} :
    FailsWith (checkScope kind scope terminus) fun fault =>
      ¬ (terminus.node = graphNodeId ↔ scope ≠ .node) ∧ fault = .boundary kind terminus.node := by
  refine .of_exists (Unique.exists_iff.trans checkScope_eq_ok_iff) fun error failed => ?_
  unfold checkScope at failed
  split at failed
  · cases failed
  · exact (Except.error.inj failed).symm

end Endpoints

namespace Compile

/-! ## Ids -/

theorem checkIds_failsWith {seen before : List NodeId} {nodes : List PrototypeNode}
    (same : ∀ id, id ∈ seen ↔ id ∈ before) :
    FailsWith (checkIds seen nodes)
      (FirstAmong (fun earlier => IdFault (before ++ earlier.map PrototypeNode.id)) nodes) := by
  induction nodes generalizing seen before with
  | nil => exact (FailsWith.ok ()).congr fun error => by simp [FirstOf]
  | cons placed nodes induction =>
      have here : FailsWith (if placed.id = graphNodeId then .error .reservedNode
          else if placed.id ∈ seen then .error (.duplicateNode placed.id) else .ok ())
          (IdFault before placed) := by
        refine ((FailsWith.ok ()).ite.ite).congr fun error => ?_
        rw [same]
        rfl
      have others : FailsWith (checkIds (placed.id :: seen) nodes) (FirstAmong
          (fun earlier => IdFault ((before ++ [placed.id]) ++ earlier.map PrototypeNode.id))
          nodes) := by
        refine induction fun id => ?_
        rw [List.mem_cons, same, List.mem_append, List.mem_singleton, or_comm]
      have step : checkIds seen (placed :: nodes) =
          (if placed.id = graphNodeId then .error .reservedNode
            else if placed.id ∈ seen then .error (.duplicateNode placed.id) else .ok ()) >>=
          fun _ => checkIds (placed.id :: seen) nodes := by
        rw [checkIds]
        split_ifs <;> rfl
      rw [step]
      refine (here.bind fun _ _ => others).congr fun error => ?_
      rw [firstAmong_cons]
      simp

section
variable [Processor κ] {registry : Registry κ} {prototype : Prototype}

/-! ## Overrides -/

theorem checkOverride_failsWith {placed : PrototypeNode} {layout : Layout} {override : Endpoint}
    (known : layout? registry placed = some layout) :
    FailsWith (checkOverride placed.id layout override)
      (OverrideFault registry placed override) := by
  intro error
  unfold OverrideFault checkOverride
  simp only [known, Option.some.injEq, exists_eq_left']
  cases layout.inputs.find? fun plug => plug.id == override.id with
  | none => simp [eq_comm]
  | some plug =>
      by_cases fits : plug.default.kind = .void ∨ plug.default.kind = override.default.kind
      · simp only [if_pos fits]
        tauto
      · simp only [if_neg fits]
        rw [not_or] at fits
        simp [fits, eq_comm]

theorem checkOverrides_failsWith {nodes : List PrototypeNode}
    (known : ∀ placed ∈ nodes, ∃ layout, layout? registry placed = some layout) :
    FailsWith (checkOverrides (nodes.zip
        (nodes.map fun placed => (layout? registry placed).getD {})))
      (FirstAmong (fun _ placed => FirstAmong (fun _ => OverrideFault registry placed)
        placed.overrides) nodes) := by
  induction nodes with
  | nil => exact (FailsWith.ok ()).congr fun error => by simp [FirstOf]
  | cons placed nodes induction =>
      rcases List.forall_mem_cons.mp known with ⟨⟨layout, here⟩, others⟩
      have first : FailsWith (placed.overrides.forM (checkOverride placed.id layout))
          (FirstAmong (fun _ => OverrideFault registry placed) placed.overrides) :=
        .forM fun override _ => checkOverride_failsWith here
      rw [List.map_cons, here, Option.getD_some, List.zip_cons_cons, checkOverrides]
      exact (first.bind fun _ _ => induction others).congr fun error => by rw [firstAmong_cons]

/-! ## Connections -/

section
variable (distinct : (prototype.nodes.map PrototypeNode.id).Nodup)
  (known : ∀ placed ∈ prototype.nodes, ∃ layout, layout? registry placed = some layout)
include distinct known

theorem wire_failsWith {connection : Connection} :
    FailsWith ((endpointsOf registry prototype).wire connection)
      (WireFault registry prototype connection) := by
  have source : SourceExists registry prototype connection ↔ _ := sourceExists_iff distinct known
  have destination : DestinationExists registry prototype connection ↔ _ :=
    destinationExists_iff distinct known
  unfold Endpoints.wire
  refine Endpoints.checkScope_failsWith.bind fun _ _ =>
    Endpoints.checkScope_failsWith.bind fun _ _ => ?_
  cases isEvent : connection.kind.isEvent with
  | true =>
      rw [isEvent, if_pos rfl] at source destination
      rw [if_pos rfl]
      exact (FailsWith.of_exists source.symm fun _ => Endpoints.eventSource_error).bind fun _ _ =>
        (FailsWith.of_exists destination.symm fun _ => Endpoints.eventTarget_error).bind
          fun _ _ => .ok _
  | false =>
      rw [isEvent, if_neg Bool.false_ne_true] at source destination
      rw [if_neg Bool.false_ne_true]
      exact (FailsWith.of_exists source.symm fun _ => Endpoints.valueSource_error).bind fun _ _ =>
        (FailsWith.of_exists destination.symm fun _ => Endpoints.valueSink_error).bind
          fun _ _ => .ok _

end

/-- How a destination is named follows from where the wire ends. -/
theorem namesDestination_iff {connection : Connection} {wire : Wire} {sink : ValueSink}
    {terminus : Terminus} (looked : (endpointsOf registry prototype).wire connection = .ok wire)
    (ends : wire.sink? = some sink) :
    NamesDestination prototype connection terminus ↔
      terminus = Endpoints.sinkTerminus connection sink := by
  rcases (Endpoints.wire_eq_ok_iff.mp looked).2.2 with
    ⟨-, _, _, -, -, rfl⟩ | ⟨-, source, _, -, found, rfl⟩
  · cases ends
  · cases ends
    unfold NamesDestination
    rcases Endpoints.valueSink_cases found with
      ⟨index, plug, onNode, rfl, -⟩ | ⟨id, onGraph, rfl, declared⟩
    · rw [onNode]
      rfl
    · have located := Endpoints.declared_eq_ok_iff.mp declared
      rcases Option.map_eq_some_iff.mp located with ⟨output, listed, rfl⟩
      have listed : prototype.output? connection.destination.endpoint = some output := listed
      cases scope : connection.kind.destinationScope with
      | node => exact absurd scope onGraph
      | graph | localVariable => simp [listed, Endpoints.sinkTerminus]

theorem checkSink_failsWith {before : List Connection} {wired : List Wire}
    {connection : Connection} {wire : Wire}
    (wiredBefore : (endpointsOf registry prototype).LooksUp before wired)
    (looked : (endpointsOf registry prototype).wire connection = .ok wire) :
    FailsWith (Endpoints.checkSink wired connection wire)
      (CollisionFault prototype before connection) := by
  have shares : (∃ earlier ∈ wired, earlier.SharesSink wire) ↔
      ∃ other ∈ before, other.Collides connection := by
    constructor
    · intro shared
      rcases shared with ⟨earlier, listed, shared⟩
      rcases Endpoints.exists_connection_of_mem wiredBefore listed with ⟨other, member, found⟩
      exact ⟨other, member, (sharesSink_iff found looked).mp shared⟩
    · intro collides
      rcases collides with ⟨other, member, collides⟩
      rcases Endpoints.exists_wire_of_mem wiredBefore member with ⟨earlier, listed, found⟩
      exact ⟨earlier, listed, (sharesSink_iff found looked).mpr collides⟩
  have good : (∃ value, Endpoints.checkSink wired connection wire = .ok value) ↔
      ¬ ∃ other ∈ before, other.Collides connection := by
    rw [← shares, Unique.exists_iff]
    refine Endpoints.checkSink_eq_ok_iff.trans ?_
    simp
  cases ends : wire.sink? with
  | none =>
      have passes : Endpoints.checkSink wired connection wire = .ok () := by
        simp [Endpoints.checkSink, ends]
      rw [passes]
      exact (FailsWith.ok ()).congr fun error =>
        iff_of_false (not_false) fun fault => good.mp ⟨(), passes⟩ fault.1
  | some sink =>
      have only : ∀ error, Endpoints.checkSink wired connection wire = .error error →
          error = .multipleSources (Endpoints.sinkTerminus connection sink) := by
        intro error failed
        simp only [Endpoints.checkSink, ends] at failed
        split at failed
        · exact (Except.error.inj failed).symm
        · cases failed
      refine (FailsWith.of_exists good only).congr fun error => ?_
      unfold CollisionFault
      simp [namesDestination_iff looked ends]

theorem wireAll_failsWith (distinct : (prototype.nodes.map PrototypeNode.id).Nodup)
    (known : ∀ placed ∈ prototype.nodes, ∃ layout, layout? registry placed = some layout)
    {before connections : List Connection} {wired : List Wire}
    (wiredBefore : (endpointsOf registry prototype).LooksUp before wired) :
    FailsWith ((endpointsOf registry prototype).wireAll wired connections).outcome
      (FirstAmong (fun earlier => ConnectionFault registry prototype (before ++ earlier))
        connections) := by
  induction connections generalizing before wired with
  | nil => exact (FailsWith.ok wired).congr fun error => by simp [FirstOf]
  | cons connection connections induction =>
      have others (wire : Wire)
          (looked : (endpointsOf registry prototype).wire connection = .ok wire) :
          FailsWith ((endpointsOf registry prototype).wireAll (wired ++ [wire])
            connections).outcome (FirstAmong (fun earlier =>
              ConnectionFault registry prototype ((before ++ [connection]) ++ earlier))
              connections) :=
        induction (List.rel_append wiredBefore (.cons looked .nil))
      simp only [Endpoints.wireAll, Compilation.outcome_bind, Compilation.outcome_ofExcept]
      refine ((wire_failsWith distinct known).bind fun wire looked =>
        (checkSink_failsWith wiredBefore looked).bind fun _ _ => others wire looked).congr
          fun error => ?_
      rw [← firstThen_assoc, firstAmong_cons]
      simp [ConnectionFault]

/-! ## Order -/

omit [Processor κ] in
theorem order_failsWith (named : prototype.NamesNodes) :
    FailsWith (order prototype) (CycleFault prototype) := by
  have ids : checkIds [] prototype.nodes = .ok () :=
    checkIds_eq_ok_iff.mpr
      ⟨fun placed listed => ⟨named.idsNonzero placed listed, List.not_mem_nil⟩, named.idsDistinct⟩
  have same (error : CompileError) : order prototype = .error error ↔
      dependencyOrder prototype = .error error := by
    unfold dependencyOrder
    rw [ids]
    cases order prototype <;> simp [bind, Except.bind, pure, Except.pure]
  intro error
  rw [same]
  constructor
  · intro failed
    by_cases cyclic : ∃ node, Relation.TransGen prototype.ValueEdge node node
    · rcases named.exists_cyclic cyclic with ⟨nodes, reported, sublist, onCycles⟩
      rcases cyclic with ⟨node, cycle⟩
      rw [failed, Except.error.injEq] at reported
      exact ⟨nodes, reported, List.ne_nil_of_mem ((onCycles node).mpr cycle), sublist, onCycles⟩
    · push Not at cyclic
      rcases named.exists_least cyclic with ⟨order, found, -⟩
      rw [failed] at found
      cases found
  · intro fault
    rcases fault with ⟨nodes, rfl, nonempty, sublist, onCycles⟩
    rcases List.exists_mem_of_ne_nil nodes nonempty with ⟨node, listed⟩
    rcases named.exists_cyclic ⟨node, (onCycles node).mp listed⟩ with
      ⟨others, reported, otherSublist, otherOnCycles⟩
    have equal : others = nodes := Schedule.eq_of_sublists otherSublist sublist named.idsDistinct
      fun node => (otherOnCycles node).trans (onCycles node).symm
    rw [reported, equal]

/-- Once all connections are wired, value wires between nodes name nodes. -/
theorem namesNodes_of_wireAll {wires : List Wire} (ids : checkIds [] prototype.nodes = .ok ())
    (known : ∀ placed ∈ prototype.nodes, ∃ layout, layout? registry placed = some layout)
    (wired : ((endpointsOf registry prototype).wireAll [] prototype.connections).outcome =
      .ok wires) : prototype.NamesNodes := by
  rcases checkIds_eq_ok_iff.mp ids with ⟨fresh, distinct⟩
  refine ⟨fun placed listed => (fresh placed listed).1, distinct, fun source destination edge => ?_⟩
  rcases edge with ⟨connection, listed, kind, rfl, rfl⟩
  have connects := ((exists_wireAll_iff distinct known).mp ⟨wires, wired⟩).1 connection listed
  have source := connects.source
  have destination := connects.destination
  simp only [SourceExists, kind, ConnectionKind.sourceScope] at source
  simp only [DestinationExists, kind, ConnectionKind.destinationScope] at destination
  rcases source with ⟨start, startListed, startId, -⟩
  rcases destination with ⟨stop, stopListed, stopId, -⟩
  exact ⟨List.mem_map.mpr ⟨start, startListed, startId⟩,
    List.mem_map.mpr ⟨stop, stopListed, stopId⟩⟩

/-! ## Nodes -/

omit [Processor κ] in
theorem fromRegistry_failsWith {placed : PrototypeNode} :
    FailsWith (fromRegistry registry placed).outcome fun fault =>
      registry.contains placed.type = false ∧ fault = .unknownType placed.id placed.type := by
  have good : (∃ node, (fromRegistry registry placed).outcome = .ok node) ↔
      registry.contains placed.type = true := by
    simp only [fromRegistry_eq_ok_iff, Registry.contains_iff placed.id]
  have only (error : CompileError) (failed : (fromRegistry registry placed).outcome = .error error) :
      error = .unknownType placed.id placed.type := by
    unfold fromRegistry at failed
    split at failed
    · cases failed
    · exact (Except.error.inj failed).symm
  exact (FailsWith.of_exists good only).congr fun error => by rw [Bool.not_eq_true]

omit [Processor κ] in
theorem createPlain_failsWith {config : Config} {placed : PrototypeNode} :
    FailsWith (createPlain registry config placed).outcome
      (NodeFault registry (fun placed _ fault =>
        fault = .subroutineTooDeep placed.id (config.maxSubroutineDepth.toNat + 1)) placed) := by
  unfold createPlain NodeFault
  cases placed.subroutine with
  | none => exact fromRegistry_failsWith
  | some nested => exact .error _

omit [Processor κ] in
theorem createNested_failsWith {compile : Prototype → Compilation (Graph ν)}
    {faulty : Prototype → CompileError → Prop} {placed : PrototypeNode}
    (fails : ∀ nested, FailsWith (compile nested).outcome (faulty nested)) :
    FailsWith (createNested registry compile placed).outcome
      (NodeFault registry (fun placed nested fault =>
        ∃ cause, faulty nested cause ∧ fault = .inSubroutine placed.id cause) placed) := by
  unfold createNested NodeFault
  cases placed.subroutine with
  | none =>
      rw [Compilation.outcome_map]
      exact fromRegistry_failsWith.map _
  | some nested =>
      intro error
      simp only [← fails nested _, Compilation.outcome_bind, Compilation.outcome_mapError]
      cases (compile nested).outcome with
      | error cause => simp [Except.mapError, bind, Except.bind, eq_comm]
      | ok graph => simp [Except.mapError, bind, Except.bind]

/-! ## Whole prototypes -/

theorem withNodes_failsWith [Processor ν] {config : Config}
    {create : PrototypeNode → Compilation ν}
    {inside : PrototypeNode → Prototype → CompileError → Prop}
    (layouts : ∀ placed node, (create placed).outcome = .ok node →
      layout? registry placed = some (Processor.layout node))
    (created : ∀ placed ∈ prototype.nodes,
      FailsWith (create placed).outcome (NodeFault registry inside placed)) :
    FailsWith (withNodes config create prototype).outcome
      (LevelFault registry inside prototype) := by
  have idsChecked : FailsWith (checkIds [] prototype.nodes)
      (FirstAmong (fun earlier => IdFault (earlier.map PrototypeNode.id)) prototype.nodes) :=
    checkIds_failsWith fun _ => Iff.rfl
  have same (placed : PrototypeNode) : (create placed >>= fun node => do
      Compilation.note (createdRecord placed)
      pure node).outcome = (create placed).outcome := by
    rw [Compilation.outcome_bind]
    cases (create placed).outcome <;> rfl
  have nodesCreated : FailsWith (Compilation.each (fun placed => do
      let node ← create placed
      Compilation.note (createdRecord placed)
      pure node) prototype.nodes).outcome
      (FirstAmong (fun _ => NodeFault registry inside) prototype.nodes) := by
    refine .each fun placed listed => ?_
    rw [same]
    exact created placed listed
  unfold withNodes
  simp only [Compilation.outcome_bind, Compilation.outcome_ofExcept]
  refine idsChecked.bind fun _ ids => nodesCreated.bind fun nodes made => ?_
  have made : List.Forall₂ (fun placed node => (create placed).outcome = .ok node)
      prototype.nodes nodes := by
    simpa only [same] using Compilation.each_eq_ok_iff.mp made
  have known (placed : PrototypeNode) (listed : placed ∈ prototype.nodes) :
      ∃ layout, layout? registry placed = some layout := by
    rcases exists_forall₂_iff.mp ⟨nodes, made⟩ placed listed with ⟨node, isNode⟩
    exact ⟨_, layouts placed node isNode⟩
  have distinct := (checkIds_eq_ok_iff.mp ids).2
  rw [map_layout_of_created layouts made]
  refine (checkOverrides_failsWith known).bind fun _ _ =>
    (wireAll_failsWith distinct known .nil).bind fun wires wired =>
      (order_failsWith (namesNodes_of_wireAll ids known wired)).bind fun _ _ => .ok _

theorem build_failsWith {config : Config} (room : Nat) (prototype : Prototype) :
    FailsWith (build registry config room prototype).outcome
      (FirstFault registry config.maxSubroutineDepth.toNat room prototype) := by
  induction room generalizing prototype with
  | zero =>
      exact withNodes_failsWith (fun _ _ => createPlain_layout) fun _ _ => createPlain_failsWith
  | succ room induction =>
      exact withNodes_failsWith (fun _ _ => createNested_layout)
        fun _ _ => createNested_failsWith induction

end

end Compile

theorem Instance.create_eq_error_iff [Processor κ] {registry : Registry κ} {config : Config}
    {context : Context} {prototype : Prototype} {error : CompileError} :
    (Instance.create registry config context prototype).outcome = .error error ↔
      (Compile.build registry config config.maxSubroutineDepth.toNat prototype).outcome =
        .error error := by
  unfold Instance.create
  rw [Compilation.outcome_bind]
  cases (Compile.build registry config config.maxSubroutineDepth.toNat prototype).outcome with
  | error cause => exact ⟨fun failed => failed, fun failed => failed⟩
  | ok graph => exact ⟨nofun, nofun⟩

/-- Creating an instance fails with exactly the first fault of the prototype. The
error is reported from inside as many subroutines as the fault lies deep, through
their nodes from the outside in, and is the first fault of the prototype that it
lies in. Subroutines are too deep only where the limit has been reached. -/
theorem Instance.create_fails_with_firstFault [Processor κ] (registry : Registry κ)
    (config : Config) (context : Context) (prototype : Prototype) (error : CompileError) :
    ((Instance.create registry config context prototype).outcome = .error error ↔
      Compile.FirstFault registry config.maxSubroutineDepth.toNat
        config.maxSubroutineDepth.toNat prototype error) ∧
    ((Instance.create registry config context prototype).outcome = .error error →
      ∃ path inner cause, prototype.Encloses path inner ∧ error = cause.within path ∧
        error.subroutineDepth = path.length ∧ cause.subroutineDepth = 0 ∧
        path.length ≤ config.maxSubroutineDepth.toNat ∧
        Compile.FirstFault registry config.maxSubroutineDepth.toNat
          (config.maxSubroutineDepth.toNat - path.length) inner cause ∧
        ∀ node depth, cause = .subroutineTooDeep node depth →
          path.length = config.maxSubroutineDepth.toNat ∧ depth = path.length + 1) := by
  have fails : (Instance.create registry config context prototype).outcome = .error error ↔
      Compile.FirstFault registry config.maxSubroutineDepth.toNat
        config.maxSubroutineDepth.toNat prototype error :=
    Instance.create_eq_error_iff.trans (Compile.build_failsWith _ prototype error)
  refine ⟨fails, fun failed => ?_⟩
  rcases (fails.mp failed).lies with
    ⟨path, inner, cause, encloses, bound, rfl, own, here, tooDeep⟩
  refine ⟨path, inner, cause, encloses, rfl, ?_, own, bound, here, fun node depth isTooDeep => ?_⟩
  · rw [CompileError.subroutineDepth_within, own, Nat.zero_add]
  · rcases tooDeep node depth isTooDeep with ⟨atBottom, rfl⟩
    exact ⟨atBottom, by rw [atBottom]⟩

/-- A graph with a wire from nowhere, inside a node after which another has an
unknown type; the first node has an override for a plug that it lacks. -/
def faultyInside : Prototype where
  name := "Faulty inside"
  id := 0
  inputs := []
  outputs := []
  locals := []
  nodes := [
    ⟨.named "Add (Int)", 7, [⟨.named "Value3", .void⟩], none⟩,
    ⟨.named "Group", 5, [], some {
      name := "Group"
      id := 0
      inputs := []
      outputs := []
      locals := []
      nodes := [⟨.named "Add (Int)", 7, [], none⟩]
      connections := [⟨⟨8, .named "Out"⟩, ⟨7, .named "Value1"⟩, .nodeValueToNode⟩] }⟩,
    ⟨.named "Unheard of", 3, [], none⟩]
  connections := []

example : (match (Instance.create StandardNode.registry Config.default default
      faultyInside).outcome with
    | .error error => error.message
    | .ok _ => "") =
      "in subroutine of node 5: connection references missing endpoint Out on node 8" := by
  decide +kernel

end NodeGraph
