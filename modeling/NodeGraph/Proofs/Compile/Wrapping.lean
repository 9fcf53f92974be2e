import NodeGraph.Proofs.Compile.Acceptance

namespace NodeGraph

/-! Graphs around a single subroutine. A graph may be put into another one that
has the same inputs and outputs, and there stand as the only node, with every
input wired straight to it and every output straight from it. If no events cross
the boundary of the graph inside, compiling the graph around it asks for nothing
but one more level of subroutines, and yields a circuit that only hands values
on. -/

/-! ## Prototypes -/

/-- No events cross the boundary of the prototype, and every value that does has
an id of its own. -/
structure Prototype.ValueOnly (prototype : Prototype) : Prop where
  kinds : ∀ connection ∈ prototype.connections, connection.kind ≠ .graphEventToNode ∧
    connection.kind ≠ .graphEventToGraph ∧ connection.kind ≠ .nodeEventToGraph
  inputs : Assembly.DistinctIds prototype.inputs
  outputs : Assembly.DistinctIds prototype.outputs

namespace Connection

/-- From an input of the graph straight to the plug of that name. -/
def into (node : NodeId) (input : Endpoint) : Connection where
  source := ⟨graphNodeId, input.id⟩
  destination := ⟨node, input.id⟩
  kind := .graphValueToNode

/-- From the plug of that name straight to an output of the graph. -/
def outOf (node : NodeId) (output : Endpoint) : Connection where
  source := ⟨node, output.id⟩
  destination := ⟨graphNodeId, output.id⟩
  kind := .nodeValueToGraph

end Connection

/-- The only node of `outer` is `placed`, a subroutine that is `inner`. The
inputs and outputs of both are the same, and each is wired straight to the node
or from it, in whatever order. -/
structure Prototype.Wraps (outer : Prototype) (placed : PrototypeNode) (inner : Prototype) :
    Prop where
  inputs : outer.inputs = inner.inputs
  outputs : outer.outputs = inner.outputs
  nodes : outer.nodes = [placed]
  onNode : placed.id ≠ graphNodeId
  subroutine : placed.subroutine = some inner
  overrides : placed.overrides = []
  connections : outer.connections.Perm
    (inner.inputs.map (Connection.into placed.id) ++ inner.outputs.map (Connection.outOf placed.id))

namespace Prototype

variable {outer inner : Prototype} {placed : PrototypeNode}

theorem ValueOnly.kind_eq (valueOnly : inner.ValueOnly) {connection : Connection}
    (listed : connection ∈ inner.connections) (isEvent : connection.kind.isEvent = true) :
    connection.kind = .nodeEventToNode := by
  have excluded := valueOnly.kinds connection listed
  cases kind : connection.kind <;> simp_all [ConnectionKind.isEvent]

/-- Where no events cross the boundary, every input and every output is a plug. -/
theorem ValueOnly.layoutOf (valueOnly : inner.ValueOnly) :
    Subroutine.layoutOf inner = { inputs := inner.inputs, outputs := inner.outputs } := by
  have noInput (id : Identifier) : Subroutine.isEventInput inner id = false := by
    rw [Subroutine.isEventInput, List.any_eq_false]
    intro connection listed
    cases isEvent : connection.kind.isEvent with
    | false => simp
    | true => simp [valueOnly.kind_eq listed isEvent, ConnectionKind.sourceScope]
  have noOutput (id : Identifier) : Subroutine.isEventOutput inner id = false := by
    rw [Subroutine.isEventOutput, List.any_eq_false]
    intro connection listed
    cases isEvent : connection.kind.isEvent with
    | false => simp
    | true => simp [valueOnly.kind_eq listed isEvent, ConnectionKind.destinationScope]
  simp [Subroutine.layoutOf, noInput, noOutput]

theorem Wraps.mem_connections (wraps : outer.Wraps placed inner) {connection : Connection} :
    connection ∈ outer.connections ↔
      (∃ input ∈ inner.inputs, Connection.into placed.id input = connection) ∨
        ∃ output ∈ inner.outputs, Connection.outOf placed.id output = connection := by
  rw [wraps.connections.mem_iff, List.mem_append, List.mem_map, List.mem_map]

theorem Wraps.eq_of_mem (wraps : outer.Wraps placed inner) {other : PrototypeNode}
    (listed : other ∈ outer.nodes) : other = placed := by
  rw [wraps.nodes] at listed
  exact List.mem_singleton.mp listed

/-- The graph around has no event connections. -/
theorem Wraps.isEvent_eq_false (wraps : outer.Wraps placed inner) {connection : Connection}
    (listed : connection ∈ outer.connections) : connection.kind.isEvent = false := by
  rcases wraps.mem_connections.mp listed with ⟨_, -, rfl⟩ | ⟨_, -, rfl⟩ <;> rfl

end Prototype

/-! ## Circuits -/

/-- A circuit that hands what it is given on to one node, and shows what the node
puts out. -/
structure Circuit.HandsOn (circuit : Circuit) (inner : Prototype) (placement : Placement) :
    Prop where
  order : circuit.order = [0]
  placed : circuit.placements[0]? = some placement
  inputs : ∀ (index : Nat) input, inner.inputs[index]? = some input →
    placement.inputs[index]? = some index
  outputs : ∀ (index : Nat) output, inner.outputs[index]? = some output →
    ∃ slot, placement.outputs[index]? = some slot ∧ circuit.outputSlot? output.id = some slot

namespace Compile

variable [Processor κ] {registry : Registry κ} {outer inner : Prototype} {placed : PrototypeNode}

/-! ## Accepting -/

theorem layout?_of_wraps (wraps : outer.Wraps placed inner) (valueOnly : inner.ValueOnly) :
    layout? registry placed = some { inputs := inner.inputs, outputs := inner.outputs } := by
  rw [layout?, wraps.subroutine]
  exact congrArg some valueOnly.layoutOf

/-- The graph around is well-formed on its own level, whatever is inside. -/
theorem wellFormedLevel_of_wraps (wraps : outer.Wraps placed inner)
    (valueOnly : inner.ValueOnly) : WellFormedLevel registry outer := by
  have present : placed ∈ outer.nodes := wraps.nodes ▸ List.mem_singleton_self placed
  have plugs : layout? registry placed = _ := layout?_of_wraps wraps valueOnly
  exact {
    idsNonzero := fun other listed => wraps.eq_of_mem listed ▸ wraps.onNode
    idsDistinct := by
      rw [wraps.nodes]
      exact List.nodup_singleton _
    registered := by
      intro other listed plain
      rw [wraps.eq_of_mem listed, wraps.subroutine] at plain
      cases plain
    overrides := by
      intro other listed layout _ override member
      rw [wraps.eq_of_mem listed, wraps.overrides] at member
      cases member
    connects := by
      intro connection listed
      rcases wraps.mem_connections.mp listed with ⟨input, member, rfl⟩ | ⟨output, member, rfl⟩
      · exact {
          sourceSide := by simp [Connection.into, ConnectionKind.sourceScope]
          destinationSide := by
            simpa [Connection.into, ConnectionKind.destinationScope] using wraps.onNode
          source := ⟨input, wraps.inputs ▸ member, BEq.rfl⟩
          destination := ⟨placed, present, rfl, _, plugs, input, member, BEq.rfl⟩ }
      · exact {
          sourceSide := by simpa [Connection.outOf, ConnectionKind.sourceScope] using wraps.onNode
          destinationSide := by simp [Connection.outOf, ConnectionKind.destinationScope]
          source := ⟨placed, present, rfl, _, plugs, output, member, BEq.rfl⟩
          destination := ⟨output, wraps.outputs ▸ member, BEq.rfl⟩ }
    apart := by
      have symmetric {first second : Connection} (apart : ¬ first.Collides second) :
          ¬ second.Collides first := fun collides =>
        apart ⟨collides.2.1, collides.1, collides.2.2.1.symm, BEq.symm collides.2.2.2⟩
      rw [wraps.connections.pairwise_iff symmetric, List.pairwise_append, List.pairwise_map,
        List.pairwise_map]
      refine ⟨valueOnly.inputs.imp fun apart collides => apart collides.2.2.2,
        valueOnly.outputs.imp fun apart collides => apart collides.2.2.2, ?_⟩
      intro first firstListed second secondListed collides
      rcases List.mem_map.mp firstListed with ⟨input, -, rfl⟩
      rcases List.mem_map.mp secondListed with ⟨output, -, rfl⟩
      exact wraps.onNode collides.2.2.1
    acyclic := by
      intro node cycle
      rcases Relation.TransGen.head'_iff.mp cycle with ⟨_, ⟨connection, listed, kind, -⟩, -⟩
      rcases wraps.mem_connections.mp listed with ⟨_, -, rfl⟩ | ⟨_, -, rfl⟩ <;> cases kind }

/-- What is well-formed at some level is so at any level that leaves as much
room. -/
theorem WellFormed.at_level {limit level otherLimit otherLevel : Nat} {prototype : Prototype}
    (wellFormed : WellFormed registry limit level prototype)
    (room : limit + otherLevel ≤ otherLimit + level) :
    WellFormed registry otherLimit otherLevel prototype := by
  induction wellFormed generalizing otherLevel with
  | intro here above _ induction =>
      apply WellFormed.intro here
      · intro placed listed composite
        have below := above placed listed composite
        omega
      · intro placed listed nested composite
        apply induction placed listed nested composite
        omega

/-- With one more level of subroutines, the graph around can be compiled. -/
theorem exists_build_of_wraps {config otherConfig : Config} {room otherRoom : Nat}
    {graph : Graph (Nested κ room)} (wraps : outer.Wraps placed inner)
    (valueOnly : inner.ValueOnly)
    (compiled : (build registry config room inner).outcome = .ok graph)
    (deeper : room < otherRoom) :
    ∃ around, (build registry otherConfig otherRoom outer).outcome = .ok around := by
  have inside := (exists_build_iff (Nat.zero_add room) inner).mp ⟨graph, compiled⟩
  rw [exists_build_iff (Nat.zero_add otherRoom)]
  apply WellFormed.intro (wellFormedLevel_of_wraps wraps valueOnly)
  · intro _ _ _
    exact Nat.zero_lt_of_lt deeper
  · intro other listed nested composite
    rw [wraps.eq_of_mem listed, wraps.subroutine, Option.some.injEq] at composite
    rw [← composite]
    apply inside.at_level
    omega

/-- Without room for subroutines, the graph around cannot be compiled. -/
theorem not_build_of_wraps {config : Config} {graph : Graph (Nested κ 0)}
    (wraps : outer.Wraps placed inner) :
    (build registry config 0 outer).outcome ≠ .ok graph := by
  intro compiled
  rcases build_eq_ok_iff.mp compiled with ⟨nodes, _, _, created, -, -⟩
  rw [wraps.nodes] at created
  cases created with
  | cons first _ =>
      have plain := (createPlain_eq_ok_iff.mp first).1
      rw [wraps.subroutine] at plain
      cases plain

/-! ## The circuit -/

section
variable (wraps : outer.Wraps placed inner) (valueOnly : inner.ValueOnly)
include wraps valueOnly

theorem layouts_of_wraps :
    (endpointsOf registry outer).layouts =
      [{ inputs := inner.inputs, outputs := inner.outputs }] := by
  simp [endpointsOf, wraps.nodes, layout?_of_wraps wraps valueOnly]

theorem plug_of_wraps {find : Layout → Identifier → Option Nat} {id : Identifier} {plug : Nat}
    (found : find { inputs := inner.inputs, outputs := inner.outputs } id = some plug) :
    (endpointsOf registry outer).plug find ⟨placed.id, id⟩ = .ok (0, plug) := by
  apply Endpoints.plug_eq_ok_iff.mpr
  refine ⟨?_, _, ?_, found⟩
  · simp [Endpoints.position?, endpointsOf, wraps.nodes]
  · rw [layouts_of_wraps wraps valueOnly, List.getElem?_cons_zero]

theorem wire_into {index : Nat} {input : Endpoint}
    (found : inner.inputs[index]? = some input) :
    (endpointsOf registry outer).wire (.into placed.id input) =
      .ok (.value (.graphInput input.id) (.nodeInput 0 index)) := by
  apply Endpoints.wire_eq_ok_iff.mpr
  refine ⟨?_, ?_, .inr ⟨rfl, _, _, ?_, ?_, rfl⟩⟩
  · simp [Endpoints.checkScope_eq_ok_iff, Connection.into, ConnectionKind.sourceScope]
  · simpa [Endpoints.checkScope_eq_ok_iff, Connection.into, ConnectionKind.destinationScope]
      using wraps.onNode
  · have declared : outer.input? input.id = some input := by
      rw [Prototype.input?, wraps.inputs]
      exact valueOnly.inputs.find?_eq (List.mem_of_getElem? found)
    show ValueSource.graphInput <$> Endpoints.declared (outer.input? input.id) _ = _
    rw [declared]
    rfl
  · apply Endpoints.valueSink_eq_nodeInput_iff.mpr
    exact ⟨rfl, plug_of_wraps wraps valueOnly (valueOnly.inputs.findIdx?_eq found)⟩

theorem wire_outOf {index : Nat} {output : Endpoint}
    (found : inner.outputs[index]? = some output) :
    (endpointsOf registry outer).wire (.outOf placed.id output) =
      .ok (.value (.nodeOutput 0 index) (.graphOutput output.id)) := by
  apply Endpoints.wire_eq_ok_iff.mpr
  refine ⟨?_, ?_, .inr ⟨rfl, _, _, ?_, ?_, rfl⟩⟩
  · simpa [Endpoints.checkScope_eq_ok_iff, Connection.outOf, ConnectionKind.sourceScope]
      using wraps.onNode
  · simp [Endpoints.checkScope_eq_ok_iff, Connection.outOf, ConnectionKind.destinationScope]
  · apply Endpoints.valueSource_eq_nodeOutput_iff.mpr
    exact ⟨rfl, plug_of_wraps wraps valueOnly (valueOnly.outputs.findIdx?_eq found)⟩
  · have declared : outer.output? output.id = some output := by
      rw [Prototype.output?, wraps.outputs]
      exact valueOnly.outputs.find?_eq (List.mem_of_getElem? found)
    show ValueSink.graphOutput <$> Endpoints.declared (outer.output? output.id) _ = _
    rw [declared]
    rfl

/-- The circuit around hands values on and does nothing else. -/
theorem circuit_handsOn {config : Config} {wires : List Wire} {order : List Nat}
    (wired : Wired (endpointsOf registry outer) wires order) :
    ∃ placement,
      (Assembly.circuit config (endpointsOf registry outer) wires order).HandsOn inner
        placement := by
  have complete := endpointsOf_complete registry outer
  have apart := (Endpoints.wireAll_eq_ok_iff.mp wired.wires).2
  have layouts : (endpointsOf registry outer).layouts = _ := layouts_of_wraps wraps valueOnly
  have listed {connection : Connection} (member : connection ∈ outer.connections) {wire : Wire}
      (looked : (endpointsOf registry outer).wire connection = .ok wire) : wire ∈ wires := by
    rcases Endpoints.exists_wire_of_mem wired.looked member with ⟨other, present, found⟩
    rw [looked, Except.ok.injEq] at found
    exact found ▸ present
  have present : 0 < (endpointsOf registry outer).layouts.length := by
    rw [layouts]
    exact Nat.zero_lt_one
  rcases Assembly.exists_placement config wires order complete present with ⟨placement, located⟩
  refine ⟨placement, ?_, located, ?_, ?_⟩
  · have perm : order.Perm (List.range outer.nodes.length) := wired.isOrder.perm
    rw [wraps.nodes] at perm
    exact List.perm_singleton.mp perm
  · intro index input found
    have looked : (endpointsOf registry outer).wire (.into placed.id input) = _ :=
      wire_into wraps valueOnly found
    have member := wraps.mem_connections.mpr
      (.inl ⟨input, List.mem_of_getElem? found, rfl⟩)
    have slot : Assembly.slotOf? (endpointsOf registry outer) (.graphInput input.id) =
        some index := by
      rw [← Nat.zero_add index]
      exact Assembly.lastSlot?_number (wraps.inputs ▸ valueOnly.inputs) (wraps.inputs ▸ found)
    rcases Assembly.input_shares_slot complete apart looked (listed member looked) slot with
      ⟨other, otherLocated, shared⟩
    rw [located, Option.some.injEq] at otherLocated
    exact otherLocated ▸ shared
  · intro index output found
    have looked : (endpointsOf registry outer).wire (.outOf placed.id output) = _ :=
      wire_outOf wraps valueOnly found
    have declared := List.mem_of_getElem? found
    have member := wraps.mem_connections.mpr (.inr ⟨output, declared, rfl⟩)
    have slots := (Assembly.placement_eq_some located).2
    have bound : index < placement.outputs.length := by
      rw [Assembly.outputSlots_width slots (layouts ▸ List.getElem?_cons_zero)]
      exact (List.getElem?_eq_some_iff.mp found).1
    have slot : Assembly.slotOf? (endpointsOf registry outer) (.nodeOutput 0 index) =
        some placement.outputs[index] := by
      simp [Assembly.slotOf?, slots, bound]
    exact ⟨_, List.getElem?_eq_getElem bound, Assembly.output_shows_slot apart
      (wraps.outputs ▸ valueOnly.outputs) (wraps.outputs ▸ declared) (listed member looked) slot⟩

end

end Compile

end NodeGraph
