import NodeGraph.Proofs.Compile.Acceptance
import NodeGraph.Proofs.Compile.Places
import NodeGraph.Proofs.Run.Coherence

namespace NodeGraph

/-! The wiring of a compiled graph is its list of connections, no more and no
less. Main statement: every input plug and every output lies where the only value
connection that ends on it starts, or else in a slot of its own that never
changes; and events go exactly where the event connections lead, in the order in
which they are listed. -/

/-! ## Connections -/

namespace Connection

/-- A value arrives at that input plug of the node. -/
def feedsPlug (connection : Connection) (placed : PrototypeNode) (layout : Layout) (plug : Nat) :
    Bool :=
  !connection.kind.isEvent && connection.kind.destinationScope == .node &&
    connection.destination.node == placed.id &&
    layout.inputIndex? connection.destination.endpoint == some plug

/-- A value arrives at that output of the graph. -/
def feedsOutput (connection : Connection) (output : Endpoint) : Bool :=
  !connection.kind.isEvent && connection.kind.destinationScope == .graph &&
    connection.destination.endpoint == output.id

/-- Events leave that output event of the node. -/
def leavesNode (connection : Connection) (placed : PrototypeNode) (layout : Layout)
    (output : Nat) : Bool :=
  (connection.kind == .nodeEventToNode || connection.kind == .nodeEventToGraph) &&
    connection.source.node == placed.id &&
    layout.outputEventIndex? connection.source.endpoint == some output

/-- Events enter through that input of the graph. -/
def entersThrough (connection : Connection) (id : Identifier) : Bool :=
  (connection.kind == .graphEventToNode || connection.kind == .graphEventToGraph) &&
    connection.source.endpoint == id

theorem leavesNode_iff {connection : Connection} {placed : PrototypeNode}
    {layout : Layout} {output : Nat} :
    connection.leavesNode placed layout output = true ↔
      connection.kind.isEvent = true ∧ connection.kind.sourceScope = .node ∧
        placed.id = connection.source.node ∧
        layout.outputEventIndex? connection.source.endpoint = some output := by
  rw [← and_assoc]
  cases kind : connection.kind <;>
    simp [leavesNode, kind, ConnectionKind.isEvent, ConnectionKind.sourceScope,
      eq_comm (a := placed.id)]

theorem entersThrough_iff {connection : Connection} {id : Identifier} :
    connection.entersThrough id = true ↔
      connection.kind.isEvent = true ∧ connection.kind.sourceScope = .graph ∧
        (connection.source.endpoint == id) = true := by
  rw [← and_assoc]
  cases kind : connection.kind <;>
    simp [entersThrough, kind, ConnectionKind.isEvent, ConnectionKind.sourceScope]

end Connection

/-- No connection ends on a local variable. -/
theorem ConnectionKind.destinationScope_ne_node_iff {kind : ConnectionKind} :
    kind.destinationScope ≠ .node ↔ kind.destinationScope = .graph := by
  cases kind <;> simp [destinationScope]

namespace Compile

section
variable [Processor κ]

/-- A terminus refers to the plug or event at that position, `find` saying where
in a layout to look. -/
def RefersTo (registry : Registry κ) (prototype : Prototype)
    (find : Layout → Identifier → Option Nat) (terminus : Terminus) (index plug : Nat) : Prop :=
  ∃ placed layout, prototype.nodes[index]? = some placed ∧ placed.id = terminus.node ∧
    layout? registry placed = some layout ∧ find layout terminus.endpoint = some plug

/-- The source of a connection lies in that slot. -/
def StartsAt (registry : Registry κ) (prototype : Prototype) (circuit : Circuit)
    (connection : Connection) (slot : Slot) : Prop :=
  match connection.kind.sourceScope with
  | .node =>
      ∃ index output,
        RefersTo registry prototype Layout.outputIndex? connection.source index output ∧
        circuit.slotAt? (.nodeOutput index output) = some slot
  | .graph => circuit.inputSlot? connection.source.endpoint = some slot
  | .localVariable => circuit.localSlot? connection.source.endpoint = some slot

/-- The destination of a connection is that target of events. -/
def EndsAt (registry : Registry κ) (prototype : Prototype) (connection : Connection)
    (target : Target) : Prop :=
  match connection.kind.destinationScope with
  | .node =>
      ∃ index input, RefersTo registry prototype Layout.inputEventIndex? connection.destination
        index input ∧ target = .node index input
  | .graph | .localVariable =>
      ∃ output, prototype.output? connection.destination.endpoint = some output ∧
        target = .graphOutput output.id

/-- Where a place lies, given the connections that end there: in the slot from
which the only one starts, or if there is none, in a slot of its own, which holds
`resting` whatever happens to the graph. -/
inductive LiesWired [Processor ν] (registry : Registry κ) (prototype : Prototype)
    (graph : Graph ν) (place : Place) (resting : Value) : List Connection → Prop where
  | shares {connection : Connection} {slot : Slot}
      (starts : StartsAt registry prototype graph.circuit connection slot)
      (lies : graph.circuit.slotAt? place = some slot) :
      LiesWired registry prototype graph place resting [connection]
  | own {slot : Slot} (lies : graph.circuit.slotAt? place = some slot)
      (apart : ∀ other, graph.circuit.slotAt? other = some slot → other = place)
      (constant : ∀ calls, (graph.afterCalls calls).state.values[slot]? = some resting) :
      LiesWired registry prototype graph place resting []

/-- The wiring of a graph is the list of connections of a prototype. -/
structure WiredAs [Processor ν] (registry : Registry κ) (prototype : Prototype)
    (graph : Graph ν) : Prop where
  known : ∀ placed ∈ prototype.nodes, ∃ layout, layout? registry placed = some layout
  plugs : ∀ index placed layout plug endpoint, prototype.nodes[index]? = some placed →
    layout? registry placed = some layout → layout.inputs[plug]? = some endpoint →
    LiesWired registry prototype graph (.nodeInput index plug)
      (Assembly.restingValue placed.overrides endpoint)
      (prototype.connections.filter fun connection => connection.feedsPlug placed layout plug)
  shown : graph.circuit.outputs.map Prod.fst = prototype.outputs.map Endpoint.id
  outputs : ∀ position output, prototype.outputs[position]? = some output →
    LiesWired registry prototype graph (.graphOutput position) output.default
      (prototype.connections.filter fun connection => connection.feedsOutput output)
  routes : ∀ index placed layout output, prototype.nodes[index]? = some placed →
    layout? registry placed = some layout → output < layout.outputEvents.length →
    List.Forall₂ (EndsAt registry prototype)
      (prototype.connections.filter fun connection => connection.leavesNode placed layout output)
      (graph.circuit.routes.targets index output)
  entrances : ∀ id, List.Forall₂ (EndsAt registry prototype)
    (prototype.connections.filter fun connection => connection.entersThrough id)
    (graph.circuit.entrance id)

end

/-! ## References -/

section
variable [Processor κ] {registry : Registry κ} {prototype : Prototype}

/-- Ends are looked up where they refer to. -/
theorem plug_eq_ok_iff_refersTo (distinct : (prototype.nodes.map PrototypeNode.id).Nodup)
    (known : ∀ placed ∈ prototype.nodes, ∃ layout, layout? registry placed = some layout)
    {find : Layout → Identifier → Option Nat} {terminus : Terminus} {index plug : Nat} :
    (endpointsOf registry prototype).plug find terminus = .ok (index, plug) ↔
      RefersTo registry prototype find terminus index plug := by
  simp only [Endpoints.plug_eq_ok_iff, position?_eq_some_iff distinct, layouts_eq_some_iff]
  constructor
  · intro found
    rcases found with ⟨⟨placed, listed, id⟩, _, ⟨other, otherListed, rfl⟩, found⟩
    rw [listed, Option.some.injEq] at otherListed
    subst otherListed
    rcases known placed (List.mem_of_getElem? listed) with ⟨layout, layoutKnown⟩
    rw [layoutKnown, Option.getD_some] at found
    exact ⟨placed, layout, listed, id, layoutKnown, found⟩
  · intro refers
    rcases refers with ⟨placed, layout, listed, id, layoutKnown, found⟩
    exact ⟨⟨placed, listed, id⟩, layout, ⟨placed, listed, by simp [layoutKnown]⟩, found⟩

end

/-! ## Value connections -/

section
variable [Processor κ] {registry : Registry κ} {prototype : Prototype}

omit [Processor κ] in
/-- Of the connections that end on a sink there is one, from which its wire comes,
or none, and then there is no wire. -/
theorem sourceOf?_cases {endpoints : Endpoints} {connections : List Connection}
    {wires : List Wire} {sink : ValueSink} {ends : Connection → Bool}
    (looked : endpoints.LooksUp connections wires)
    (apart : wires.Pairwise fun earlier later => ¬ earlier.SharesSink later)
    (agrees : ∀ connection wire, endpoints.wire connection = .ok wire →
      (ends connection = true ↔ ∃ other, wire.sink? = some other ∧ (other == sink) = true)) :
    (∃ connection source other, connections.filter ends = [connection] ∧
        endpoints.wire connection = .ok (.value source other) ∧
        Wire.sourceOf? wires sink = some source) ∨
      connections.filter ends = [] ∧ Wire.sourceOf? wires sink = none := by
  induction looked with
  | nil => exact .inr ⟨rfl, rfl⟩
  | @cons connection wire connections wires first rest induction =>
      rcases List.pairwise_cons.mp apart with ⟨free, apart⟩
      cases here : ends connection with
      | false =>
          have skipped : Wire.sourceOf? (wire :: wires) sink = Wire.sourceOf? wires sink := by
            cases wire with
            | event start target => rfl
            | value source other =>
                have different : (other == sink) = false := by
                  rw [← Bool.not_eq_true]
                  intro same
                  rw [(agrees connection _ first).mpr ⟨other, rfl, same⟩] at here
                  cases here
                simp [Wire.sourceOf?, different]
          rw [List.filter_cons_of_neg (by simp [here]), skipped]
          exact induction apart
      | true =>
          rcases (agrees connection wire first).mp here with ⟨other, isSink, same⟩
          cases wire with
          | event start target => cases isSink
          | value source sink' =>
              cases isSink
              have none : connections.filter ends = [] := by
                rw [List.filter_eq_nil_iff]
                intro later listed alsoEnds
                rcases Endpoints.exists_wire_of_mem rest listed with ⟨laterWire, member, found⟩
                rcases (agrees later laterWire found).mp alsoEnds with ⟨last, laterSink, alsoSame⟩
                exact free laterWire member
                  ⟨other, last, rfl, laterSink, PartialEquivBEq.trans same (BEq.symm alsoSame)⟩
              rw [List.filter_cons_of_pos here, none]
              exact .inl ⟨connection, source, other, rfl, first, by simp [Wire.sourceOf?, same]⟩

/-- Given the node, what refers to a plug is known by the name of the plug. -/
theorem refersTo_iff {find : Layout → Identifier → Option Nat} {terminus : Terminus}
    {index plug : Nat} {placed : PrototypeNode} {layout : Layout}
    (listed : prototype.nodes[index]? = some placed)
    (layoutKnown : layout? registry placed = some layout) :
    RefersTo registry prototype find terminus index plug ↔
      placed.id = terminus.node ∧ find layout terminus.endpoint = some plug := by
  constructor
  · intro refers
    rcases refers with ⟨other, otherLayout, otherListed, id, otherKnown, found⟩
    rw [listed, Option.some.injEq] at otherListed
    subst otherListed
    rw [layoutKnown, Option.some.injEq] at otherKnown
    subst otherKnown
    exact ⟨id, found⟩
  · intro found
    exact ⟨placed, layout, listed, found.1, layoutKnown, found.2⟩

/-- Whether a connection ends on a plug shows in its wire. -/
theorem feedsPlug_iff (distinct : (prototype.nodes.map PrototypeNode.id).Nodup)
    (known : ∀ placed ∈ prototype.nodes, ∃ layout, layout? registry placed = some layout)
    {index plug : Nat} {placed : PrototypeNode} {layout : Layout}
    (listed : prototype.nodes[index]? = some placed)
    (layoutKnown : layout? registry placed = some layout) {connection : Connection} {wire : Wire}
    (looked : (endpointsOf registry prototype).wire connection = .ok wire) :
    connection.feedsPlug placed layout plug = true ↔
      ∃ other, wire.sink? = some other ∧ (other == ValueSink.nodeInput index plug) = true := by
  cases wire with
  | event source target =>
      rcases Endpoints.wire_eq_event_iff.mp looked with ⟨-, -, isEvent, -, -⟩
      simp [Connection.feedsPlug, isEvent, Wire.sink?]
  | value source sink =>
      rcases Endpoints.wire_eq_value_iff.mp looked with ⟨-, -, isValue, -, sinkFound⟩
      have isPlug : sink = .nodeInput index plug ↔
          connection.kind.destinationScope = .node ∧ placed.id = connection.destination.node ∧
            layout.inputIndex? connection.destination.endpoint = some plug := by
        rw [← refersTo_iff listed layoutKnown, ← plug_eq_ok_iff_refersTo distinct known,
          ← Endpoints.valueSink_eq_nodeInput_iff, sinkFound, Except.ok.injEq]
      simp only [Connection.feedsPlug, isValue, Wire.sink?, Bool.not_false, Bool.true_and,
        Bool.and_eq_true, beq_iff_eq, Option.some.injEq, exists_eq_left', and_assoc,
        ValueSink.beq_nodeInput_iff, isPlug, eq_comm (a := placed.id)]

/-- Whether a connection ends on an output shows in its wire. -/
theorem feedsOutput_iff {output : Endpoint} {connection : Connection} {wire : Wire}
    (looked : (endpointsOf registry prototype).wire connection = .ok wire) :
    connection.feedsOutput output = true ↔
      ∃ other, wire.sink? = some other ∧ (other == ValueSink.graphOutput output.id) = true := by
  cases wire with
  | event source target =>
      rcases Endpoints.wire_eq_event_iff.mp looked with ⟨-, -, isEvent, -, -⟩
      simp [Connection.feedsOutput, isEvent, Wire.sink?]
  | value source sink =>
      rcases Endpoints.wire_eq_value_iff.mp looked with ⟨-, -, isValue, -, sinkFound⟩
      cases sink with
      | nodeInput index plug =>
          have onNode := (Endpoints.valueSink_eq_nodeInput_iff.mp sinkFound).1
          simp [Connection.feedsOutput, onNode, Wire.sink?]
      | graphOutput id =>
          rcases Endpoints.valueSink_eq_graphOutput_iff.mp sinkFound with ⟨notNode, declared⟩
          have onGraph := ConnectionKind.destinationScope_ne_node_iff.mp notNode
          have same := (Identifier.beq_iff _ _).mp (Endpoints.declared_beq declared)
          simp [Connection.feedsOutput, isValue, onGraph, Wire.sink?, Identifier.beq_iff, same]

omit [Processor κ] in
theorem lastSlot?_congr {declared : List (Identifier × Slot)} {left right : Identifier}
    (same : (left == right) = true) :
    Circuit.lastSlot? declared left = Circuit.lastSlot? declared right := by
  rw [Identifier.beq_iff] at same
  unfold Circuit.lastSlot?
  congr 2
  funext entry
  show (entry.1.hash == left.hash) = (entry.1.hash == right.hash)
  rw [same]

/-- A connection starts where its source lies. -/
theorem startsAt_of_wire {config : Config} {wires : List Wire} {order : List Nat}
    (distinct : (prototype.nodes.map PrototypeNode.id).Nodup)
    (known : ∀ placed ∈ prototype.nodes, ∃ layout, layout? registry placed = some layout)
    {connection : Connection} {source : ValueSource} {sink : ValueSink} {slot : Slot}
    (looked : (endpointsOf registry prototype).wire connection = .ok (.value source sink))
    (located : Assembly.slotOf? (endpointsOf registry prototype) source = some slot) :
    StartsAt registry prototype
      (Assembly.circuit config (endpointsOf registry prototype) wires order) connection slot := by
  rcases Endpoints.wire_eq_value_iff.mp looked with ⟨-, -, -, sourceFound, -⟩
  unfold StartsAt
  cases source with
  | nodeOutput index output =>
      rcases Endpoints.valueSource_eq_nodeOutput_iff.mp sourceFound with ⟨onNode, plug⟩
      rw [onNode]
      exact ⟨index, output, (plug_eq_ok_iff_refersTo distinct known).mp plug,
        (Assembly.slotAt?_nodeOutput_iff (endpointsOf_complete registry prototype)).mpr located⟩
  | graphInput id =>
      rcases Endpoints.valueSource_eq_graphInput_iff.mp sourceFound with ⟨onGraph, declared⟩
      rw [onGraph]
      exact (lastSlot?_congr (Endpoints.declared_beq declared)).symm.trans located
  | localVariable id =>
      rcases Endpoints.valueSource_eq_localVariable_iff.mp sourceFound with ⟨isLocal, declared⟩
      rw [isLocal]
      exact (lastSlot?_congr (Endpoints.declared_beq declared)).symm.trans located

/-! ## Event connections -/

/-- Whether events leave a node along a connection shows in its wire. -/
theorem targetFrom?_nodeEvent_iff (distinct : (prototype.nodes.map PrototypeNode.id).Nodup)
    (known : ∀ placed ∈ prototype.nodes, ∃ layout, layout? registry placed = some layout)
    {index output : Nat} {connection : Connection} {wire : Wire}
    (looked : (endpointsOf registry prototype).wire connection = .ok wire) :
    wire.targetFrom? (.nodeEvent index output) ≠ none ↔
      connection.kind.isEvent = true ∧ connection.kind.sourceScope = .node ∧
        RefersTo registry prototype Layout.outputEventIndex? connection.source index output := by
  cases wire with
  | value source sink =>
      rcases Endpoints.wire_eq_value_iff.mp looked with ⟨-, -, isValue, -, -⟩
      simp [isValue]
  | event source target =>
      rcases Endpoints.wire_eq_event_iff.mp looked with ⟨-, -, isEvent, sourceFound, -⟩
      rw [← plug_eq_ok_iff_refersTo distinct known, ← Endpoints.eventSource_eq_nodeEvent_iff,
        sourceFound, Except.ok.injEq]
      cases source <;> simp [isEvent]

/-- A wire ends where its connection does. -/
theorem endsAt_of_wire (distinct : (prototype.nodes.map PrototypeNode.id).Nodup)
    (known : ∀ placed ∈ prototype.nodes, ∃ layout, layout? registry placed = some layout)
    {connection : Connection} {source : EventSource} {target : Target}
    (looked : (endpointsOf registry prototype).wire connection = .ok (.event source target)) :
    EndsAt registry prototype connection target := by
  rcases Endpoints.wire_eq_event_iff.mp looked with ⟨-, -, -, -, targetFound⟩
  unfold EndsAt
  cases target with
  | node index input =>
      rcases Endpoints.eventTarget_eq_node_iff.mp targetFound with ⟨onNode, plug⟩
      rw [onNode]
      exact ⟨index, input, (plug_eq_ok_iff_refersTo distinct known).mp plug, rfl⟩
  | graphOutput id =>
      rcases Endpoints.eventTarget_eq_graphOutput_iff.mp targetFound with ⟨notNode, declared⟩
      rw [ConnectionKind.destinationScope_ne_node_iff.mp notNode]
      rcases Option.map_eq_some_iff.mp (Endpoints.declared_eq_ok_iff.mp declared) with
        ⟨output, found, rfl⟩
      exact ⟨output, found, rfl⟩

/-- The targets of a source are the ends of the connections that leave it. -/
theorem forall₂_endsAt (distinct : (prototype.nodes.map PrototypeNode.id).Nodup)
    (known : ∀ placed ∈ prototype.nodes, ∃ layout, layout? registry placed = some layout)
    {connections : List Connection} {wires : List Wire} {source : EventSource}
    {leaves : Connection → Bool}
    (looked : (endpointsOf registry prototype).LooksUp connections wires)
    (agrees : ∀ connection wire, (endpointsOf registry prototype).wire connection = .ok wire →
      (wire.targetFrom? source ≠ none ↔ leaves connection = true)) :
    List.Forall₂ (EndsAt registry prototype) (connections.filter leaves)
      (wires.filterMap (Wire.targetFrom? source)) := by
  induction looked with
  | nil => exact .nil
  | @cons connection wire connections wires first _ induction =>
      have here := agrees connection wire first
      cases leads : wire.targetFrom? source with
      | none =>
          have stays : ¬ leaves connection = true := fun leaves => here.mpr leaves leads
          rwa [List.filter_cons_of_neg stays, List.filterMap_cons_none leads]
      | some target =>
          have ends : EndsAt registry prototype connection target := by
            cases wire with
            | value start sink => cases leads
            | event start reached =>
                rw [Wire.targetFrom?_event] at leads
                split at leads
                · cases leads
                  exact endsAt_of_wire distinct known first
                · cases leads
          rw [List.filter_cons_of_pos (here.mp (by simp [leads])),
            List.filterMap_cons_some leads]
          exact .cons ends induction

end

end Compile

/-! ## Constant slots -/

section
variable [Processor ν] {graph : Graph ν}

/-- No call changes a slot that neither nodes write nor a host sets. -/
theorem Graph.perform_constant {slot : Slot} {value : Value}
    (unwritten : ∀ writer, slot ∉ graph.circuit.outputsAt writer)
    (unset : ∀ entry ∈ graph.circuit.inputs ++ graph.circuit.locals, entry.2 ≠ slot)
    (resting : graph.circuit.defaults[slot]? = some value)
    (held : graph.state.values[slot]? = some value) (call : Call) :
    (graph.perform call).1.state.values[slot]? = some value := by
  refine Graph.perform_keeps_of_turns (Circuit.turns_unwritten unwritten (some value)) ?_
    (fun _ => id) (fun _ _ => resting) held call
  intro state id target other located before
  have different : target ≠ slot := by
    rcases located with input | variable_
    · rcases Assembly.lastSlot?_mem input with ⟨_, listed, -⟩
      exact unset _ (List.mem_append_left _ listed)
    · rcases Assembly.lastSlot?_mem variable_ with ⟨_, listed, -⟩
      exact unset _ (List.mem_append_right _ listed)
  rwa [Array.getElem?_setIfInBounds_ne different]

theorem Graph.afterCalls_constant {slot : Slot} {value : Value}
    (unwritten : ∀ writer, slot ∉ graph.circuit.outputsAt writer)
    (unset : ∀ entry ∈ graph.circuit.inputs ++ graph.circuit.locals, entry.2 ≠ slot)
    (resting : graph.circuit.defaults[slot]? = some value)
    (held : graph.state.values[slot]? = some value) (calls : List Call) :
    (graph.afterCalls calls).state.values[slot]? = some value := by
  induction calls generalizing graph with
  | nil => exact held
  | cons call calls induction =>
      refine induction ?_ ?_ ?_ (Graph.perform_constant unwritten unset resting held call)
      all_goals rwa [Graph.perform_circuit]

end

/-! ## Compiled graphs -/

namespace Assembly

variable {config : Config} {endpoints : Endpoints} {wires : List Wire} {order : List Nat}

/-- A place that a wire may end on, but does not, has its slot for itself. -/
theorem eq_of_slotAt?_unwired
    (complete : endpoints.layouts.length = endpoints.prototype.nodes.length)
    (exist : SourcesExist endpoints wires) {place other : Place} {slot : Slot} {sink : ValueSink}
    (ends : sinkAt? endpoints place = some sink)
    (unwired : sourceAt? endpoints wires place = none)
    (found : (circuit config endpoints wires order).slotAt? place = some slot)
    (otherFound : (circuit config endpoints wires order).slotAt? other = some slot) :
    other = place := by
  have start := eq_of_slotAt? complete (slotAt?_origin complete exist otherFound) found
    (sourceAt?_origin exist other) unwired
  rcases origin_cases exist other with ⟨-, same⟩ | ⟨source, -, isPlace⟩
  · exact same.symm.trans start
  · rw [start] at isPlace
    cases source with
    | nodeOutput node plug =>
        cases isPlace
        cases ends
    | graphInput id | localVariable id =>
        rcases Option.map_eq_some_iff.mp isPlace with ⟨position, -, rfl⟩
        cases ends

end Assembly

namespace Compile

variable [Processor κ] {registry : Registry κ} {config : Config} {prototype : Prototype}
  {room : Nat}

theorem liesWired_of_ends [Processor ν] {capacity : Nat} {nodes : List ν} {wires : List Wire}
    {order : List Nat} (wired : Wired (endpointsOf registry prototype) wires order)
    (distinct : (prototype.nodes.map PrototypeNode.id).Nodup)
    (known : ∀ placed ∈ prototype.nodes, ∃ layout, layout? registry placed = some layout)
    {place : Place} {resting : Value} {sink : ValueSink} {ends : Connection → Bool}
    (isSink : Assembly.sinkAt? (endpointsOf registry prototype) place = some sink)
    (rests : Assembly.atRest (endpointsOf registry prototype) place = some resting)
    (agrees : ∀ connection wire, (endpointsOf registry prototype).wire connection = .ok wire →
      (ends connection = true ↔ ∃ other, wire.sink? = some other ∧ (other == sink) = true)) :
    LiesWired registry prototype
      (Graph.pristine (Assembly.circuit config (endpointsOf registry prototype) wires order)
        capacity nodes)
      place resting (prototype.connections.filter ends) := by
  have complete := endpointsOf_complete registry prototype
  rcases Endpoints.wireAll_eq_ok_iff.mp wired.wires with ⟨looked, apart⟩
  have exist := Assembly.sourcesExist looked
  obtain ⟨slot, lies⟩ : ∃ slot, (Assembly.circuit config (endpointsOf registry prototype) wires
      order).slotAt? place = some slot := Assembly.exists_slotAt? complete rests
  rcases sourceOf?_cases looked apart agrees with
    ⟨connection, source, other, only, found, sourceFound⟩ | ⟨nothing, unfed⟩
  · have wiredFrom : Assembly.sourceAt? (endpointsOf registry prototype) wires place =
        some source := by
      rw [Assembly.sourceAt?, isSink, Option.bind_some, sourceFound]
    have only : prototype.connections.filter ends = [connection] := only
    rw [only]
    exact .shares (startsAt_of_wire distinct known found
      (Assembly.slotOf?_of_sourceAt? exist lies wiredFrom)) lies
  · have unwired : Assembly.sourceAt? (endpointsOf registry prototype) wires place = none := by
      rw [Assembly.sourceAt?, isSink, Option.bind_some, unfed]
    have alone : ∀ other, (Assembly.circuit config (endpointsOf registry prototype) wires
        order).slotAt? other = some slot → other = place := fun other =>
      Assembly.eq_of_slotAt?_unwired complete exist isSink unwired lies
    have held := (Assembly.defaults_slotAt? complete lies unwired).trans rests
    have nothing : prototype.connections.filter ends = [] := nothing
    rw [nothing]
    refine .own lies alone (Graph.afterCalls_constant ?_ ?_ held held)
    · intro writer written
      rcases Circuit.exists_slotAt?_nodeOutput written with ⟨plug, found⟩
      cases alone _ found
      cases isSink
    · intro entry member same
      subst same
      rcases List.mem_append.mp member with input | variable_
      · rcases Circuit.exists_slotAt?_graphInput input with ⟨position, found⟩
        cases alone _ found
        cases isSink
      · rcases Circuit.exists_slotAt?_localVariable variable_ with ⟨position, found⟩
        cases alone _ found
        cases isSink

/-- The wiring of a compiled graph is the list of its connections. -/
theorem wiredAs_of_build {graph : Graph (Nested κ room)}
    (built : (build registry config room prototype).outcome = .ok graph) :
    WiredAs registry prototype graph := by
  rcases build_eq_ok_iff.mp built with ⟨nodes, wires, order, created, wired, rfl⟩
  have distinct : (prototype.nodes.map PrototypeNode.id).Nodup :=
    (checkIds_eq_ok_iff.mp wired.ids).2
  have known : ∀ placed ∈ prototype.nodes, ∃ layout, layout? registry placed = some layout := by
    intro placed listed
    rcases exists_forall₂_iff.mp ⟨nodes, created⟩ placed listed with ⟨node, made⟩
    exact ⟨_, createNode_layout made⟩
  have looked := wired.looked
  refine ⟨known, ?_, ?_, ?_, ?_, ?_⟩
  · intro index placed layout plug endpoint listed layoutKnown declared
    have located : (endpointsOf registry prototype).layouts[index]? = some layout :=
      layouts_eq_some_iff.mpr ⟨placed, listed, by simp [layoutKnown]⟩
    have rests : Assembly.atRest (endpointsOf registry prototype) (.nodeInput index plug) =
        some (Assembly.restingValue placed.overrides endpoint) := by
      show prototype.nodes[index]?.bind _ = _
      simp [listed, located, declared]
    exact liesWired_of_ends wired distinct known rfl rests fun _ _ =>
      feedsPlug_iff distinct known listed layoutKnown
  · exact Assembly.shownSlots_ids _ _ _
  · intro position output listed
    have isSink : Assembly.sinkAt? (endpointsOf registry prototype) (.graphOutput position) =
        some (.graphOutput output.id) := by
      show prototype.outputs[position]?.map _ = _
      rw [listed, Option.map_some]
    have rests : Assembly.atRest (endpointsOf registry prototype) (.graphOutput position) =
        some output.default := by
      show prototype.outputs[position]?.map _ = _
      rw [listed, Option.map_some]
    exact liesWired_of_ends wired distinct known isSink rests fun _ _ => feedsOutput_iff
  · intro index placed layout output listed layoutKnown bound
    show List.Forall₂ _ _ ((Assembly.circuit config (endpointsOf registry prototype) wires
      order).routes.targets index output)
    rw [Assembly.targets_circuit looked, Endpoints.targetsFrom_eq looked]
    apply forall₂_endsAt distinct known looked
    intro connection wire found
    rw [targetFrom?_nodeEvent_iff distinct known found, refersTo_iff listed layoutKnown,
      Connection.leavesNode_iff]
  · intro id
    show List.Forall₂ _ _ ((Assembly.circuit config (endpointsOf registry prototype) wires
      order).entrance id)
    rw [Assembly.entrance_circuit looked, Endpoints.targetsFrom_eq looked]
    apply forall₂_endsAt distinct known looked
    intro connection wire found
    rw [Endpoints.targetFrom?_graphInput_iff found, Connection.entersThrough_iff]

/-- A graph with wires of all kinds, one of them listed twice, and an override. -/
def switchboard : Prototype where
  name := "Switchboard"
  id := 0
  inputs := [⟨.named "Index", .int32 1⟩, ⟨.named "Start", .void⟩]
  outputs := [⟨.named "Element", .int32 0⟩, ⟨.named "Spare", .int32 5⟩, ⟨.named "Done", .void⟩]
  locals := [⟨.named "List", .array [.int32 4, .int32 8]⟩]
  nodes := [⟨.named "Get (Int)", 1, [⟨.named "Index", .int32 2⟩], none⟩,
    ⟨.named "Get (Int)", 2, [], none⟩]
  connections := [
    ⟨⟨1, .named "OnTrigger"⟩, ⟨2, .named "Trigger"⟩, .nodeEventToNode⟩,
    ⟨⟨graphNodeId, .named "List"⟩, ⟨1, .named "Array"⟩, .localValueToNode⟩,
    ⟨⟨graphNodeId, .named "Index"⟩, ⟨2, .named "Index"⟩, .graphValueToNode⟩,
    ⟨⟨graphNodeId, .named "Start"⟩, ⟨1, .named "Trigger"⟩, .graphEventToNode⟩,
    ⟨⟨1, .named "Element"⟩, ⟨graphNodeId, .named "Element"⟩, .nodeValueToGraph⟩,
    ⟨⟨1, .named "OnTrigger"⟩, ⟨graphNodeId, .named "Done"⟩, .nodeEventToGraph⟩,
    ⟨⟨1, .named "OnTrigger"⟩, ⟨2, .named "Trigger"⟩, .nodeEventToNode⟩]

theorem switchboard_wiredAs :
    ∃ graph : Graph (Nested StandardNode 0),
      (build elements Config.default 0 switchboard).outcome = .ok graph ∧
      WiredAs elements switchboard graph ∧
      (graph.circuit.routes.targets 0 0).length = 3 ∧
      LiesWired elements switchboard graph (.nodeInput 0 1) (.int32 2) [] := by
  have compiles : (build elements Config.default 0 switchboard).outcome.isOk = true := by
    decide +kernel
  rcases exists_eq_ok compiles with ⟨graph, built⟩
  have wiredAs := wiredAs_of_build built
  have routes := wiredAs.routes 0 _ _ 0 rfl rfl (by decide +kernel)
  have index := wiredAs.plugs 0 _ _ 1 _ rfl rfl rfl
  refine ⟨graph, built, wiredAs, routes.length_eq.symm.trans (by decide +kernel), ?_⟩
  exact index

end Compile

end NodeGraph
