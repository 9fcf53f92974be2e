import NodeGraph.Proofs.Compile.Canonical
import NodeGraph.Proofs.Compile.Places

namespace NodeGraph

open Compile

/-! Prototypes that are part of larger ones. The larger prototype has the same
boundary, all nodes and connections of the smaller one, in whatever order, and
what else it has leads to none of these nodes. Main statement: the circuit of the
smaller prototype is then part of the circuit of the larger one. -/

/-! ## New positions -/

section
variable (node : Nat → Nat)

def Place.rename : Place → Place
  | .nodeOutput index plug => .nodeOutput (node index) plug
  | .nodeInput index plug => .nodeInput (node index) plug
  | .graphInput position => .graphInput position
  | .localVariable position => .localVariable position
  | .graphOutput position => .graphOutput position

def ValueSource.rename : ValueSource → ValueSource
  | .nodeOutput index plug => .nodeOutput (node index) plug
  | .graphInput id => .graphInput id
  | .localVariable id => .localVariable id

def ValueSink.rename : ValueSink → ValueSink
  | .nodeInput index plug => .nodeInput (node index) plug
  | .graphOutput id => .graphOutput id

def EventSource.rename : EventSource → EventSource
  | .nodeEvent index output => .nodeEvent (node index) output
  | .graphInput id => .graphInput id

def Target.rename : Target → Target
  | .node index input => .node (node index) input
  | .graphOutput id => .graphOutput id

def Wire.rename : Wire → Wire
  | .value source sink => .value (source.rename node) (sink.rename node)
  | .event source target => .event (source.rename node) (target.rename node)

variable {node} (injective : Function.Injective node)
include injective

theorem Place.rename_injective : Function.Injective (Place.rename node) := by
  intro left right same
  cases left <;> cases right <;> simp_all [rename, injective.eq_iff]

theorem ValueSink.rename_beq_rename (left right : ValueSink) :
    (left.rename node == right.rename node) = (left == right) := by
  cases left <;> cases right <;> simp [rename, injective.beq_eq]

theorem EventSource.rename_beq_rename (left right : EventSource) :
    (left.rename node == right.rename node) = (left == right) := by
  cases left <;> cases right <;> simp [rename, injective.beq_eq]

theorem Wire.targetFrom?_rename (wire : Wire) (source : EventSource) :
    (wire.rename node).targetFrom? (source.rename node) =
      (wire.targetFrom? source).map (Target.rename node) := by
  cases wire with
  | value start sink => rfl
  | event start target =>
      rw [rename, targetFrom?_event, targetFrom?_event, EventSource.rename_beq_rename injective]
      split <;> rfl

end

/-! ## Larger prototypes -/

/-- A prototype is part of a larger one. The node at a position is found there at
the position that `node` says. Connections that are added carry values to nodes
that are added. -/
structure Prototype.SitsIn (node : Nat → Nat) (small large : Prototype) : Prop where
  injective : Function.Injective node
  nodes : ∀ index, large.nodes[node index]? = small.nodes[index]?
  inputs : large.inputs = small.inputs
  locals : large.locals = small.locals
  outputs : large.outputs = small.outputs
  connections : small.connections ⊆ large.connections
  others : ∀ connection ∈ large.connections, connection ∈ small.connections ∨
    connection.kind.isEvent = false ∧ connection.kind.destinationScope = .node ∧
      connection.destination.node ∉ small.ids

/-- Where the nodes of a prototype stand among those of a larger one. What stands
nowhere is kept behind all of them. -/
def Prototype.relocate (small large : Prototype) (index : Nat) : Nat :=
  match small.nodes[index]? with
  | some placed => large.position placed.id
  | none => large.nodes.length + index

namespace Prototype

variable {small large : Prototype}

theorem nodes_relocate (nodes : small.nodes ⊆ large.nodes) (distinct : large.ids.Nodup)
    (index : Nat) : large.nodes[small.relocate large index]? = small.nodes[index]? := by
  unfold relocate
  cases listed : small.nodes[index]? with
  | none => simp
  | some placed =>
      rcases List.mem_iff_getElem?.mp (nodes (List.mem_of_getElem? listed)) with ⟨other, found⟩
      have named : (large.nodes[other]?.map PrototypeNode.id) = some placed.id := by
        rw [found, Option.map_some]
      show large.nodes[large.position placed.id]? = some placed
      rw [(named_position_of_getElem? distinct named).2, found]

theorem relocate_injective (nodes : small.nodes ⊆ large.nodes) (distinct : large.ids.Nodup)
    (smallDistinct : small.ids.Nodup) : Function.Injective (small.relocate large) := by
  intro left right same
  have leftFound := nodes_relocate nodes distinct left
  have rightFound := nodes_relocate nodes distinct right
  rw [same, rightFound] at leftFound
  cases listed : small.nodes[left]? with
  | none =>
      rw [listed] at leftFound
      simpa [relocate, listed, leftFound] using same
  | some placed =>
      rw [listed] at leftFound
      have leftNamed : (small.nodes[left]?.map PrototypeNode.id) = some placed.id := by
        rw [listed, Option.map_some]
      have rightNamed : (small.nodes[right]?.map PrototypeNode.id) = some placed.id := by
        rw [leftFound, Option.map_some]
      exact (named_position_of_getElem? smallDistinct leftNamed).2.symm.trans
        (named_position_of_getElem? smallDistinct rightNamed).2

end Prototype

section
variable [Processor κ] {registry : Registry κ} {small large : Prototype} {connection : Connection}

theorem Compile.OnNode.mono {names : Layout → Identifier → Prop} {terminus : Terminus}
    (declared : OnNode registry small names terminus) (nodes : small.nodes ⊆ large.nodes) :
    OnNode registry large names terminus := by
  rcases declared with ⟨placed, listed, named⟩
  exact ⟨placed, nodes listed, named⟩

/-- A source that exists still does if there are more nodes. -/
theorem Compile.SourceExists.mono (source : SourceExists registry small connection)
    (nodes : small.nodes ⊆ large.nodes) (inputs : large.inputs = small.inputs)
    (locals : large.locals = small.locals) : SourceExists registry large connection := by
  unfold SourceExists at source ⊢
  rw [inputs, locals]
  cases scope : connection.kind.sourceScope <;> simp only [scope] at source ⊢
  case node => exact source.mono nodes
  case graph | localVariable => exact source

/-- A connection that can be wired still can if there are more nodes. -/
theorem Compile.Connects.mono (connects : Connects registry small connection)
    (nodes : small.nodes ⊆ large.nodes) (inputs : large.inputs = small.inputs)
    (locals : large.locals = small.locals) (outputs : large.outputs = small.outputs) :
    Connects registry large connection := by
  refine ⟨connects.sourceSide, connects.destinationSide,
    connects.source.mono nodes inputs locals, ?_⟩
  have destination := connects.destination
  unfold DestinationExists at destination ⊢
  rw [outputs]
  cases scope : connection.kind.destinationScope <;> simp only [scope] at destination ⊢
  case node => exact destination.mono nodes
  case graph | localVariable => exact destination

end

/-! ## Ends and wires -/

namespace Prototype.SitsIn

section
variable [Processor κ] {registry : Registry κ} {node : Nat → Nat} {small large : Prototype}
  (sits : small.SitsIn node large)
include sits

theorem layouts (index : Nat) :
    (endpointsOf registry large).layouts[node index]? =
      (endpointsOf registry small).layouts[index]? := by
  simp only [endpointsOf, List.getElem?_map, sits.nodes]

section
variable (distinct : large.ids.Nodup) {terminus : Terminus}
include distinct

theorem position? {id : NodeId} {index : Nat}
    (found : (endpointsOf registry small).position? id = some index) :
    (endpointsOf registry large).position? id = some (node index) := by
  rcases List.findIdx?_eq_some_iff_getElem.mp found with ⟨bound, same, -⟩
  exact (position?_eq_some_iff distinct).mpr
    ⟨_, (sits.nodes index).trans (List.getElem?_eq_getElem bound), eq_of_beq same⟩

theorem plug {find : Layout → Identifier → Option Nat} {index plug : Nat}
    (found : (endpointsOf registry small).plug find terminus = .ok (index, plug)) :
    (endpointsOf registry large).plug find terminus = .ok (node index, plug) := by
  rcases Endpoints.plug_eq_ok_iff.mp found with ⟨position, layout, located, named⟩
  exact Endpoints.plug_eq_ok_iff.mpr
    ⟨sits.position? distinct position, layout, (sits.layouts index).trans located, named⟩

omit distinct in
theorem graphInput :
    (endpointsOf registry large).graphInput terminus =
      (endpointsOf registry small).graphInput terminus := by
  simp only [Endpoints.graphInput, Prototype.input?, endpointsOf, sits.inputs]

omit distinct in
theorem localVariable :
    (endpointsOf registry large).localVariable terminus =
      (endpointsOf registry small).localVariable terminus := by
  simp only [Endpoints.localVariable, Prototype.local?, endpointsOf, sits.locals]

omit distinct in
theorem graphOutput :
    (endpointsOf registry large).graphOutput terminus =
      (endpointsOf registry small).graphOutput terminus := by
  simp only [Endpoints.graphOutput, Prototype.output?, endpointsOf, sits.outputs]

theorem valueSource {scope : Scope} {source : ValueSource}
    (found : (endpointsOf registry small).valueSource scope terminus = .ok source) :
    (endpointsOf registry large).valueSource scope terminus = .ok (source.rename node) := by
  cases source with
  | nodeOutput index plug =>
      rw [Endpoints.valueSource_eq_nodeOutput_iff] at found
      exact Endpoints.valueSource_eq_nodeOutput_iff.mpr ⟨found.1, sits.plug distinct found.2⟩
  | graphInput id =>
      rw [Endpoints.valueSource_eq_graphInput_iff, ← sits.graphInput] at found
      exact Endpoints.valueSource_eq_graphInput_iff.mpr found
  | localVariable id =>
      rw [Endpoints.valueSource_eq_localVariable_iff, ← sits.localVariable] at found
      exact Endpoints.valueSource_eq_localVariable_iff.mpr found

theorem valueSink {scope : Scope} {sink : ValueSink}
    (found : (endpointsOf registry small).valueSink scope terminus = .ok sink) :
    (endpointsOf registry large).valueSink scope terminus = .ok (sink.rename node) := by
  cases sink with
  | nodeInput index plug =>
      rw [Endpoints.valueSink_eq_nodeInput_iff] at found
      exact Endpoints.valueSink_eq_nodeInput_iff.mpr ⟨found.1, sits.plug distinct found.2⟩
  | graphOutput id =>
      rw [Endpoints.valueSink_eq_graphOutput_iff, ← sits.graphOutput] at found
      exact Endpoints.valueSink_eq_graphOutput_iff.mpr found

theorem eventSource {scope : Scope} {source : EventSource}
    (found : (endpointsOf registry small).eventSource scope terminus = .ok source) :
    (endpointsOf registry large).eventSource scope terminus = .ok (source.rename node) := by
  cases source with
  | nodeEvent index output =>
      rw [Endpoints.eventSource_eq_nodeEvent_iff] at found
      exact Endpoints.eventSource_eq_nodeEvent_iff.mpr ⟨found.1, sits.plug distinct found.2⟩
  | graphInput id =>
      rw [Endpoints.eventSource_eq_graphInput_iff, ← sits.graphInput] at found
      exact Endpoints.eventSource_eq_graphInput_iff.mpr found

theorem eventTarget {scope : Scope} {target : Target}
    (found : (endpointsOf registry small).eventTarget scope terminus = .ok target) :
    (endpointsOf registry large).eventTarget scope terminus = .ok (target.rename node) := by
  cases target with
  | node index input =>
      rw [Endpoints.eventTarget_eq_node_iff] at found
      exact Endpoints.eventTarget_eq_node_iff.mpr ⟨found.1, sits.plug distinct found.2⟩
  | graphOutput id =>
      rw [Endpoints.eventTarget_eq_graphOutput_iff, ← sits.graphOutput] at found
      exact Endpoints.eventTarget_eq_graphOutput_iff.mpr found

/-- A connection becomes the same wire between the new positions. -/
theorem wire {connection : Connection} {wire : Wire}
    (found : (endpointsOf registry small).wire connection = .ok wire) :
    (endpointsOf registry large).wire connection = .ok (wire.rename node) := by
  cases wire with
  | value source sink =>
      rcases Endpoints.wire_eq_value_iff.mp found with
        ⟨sourceSide, sinkSide, isValue, sourceFound, sinkFound⟩
      exact Endpoints.wire_eq_value_iff.mpr ⟨sourceSide, sinkSide, isValue,
        sits.valueSource distinct sourceFound, sits.valueSink distinct sinkFound⟩
  | event source target =>
      rcases Endpoints.wire_eq_event_iff.mp found with
        ⟨sourceSide, targetSide, isEvent, sourceFound, targetFound⟩
      exact Endpoints.wire_eq_event_iff.mpr ⟨sourceSide, targetSide, isEvent,
        sits.eventSource distinct sourceFound, sits.eventTarget distinct targetFound⟩

end

/-! ## Sources -/

section
variable {wires largeWires : List Wire} {order largeOrder : List Nat}
  (wired : Wired (endpointsOf registry small) wires order)
  (largeWired : Wired (endpointsOf registry large) largeWires largeOrder)
include wired largeWired

theorem mem_wires {wire : Wire} (listed : wire ∈ wires) : wire.rename node ∈ largeWires := by
  rcases Endpoints.exists_connection_of_mem wired.looked listed with ⟨connection, member, found⟩
  rcases Endpoints.exists_wire_of_mem largeWired.looked (sits.connections member) with
    ⟨other, otherListed, otherFound⟩
  rw [sits.wire largeWired.idsDistinct found, Except.ok.injEq] at otherFound
  rwa [otherFound]

/-- A wire that leads to a node or an output of the smaller prototype is one of its
wires. -/
theorem exists_of_mem_wires {source : ValueSource} {sink : ValueSink} {other : ValueSink}
    (listed : .value source other ∈ largeWires) (same : (other == sink.rename node) = true) :
    ∃ start stop, .value start stop ∈ wires ∧ source = start.rename node ∧
      (stop == sink) = true := by
  rcases Endpoints.exists_connection_of_mem largeWired.looked listed with
    ⟨connection, member, found⟩
  rcases sits.others connection member with here | ⟨-, onNode, elsewhere⟩
  · rcases Endpoints.exists_wire_of_mem wired.looked here with ⟨wire, wireListed, wireFound⟩
    have renamed := sits.wire largeWired.idsDistinct wireFound
    rw [found, Except.ok.injEq] at renamed
    cases wire with
    | event start target => cases renamed
    | value start stop =>
        rcases (Wire.value.injEq ..).mp renamed with ⟨rfl, rfl⟩
        rw [ValueSink.rename_beq_rename sits.injective] at same
        exact ⟨start, stop, wireListed, rfl, same⟩
  · have sinkFound := (Endpoints.wire_eq_value_iff.mp found).2.2.2.2
    rcases Endpoints.valueSink_cases sinkFound with
      ⟨index, plug, -, rfl, located⟩ | ⟨id, onGraph, -⟩
    · cases sink with
      | graphOutput id => cases same
      | nodeInput position plug =>
          rw [ValueSink.rename, ValueSink.beq_nodeInput_iff] at same
          cases same
          rcases (position?_eq_some_iff largeWired.idsDistinct).mp
            (Endpoints.plug_eq_ok_iff.mp located).1 with ⟨placed, listedThere, sameId⟩
          have listedHere := (sits.nodes position).symm.trans listedThere
          exact absurd (List.mem_map.mpr ⟨placed, List.mem_of_getElem? listedHere, sameId⟩)
            elsewhere
    · exact absurd onNode onGraph

/-- The edges that lead to a node of the smaller prototype are its own. -/
theorem mem_edges_iff {source index : Nat} :
    (source, node index) ∈ largeWires.filterMap Wire.edge? ↔
      ∃ start, node start = source ∧ (start, index) ∈ wires.filterMap Wire.edge? := by
  simp only [List.mem_filterMap, Wire.edge?_eq_some_iff]
  constructor
  · intro edge
    rcases edge with ⟨_, listed, output, input, rfl⟩
    have itself : (ValueSink.nodeInput (node index) input ==
        (ValueSink.nodeInput index input).rename node) = true := BEq.rfl
    rcases sits.exists_of_mem_wires wired largeWired listed itself with
      ⟨start, stop, listedHere, moved, same⟩
    rw [ValueSink.beq_nodeInput_iff] at same
    cases start with
    | nodeOutput start output =>
        cases moved
        exact ⟨start, rfl, _, listedHere, output, input, by rw [same]⟩
    | graphInput id | localVariable id => cases moved
  · intro edge
    rcases edge with ⟨start, rfl, _, listed, output, input, rfl⟩
    exact ⟨_, sits.mem_wires wired largeWired listed, output, input, rfl⟩

/-- What the smaller prototype has keeps its source. -/
theorem sourceOf? (sink : ValueSink) :
    Wire.sourceOf? largeWires (sink.rename node) =
      (Wire.sourceOf? wires sink).map (ValueSource.rename node) := by
  cases found : Wire.sourceOf? wires sink with
  | some source =>
      rcases Wire.mem_of_sourceOf?_eq_some found with ⟨other, listed, same⟩
      have renamed := Wire.sourceOf?_of_mem largeWired.apart
        (sits.mem_wires wired largeWired listed)
      rw [← ValueSink.rename_beq_rename sits.injective] at same
      rw [Option.map_some, ← renamed]
      exact Wire.sourceOf?_congr (BEq.symm same)
  | none =>
      cases largeFound : Wire.sourceOf? largeWires (sink.rename node) with
      | none => rfl
      | some source =>
          rcases Wire.mem_of_sourceOf?_eq_some largeFound with ⟨other, listed, same⟩
          rcases sits.exists_of_mem_wires wired largeWired listed same with
            ⟨start, stop, listedHere, -, sameHere⟩
          have present := Wire.sourceOf?_isSome_iff.mpr ⟨_, listedHere, stop, rfl, sameHere⟩
          rw [found] at present
          cases present

end

/-! ## Places -/

theorem sinkAt? (place : Place) :
    Assembly.sinkAt? (endpointsOf registry large) (place.rename node) =
      (Assembly.sinkAt? (endpointsOf registry small) place).map (ValueSink.rename node) := by
  cases place with
  | graphOutput position =>
      show large.outputs[position]?.map _ = (small.outputs[position]?.map _).map _
      rw [sits.outputs, Option.map_map]
      rfl
  | graphInput position | localVariable position | nodeOutput index plug | nodeInput index plug =>
      rfl

theorem placeOf? (source : ValueSource) :
    Assembly.placeOf? (endpointsOf registry large) (source.rename node) =
      (Assembly.placeOf? (endpointsOf registry small) source).map (Place.rename node) := by
  cases source with
  | nodeOutput index plug => rfl
  | graphInput id =>
      show (Circuit.lastSlot? (Assembly.number 0 large.inputs) id).map _ =
        ((Circuit.lastSlot? (Assembly.number 0 small.inputs) id).map _).map _
      rw [sits.inputs, Option.map_map]
      rfl
  | localVariable id =>
      show (Circuit.lastSlot? (Assembly.number 0 large.locals) id).map _ =
        ((Circuit.lastSlot? (Assembly.number 0 small.locals) id).map _).map _
      rw [sits.locals, Option.map_map]
      rfl

/-- What a place rests at does not depend on where its node stands. -/
theorem atRest (place : Place) :
    Assembly.atRest (endpointsOf registry large) (place.rename node) =
      Assembly.atRest (endpointsOf registry small) place := by
  cases place with
  | graphInput position =>
      show large.inputs[position]?.map _ = small.inputs[position]?.map _
      rw [sits.inputs]
  | localVariable position =>
      show large.locals[position]?.map _ = small.locals[position]?.map _
      rw [sits.locals]
  | graphOutput position =>
      show large.outputs[position]?.map _ = small.outputs[position]?.map _
      rw [sits.outputs]
  | nodeOutput index plug =>
      simp only [Place.rename, Assembly.atRest, sits.layouts]
  | nodeInput index plug =>
      simp only [Place.rename, Assembly.atRest, sits.layouts]
      show large.nodes[node index]?.bind _ = small.nodes[index]?.bind _
      rw [sits.nodes]

section
variable {wires largeWires : List Wire} {order largeOrder : List Nat}
  (wired : Wired (endpointsOf registry small) wires order)
  (largeWired : Wired (endpointsOf registry large) largeWires largeOrder)
include wired largeWired

theorem sourceAt? (place : Place) :
    Assembly.sourceAt? (endpointsOf registry large) largeWires (place.rename node) =
      (Assembly.sourceAt? (endpointsOf registry small) wires place).map
        (ValueSource.rename node) := by
  rw [Assembly.sourceAt?, Assembly.sourceAt?, sits.sinkAt?]
  cases Assembly.sinkAt? (endpointsOf registry small) place with
  | none => rfl
  | some sink => exact sits.sourceOf? wired largeWired sink

/-- What a place holds comes from the same place as before. -/
theorem origin (place : Place) :
    Assembly.origin (endpointsOf registry large) largeWires (place.rename node) =
      (Assembly.origin (endpointsOf registry small) wires place).rename node := by
  rw [Assembly.origin, Assembly.origin, sits.sourceAt? wired largeWired]
  cases Assembly.sourceAt? (endpointsOf registry small) wires place with
  | none => rfl
  | some source =>
      rw [Option.map_some, Option.bind_some, Option.bind_some, sits.placeOf?]
      cases Assembly.placeOf? (endpointsOf registry small) source <;> rfl

end

end

end Prototype.SitsIn

/-! ## Circuits -/

/-- A place that lies in the one slot lies in the other slot of the larger
circuit. -/
def Circuit.Meets (node : Nat → Nat) (small large : Circuit) (slot other : Slot) : Prop :=
  ∃ place, small.slotAt? place = some slot ∧ large.slotAt? (place.rename node) = some other

theorem forall₂_of_rel {related : α → β → Prop} {lefts : List α} {rights : List β}
    (all : ∀ index : Nat, Option.Rel related lefts[index]? rights[index]?) :
    List.Forall₂ related lefts rights := by
  induction lefts generalizing rights with
  | nil =>
      cases rights with
      | nil => exact .nil
      | cons right rights => cases all 0
  | cons left lefts induction =>
      cases rights with
      | nil => cases all 0
      | cons right rights =>
          exact .cons (Option.rel_some_some.mp (all 0)) (induction fun index => all (index + 1))

namespace Prototype.SitsIn

variable [Processor κ] {registry : Registry κ} {config : Config} {node : Nat → Nat}
  {small large : Prototype} (sits : small.SitsIn node large)
include sits

section
variable {wires largeWires : List Wire} {order largeOrder : List Nat}
  {circuit largeCircuit : Circuit}
  (equal : circuit = Assembly.circuit config (endpointsOf registry small) wires order)
  (largeEqual :
    largeCircuit = Assembly.circuit config (endpointsOf registry large) largeWires largeOrder)
include equal largeEqual

/-- A place lies somewhere in both circuits or in neither. -/
theorem slotAt? (place : Place) :
    Option.Rel (circuit.Meets node largeCircuit) (circuit.slotAt? place)
      (largeCircuit.slotAt? (place.rename node)) := by
  have same : (circuit.slotAt? place).isSome =
      (largeCircuit.slotAt? (place.rename node)).isSome := by
    rw [equal, largeEqual, Assembly.isSome_slotAt? (endpointsOf_complete registry small),
      Assembly.isSome_slotAt? (endpointsOf_complete registry large), sits.atRest]
  cases found : circuit.slotAt? place <;>
    cases largeFound : largeCircuit.slotAt? (place.rename node) <;>
    rw [found, largeFound] at same
  case none.none => exact .none
  case none.some => cases same
  case some.none => cases same
  case some.some => exact .some ⟨place, found, largeFound⟩

/-- The nodes are placed alike. -/
theorem placements (index : Nat) :
    Option.Rel (Circuit.PlugsMeet (circuit.Meets node largeCircuit)) circuit.placements[index]?
      largeCircuit.placements[node index]? := by
  have ids : (circuit.placements[index]?.map Placement.id).isSome =
      (largeCircuit.placements[node index]?.map Placement.id).isSome := by
    rw [equal, largeEqual, Assembly.circuit_ids (endpointsOf_complete registry small),
      Assembly.circuit_ids (endpointsOf_complete registry large)]
    show _ = (large.nodes[node index]?.map _).isSome
    rw [sits.nodes]
    rfl
  have inputs (plug : Nat) := sits.slotAt? equal largeEqual (.nodeInput index plug)
  have outputs (plug : Nat) := sits.slotAt? equal largeEqual (.nodeOutput index plug)
  simp only [Place.rename, Circuit.slotAt?] at inputs outputs
  cases placed : circuit.placements[index]? <;>
    cases largePlaced : largeCircuit.placements[node index]? <;>
    rw [placed, largePlaced] at ids
  case none.none => exact .none
  case none.some => cases ids
  case some.none => cases ids
  case some.some placement other =>
    rw [Circuit.inputsAt_eq placed, Circuit.inputsAt_eq largePlaced] at inputs
    rw [Circuit.outputsAt_eq placed, Circuit.outputsAt_eq largePlaced] at outputs
    exact .some ⟨forall₂_of_rel inputs, forall₂_of_rel outputs⟩

/-- Entries of tables in the same order with the same names lie alike. -/
theorem namesMeet (place : Nat → Place) {entries others : List (Identifier × Slot)}
    (names : entries.map Prod.fst = others.map Prod.fst)
    (lies : ∀ position, circuit.slotAt? (place position) = entries[position]?.map Prod.snd)
    (liesThere : ∀ position, largeCircuit.slotAt? ((place position).rename node) =
      others[position]?.map Prod.snd) :
    Circuit.NamesMeet (circuit.Meets node largeCircuit) entries others := by
  apply forall₂_of_rel
  intro position
  have slots := sits.slotAt? equal largeEqual (place position)
  have same := congrArg (fun names : List Identifier => names[position]?) names
  simp only [List.getElem?_map] at same
  rw [lies, liesThere] at slots
  cases found : entries[position]? <;> cases otherFound : others[position]? <;>
    rw [found, otherFound] at slots same
  case none.none => exact .none
  case none.some => cases slots
  case some.none => cases slots
  case some.some entry other =>
    exact .some ⟨Option.some.inj same, Option.rel_some_some.mp slots⟩

variable (wired : Wired (endpointsOf registry small) wires order)
  (largeWired : Wired (endpointsOf registry large) largeWires largeOrder)
include wired largeWired

/-- The circuit of a prototype is part of the circuit of a larger one. -/
theorem embeds : circuit.Embeds node (circuit.Meets node largeCircuit) largeCircuit := by
  subst equal largeEqual
  have complete := endpointsOf_complete registry small
  have largeComplete := endpointsOf_complete registry large
  have exist := Assembly.sourcesExist wired.looked
  have largeExist := Assembly.sourcesExist largeWired.looked
  have comes := sits.origin wired largeWired
  exact {
    injective := sits.injective
    unique := by
      intro slot other next nextOther here there
      rcases here with ⟨place, found, foundThere⟩
      rcases there with ⟨nextPlace, nextFound, nextFoundThere⟩
      rw [Assembly.slot_eq_iff_origin_eq complete exist found nextFound,
        Assembly.slot_eq_iff_origin_eq largeComplete largeExist foundThere nextFoundThere, comes,
        comes, (Place.rename_injective sits.injective).eq_iff]
    placements := sits.placements rfl rfl
    written := by
      intro slot other writer here written
      rcases here with ⟨place, found, foundThere⟩
      rcases Circuit.exists_slotAt?_nodeOutput written with ⟨plug, writtenAt⟩
      have start := Assembly.origin_eq_of_slotAt? largeComplete largeExist foundThere writtenAt
      have startHere := Assembly.slotAt?_origin complete exist found
      rw [comes] at start
      cases place' : Assembly.origin (endpointsOf registry small) wires place with
      | nodeOutput index output =>
          rw [place'] at start startHere
          cases start
          exact ⟨index, rfl, List.mem_of_getElem? startHere⟩
      | graphInput position | localVariable position | nodeInput index output
      | graphOutput position =>
          rw [place'] at start
          cases start
    defaults := by
      intro slot other here
      rcases here with ⟨place, found, foundThere⟩
      rw [Assembly.defaults_origin complete exist found,
        Assembly.defaults_origin largeComplete largeExist foundThere, comes, sits.atRest]
    inputs := sits.namesMeet rfl rfl .graphInput
      (congrArg (fun inputs => (Assembly.number 0 inputs).map Prod.fst) sits.inputs.symm)
      (fun _ => rfl) fun _ => rfl
    locals := sits.namesMeet rfl rfl .localVariable
      (by
        show (Assembly.number small.inputs.length small.locals).map Prod.fst =
          (Assembly.number large.inputs.length large.locals).map Prod.fst
        rw [sits.inputs, sits.locals])
      (fun _ => rfl) fun _ => rfl
    outputs := sits.namesMeet rfl rfl .graphOutput
      (by
        rw [Assembly.circuit_outputs, Assembly.circuit_outputs, Assembly.shownSlots_ids,
          Assembly.shownSlots_ids]
        exact congrArg (List.map Endpoint.id) sits.outputs.symm)
      (fun _ => rfl) fun _ => rfl }

end

end Prototype.SitsIn

end NodeGraph
