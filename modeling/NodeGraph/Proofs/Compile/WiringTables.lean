import NodeGraph.Proofs.Compile.Tables

namespace NodeGraph

/-! Wiring by tables. One table keeps for every input plug of every node the slot that it is
bound to, another one for every output of the graph, and the event wires are noted down to be
routed later. Main statement: wiring by tables refuses the connections that are refused
without tables and looks nothing up in vain; otherwise the tables tell of every sink what
the list of wires tells. -/

/-- An event wire that starts on a node, and the terminus where its connection starts. -/
structure NodeRoute where
  terminus : Terminus
  node : Nat
  output : Nat
  target : Target

def NodeRoute.wire (route : NodeRoute) : Wire :=
  .event (.nodeEvent route.node route.output) route.target

/-- Whether a wire carries events from a node. -/
def Wire.leavesNode : Wire → Bool
  | .event (.nodeEvent ..) _ => true
  | _ => false

/-- What is known of the connections wired so far. -/
structure WiringTables where
  /-- For every input plug of every node the slot that it is bound to, if any. -/
  nodeInputs : List (List (Option Slot))
  graphOutputs : List (Identifier × Slot)
  nodeEvents : List NodeRoute
  /-- The event wires that start on inputs of the graph. -/
  entrances : List (Identifier × Target)

namespace WiringTables

def start (layouts : List Layout) : WiringTables :=
  ⟨layouts.map fun layout => List.replicate layout.inputs.length none, [], [], []⟩

/-- Binds a sink to a slot. A plug of a node is named as `terminus` if it is bound
already. -/
def bind (tables : WiringTables) (terminus : Terminus) :
    ValueSink → Slot → Except Stop WiringTables
  | .nodeInput node plug, slot => do
      let row ← trapping (entry tables.nodeInputs node)
      let bound ← trapping (entry row plug)
      if bound.isSome then throw (.refused (.multipleSources terminus))
      else pure { tables with nodeInputs := tables.nodeInputs.set node (row.set plug (some slot)) }
  | .graphOutput id, slot =>
      if (Circuit.lastSlot? tables.graphOutputs id).isSome then
        throw (.refused (.multipleSources ⟨graphNodeId, id⟩))
      else pure { tables with graphOutputs := tables.graphOutputs ++ [(id, slot)] }

def route (tables : WiringTables) (terminus : Terminus) : EventSource → Target → WiringTables
  | .nodeEvent node output, target =>
      { tables with nodeEvents := tables.nodeEvents ++ [⟨terminus, node, output, target⟩] }
  | .graphInput id, target => { tables with entrances := tables.entrances ++ [(id, target)] }

@[simp] theorem route_nodeInputs (tables : WiringTables) (terminus : Terminus)
    (source : EventSource) (target : Target) :
    (tables.route terminus source target).nodeInputs = tables.nodeInputs := by
  cases source <;> rfl

@[simp] theorem route_graphOutputs (tables : WiringTables) (terminus : Terminus)
    (source : EventSource) (target : Target) :
    (tables.route terminus source target).graphOutputs = tables.graphOutputs := by
  cases source <;> rfl

end WiringTables

namespace ByTables

/-- The slot of a source, from the tables of the slots that the graph and its nodes own. -/
def slotOf (endpoints : Endpoints) : ValueSource → Except Trap Slot
  | .nodeOutput node plug => do
      let slots ← entry (Assembly.outputSlots (Assembly.firstNodeSlot endpoints.prototype)
        endpoints.layouts) node
      entry slots plug
  | .graphInput id => present (Circuit.lastSlot? (Assembly.inputSlots endpoints.prototype) id)
  | .localVariable id => present (Circuit.lastSlot? (Assembly.localSlots endpoints.prototype) id)

def connect (endpoints : Endpoints) (tables : WiringTables) (connection : Connection) :
    Except Stop WiringTables := do
  match ← wire endpoints connection with
  | .value source sink =>
      let slot ← trapping (slotOf endpoints source)
      tables.bind connection.destination sink slot
  | .event source target => pure (tables.route connection.source source target)

theorem slotOf_eq (endpoints : Endpoints) (source : ValueSource) :
    slotOf endpoints source = present (Assembly.slotOf? endpoints source) := by
  cases source with
  | nodeOutput node plug =>
      simp only [slotOf, entry, Assembly.slotOf?]
      cases (Assembly.outputSlots (Assembly.firstNodeSlot endpoints.prototype)
        endpoints.layouts)[node]? <;> rfl
  | graphInput id => rfl
  | localVariable id => rfl

end ByTables

/-! ## Tables of input plugs -/

/-- The table of what a function gives for the input plugs of nodes. -/
def inputTable (layouts : List Layout) (value : Nat → Nat → α) : List (List α) :=
  layouts.mapIdx fun node layout => tabulate layout.inputs.length (value node)

section
variable {layouts : List Layout} {value : Nat → Nat → α} {node : Nat} {layout : Layout}

theorem entry_inputTable (located : layouts[node]? = some layout) :
    entry (inputTable layouts value) node = .ok (tabulate layout.inputs.length (value node)) := by
  rw [entry_eq_ok_iff, inputTable, List.getElem?_mapIdx, located]
  rfl

theorem inputTable_set (located : layouts[node]? = some layout) (changed : Nat → α) :
    (inputTable layouts value).set node (tabulate layout.inputs.length changed) =
      inputTable layouts (Function.update value node changed) := by
  apply List.ext_getElem?
  intro other
  rw [List.getElem?_set, inputTable, inputTable, List.getElem?_mapIdx, List.getElem?_mapIdx]
  by_cases same : node = other
  · subst same
    rcases List.getElem?_eq_some_iff.mp located with ⟨bound, rfl⟩
    simp [bound]
  · simp [same, Function.update_of_ne (Ne.symm same)]

end

/-! ## Slots of sinks -/

namespace Assembly

variable {endpoints : Endpoints} {wires : List Wire}

/-- A sink is wired to a slot if a wire ends on it. -/
theorem isSome_wiredSlot? (exist : SourcesExist endpoints wires) (sink : ValueSink) :
    (wiredSlot? endpoints wires sink).isSome = (Wire.sourceOf? wires sink).isSome := by
  unfold wiredSlot?
  cases found : Wire.sourceOf? wires sink with
  | none => rfl
  | some source =>
      rcases Wire.mem_of_sourceOf?_eq_some found with ⟨other, listed, -⟩
      rcases exist source other listed with ⟨slot, located⟩
      rw [Option.bind_some, located]
      rfl

theorem sourceOf?_append (wires others : List Wire) (sink : ValueSink) :
    Wire.sourceOf? (wires ++ others) sink =
      (Wire.sourceOf? wires sink).or (Wire.sourceOf? others sink) :=
  List.findSome?_append

/-- One more wire binds the sink on which it ends, and no other. -/
theorem wiredSlot?_concat {source : ValueSource} {sink : ValueSink} {slot : Slot}
    (free : Wire.sourceOf? wires sink = none) (located : slotOf? endpoints source = some slot)
    (other : ValueSink) :
    wiredSlot? endpoints (wires ++ [.value source sink]) other =
      if sink == other then some slot else wiredSlot? endpoints wires other := by
  rw [wiredSlot?, sourceOf?_append]
  by_cases same : (sink == other) = true
  · rw [← Wire.sourceOf?_congr same, free, Option.none_or, if_pos same, ← located]
    simp [Wire.sourceOf?, same]
  · simp [Wire.sourceOf?, same, wiredSlot?]

theorem wiredSlot?_concat_event (source : EventSource) (target : Target) (sink : ValueSink) :
    wiredSlot? endpoints (wires ++ [.event source target]) sink =
      wiredSlot? endpoints wires sink := by
  rw [wiredSlot?, sourceOf?_append]
  simp [Wire.sourceOf?, wiredSlot?]

end Assembly

/-! ## Tables that tell of wires -/

/-- The tables tell what a list of wires tells. -/
structure WiringTables.Tell (endpoints : Endpoints) (wires : List Wire) (tables : WiringTables) :
    Prop where
  nodeInputs : tables.nodeInputs = inputTable endpoints.layouts fun node plug =>
    Assembly.wiredSlot? endpoints wires (.nodeInput node plug)
  graphOutputs : ∀ id, Circuit.lastSlot? tables.graphOutputs id =
    Assembly.wiredSlot? endpoints wires (.graphOutput id)
  nodeEvents : tables.nodeEvents.map NodeRoute.wire = wires.filter Wire.leavesNode
  entrances : tables.entrances = Assembly.entrances wires
  sources : Assembly.SourcesExist endpoints wires

/-- The wire of a connection put behind others. -/
def wireNext (wires : List Wire) (connection : Connection) (wire : Wire) :
    Except CompileError (List Wire) := do
  Endpoints.checkSink wires connection wire
  pure (wires ++ [wire])

/-- Wiring by tables set against wiring without: both refuse for the same fault, or the
tables tell of the wires. -/
inductive Follows (endpoints : Endpoints) :
    Except CompileError (List Wire) → Except Stop WiringTables → Prop where
  | refused (error : CompileError) : Follows endpoints (.error error) (.error (.refused error))
  | wired {wires : List Wire} {tables : WiringTables} (tell : tables.Tell endpoints wires) :
      Follows endpoints (.ok wires) (.ok tables)

namespace WiringTables.Tell

variable {endpoints : Endpoints} {wires : List Wire} {tables : WiringTables}

theorem start (endpoints : Endpoints) :
    (WiringTables.start endpoints.layouts).Tell endpoints [] where
  nodeInputs := by
    apply List.ext_getElem?
    intro node
    rw [inputTable, List.getElem?_mapIdx, WiringTables.start, List.getElem?_map]
    simp only [replicate_eq_tabulate]
    rfl
  graphOutputs _ := rfl
  nodeEvents := rfl
  entrances := rfl
  sources _ _ listed := absurd listed List.not_mem_nil

theorem route (tell : tables.Tell endpoints wires) (terminus : Terminus) (source : EventSource)
    (target : Target) :
    (tables.route terminus source target).Tell endpoints (wires ++ [.event source target]) where
  nodeInputs := by
    simp only [route_nodeInputs, Assembly.wiredSlot?_concat_event]
    exact tell.nodeInputs
  graphOutputs id := by
    rw [route_graphOutputs, Assembly.wiredSlot?_concat_event, tell.graphOutputs]
  nodeEvents := by
    cases source with
    | nodeEvent node output =>
        simp [WiringTables.route, tell.nodeEvents, NodeRoute.wire, List.filter_cons,
          Wire.leavesNode]
    | graphInput id => simp [WiringTables.route, tell.nodeEvents, Wire.leavesNode]
  entrances := by
    cases source <;> simp [WiringTables.route, tell.entrances, Assembly.entrances]
  sources start sink listed := tell.sources start sink (by simpa using listed)

/-- Tables in which a free sink has been bound tell of one more wire. -/
theorem bound (tell : tables.Tell endpoints wires) {source : ValueSource} {sink : ValueSink}
    {slot : Slot} (free : Wire.sourceOf? wires sink = none)
    (located : Assembly.slotOf? endpoints source = some slot)
    {nodeInputs : List (List (Option Slot))} {graphOutputs : List (Identifier × Slot)}
    (inputsBound : nodeInputs = inputTable endpoints.layouts fun node plug =>
      if sink == .nodeInput node plug then some slot
      else Assembly.wiredSlot? endpoints wires (.nodeInput node plug))
    (outputsBound : ∀ id, Circuit.lastSlot? graphOutputs id =
      if sink == .graphOutput id then some slot
      else Assembly.wiredSlot? endpoints wires (.graphOutput id)) :
    WiringTables.Tell endpoints (wires ++ [.value source sink])
      { tables with nodeInputs, graphOutputs } where
  nodeInputs := by
    simp only [Assembly.wiredSlot?_concat free located]
    exact inputsBound
  graphOutputs id := by
    rw [Assembly.wiredSlot?_concat free located]
    exact outputsBound id
  nodeEvents := by simp [tell.nodeEvents, Wire.leavesNode]
  entrances := by simp [tell.entrances, Assembly.entrances]
  sources start end_ listed := by
    rcases List.mem_append.mp listed with earlier | last
    · exact tell.sources start end_ earlier
    · cases List.mem_singleton.mp last
      exact ⟨slot, located⟩

/-- An input plug that is free is bound, one that is bound already is refused. -/
theorem bind_nodeInput (tell : tables.Tell endpoints wires) (connection : Connection)
    {source : ValueSource} {node plug : Nat} {slot : Slot} {layout : Layout}
    (located : Assembly.slotOf? endpoints source = some slot)
    (found : endpoints.layouts[node]? = some layout) (within : plug < layout.inputs.length) :
    Follows endpoints (wireNext wires connection (.value source (.nodeInput node plug)))
      (tables.bind connection.destination (.nodeInput node plug) slot) := by
  rw [WiringTables.bind, tell.nodeInputs, entry_inputTable found, trapping_ok, ok_bind,
    entry_tabulate _ within, trapping_ok, ok_bind, Assembly.isSome_wiredSlot? tell.sources]
  simp only [wireNext, Endpoints.checkSink, Wire.sink?]
  by_cases taken : (Wire.sourceOf? wires (.nodeInput node plug)).isSome = true
  · rw [if_pos taken, if_pos taken]
    exact .refused _
  · rw [if_neg taken, if_neg taken]
    refine .wired (tell.bound (Option.not_isSome_iff_eq_none.mp taken) located ?_ ?_)
    · simp only [tabulate_set, inputTable_set found]
      congr 1
      funext otherNode otherPlug
      by_cases sameNode : otherNode = node
      · subst sameNode
        by_cases samePlug : otherPlug = plug
        · simp [samePlug]
        · simp [samePlug, Ne.symm samePlug]
      · simp [Function.update_of_ne sameNode, Ne.symm sameNode]
    · exact tell.graphOutputs

theorem bind_graphOutput (tell : tables.Tell endpoints wires) (connection : Connection)
    {source : ValueSource} {slot : Slot} (id : Identifier)
    (located : Assembly.slotOf? endpoints source = some slot) :
    Follows endpoints (wireNext wires connection (.value source (.graphOutput id)))
      (tables.bind connection.destination (.graphOutput id) slot) := by
  rw [WiringTables.bind, tell.graphOutputs, Assembly.isSome_wiredSlot? tell.sources]
  simp only [wireNext, Endpoints.checkSink, Wire.sink?]
  by_cases taken : (Wire.sourceOf? wires (.graphOutput id)).isSome = true
  · rw [if_pos taken, if_pos taken]
    exact .refused _
  · rw [if_neg taken, if_neg taken]
    refine .wired (tell.bound (Option.not_isSome_iff_eq_none.mp taken) located tell.nodeInputs ?_)
    intro other
    rw [← tell.graphOutputs, Circuit.lastSlot?, List.reverse_concat, List.find?_cons,
      ValueSink.graphOutput_beq_graphOutput]
    by_cases same : (id == other) = true
    · simp [same]
    · simp [same, Circuit.lastSlot?]

end WiringTables.Tell

/-! ## Connections -/

namespace ByTables

variable {endpoints : Endpoints} {wires : List Wire} {tables : WiringTables}

/-- One connection is wired by tables as it is without. -/
theorem connect_follows
    (complete : endpoints.layouts.length = endpoints.prototype.nodes.length)
    (tell : tables.Tell endpoints wires) (connection : Connection) :
    Follows endpoints (endpoints.wire connection >>= wireNext wires connection)
      (connect endpoints tables connection) := by
  rw [connect, wire_eq complete]
  cases looked : endpoints.wire connection with
  | error error => exact .refused error
  | ok wire =>
      rw [refusing_ok, ok_bind, ok_bind]
      cases wire with
      | event source target => exact .wired (tell.route connection.source source target)
      | value source sink =>
          rcases Endpoints.wire_eq_value_iff.mp looked with ⟨-, -, -, sourceFound, sinkFound⟩
          rcases Assembly.exists_slotOf? sourceFound with ⟨slot, located⟩
          simp only [slotOf_eq, present_eq_ok_iff.mpr located, trapping_ok, ok_bind]
          cases sink with
          | nodeInput node plug =>
              rcases Endpoints.valueSink_bounded sinkFound with ⟨layout, found, bound⟩
              exact tell.bind_nodeInput connection located found bound
          | graphOutput id => exact tell.bind_graphOutput connection id located

theorem wireAll_cons (connection : Connection) (connections : List Connection) :
    (endpoints.wireAll wires (connection :: connections)).outcome =
      ((endpoints.wire connection >>= wireNext wires connection) >>= fun wired =>
        (endpoints.wireAll wired connections).outcome) := by
  simp only [Endpoints.wireAll, Compilation.outcome_bind, Compilation.outcome_ofExcept,
    Compilation.outcome_note, wireNext, bind_assoc, pure_bind, ok_bind]

/-- All connections are wired by tables as they are without. -/
theorem connectAll_follows
    (complete : endpoints.layouts.length = endpoints.prototype.nodes.length)
    (tell : tables.Tell endpoints wires) (connections : List Connection) :
    Follows endpoints (endpoints.wireAll wires connections).outcome
      (connections.foldlM (connect endpoints) tables) := by
  induction connections generalizing wires tables with
  | nil => exact .wired tell
  | cons connection connections induction =>
      have first := connect_follows complete tell connection
      rw [wireAll_cons, List.foldlM_cons]
      generalize endpoints.wire connection >>= wireNext wires connection = reference at first
      generalize connect endpoints tables connection = outcome at first
      cases first with
      | refused error => exact .refused error
      | wired tell => exact induction tell

end ByTables

end NodeGraph
