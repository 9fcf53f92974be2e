import NodeGraph.Proofs.Compile.Allocation

namespace NodeGraph

/-! Where the places of a graph lie. A place is an input or an output of the
graph, a local variable, or a plug of a node, and lies in one slot. Main
statements: a place that a wire ends on lies where the wire starts, any other
place lies apart from all others, and holds at first what it holds without
wires. -/

/-- A place that holds a value, by its position. -/
inductive Place where
  | graphInput (position : Nat)
  | localVariable (position : Nat)
  | nodeOutput (node plug : Nat)
  | nodeInput (node plug : Nat)
  | graphOutput (position : Nat)
  deriving DecidableEq, Repr

/-- The slot in which a place lies. -/
def Circuit.slotAt? (circuit : Circuit) : Place → Option Slot
  | .graphInput position => circuit.inputs[position]?.map Prod.snd
  | .localVariable position => circuit.locals[position]?.map Prod.snd
  | .nodeOutput node plug => (circuit.outputsAt node)[plug]?
  | .nodeInput node plug => (circuit.inputsAt node)[plug]?
  | .graphOutput position => circuit.outputs[position]?.map Prod.snd

namespace Circuit

variable {circuit : Circuit} {entry : Identifier × Slot}

theorem exists_slotAt?_graphInput (listed : entry ∈ circuit.inputs) :
    ∃ position, circuit.slotAt? (.graphInput position) = some entry.2 := by
  rcases List.mem_iff_getElem?.mp listed with ⟨position, found⟩
  exact ⟨position, by rw [slotAt?, found, Option.map_some]⟩

theorem exists_slotAt?_localVariable (listed : entry ∈ circuit.locals) :
    ∃ position, circuit.slotAt? (.localVariable position) = some entry.2 := by
  rcases List.mem_iff_getElem?.mp listed with ⟨position, found⟩
  exact ⟨position, by rw [slotAt?, found, Option.map_some]⟩

theorem exists_slotAt?_nodeOutput {writer slot : Nat} (written : slot ∈ circuit.outputsAt writer) :
    ∃ plug, circuit.slotAt? (.nodeOutput writer plug) = some slot :=
  List.mem_iff_getElem?.mp written

end Circuit

namespace Assembly

/-! ## Places in an assembled circuit -/

section
variable {config : Config} {endpoints : Endpoints} {wires : List Wire} {order : List Nat}

/-- The slots that the nodes of an assembled circuit read. -/
abbrev readRow (endpoints : Endpoints) (wires : List Wire) : Allocation (List (List Slot)) :=
  nodeSlots (wiredSlot? endpoints wires) 0 (endpoints.prototype.nodes.zip endpoints.layouts)
    (ownedValues endpoints).toArray

/-- The slots that the outputs of an assembled circuit show. -/
abbrev shownRow (endpoints : Endpoints) (wires : List Wire) :
    Allocation (List (Identifier × Slot)) :=
  shownSlots (wiredSlot? endpoints wires) endpoints.prototype.outputs
    (readRow endpoints wires).values

theorem circuit_outputs :
    (circuit config endpoints wires order).outputs = (shownRow endpoints wires).slots := rfl

theorem circuit_defaults :
    (circuit config endpoints wires order).defaults = (shownRow endpoints wires).values := rfl

theorem number_getElem? (first : Slot) (declared : List Endpoint) (position : Nat) :
    (number first declared)[position]? =
      declared[position]?.map fun endpoint => (endpoint.id, first + position) := by
  induction declared generalizing first position with
  | nil => rfl
  | cons endpoint declared induction =>
      cases position with
      | zero => rfl
      | succ position =>
          simp only [number, List.getElem?_cons_succ, induction]
          rw [Nat.add_assoc, Nat.add_comm 1]

theorem slotAt?_graphInput_iff {position slot : Nat} :
    (circuit config endpoints wires order).slotAt? (.graphInput position) = some slot ↔
      position < endpoints.prototype.inputs.length ∧ slot = position := by
  show ((number 0 endpoints.prototype.inputs)[position]?.map Prod.snd) = some slot ↔ _
  rw [number_getElem?]
  by_cases bound : position < endpoints.prototype.inputs.length <;>
    simp [bound, eq_comm]

theorem slotAt?_localVariable_iff {position slot : Nat} :
    (circuit config endpoints wires order).slotAt? (.localVariable position) = some slot ↔
      position < endpoints.prototype.locals.length ∧
        slot = endpoints.prototype.inputs.length + position := by
  show ((number endpoints.prototype.inputs.length endpoints.prototype.locals)[position]?.map
    Prod.snd) = some slot ↔ _
  rw [number_getElem?]
  by_cases bound : position < endpoints.prototype.locals.length <;>
    simp [bound, eq_comm]

theorem slotAt?_nodeOutput_iff {node plug : Nat} {slot : Slot}
    (complete : endpoints.layouts.length = endpoints.prototype.nodes.length) :
    (circuit config endpoints wires order).slotAt? (.nodeOutput node plug) = some slot ↔
      slotOf? endpoints (.nodeOutput node plug) = some slot := by
  show ((circuit config endpoints wires order).outputsAt node)[plug]? = _ ↔
    ((outputSlots _ _)[node]?.bind _) = _
  by_cases bound : node < endpoints.layouts.length
  · rcases exists_placement config wires order complete bound with ⟨placement, placed⟩
    rw [Circuit.outputsAt_eq placed, (placement_eq_some placed).2]
    rfl
  · have absent : (circuit config endpoints wires order).placements[node]? = none := by
      rw [Array.getElem?_eq_none_iff, circuit_size complete, ← complete]
      exact Nat.not_lt.mp bound
    have noSlots : (outputSlots (firstNodeSlot endpoints.prototype) endpoints.layouts)[node]? =
        none := by
      rw [List.getElem?_eq_none_iff, outputSlots_length]
      exact Nat.not_lt.mp bound
    simp [Circuit.outputsAt, absent, noSlots]

theorem slotAt?_nodeInput_iff {node plug : Nat} {slot : Slot}
    (complete : endpoints.layouts.length = endpoints.prototype.nodes.length) :
    (circuit config endpoints wires order).slotAt? (.nodeInput node plug) = some slot ↔
      ∃ slots, (readRow endpoints wires).slots[node]? = some slots ∧ slots[plug]? = some slot := by
  show ((circuit config endpoints wires order).inputsAt node)[plug]? = _ ↔ _
  by_cases bound : node < endpoints.layouts.length
  · rcases exists_placement config wires order complete bound with ⟨placement, placed⟩
    rw [Circuit.inputsAt_eq placed, (placement_eq_some placed).1]
    simp
  · have absent : (circuit config endpoints wires order).placements[node]? = none := by
      rw [Array.getElem?_eq_none_iff, circuit_size complete, ← complete]
      exact Nat.not_lt.mp bound
    have noSlots : (readRow endpoints wires).slots[node]? = none := by
      rw [List.getElem?_eq_none_iff, nodeSlots_length, List.length_zip, ← complete, Nat.min_self]
      exact Nat.not_lt.mp bound
    simp [Circuit.inputsAt, absent, noSlots]

theorem slotAt?_graphOutput_iff {position : Nat} {slot : Slot} :
    (circuit config endpoints wires order).slotAt? (.graphOutput position) = some slot ↔
      ∃ endpoint, endpoints.prototype.outputs[position]? = some endpoint ∧
        (shownRow endpoints wires).slots[position]? = some (endpoint.id, slot) := by
  have ids : ((shownRow endpoints wires).slots[position]?.map Prod.fst) =
      endpoints.prototype.outputs[position]?.map Endpoint.id := by
    rw [← List.getElem?_map, shownSlots_ids, List.getElem?_map]
  show ((shownRow endpoints wires).slots[position]?.map Prod.snd) = some slot ↔ _
  cases shown : (shownRow endpoints wires).slots[position]? with
  | none => simp
  | some entry =>
      rw [shown, Option.map_some, eq_comm, Option.map_eq_some_iff] at ids
      rcases ids with ⟨endpoint, listed, same⟩
      rcases entry with ⟨id, other⟩
      simp only at same
      subst same
      simp [listed]

/-- What a place holds if no wire ends on it. -/
def atRest (endpoints : Endpoints) : Place → Option Value
  | .graphInput position => endpoints.prototype.inputs[position]?.map Endpoint.default
  | .localVariable position => endpoints.prototype.locals[position]?.map Endpoint.default
  | .nodeOutput node plug =>
      (endpoints.layouts[node]?.bind fun layout => layout.outputs[plug]?).map Endpoint.default
  | .nodeInput node plug =>
      endpoints.prototype.nodes[node]?.bind fun placed =>
        (endpoints.layouts[node]?.bind fun layout => layout.inputs[plug]?).map
          (restingValue placed.overrides)
  | .graphOutput position => endpoints.prototype.outputs[position]?.map Endpoint.default

theorem exists_slotOf?_nodeOutput {node plug : Nat} {layout : Layout}
    (located : endpoints.layouts[node]? = some layout) (bound : plug < layout.outputs.length) :
    ∃ slot, slotOf? endpoints (.nodeOutput node plug) = some slot := by
  have rowBound := (List.getElem?_eq_some_iff.mp located).1
  rw [← outputSlots_length (firstNodeSlot endpoints.prototype)] at rowBound
  have row := List.getElem?_eq_getElem rowBound
  rw [← outputSlots_width row located] at bound
  exact ⟨_, Option.bind_eq_some_iff.mpr ⟨_, row, List.getElem?_eq_getElem bound⟩⟩

/-- A place that holds something lies somewhere. -/
theorem exists_slotAt? (complete : endpoints.layouts.length = endpoints.prototype.nodes.length)
    {place : Place} {value : Value} (held : atRest endpoints place = some value) :
    ∃ slot, (circuit config endpoints wires order).slotAt? place = some slot := by
  cases place with
  | graphInput position =>
      rcases Option.map_eq_some_iff.mp held with ⟨endpoint, listed, -⟩
      exact ⟨position, slotAt?_graphInput_iff.mpr ⟨(List.getElem?_eq_some_iff.mp listed).1, rfl⟩⟩
  | localVariable position =>
      rcases Option.map_eq_some_iff.mp held with ⟨endpoint, listed, -⟩
      exact ⟨_, slotAt?_localVariable_iff.mpr ⟨(List.getElem?_eq_some_iff.mp listed).1, rfl⟩⟩
  | nodeOutput node plug =>
      rcases Option.map_eq_some_iff.mp held with ⟨endpoint, declared, -⟩
      rcases Option.bind_eq_some_iff.mp declared with ⟨layout, located, declared⟩
      rcases exists_slotOf?_nodeOutput located (List.getElem?_eq_some_iff.mp declared).1 with
        ⟨slot, found⟩
      exact ⟨slot, (slotAt?_nodeOutput_iff complete).mpr found⟩
  | nodeInput node plug =>
      rcases Option.bind_eq_some_iff.mp held with ⟨placed, listed, held⟩
      rcases Option.map_eq_some_iff.mp held with ⟨endpoint, declared, -⟩
      rcases Option.bind_eq_some_iff.mp declared with ⟨layout, located, declared⟩
      have zipped : (endpoints.prototype.nodes.zip endpoints.layouts)[node]? =
          some (placed, layout) := List.getElem?_zip_eq_some.mpr ⟨listed, located⟩
      have bound := (List.getElem?_eq_some_iff.mp zipped).1
      rw [← nodeSlots_length (wiredSlot? endpoints wires) 0 _ (ownedValues endpoints).toArray]
        at bound
      have row := List.getElem?_eq_getElem bound
      have within := (List.getElem?_eq_some_iff.mp declared).1
      rw [← nodeSlots_width zipped row] at within
      exact ⟨_, (slotAt?_nodeInput_iff complete).mpr ⟨_, row, List.getElem?_eq_getElem within⟩⟩
  | graphOutput position =>
      rcases Option.map_eq_some_iff.mp held with ⟨endpoint, listed, -⟩
      have bound := (List.getElem?_eq_some_iff.mp listed).1
      have ids := shownSlots_ids (wiredSlot? endpoints wires) endpoints.prototype.outputs
        (readRow endpoints wires).values
      have width := congrArg List.length ids
      rw [List.length_map, List.length_map] at width
      have row := List.getElem?_eq_getElem (width ▸ bound)
      exact ⟨_, by rw [Circuit.slotAt?, circuit_outputs, row]; rfl⟩

/-- A place that lies somewhere holds something. -/
theorem exists_atRest (complete : endpoints.layouts.length = endpoints.prototype.nodes.length)
    {place : Place} {slot : Slot}
    (found : (circuit config endpoints wires order).slotAt? place = some slot) :
    ∃ value, atRest endpoints place = some value := by
  cases place with
  | graphInput position =>
      have bound := (slotAt?_graphInput_iff.mp found).1
      exact ⟨_, by rw [atRest, List.getElem?_eq_getElem bound, Option.map_some]⟩
  | localVariable position =>
      have bound := (slotAt?_localVariable_iff.mp found).1
      exact ⟨_, by rw [atRest, List.getElem?_eq_getElem bound, Option.map_some]⟩
  | nodeOutput node plug =>
      rcases Option.bind_eq_some_iff.mp ((slotAt?_nodeOutput_iff complete).mp found) with
        ⟨slots, row, written⟩
      have bound := (List.getElem?_eq_some_iff.mp row).1
      rw [outputSlots_length] at bound
      have located := List.getElem?_eq_getElem bound
      have within := (List.getElem?_eq_some_iff.mp written).1
      rw [outputSlots_width row located] at within
      exact ⟨_, by rw [atRest, located, Option.bind_some, List.getElem?_eq_getElem within,
        Option.map_some]⟩
  | nodeInput node plug =>
      rcases (slotAt?_nodeInput_iff complete).mp found with ⟨slots, row, read⟩
      have bound := (List.getElem?_eq_some_iff.mp row).1
      rw [nodeSlots_length, List.length_zip, complete, Nat.min_self] at bound
      have listed := List.getElem?_eq_getElem bound
      have located := List.getElem?_eq_getElem (complete ▸ bound)
      have within := (List.getElem?_eq_some_iff.mp read).1
      rw [nodeSlots_width (List.getElem?_zip_eq_some.mpr ⟨listed, located⟩) row] at within
      exact ⟨_, by rw [atRest, listed, Option.bind_some, located, Option.bind_some,
        List.getElem?_eq_getElem within, Option.map_some]⟩
  | graphOutput position =>
      rcases slotAt?_graphOutput_iff.mp found with ⟨endpoint, listed, -⟩
      exact ⟨_, by rw [atRest, listed, Option.map_some]⟩

theorem isSome_slotAt? (complete : endpoints.layouts.length = endpoints.prototype.nodes.length)
    (place : Place) :
    ((circuit config endpoints wires order).slotAt? place).isSome =
      (atRest endpoints place).isSome := by
  rw [Bool.eq_iff_iff, Option.isSome_iff_exists, Option.isSome_iff_exists]
  constructor
  · intro lies
    rcases lies with ⟨slot, found⟩
    exact exists_atRest complete found
  · intro holds
    rcases holds with ⟨value, held⟩
    exact exists_slotAt? complete held

/-! ## What places hold -/

/-- The slots of the outputs of nodes hold at first what the plugs are declared
with, given a row of values before them. -/
theorem outputSlots_value {before : List Value} {layouts : List Layout} {node plug : Nat}
    {slots : List Slot} {slot : Nat} {layout : Layout}
    (found : (outputSlots before.length layouts)[node]? = some slots)
    (written : slots[plug]? = some slot) (located : layouts[node]? = some layout) :
    (before ++ layouts.flatMap fun layout => layout.outputs.map Endpoint.default)[slot]? =
      layout.outputs[plug]?.map Endpoint.default := by
  induction layouts generalizing before node with
  | nil => simp at located
  | cons first layouts induction =>
      cases node with
      | zero =>
          simp only [outputSlots, List.getElem?_cons_zero, Option.some.injEq] at found located
          subst found located
          rcases List.getElem?_eq_some_iff.mp written with ⟨bound, equal⟩
          rw [List.length_range'] at bound
          rw [List.getElem_range', Nat.one_mul] at equal
          subst equal
          rw [List.flatMap_cons, List.getElem?_append_right (Nat.le_add_right _ _),
            Nat.add_sub_cancel_left, List.getElem?_append_left (by simpa using bound),
            List.getElem?_map]
      | succ node =>
          simp only [outputSlots, List.getElem?_cons_succ] at found located
          have width : before.length + first.outputs.length =
              (before ++ first.outputs.map Endpoint.default).length := by simp
          rw [width] at found
          rw [List.flatMap_cons, ← List.append_assoc]
          exact induction found located

theorem defaults_of_owned {slot : Nat} {value : Value}
    (held : (ownedValues endpoints)[slot]? = some value) :
    (circuit config endpoints wires order).defaults[slot]? = some value := by
  have row : (ownedValues endpoints).toArray[slot]? = some value := by simpa using held
  exact getElem?_of_extends defaults_extend row

/-- What a wire may end on at a place. -/
def sinkAt? (endpoints : Endpoints) : Place → Option ValueSink
  | .nodeInput node plug => some (.nodeInput node plug)
  | .graphOutput position =>
      endpoints.prototype.outputs[position]?.map fun output => .graphOutput output.id
  | .graphInput _ | .localVariable _ | .nodeOutput .. => none

/-- The source of the wire that ends on a place. -/
def sourceAt? (endpoints : Endpoints) (wires : List Wire) (place : Place) : Option ValueSource :=
  (sinkAt? endpoints place).bind (Wire.sourceOf? wires)

theorem wiredSlot?_eq_none {place : Place} {sink : ValueSink}
    (unwired : sourceAt? endpoints wires place = none)
    (ends : sinkAt? endpoints place = some sink) : wiredSlot? endpoints wires sink = none := by
  rw [sourceAt?, ends, Option.bind_some] at unwired
  rw [wiredSlot?, unwired, Option.bind_none]

/-- The slot of an output plug rests at the default of the plug. -/
theorem defaults_nodeOutput
    (complete : endpoints.layouts.length = endpoints.prototype.nodes.length)
    {node plug slot : Nat}
    (found : (circuit config endpoints wires order).slotAt? (.nodeOutput node plug) = some slot) :
    (circuit config endpoints wires order).defaults[slot]? =
      atRest endpoints (.nodeOutput node plug) := by
  rcases Option.bind_eq_some_iff.mp ((slotAt?_nodeOutput_iff complete).mp found) with
    ⟨slots, row, written⟩
  have bound := (List.getElem?_eq_some_iff.mp row).1
  rw [outputSlots_length] at bound
  have located := List.getElem?_eq_getElem bound
  have within := (List.getElem?_eq_some_iff.mp written).1
  rw [outputSlots_width row located] at within
  have first : firstNodeSlot endpoints.prototype = (endpoints.prototype.inputs.map
      Endpoint.default ++ endpoints.prototype.locals.map Endpoint.default).length := by
    simp [firstNodeSlot]
  rw [first] at row
  have held := outputSlots_value row written located
  rw [List.getElem?_eq_getElem within] at held
  rw [defaults_of_owned held]
  simp [atRest, located, within]

/-- The slot of an input plug that no wire ends on rests at what its node says. -/
theorem defaults_nodeInput
    (complete : endpoints.layouts.length = endpoints.prototype.nodes.length)
    {node plug slot : Nat}
    (found : (circuit config endpoints wires order).slotAt? (.nodeInput node plug) = some slot)
    (unwired : sourceAt? endpoints wires (.nodeInput node plug) = none) :
    (circuit config endpoints wires order).defaults[slot]? =
      atRest endpoints (.nodeInput node plug) := by
  rcases (slotAt?_nodeInput_iff complete).mp found with ⟨slots, row, read⟩
  have bound := (List.getElem?_eq_some_iff.mp row).1
  rw [nodeSlots_length] at bound
  obtain ⟨⟨placed, layout⟩, zipped⟩ :
      ∃ node_, (endpoints.prototype.nodes.zip endpoints.layouts)[node]? = some node_ :=
    ⟨_, List.getElem?_eq_getElem bound⟩
  rcases List.getElem?_zip_eq_some.mp zipped with ⟨listed, located⟩
  have within := (List.getElem?_eq_some_iff.mp read).1
  rw [nodeSlots_width zipped row] at within
  have free : wiredSlot? endpoints wires (.nodeInput (0 + node) plug) = none := by
    rw [Nat.zero_add]
    exact wiredSlot?_eq_none unwired rfl
  have held := nodeSlots_value zipped (List.getElem?_eq_getElem within) free row read
  rw [circuit_defaults, getElem?_of_extends (shownSlots_extends _ _ _) held]
  simp [atRest, listed, located, List.getElem?_eq_getElem within]

/-- A place that no wire ends on holds at first what it holds at rest. -/
theorem defaults_slotAt? (complete : endpoints.layouts.length = endpoints.prototype.nodes.length)
    {place : Place} {slot : Nat}
    (found : (circuit config endpoints wires order).slotAt? place = some slot)
    (unwired : sourceAt? endpoints wires place = none) :
    (circuit config endpoints wires order).defaults[slot]? = atRest endpoints place := by
  cases place with
  | graphInput position =>
      rcases slotAt?_graphInput_iff.mp found with ⟨bound, rfl⟩
      rw [defaults_input (List.getElem?_eq_getElem bound)]
      simp [atRest, bound]
  | localVariable position =>
      rcases slotAt?_localVariable_iff.mp found with ⟨bound, rfl⟩
      have held : (ownedValues endpoints)[endpoints.prototype.inputs.length + position]? =
          some endpoints.prototype.locals[position].default := by
        rw [ownedValues, List.append_assoc, List.getElem?_append_right (by simp),
          List.getElem?_append_left (by simpa using bound)]
        simp [bound]
      rw [defaults_of_owned held]
      simp [atRest, bound]
  | nodeOutput node plug => exact defaults_nodeOutput complete found
  | nodeInput node plug => exact defaults_nodeInput complete found unwired
  | graphOutput position =>
      rcases slotAt?_graphOutput_iff.mp found with ⟨endpoint, listed, row⟩
      have free : wiredSlot? endpoints wires (.graphOutput endpoint.id) = none :=
        wiredSlot?_eq_none unwired (by rw [sinkAt?, listed, Option.map_some])
      rw [circuit_defaults, shownSlots_value listed free row]
      simp [atRest, listed]

/-! ## Sources -/

/-- The place of a source. -/
def placeOf? (endpoints : Endpoints) : ValueSource → Option Place
  | .nodeOutput node plug => some (.nodeOutput node plug)
  | .graphInput id => (Circuit.lastSlot? (inputSlots endpoints.prototype) id).map .graphInput
  | .localVariable id =>
      (Circuit.lastSlot? (number 0 endpoints.prototype.locals) id).map .localVariable

/-- The place from which a place gets what it holds: the start of the wire that
ends on it, or else the place itself. -/
def origin (endpoints : Endpoints) (wires : List Wire) (place : Place) : Place :=
  ((sourceAt? endpoints wires place).bind (placeOf? endpoints)).getD place

theorem lastSlot?_number_add (first : Slot) (declared : List Endpoint) (id : Identifier) :
    Circuit.lastSlot? (number first declared) id =
      (Circuit.lastSlot? (number 0 declared) id).map (first + ·) := by
  have shifted (start : Slot) : number (first + start) declared =
      (number start declared).map fun entry => (entry.1, first + entry.2) := by
    induction declared generalizing start with
    | nil => rfl
    | cons endpoint declared induction =>
        rw [number, number, Nat.add_assoc, induction]
        rfl
  have row := shifted 0
  rw [Nat.add_zero] at row
  rw [row, Circuit.lastSlot?, Circuit.lastSlot?, ← List.map_reverse, List.find?_map,
    Option.map_map, Option.map_map]
  rfl

/-- A source lies where its place lies. -/
theorem slotAt?_placeOf? (complete : endpoints.layouts.length = endpoints.prototype.nodes.length)
    (source : ValueSource) :
    ((placeOf? endpoints source).bind (circuit config endpoints wires order).slotAt?) =
      slotOf? endpoints source := by
  cases source with
  | nodeOutput node plug => exact Option.ext fun slot => slotAt?_nodeOutput_iff complete
  | graphInput id =>
      simp only [placeOf?, slotOf?]
      cases declared : Circuit.lastSlot? (inputSlots endpoints.prototype) id with
      | none => rfl
      | some position =>
          rcases lastSlot?_mem declared with ⟨other, listed, -⟩
          have bound := (number_bounds listed).2
          rw [Nat.zero_add] at bound
          exact slotAt?_graphInput_iff.mpr ⟨bound, rfl⟩
  | localVariable id =>
      simp only [placeOf?, slotOf?, localSlots,
        lastSlot?_number_add endpoints.prototype.inputs.length]
      cases declared : Circuit.lastSlot? (number 0 endpoints.prototype.locals) id with
      | none => rfl
      | some position =>
          rcases lastSlot?_mem declared with ⟨other, listed, -⟩
          have bound := (number_bounds listed).2
          rw [Nat.zero_add] at bound
          exact slotAt?_localVariable_iff.mpr ⟨bound, rfl⟩

theorem sourceAt?_placeOf? {source : ValueSource} {place : Place}
    (located : placeOf? endpoints source = some place) :
    sourceAt? endpoints wires place = none := by
  cases source with
  | nodeOutput node plug =>
      cases located
      rfl
  | graphInput id | localVariable id =>
      rcases Option.map_eq_some_iff.mp located with ⟨position, -, rfl⟩
      rfl

/-- All sources of wires have slots. -/
def SourcesExist (endpoints : Endpoints) (wires : List Wire) : Prop :=
  ∀ source sink, .value source sink ∈ wires → ∃ slot, slotOf? endpoints source = some slot

theorem exists_placeOf? {source : ValueSource} {slot : Slot}
    (located : slotOf? endpoints source = some slot) :
    ∃ place, placeOf? endpoints source = some place := by
  cases source with
  | nodeOutput node plug => exact ⟨_, rfl⟩
  | graphInput id => exact ⟨_, by rw [placeOf?, show Circuit.lastSlot? _ id = _ from located]; rfl⟩
  | localVariable id =>
      rw [slotOf?, localSlots, lastSlot?_number_add] at located
      rcases Option.map_eq_some_iff.mp located with ⟨position, declared, -⟩
      exact ⟨.localVariable position, by rw [placeOf?, declared]; rfl⟩

theorem origin_cases (exist : SourcesExist endpoints wires) (place : Place) :
    (sourceAt? endpoints wires place = none ∧ origin endpoints wires place = place) ∨
      ∃ source, sourceAt? endpoints wires place = some source ∧
        placeOf? endpoints source = some (origin endpoints wires place) := by
  cases found : sourceAt? endpoints wires place with
  | none => exact .inl ⟨rfl, by simp [origin, found]⟩
  | some source =>
      rcases Option.bind_eq_some_iff.mp found with ⟨sink, -, sourceFound⟩
      rcases Wire.mem_of_sourceOf?_eq_some sourceFound with ⟨other, listed, -⟩
      rcases exist source other listed with ⟨slot, located⟩
      rcases exists_placeOf? located with ⟨start, placed⟩
      exact .inr ⟨source, rfl, by simp [origin, found, placed]⟩

/-- A sink lies in the slot of its source or behind all that are owned. -/
theorem wiredSlot?_of_slotAt? {place : Place} {sink : ValueSink} {slot : Nat}
    (found : (circuit config endpoints wires order).slotAt? place = some slot)
    (ends : sinkAt? endpoints place = some sink) :
    wiredSlot? endpoints wires sink = some slot ∨
      wiredSlot? endpoints wires sink = none ∧ (ownedValues endpoints).length ≤ slot := by
  cases place with
  | nodeInput node plug =>
      cases ends
      exact inputsAt_slot found
  | graphOutput position =>
      rcases slotAt?_graphOutput_iff.mp found with ⟨endpoint, listed, row⟩
      simp only [sinkAt?, listed, Option.map_some, Option.some.injEq] at ends
      subst ends
      refine (shownSlots_slot (List.mem_of_getElem? row)).imp_right (.imp_right ?_)
      refine Nat.le_trans ?_
      simpa using nodeSlots_size (wiredSlot? endpoints wires) 0
        (endpoints.prototype.nodes.zip endpoints.layouts) (ownedValues endpoints).toArray
  | graphInput position | localVariable position | nodeOutput node plug => cases ends

/-- A place that a wire ends on lies where the wire starts. -/
theorem slotOf?_of_sourceAt? (exist : SourcesExist endpoints wires) {place : Place} {slot : Slot}
    {source : ValueSource}
    (found : (circuit config endpoints wires order).slotAt? place = some slot)
    (wired : sourceAt? endpoints wires place = some source) :
    slotOf? endpoints source = some slot := by
  rcases Option.bind_eq_some_iff.mp wired with ⟨sink, ends, sourceFound⟩
  have shared : wiredSlot? endpoints wires sink = slotOf? endpoints source := by
    rw [wiredSlot?, sourceFound, Option.bind_some]
  rw [← shared]
  rcases wiredSlot?_of_slotAt? found ends with wiredHere | ⟨nowhere, -⟩
  · exact wiredHere
  · rcases Wire.mem_of_sourceOf?_eq_some sourceFound with ⟨other, listed, -⟩
    rcases exist source other listed with ⟨elsewhere, owned⟩
    rw [shared, owned] at nowhere
    cases nowhere

/-- A place lies where what it holds comes from. -/
theorem slotAt?_origin (complete : endpoints.layouts.length = endpoints.prototype.nodes.length)
    (exist : SourcesExist endpoints wires) {place : Place} {slot : Slot}
    (found : (circuit config endpoints wires order).slotAt? place = some slot) :
    (circuit config endpoints wires order).slotAt? (origin endpoints wires place) = some slot := by
  rcases origin_cases exist place with ⟨-, same⟩ | ⟨source, wired, start⟩
  · rwa [same]
  · rw [← slotOf?_of_sourceAt? exist found wired, ← slotAt?_placeOf? complete, start,
      Option.bind_some]

/-- Where a value comes from, no wire ends. -/
theorem sourceAt?_origin (exist : SourcesExist endpoints wires) (place : Place) :
    sourceAt? endpoints wires (origin endpoints wires place) = none := by
  rcases origin_cases exist place with ⟨unwired, same⟩ | ⟨source, -, start⟩
  · rwa [same]
  · exact sourceAt?_placeOf? start

/-! ## Places apart

Each kind of place has a region of the row of slots to itself. -/

/-- Where the slots begin and end in which places of a kind lie that no wire ends
on. -/
def region (endpoints : Endpoints) (wires : List Wire) : Place → Nat × Nat
  | .graphInput _ => (0, endpoints.prototype.inputs.length)
  | .localVariable _ =>
      (endpoints.prototype.inputs.length, firstNodeSlot endpoints.prototype)
  | .nodeOutput .. => (firstNodeSlot endpoints.prototype, (ownedValues endpoints).length)
  | .nodeInput .. => ((ownedValues endpoints).length, (readRow endpoints wires).values.size)
  | .graphOutput _ =>
      ((readRow endpoints wires).values.size, (shownRow endpoints wires).values.size)

theorem slotAt?_region (complete : endpoints.layouts.length = endpoints.prototype.nodes.length)
    {place : Place} {slot : Nat}
    (found : (circuit config endpoints wires order).slotAt? place = some slot)
    (unwired : sourceAt? endpoints wires place = none) :
    (region endpoints wires place).1 ≤ slot ∧ slot < (region endpoints wires place).2 := by
  cases place with
  | graphInput position =>
      rcases slotAt?_graphInput_iff.mp found with ⟨bound, rfl⟩
      exact ⟨Nat.zero_le _, bound⟩
  | localVariable position =>
      rcases slotAt?_localVariable_iff.mp found with ⟨bound, rfl⟩
      exact ⟨Nat.le_add_right _ _, Nat.add_lt_add_left bound _⟩
  | nodeOutput node plug => exact outputsAt_bounds (List.mem_of_getElem? found)
  | nodeInput node plug =>
      rcases (slotAt?_nodeInput_iff complete).mp found with ⟨slots, row, read⟩
      rcases wiredSlot?_of_slotAt? found rfl with wired | ⟨-, behind⟩
      · rw [wiredSlot?_eq_none unwired rfl] at wired
        cases wired
      · refine ⟨behind, nodeSlots_bounded (fun sink slot wired => ?_) row
          (List.mem_of_getElem? read)⟩
        simpa using wiredSlot?_bounded wired
  | graphOutput position =>
      rcases slotAt?_graphOutput_iff.mp found with ⟨endpoint, listed, row⟩
      have free : wiredSlot? endpoints wires (.graphOutput endpoint.id) = none :=
        wiredSlot?_eq_none unwired (by rw [sinkAt?, listed, Option.map_some])
      have member : (endpoint.id, slot) ∈ (circuit config endpoints wires order).outputs :=
        List.mem_of_getElem? row
      rcases shownSlots_slot member with wired | ⟨-, behind⟩
      · cases free.symm.trans wired
      · exact ⟨behind, shown_bounded member⟩

/-- Places that no wire ends on lie apart. -/
theorem eq_of_slotAt? (complete : endpoints.layouts.length = endpoints.prototype.nodes.length)
    {left right : Place} {slot : Slot}
    (leftFound : (circuit config endpoints wires order).slotAt? left = some slot)
    (rightFound : (circuit config endpoints wires order).slotAt? right = some slot)
    (leftUnwired : sourceAt? endpoints wires left = none)
    (rightUnwired : sourceAt? endpoints wires right = none) : left = right := by
  have leftWithin := slotAt?_region complete leftFound leftUnwired
  have rightWithin := slotAt?_region complete rightFound rightUnwired
  have inputs : endpoints.prototype.inputs.length ≤ firstNodeSlot endpoints.prototype :=
    Nat.le_add_right _ _
  have owned := ownedValues_length endpoints
  have read : (ownedValues endpoints).length ≤ (readRow endpoints wires).values.size := by
    simpa using nodeSlots_size (wiredSlot? endpoints wires) 0
      (endpoints.prototype.nodes.zip endpoints.layouts) (ownedValues endpoints).toArray
  have wiredBound : ∀ sink slot, wiredSlot? endpoints wires sink = some slot →
      slot < (ownedValues endpoints).length := fun _ _ => wiredSlot?_bounded
  cases left <;> cases right <;> simp only [region] at leftWithin rightWithin
  case graphInput.graphInput left right =>
    rw [(slotAt?_graphInput_iff.mp leftFound).2.symm.trans (slotAt?_graphInput_iff.mp rightFound).2]
  case localVariable.localVariable left right =>
    have same := (slotAt?_localVariable_iff.mp leftFound).2.symm.trans
      (slotAt?_localVariable_iff.mp rightFound).2
    rw [Nat.add_left_cancel same]
  case nodeOutput.nodeOutput left leftPlug right rightPlug =>
    rcases Option.bind_eq_some_iff.mp ((slotAt?_nodeOutput_iff complete).mp leftFound) with
      ⟨leftSlots, leftRow, leftWritten⟩
    rcases Option.bind_eq_some_iff.mp ((slotAt?_nodeOutput_iff complete).mp rightFound) with
      ⟨rightSlots, rightRow, rightWritten⟩
    have sameNode := outputSlots_owner leftRow rightRow (List.mem_of_getElem? leftWritten)
      (List.mem_of_getElem? rightWritten)
    subst sameNode
    rw [leftRow, Option.some.injEq] at rightRow
    subst rightRow
    rw [(List.getElem?_inj (List.getElem?_eq_some_iff.mp leftWritten).1
      (outputSlots_nodup leftRow)).mp (leftWritten.trans rightWritten.symm)]
  case nodeInput.nodeInput left leftPlug right rightPlug =>
    rcases (slotAt?_nodeInput_iff complete).mp leftFound with ⟨leftSlots, leftRow, leftRead⟩
    rcases (slotAt?_nodeInput_iff complete).mp rightFound with ⟨rightSlots, rightRow, rightRead⟩
    have ascend :
        AscendFrom (ownedValues endpoints).length (readRow endpoints wires).slots.flatten :=
      nodeSlots_ascend wiredBound (by simp)
    rcases ascend.rows_inj leftRow rightRow leftRead rightRead leftWithin.1 with
      ⟨sameNode, samePlug⟩
    rw [sameNode, samePlug]
  case graphOutput.graphOutput left right =>
    rcases slotAt?_graphOutput_iff.mp leftFound with ⟨leftEndpoint, -, leftRow⟩
    rcases slotAt?_graphOutput_iff.mp rightFound with ⟨rightEndpoint, -, rightRow⟩
    have ascend : AscendFrom (ownedValues endpoints).length
        ((shownRow endpoints wires).slots.map Prod.snd) := shownSlots_ascend wiredBound read
    have same := ascend.inj (by rw [List.getElem?_map, leftRow]; rfl)
      (by rw [List.getElem?_map, rightRow]; rfl) (read.trans leftWithin.1)
    rw [same]
  all_goals omega

/-- Places that lie in one slot get what they hold from one place. -/
theorem origin_eq_of_slotAt?
    (complete : endpoints.layouts.length = endpoints.prototype.nodes.length)
    (exist : SourcesExist endpoints wires) {left right : Place} {slot : Slot}
    (leftFound : (circuit config endpoints wires order).slotAt? left = some slot)
    (rightFound : (circuit config endpoints wires order).slotAt? right = some slot) :
    origin endpoints wires left = origin endpoints wires right :=
  eq_of_slotAt? complete (slotAt?_origin complete exist leftFound)
    (slotAt?_origin complete exist rightFound) (sourceAt?_origin exist left)
    (sourceAt?_origin exist right)

/-- Places lie in one slot exactly if they get what they hold from one place. -/
theorem slot_eq_iff_origin_eq
    (complete : endpoints.layouts.length = endpoints.prototype.nodes.length)
    (exist : SourcesExist endpoints wires) {left right : Place} {slot other : Slot}
    (leftFound : (circuit config endpoints wires order).slotAt? left = some slot)
    (rightFound : (circuit config endpoints wires order).slotAt? right = some other) :
    slot = other ↔ origin endpoints wires left = origin endpoints wires right := by
  constructor
  · intro same
    subst same
    exact origin_eq_of_slotAt? complete exist leftFound rightFound
  · intro same
    have leftOrigin := slotAt?_origin complete exist leftFound
    rw [same, slotAt?_origin complete exist rightFound, Option.some.injEq] at leftOrigin
    exact leftOrigin.symm

/-- What a slot holds at first is what the place of its origin rests at. -/
theorem defaults_origin (complete : endpoints.layouts.length = endpoints.prototype.nodes.length)
    (exist : SourcesExist endpoints wires) {place : Place} {slot : Slot}
    (found : (circuit config endpoints wires order).slotAt? place = some slot) :
    (circuit config endpoints wires order).defaults[slot]? =
      atRest endpoints (origin endpoints wires place) :=
  defaults_slotAt? complete (slotAt?_origin complete exist found) (sourceAt?_origin exist place)

/-! ## Sources that exist -/

theorem exists_lastSlot?_number (first : Slot) {declared : List Endpoint} {id : Identifier}
    (listed : ∃ endpoint ∈ declared, (endpoint.id == id) = true) :
    ∃ slot, Circuit.lastSlot? (number first declared) id = some slot := by
  induction declared generalizing first with
  | nil => simp at listed
  | cons head declared induction =>
      rw [number, lastSlot?_cons]
      rcases listed with ⟨endpoint, member, same⟩
      rcases List.mem_cons.mp member with rfl | later
      · cases Circuit.lastSlot? (number (first + 1) declared) endpoint.id <;>
          cases Circuit.lastSlot? (number (first + 1) declared) id <;> simp [same]
      · rcases induction (first + 1) ⟨endpoint, later, same⟩ with ⟨slot, found⟩
        exact ⟨slot, by rw [found]; rfl⟩

theorem exists_slotOf? {scope : Scope} {terminus : Terminus} {source : ValueSource}
    (found : endpoints.valueSource scope terminus = .ok source) :
    ∃ slot, slotOf? endpoints source = some slot := by
  cases source with
  | nodeOutput node plug =>
      rcases Endpoints.valueSource_bounded found with ⟨layout, located, bound⟩
      exact exists_slotOf?_nodeOutput located bound
  | graphInput id =>
      exact exists_lastSlot?_number _
        (Endpoints.exists_declared_of_eq_ok (Endpoints.valueSource_eq_graphInput_iff.mp found).2)
  | localVariable id =>
      exact exists_lastSlot?_number _
        (Endpoints.exists_declared_of_eq_ok (Endpoints.valueSource_eq_localVariable_iff.mp found).2)

/-- Wires that have been looked up start at places that exist. -/
theorem sourcesExist {connections : List Connection}
    (looked : endpoints.LooksUp connections wires) : SourcesExist endpoints wires := by
  intro source sink listed
  rcases Endpoints.exists_connection_of_mem looked listed with ⟨connection, -, found⟩
  rcases (Endpoints.wire_eq_ok_iff.mp found).2.2 with
    ⟨-, _, _, -, -, other⟩ | ⟨-, _, _, sourceFound, -, same⟩
  · cases other
  · cases same
    exact exists_slotOf? sourceFound

end

end Assembly

end NodeGraph
