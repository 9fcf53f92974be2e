import NodeGraph.Proofs.Compile.Places
import NodeGraph.Proofs.Compile.Reservation
import NodeGraph.Proofs.Schedule.Counts

namespace NodeGraph

/-! Checking and ordering by tables. A node has its plugs in a table and its place in
another, and whatever is looked up there might be missing. Main statement: it never is, so
looking up ends, checking overrides and ordering nodes by tables finds the faults that are
found without them. -/

/-! ## Ways to stop -/

/-- Why compiling by tables ends without a graph. -/
inductive Stop where
  /-- The prototype is at fault. -/
  | refused (error : CompileError)
  /-- Work with a table went wrong. -/
  | trapped (trap : Trap)
  /-- There is no row for the events of a wire that has been looked up. -/
  | unrouted (terminus : Terminus)
  deriving Repr

/-- A step that can only find a fault. -/
def refusing (outcome : Except CompileError α) : Except Stop α :=
  outcome.mapError .refused

/-- A step that can only go wrong with a table. -/
def trapping (outcome : Except Trap α) : Except Stop α :=
  outcome.mapError .trapped

@[simp] theorem refusing_ok (value : α) : refusing (.ok value) = .ok value := rfl

@[simp] theorem trapping_ok (value : α) : trapping (.ok value) = .ok value := rfl

theorem refusing_bind (first : Except CompileError α) (next : α → Except CompileError β) :
    refusing (first >>= next) = refusing first >>= fun value => refusing (next value) := by
  cases first <;> rfl

/-- What follows a step matters only for what the step can yield. -/
theorem refusing_bind_congr {first : Except CompileError α} {next other : α → Except Stop β}
    (same : ∀ value, first = .ok value → next value = other value) :
    refusing first >>= next = refusing first >>= other := by
  cases first with
  | error error => rfl
  | ok value => exact same value rfl

/-- How a compilation ends for whoever compiles. -/
def stopping (compilation : Compilation α) : Except Stop α :=
  match compilation.result? with
  | none => .error (.trapped .noRoom)
  | some outcome => refusing outcome

@[simp] theorem stopping_ofExcept (outcome : Except CompileError α) :
    stopping (.ofExcept outcome) = refusing outcome := rfl

theorem stopping_eq_ok_iff {compilation : Compilation α} {value : α} :
    stopping compilation = .ok value ↔ compilation.result? = some (.ok value) := by
  unfold stopping
  rcases compilation.result? with _ | _ | _ <;> simp [refusing, Except.mapError]

/-- For lack of room compiling goes wrong, and for nothing else. -/
theorem overflows_of_trapped {compilation : Compilation α} {trap : Trap}
    (wrong : stopping compilation = .error (.trapped trap)) :
    trap = .noRoom ∧ compilation.overflows = true := by
  rcases compilation with ⟨log, overflows, outcome⟩
  cases overflows with
  | true =>
      cases wrong
      exact ⟨rfl, rfl⟩
  | false => cases outcome <;> cases wrong

theorem stopping_ne_unrouted (compilation : Compilation α) (terminus : Terminus) :
    stopping compilation ≠ .error (.unrouted terminus) := by
  unfold stopping
  rcases compilation.result? with _ | _ | _ <;> simp [refusing, Except.mapError]

theorem stopping_eq_refusing {compilation : Compilation α}
    (fits : compilation.overflows = false) :
    stopping compilation = refusing compilation.outcome := by
  simp [stopping, Compilation.result?, fits]

theorem stopping_bind (first : Compilation α) (next : α → Compilation β) :
    stopping (first >>= next) = stopping first >>= fun value => stopping (next value) := by
  unfold stopping
  rw [Compilation.result?_bind]
  rcases first.result? with _ | _ | value <;> rfl

/-- What follows a compilation matters only for what the compilation can yield. -/
theorem stopping_bind_congr {first : Compilation α} {next other : α → Except Stop β}
    (same : ∀ value, first.outcome = .ok value → next value = other value) :
    stopping first >>= next = stopping first >>= other := by
  unfold stopping Compilation.result?
  split
  next => rfl
  next overflows =>
    split at overflows
    · cases overflows
    · cases overflows
      exact refusing_bind_congr same

namespace ByTables

/-! ## Ends of wires -/

/-- The position of a plug, `find` saying where in a layout to look. -/
def plug (endpoints : Endpoints) (find : Layout → Identifier → Option Nat)
    (terminus : Terminus) : Except Stop (Nat × Nat) := do
  let index ← refusing (endpoints.node terminus)
  let layout ← trapping (entry endpoints.layouts index)
  match find layout terminus.endpoint with
  | some plug => pure (index, plug)
  | none => throw (.refused (.dangling terminus))

/-- The end of a wire on a node, found in tables, or on the graph, where `look` finds it. -/
def endOf (endpoints : Endpoints) (find : Layout → Identifier → Option Nat)
    (onNode : Nat → Nat → α) (look : Scope → Terminus → Except CompileError α) (scope : Scope)
    (terminus : Terminus) : Except Stop α :=
  match scope with
  | .node => do
      let (node, position) ← plug endpoints find terminus
      pure (onNode node position)
  | .graph | .localVariable => refusing (look scope terminus)

def valueSource (endpoints : Endpoints) : Scope → Terminus → Except Stop ValueSource :=
  endOf endpoints Layout.outputIndex? .nodeOutput endpoints.valueSource

def valueSink (endpoints : Endpoints) : Scope → Terminus → Except Stop ValueSink :=
  endOf endpoints Layout.inputIndex? .nodeInput endpoints.valueSink

def eventSource (endpoints : Endpoints) : Scope → Terminus → Except Stop EventSource :=
  endOf endpoints Layout.outputEventIndex? .nodeEvent endpoints.eventSource

def eventTarget (endpoints : Endpoints) : Scope → Terminus → Except Stop Target :=
  endOf endpoints Layout.inputEventIndex? .node endpoints.eventTarget

/-- Looks up both ends of a connection, the source first. -/
def wire (endpoints : Endpoints) (connection : Connection) : Except Stop Wire := do
  let kind := connection.kind
  refusing (Endpoints.checkScope kind kind.sourceScope connection.source)
  refusing (Endpoints.checkScope kind kind.destinationScope connection.destination)
  if kind.isEvent then
    let source ← eventSource endpoints kind.sourceScope connection.source
    let target ← eventTarget endpoints kind.destinationScope connection.destination
    pure (.event source target)
  else
    let source ← valueSource endpoints kind.sourceScope connection.source
    let sink ← valueSink endpoints kind.destinationScope connection.destination
    pure (.value source sink)

section
variable {endpoints : Endpoints}

theorem node_lt {terminus : Terminus} {index : Nat} (found : endpoints.node terminus = .ok index) :
    index < endpoints.prototype.nodes.length :=
  Endpoints.position?_lt (Endpoints.node_eq_ok_iff.mp found)

/-- A node that has been found has a layout. -/
theorem plug_eq (complete : endpoints.layouts.length = endpoints.prototype.nodes.length)
    (find : Layout → Identifier → Option Nat) (terminus : Terminus) :
    plug endpoints find terminus = refusing (endpoints.plug find terminus) := by
  unfold plug Endpoints.plug
  rw [refusing_bind]
  apply refusing_bind_congr
  intro index found
  have bound := node_lt found
  rw [← complete] at bound
  rw [entry_eq_ok_iff.mpr (List.getElem?_eq_getElem bound), trapping_ok, ok_bind,
    List.getElem?_eq_getElem bound, Option.bind_some]
  cases find endpoints.layouts[index] terminus.endpoint <;> rfl

theorem endOf_eq (complete : endpoints.layouts.length = endpoints.prototype.nodes.length)
    {find : Layout → Identifier → Option Nat} {onNode : Nat → Nat → α}
    {look : Scope → Terminus → Except CompileError α}
    (onNodes : ∀ terminus, look .node terminus = do
      let (node, position) ← endpoints.plug find terminus
      pure (onNode node position))
    (scope : Scope) (terminus : Terminus) :
    endOf endpoints find onNode look scope terminus = refusing (look scope terminus) := by
  cases scope with
  | node =>
      rw [endOf, plug_eq complete, onNodes, refusing_bind]
      rfl
  | graph => rfl
  | localVariable => rfl

/-- A connection is looked up as it is without tables. -/
theorem wire_eq (complete : endpoints.layouts.length = endpoints.prototype.nodes.length)
    (connection : Connection) :
    wire endpoints connection = refusing (endpoints.wire connection) := by
  have valueSources : valueSource endpoints = fun scope terminus =>
      refusing (endpoints.valueSource scope terminus) :=
    funext₂ (endOf_eq complete fun _ => rfl)
  have valueSinks : valueSink endpoints = fun scope terminus =>
      refusing (endpoints.valueSink scope terminus) :=
    funext₂ (endOf_eq complete fun _ => rfl)
  have eventSources : eventSource endpoints = fun scope terminus =>
      refusing (endpoints.eventSource scope terminus) :=
    funext₂ (endOf_eq complete fun _ => rfl)
  have eventTargets : eventTarget endpoints = fun scope terminus =>
      refusing (endpoints.eventTarget scope terminus) :=
    funext₂ (endOf_eq complete fun _ => rfl)
  unfold wire Endpoints.wire
  rw [valueSources, valueSinks, eventSources, eventTargets]
  simp only [refusing_bind, apply_ite refusing]
  rfl

end

/-! ## Overrides -/

/-- An override names an input plug and has the kind of its default; a void default takes a
value of any kind. -/
def checkOverride (node : NodeId) (layout : Layout) (override : Endpoint) : Except Stop Unit :=
  match layout.inputIndex? override.id with
  | none => throw (.refused (.unknownOverride node override.id))
  | some index => do
      let plug ← trapping (entry layout.inputs index)
      let expected := plug.default.kind
      let found := override.default.kind
      if expected = .void ∨ expected = found then pure ()
      else throw (.refused (.overrideKind node override.id expected found))

def checkOverrides : List (PrototypeNode × Layout) → Except Stop Unit
  | [] => pure ()
  | (node, layout) :: nodes => do
      node.overrides.forM (checkOverride node.id layout)
      checkOverrides nodes

/-- The plug at the position that has been found is the one that bears the name. -/
theorem checkOverride_eq (node : NodeId) (layout : Layout) (override : Endpoint) :
    checkOverride node layout override = refusing (Compile.checkOverride node layout override) := by
  unfold checkOverride Compile.checkOverride
  rw [List.find?_eq_bind_findIdx?_getElem?, ← Layout.inputIndex?]
  cases found : layout.inputIndex? override.id with
  | none => rfl
  | some index =>
      have bound := (List.findIdx?_eq_some_iff_getElem.mp found).1
      have plug := List.getElem?_eq_getElem bound
      simp only [Option.bind_some, plug, entry_eq_ok_iff.mpr plug, trapping_ok, ok_bind]
      split <;> rfl

theorem forM_refusing (check : α → Except CompileError Unit) (items : List α) :
    (items.forM fun item => refusing (check item)) = refusing (items.forM check) := by
  rw [List.forM_eq_forM, List.forM_eq_forM]
  induction items with
  | nil => rfl
  | cons item items induction =>
      rw [List.forM_cons, List.forM_cons, refusing_bind, induction]

theorem checkOverrides_eq (nodes : List (PrototypeNode × Layout)) :
    checkOverrides nodes = refusing (Compile.checkOverrides nodes) := by
  induction nodes with
  | nil => rfl
  | cons placed nodes induction =>
      have each := funext fun override => checkOverride_eq placed.1.id placed.2 override
      rw [checkOverrides, Compile.checkOverrides, refusing_bind, induction, ← forM_refusing, ← each]

/-! ## Order -/

/-- Enters the edge of a value wire between nodes. Any other wire leaves the tables as they
are. -/
def enterEdge (prototype : Prototype) (tables : Schedule.EdgeTables) (connection : Connection) :
    Except Stop Schedule.EdgeTables :=
  if connection.kind = .nodeValueToNode then do
    let source ← refusing (Compile.positionOf prototype connection.source)
    let destination ← refusing (Compile.positionOf prototype connection.destination)
    trapping (tables.add (source, destination))
  else
    pure tables

def order (prototype : Prototype) : Except Stop (List Nat) := do
  let count := prototype.nodes.length
  let tables ← prototype.connections.foldlM (enterEdge prototype) (.empty count)
  match ← trapping (Schedule.orderByTables tables count) with
  | .ok order => pure order
  | .error cycle => do
      let nodes ← trapping (cycle.mapM (entry prototype.nodes))
      throw (.refused (.valueCycle (nodes.map PrototypeNode.id)))

/-- Positions that have been found lie within the tables, so entering the edges of
connections finds what gathering them in a list does. -/
theorem enterEdges_eq (prototype : Prototype) (connections : List Connection)
    (entered : List Schedule.Edge) :
    connections.foldlM (enterEdge prototype) (.of prototype.nodes.length entered) =
      refusing ((Compile.edges prototype connections).map fun edges =>
        .of prototype.nodes.length (entered ++ edges)) := by
  induction connections generalizing entered with
  | nil => rw [Compile.edges, List.foldlM_nil, Except.map, List.append_nil]; rfl
  | cons connection connections induction =>
      rw [List.foldlM_cons, enterEdge, Compile.edges]
      split
      next =>
        cases sourceFound : Compile.positionOf prototype connection.source with
        | error error => rfl
        | ok source =>
            cases destinationFound : Compile.positionOf prototype connection.destination with
            | error error => rfl
            | ok destination =>
                have added : (Schedule.EdgeTables.of prototype.nodes.length entered).add
                    (source, destination) = .ok (.of _ (entered ++ [(source, destination)])) :=
                  Schedule.EdgeTables.add_eq (node_lt sourceFound) (node_lt destinationFound)
                simp only [refusing_ok, ok_bind, added, trapping_ok, induction]
                cases Compile.edges prototype connections with
                | error error => rfl
                | ok edges => simp [Except.map, bind, Except.bind, pure, Except.pure]
      next => exact induction entered

theorem edges_bounded {prototype : Prototype} {connections : List Connection}
    {edges : List Schedule.Edge} (gathered : Compile.edges prototype connections = .ok edges) :
    ∀ edge ∈ edges, edge.1 < prototype.nodes.length ∧ edge.2 < prototype.nodes.length := by
  induction connections generalizing edges with
  | nil =>
      cases gathered
      exact fun edge listed => absurd listed List.not_mem_nil
  | cons connection connections induction =>
      rw [Compile.edges] at gathered
      split at gathered
      next =>
        simp only [except_bind_eq_ok_iff] at gathered
        rcases gathered with
          ⟨source, sourceFound, destination, destinationFound, others, rest, whole⟩
        cases whole
        intro edge listed
        rcases List.mem_cons.mp listed with rfl | later
        · exact ⟨node_lt sourceFound, node_lt destinationFound⟩
        · exact induction rest edge later
      next => exact induction gathered

theorem mapM_entry (table : List α) (positions : List Nat)
    (bounded : ∀ position ∈ positions, position < table.length) :
    positions.mapM (entry table) = .ok (positions.filterMap fun position => table[position]?) := by
  induction positions with
  | nil => rfl
  | cons position positions induction =>
      have located := List.getElem?_eq_getElem (bounded position (.head _))
      rw [List.mapM_cons, entry_eq_ok_iff.mpr located, ok_bind,
        induction fun other listed => bounded other (.tail _ listed), List.filterMap_cons, located]
      rfl

/-- Nodes are brought into the order in which they are brought without tables, and the
nodes on cycles are all in the table of nodes. -/
theorem order_eq (prototype : Prototype) :
    order prototype = refusing (Compile.order prototype) := by
  rw [order, Schedule.EdgeTables.empty_eq, enterEdges_eq]
  unfold Compile.order
  cases gathered : Compile.edges prototype prototype.connections with
  | error error => rfl
  | ok edges =>
      have bounded := edges_bounded gathered
      simp only [Except.map, refusing_ok, ok_bind, List.nil_append,
        Schedule.orderByTables_eq bounded, trapping_ok]
      cases ordered : Schedule.order edges prototype.nodes.length with
      | ok order => rfl
      | error cycle =>
          have inRange : ∀ position ∈ cycle, position < prototype.nodes.length :=
            fun _ => Schedule.lt_of_mem_cycle ordered
          simp only [mapM_entry _ _ inRange, trapping_ok, ok_bind, List.map_filterMap]
          rfl

end ByTables

end NodeGraph
