import NodeGraph.Proofs.Compile.WiringTables

namespace NodeGraph

/-! Compiling by tables. Every look-up on the way from a prototype to a graph goes to a table
that might have no such entry, every count that is lowered might be zero already, every
event wire that is routed might have no row, and there might be no room for a queue. Main
statement: compiling by tables stops for nothing but a fault of the prototype or a queue
that is too large, and yields what compiling without tables yields. -/

namespace ByTables

/-! ## Input plugs -/

/-- The slots of the input plugs of one node, from position `plug` on. -/
def plugSlots (tables : WiringTables) (node : Nat) (overrides : List Endpoint) (plug : Nat) :
    List Endpoint → Array Value → Except Trap (Assembly.Allocation (List Slot))
  | [], values => pure ⟨[], values⟩
  | endpoint :: plugs, values => do
      let row ← entry tables.nodeInputs node
      let bound ← entry row plug
      let first := Assembly.slotOrNew bound (Assembly.restingValue overrides endpoint) values
      let others ← plugSlots tables node overrides (plug + 1) plugs first.values
      pure ⟨first.slots :: others.slots, others.values⟩

theorem plugSlots_eq {tables : WiringTables} {layouts : List Layout} {node : Nat}
    {layout : Layout} {value : Nat → Nat → Option Slot}
    (inputs : tables.nodeInputs = inputTable layouts value)
    (located : layouts[node]? = some layout) (overrides : List Endpoint) {plug : Nat}
    {plugs : List Endpoint} (within : plug + plugs.length ≤ layout.inputs.length)
    (values : Array Value) :
    plugSlots tables node overrides plug plugs values =
      .ok (Assembly.plugSlots (value node) overrides plug plugs values) := by
  induction plugs generalizing plug values with
  | nil => rfl
  | cons endpoint plugs induction =>
      rw [List.length_cons] at within
      have others (values : Array Value) : plugSlots tables node overrides (plug + 1) plugs values =
          .ok (Assembly.plugSlots (value node) overrides (plug + 1) plugs values) :=
        induction (by omega) values
      rw [plugSlots, inputs, entry_inputTable located, ok_bind, entry_tabulate _ (by omega),
        ok_bind]
      simp only [others]
      rfl

/-! ## Nodes -/

/-- The nodes with those layouts, from position `node` on, and where their plugs lie. -/
def placements (endpoints : Endpoints) (tables : WiringTables) (node : Nat) :
    List Layout → Array Value → Except Trap (Assembly.Allocation (List Placement))
  | [], values => pure ⟨[], values⟩
  | layout :: layouts, values => do
      let placed ← entry endpoints.prototype.nodes node
      let inputs ← plugSlots tables node placed.overrides 0 layout.inputs values
      let outputs ← entry (Assembly.outputSlots (Assembly.firstNodeSlot endpoints.prototype)
        endpoints.layouts) node
      let others ← placements endpoints tables (node + 1) layouts inputs.values
      pure ⟨⟨placed.id, inputs.slots, outputs⟩ :: others.slots, others.values⟩

theorem placements_eq {endpoints : Endpoints} {tables : WiringTables}
    {source? : ValueSink → Option Slot}
    (complete : endpoints.layouts.length = endpoints.prototype.nodes.length)
    (inputs : tables.nodeInputs =
      inputTable endpoints.layouts fun node plug => source? (.nodeInput node plug))
    {node : Nat} {layouts : List Layout} (rest : endpoints.layouts.drop node = layouts)
    (values : Array Value) :
    let nodes := endpoints.prototype.nodes.drop node
    let read := Assembly.nodeSlots source? node (nodes.zip layouts) values
    let written := (Assembly.outputSlots (Assembly.firstNodeSlot endpoints.prototype)
      endpoints.layouts).drop node
    placements endpoints tables node layouts values =
      .ok ⟨(nodes.zip (read.slots.zip written)).map fun (node, inputs, outputs) =>
        { id := node.id, inputs, outputs }, read.values⟩ := by
  -- The induction is on the layouts that are left; the other tables are as long.
  induction layouts generalizing node values with
  | nil =>
      have done : endpoints.prototype.nodes.drop node = [] := by
        rw [List.drop_eq_nil_iff, ← complete]
        exact List.drop_eq_nil_iff.mp rest
      rw [done]
      rfl
  | cons layout layouts induction =>
      have located : endpoints.layouts[node]? = some layout := by
        rw [← Nat.add_zero node, ← List.getElem?_drop, rest]
        rfl
      have later : endpoints.layouts.drop (node + 1) = layouts := by
        rw [← List.tail_drop, rest]
        rfl
      have bound := (List.getElem?_eq_some_iff.mp located).1
      have listed : node < endpoints.prototype.nodes.length := complete ▸ bound
      have owned : node < (Assembly.outputSlots (Assembly.firstNodeSlot endpoints.prototype)
          endpoints.layouts).length := by
        rw [Assembly.outputSlots_length]
        exact bound
      have others := induction later
      simp only [placements, entry_eq_ok_iff.mpr (List.getElem?_eq_getElem listed), ok_bind,
        plugSlots_eq inputs located _ (Nat.le_of_eq (Nat.zero_add _)),
        entry_eq_ok_iff.mpr (List.getElem?_eq_getElem owned), others,
        List.drop_eq_getElem_cons listed, List.drop_eq_getElem_cons owned]
      rfl

/-! ## Event routes -/

/-- Routes event wires that start on nodes, in order. -/
def routeAll (routes : EventRoutes) : List NodeRoute → Except Stop EventRoutes
  | [] => pure routes
  | route :: later =>
      match routes.connect? route.node route.output route.target with
      | some connected => routeAll connected later
      | none => throw (.unrouted route.terminus)

theorem routeAll_eq {routes : EventRoutes} {pending : List NodeRoute}
    (has : ∀ route ∈ pending, routes.hasOutput route.node route.output = true) :
    routeAll routes pending =
      .ok (Assembly.connectEvents routes (pending.map NodeRoute.wire)) := by
  induction pending generalizing routes with
  | nil => rfl
  | cons route later induction =>
      rcases route with ⟨terminus, node, output, target⟩
      have hasFirst : routes.hasOutput node output = true := has _ (.head _)
      cases isConnected : routes.connect? node output target with
      | none => simp [EventRoutes.connect?, hasFirst] at isConnected
      | some connected =>
          simp only [routeAll, isConnected, List.map_cons, NodeRoute.wire, Assembly.connectEvents,
            Option.getD_some]
          apply induction
          intro route listed
          rw [EventRoutes.hasOutput_connect? isConnected]
          exact has route (.tail _ listed)

/-- Without a row there is no route. -/
example (terminus : Terminus) (target : Target) :
    routeAll {} [⟨terminus, 0, 0, target⟩] = .error (.unrouted terminus) := rfl

/-- Only event wires that start on nodes are routed. -/
theorem connectEvents_filter (routes : EventRoutes) (wires : List Wire) :
    Assembly.connectEvents routes (wires.filter Wire.leavesNode) =
      Assembly.connectEvents routes wires := by
  induction wires generalizing routes with
  | nil => rfl
  | cons wire wires induction =>
      cases wire with
      | value source sink => exact induction routes
      | event source target =>
          cases source with
          | nodeEvent node output => exact induction _
          | graphInput id => exact induction routes

/-! ## The circuit -/

/-- The slot that an output of the graph is bound to, if any. -/
def shown? (tables : WiringTables) : ValueSink → Option Slot
  | .nodeInput .. => none
  | .graphOutput id => Circuit.lastSlot? tables.graphOutputs id

def circuit (config : Config) (endpoints : Endpoints) (tables : WiringTables)
    (order : List Nat) : Except Stop Circuit := do
  let prototype := endpoints.prototype
  let nodes ← trapping (placements endpoints tables 0 endpoints.layouts
    (Assembly.ownedValues endpoints).toArray)
  let routes ← routeAll (Assembly.emptyRoutes endpoints.layouts) tables.nodeEvents
  let outputs := Assembly.shownSlots (shown? tables) prototype.outputs nodes.values
  pure {
    name := prototype.name
    placements := nodes.slots.toArray
    order
    defaults := outputs.values
    inputs := Assembly.inputSlots prototype
    locals := Assembly.localSlots prototype
    outputs := outputs.slots
    routes
    entrances := tables.entrances
    hopLimit := config.maxEventHops.toNat }

theorem shownSlots_congr {source? other? : ValueSink → Option Slot}
    (same : ∀ id, source? (.graphOutput id) = other? (.graphOutput id)) (outputs : List Endpoint)
    (values : Array Value) :
    Assembly.shownSlots source? outputs values = Assembly.shownSlots other? outputs values := by
  induction outputs generalizing values with
  | nil => rfl
  | cons endpoint outputs induction =>
      simp only [Assembly.shownSlots, same, induction]

section
variable {endpoints : Endpoints} {wires : List Wire} {tables : WiringTables}

/-- Every event wire that has been noted down has a row. -/
theorem hasOutput_of_noted (looked : endpoints.LooksUp endpoints.prototype.connections wires)
    (tell : tables.Tell endpoints wires) {route : NodeRoute} (noted : route ∈ tables.nodeEvents) :
    (Assembly.emptyRoutes endpoints.layouts).hasOutput route.node route.output = true := by
  have listed : route.wire ∈ wires.filter Wire.leavesNode := by
    rw [← tell.nodeEvents]
    exact List.mem_map_of_mem noted
  exact Assembly.hasOutput_emptyRoutes.mpr
    (Endpoints.nodeEvent_bounded looked (List.mem_of_mem_filter listed))

/-- Tables that tell of wires assemble the circuit of these wires. -/
theorem circuit_eq (config : Config)
    (complete : endpoints.layouts.length = endpoints.prototype.nodes.length)
    (looked : endpoints.LooksUp endpoints.prototype.connections wires)
    (tell : tables.Tell endpoints wires) (order : List Nat) :
    circuit config endpoints tables order =
      .ok (Assembly.circuit config endpoints wires order) := by
  have nodes := placements_eq complete tell.nodeInputs List.drop_zero
    (Assembly.ownedValues endpoints).toArray
  have routes := routeAll_eq fun _ => hasOutput_of_noted looked tell
  rw [tell.nodeEvents, connectEvents_filter] at routes
  have outputs (values : Array Value) :
      Assembly.shownSlots (shown? tables) endpoints.prototype.outputs values =
        Assembly.shownSlots (Assembly.wiredSlot? endpoints wires) endpoints.prototype.outputs
          values :=
    shownSlots_congr tell.graphOutputs _ values
  simp only [circuit, nodes, routes, outputs, trapping_ok, ok_bind, List.drop_zero, tell.entrances]
  rfl

end

/-! ## Compiling -/

/-- Sets room for so many events aside. -/
def reserve (capacity : Nat) : Except Trap Unit :=
  if OutgoingQueue.CanReserve capacity then .ok () else .error .noRoom

theorem trapping_reserve (capacity : Nat) :
    trapping (reserve capacity) = stopping (Compilation.reserve capacity) := by
  by_cases room : OutgoingQueue.CanReserve capacity <;>
    simp [reserve, stopping, Compilation.reserve, Compilation.result?, room, trapping,
      Except.mapError]

/-- Compiles a prototype whose nodes `create` makes, one step after the other. -/
def withNodes [Processor ν] (config : Config) (create : PrototypeNode → Except Stop ν)
    (prototype : Prototype) : Except Stop (Graph ν) := do
  refusing (Compile.checkIds [] prototype.nodes)
  let nodes ← prototype.nodes.mapM create
  let layouts := nodes.map Processor.layout
  let endpoints : Endpoints := ⟨prototype, layouts⟩
  checkOverrides (prototype.nodes.zip layouts)
  trapping (reserve config.eventQueueCapacity.toNat)
  let tables ← prototype.connections.foldlM (connect endpoints) (.start layouts)
  let order ← order prototype
  let circuit ← circuit config endpoints tables order
  pure (Graph.pristine circuit config.eventQueueCapacity.toNat nodes)

theorem mapM_stopping (create : PrototypeNode → Compilation ν) (nodes : List PrototypeNode) :
    (nodes.mapM fun placed => stopping (create placed)) =
      stopping (Compilation.each (fun placed => do
        let node ← create placed
        Compilation.note (Compile.createdRecord placed)
        pure node) nodes) := by
  induction nodes with
  | nil => rfl
  | cons placed nodes induction =>
      rw [List.mapM_cons, induction]
      simp only [Compilation.each, stopping_bind, bind_assoc]
      rfl

/-- With the same nodes, compiling by tables yields what compiling without yields. -/
theorem withNodes_eq [Processor ν] (config : Config) (create : PrototypeNode → Compilation ν)
    (prototype : Prototype) :
    withNodes config (fun placed => stopping (create placed)) prototype =
      stopping (Compile.withNodes config create prototype) := by
  simp only [withNodes, Compile.withNodes, stopping_bind, stopping_ofExcept, mapM_stopping,
    checkOverrides_eq, trapping_reserve, order_eq]
  refine refusing_bind_congr fun _ _ => stopping_bind_congr fun nodes created =>
    refusing_bind_congr fun _ _ => stopping_bind_congr fun _ _ => ?_
  have complete : (nodes.map Processor.layout).length = prototype.nodes.length := by
    rw [List.length_map, (Compilation.each_eq_ok_iff.mp created).length_eq]
  -- Of the nodes only their layouts matter from here on, and that there are enough of them.
  generalize nodes.map Processor.layout = layouts at complete
  have follows := connectAll_follows complete (WiringTables.Tell.start ⟨prototype, layouts⟩)
    prototype.connections
  generalize prototype.connections.foldlM (connect ⟨prototype, layouts⟩)
    (WiringTables.start layouts) = tabled at follows
  rw [stopping_eq_refusing (Endpoints.wireAll_overflows _ _ _)]
  cases wired : (Endpoints.wireAll ⟨prototype, layouts⟩ [] prototype.connections).outcome with
  | error error =>
      rw [wired] at follows
      cases follows
      rfl
  | ok wires =>
      rw [wired] at follows
      cases follows with
      | wired tell =>
          have looked := (Endpoints.wireAll_eq_ok_iff.mp wired).1
          refine refusing_bind_congr fun order _ => ?_
          rw [circuit_eq config complete looked tell order]
          rfl

/-- Puts a fault inside the subroutine of a node. -/
def inside (node : NodeId) : Stop → Stop
  | .refused error => .refused (.inSubroutine node error)
  | stop => stop

/-- A fresh node where a subroutine may be, which `compile` compiles. -/
def createNested (registry : Registry κ) (compile : Prototype → Except Stop (Graph ν))
    (placed : PrototypeNode) : Except Stop (κ ⊕ Subroutine ν) :=
  match placed.subroutine with
  | none => Sum.inl <$> stopping (Compile.fromRegistry registry placed)
  | some prototype => do
      let graph ← (compile prototype).mapError (inside placed.id)
      pure (.inr (Subroutine.ofPrototype prototype graph))

/-- Compiles a prototype with room for that many levels of subroutines. -/
def build [Processor κ] (registry : Registry κ) (config : Config) :
    (room : Nat) → Prototype → Except Stop (Graph (Nested κ room))
  | 0 => withNodes config fun placed => stopping (Compile.createPlain registry config placed)
  | room + 1 => withNodes config (createNested registry (build registry config room))

theorem createNested_eq (registry : Registry κ) (compile : Prototype → Compilation (Graph ν))
    (placed : PrototypeNode) :
    createNested registry (fun prototype => stopping (compile prototype)) placed =
      stopping (Compile.createNested registry compile placed) := by
  unfold createNested Compile.createNested
  cases placed.subroutine with
  | none =>
      show _ = stopping (Compile.fromRegistry registry placed >>= fun node => pure (Sum.inl node))
      rw [stopping_bind]
      cases stopping (Compile.fromRegistry registry placed) <;> rfl
  | some prototype =>
      have faults : (stopping (compile prototype)).mapError (inside placed.id) =
          stopping ((compile prototype).mapError (.inSubroutine placed.id)) := by
        unfold stopping Compilation.result?
        rw [Compilation.overflows_mapError, Compilation.outcome_mapError]
        cases (compile prototype).overflows <;> cases (compile prototype).outcome <;> rfl
      simp only [faults, stopping_bind]
      rfl

variable [Processor κ]

/-- Subroutines are compiled by tables as they are without, at every depth. -/
theorem build_eq (registry : Registry κ) (config : Config) (room : Nat) (prototype : Prototype) :
    build registry config room prototype =
      stopping (Compile.build registry config room prototype) := by
  induction room generalizing prototype with
  | zero => exact withNodes_eq config (Compile.createPlain registry config) prototype
  | succ room induction =>
      have nested : createNested registry (build registry config room) = fun placed =>
          stopping (Compile.createNested registry (Compile.build registry config room)
            placed) := by
        rw [funext induction]
        exact funext (createNested_eq registry _)
      rw [build, nested]
      exact withNodes_eq config _ prototype

/-- Compiling by tables stops for nothing but a fault of the prototype, as long as room
for its queue can be asked for: no entry of a table is missing, no count falls below zero,
no node becomes ready twice, and every event wire finds its row. Otherwise it yields the
graph that compiling without tables yields. -/
theorem build_goes_wrong_for_room_only (registry : Registry κ) (config : Config) (room : Nat)
    (prototype : Prototype) :
    (∀ trap, build registry config room prototype = .error (.trapped trap) →
      trap = .noRoom ∧ ¬ OutgoingQueue.CanReserve config.eventQueueCapacity.toNat) ∧
    (∀ terminus, build registry config room prototype ≠ .error (.unrouted terminus)) ∧
    (OutgoingQueue.CanReserve config.eventQueueCapacity.toNat →
      build registry config room prototype =
        (Compile.build registry config room prototype).outcome.mapError .refused) ∧
    ∀ graph, build registry config room prototype = .ok graph ↔
      (Compile.build registry config room prototype).result? = some (.ok graph) := by
  rw [build_eq]
  refine ⟨fun trap wrong => ?_, stopping_ne_unrouted _, fun fits => ?_, fun graph =>
    stopping_eq_ok_iff⟩
  · rcases overflows_of_trapped wrong with ⟨rfl, overflows⟩
    refine ⟨rfl, fun fits => ?_⟩
    rw [Compile.build_overflows fits] at overflows
    cases overflows
  · exact stopping_eq_refusing (Compile.build_overflows fits room prototype)

/-- Nothing has to be looked up for a prototype with nothing in it, but the room that its
queue is to have can be too large. -/
theorem build_blank_boundless :
    build StandardNode.registry boundless 0 blank = .error (.trapped .noRoom) := by
  have nothing : (Compile.build StandardNode.registry boundless 0 blank).result? = none := by
    rw [← Option.isNone_iff_eq_none]
    decide +kernel
  rw [build_eq, stopping, nothing]

end ByTables

end NodeGraph
