import NodeGraph.Proofs.Compile.Wires

namespace NodeGraph

/-! Where events go. The routes of a compiled graph are its event wires in the
order of the connections, for the output events of nodes as well as for the
events that a host may post. -/

/-! ## Tables of routes -/

namespace EventRoutes

variable {routes connected : EventRoutes} {node output : Nat} {target : Target}

theorem hasOutput_iff :
    routes.hasOutput node output = true ↔
      ∃ events, routes.rows[node]? = some events ∧ output < events.length := by
  unfold hasOutput
  cases routes.rows[node]? <;> simp

theorem targets_eq_nil (absent : routes.hasOutput node output = false) :
    routes.targets node output = [] := by
  unfold targets
  unfold hasOutput at absent
  cases found : routes.rows[node]? with
  | none => rfl
  | some events =>
      simp only [found, decide_eq_false_iff_not, Nat.not_lt] at absent
      simp [List.getElem?_eq_none absent]

theorem hasOutput_connect? (isConnected : routes.connect? node output target = some connected)
    (otherNode otherOutput : Nat) :
    connected.hasOutput otherNode otherOutput = routes.hasOutput otherNode otherOutput := by
  unfold connect? at isConnected
  split at isConnected
  · cases isConnected
    unfold hasOutput
    rw [List.getElem?_modify]
    cases routes.rows[otherNode]? with
    | none => rfl
    | some events => by_cases same : node = otherNode <;> simp [same]
  · cases isConnected

theorem targets_connect? (isConnected : routes.connect? node output target = some connected)
    (otherNode otherOutput : Nat) :
    connected.targets otherNode otherOutput =
      routes.targets otherNode otherOutput ++
        if node = otherNode ∧ output = otherOutput then [target] else [] := by
  unfold connect? at isConnected
  split at isConnected
  next has =>
    cases isConnected
    rcases hasOutput_iff.mp has with ⟨events, found, bound⟩
    unfold targets
    rw [List.getElem?_modify]
    by_cases sameNode : node = otherNode
    · subst sameNode
      simp only [found, if_true, true_and, Option.map_eq_map, Option.map_some]
      rw [List.getElem?_modify]
      by_cases sameOutput : output = otherOutput
      · subst sameOutput
        simp [List.getElem?_eq_getElem bound]
      · simp [sameOutput]
    · simp [sameNode]
  next => cases isConnected

end EventRoutes

/-! ## Event wires -/

@[simp] theorem EventSource.nodeEvent_beq_nodeEvent (node output otherNode otherOutput : Nat) :
    (nodeEvent node output == nodeEvent otherNode otherOutput) =
      (node == otherNode && output == otherOutput) := rfl

@[simp] theorem EventSource.graphInput_beq_graphInput (id other : Identifier) :
    (graphInput id == graphInput other) = (id == other) := rfl

@[simp] theorem EventSource.nodeEvent_beq_graphInput (node output : Nat) (id : Identifier) :
    (nodeEvent node output == graphInput id) = false := rfl

@[simp] theorem EventSource.graphInput_beq_nodeEvent (node output : Nat) (id : Identifier) :
    (graphInput id == nodeEvent node output) = false := rfl

/-- The target of a wire that carries events from `source`. -/
def Wire.targetFrom? (source : EventSource) : Wire → Option Target
  | .event start target => if start == source then some target else none
  | .value .. => none

@[simp] theorem Wire.targetFrom?_value (source : EventSource) (start : ValueSource)
    (sink : ValueSink) : targetFrom? source (.value start sink) = none := rfl

@[simp] theorem Wire.targetFrom?_event (source start : EventSource) (target : Target) :
    targetFrom? source (.event start target) =
      if start == source then some target else none := rfl

namespace Assembly

theorem hasOutput_emptyRoutes {layouts : List Layout} {node output : Nat} :
    (emptyRoutes layouts).hasOutput node output = true ↔
      ∃ layout, layouts[node]? = some layout ∧ output < layout.outputEvents.length := by
  have rows (routes : EventRoutes) :
      (layouts.foldl (fun routes layout => routes.addNode layout.outputEvents.length)
        routes).rows =
        routes.rows ++ layouts.map fun layout => List.replicate layout.outputEvents.length [] := by
    induction layouts generalizing routes with
    | nil => simp
    | cons layout layouts induction =>
        rw [List.foldl_cons, induction]
        simp [EventRoutes.addNode]
  rw [EventRoutes.hasOutput_iff, emptyRoutes, rows]
  simp only [List.nil_append, List.getElem?_map, Option.map_eq_some_iff]
  constructor
  · intro found
    rcases found with ⟨_, ⟨layout, found, rfl⟩, bound⟩
    exact ⟨layout, found, by simpa using bound⟩
  · intro found
    rcases found with ⟨layout, found, bound⟩
    exact ⟨_, ⟨layout, found, rfl⟩, by simpa using bound⟩

theorem targets_emptyRoutes (layouts : List Layout) (node output : Nat) :
    (emptyRoutes layouts).targets node output = [] := by
  have empty (routes : EventRoutes) (none : routes.targets node output = []) :
      (layouts.foldl (fun routes layout => routes.addNode layout.outputEvents.length)
        routes).targets node output = [] := by
    induction layouts generalizing routes with
    | nil => exact none
    | cons layout layouts induction =>
        apply induction
        simp only [EventRoutes.targets, EventRoutes.addNode, List.getElem?_append] at none ⊢
        by_cases earlier : node < routes.rows.length
        · simpa [earlier] using none
        · cases shifted : node - routes.rows.length with
          | zero =>
              by_cases bound : output < layout.outputEvents.length <;>
                simp [earlier, bound]
          | succ beyond => simp [earlier]
  exact empty {} (by simp [EventRoutes.targets])

/-- Connecting event wires appends their targets to the rows that exist. -/
theorem targets_connectEvents (routes : EventRoutes) (wires : List Wire) {node output : Nat}
    (has : routes.hasOutput node output = true) :
    (connectEvents routes wires).targets node output =
      routes.targets node output ++
        wires.filterMap (Wire.targetFrom? (.nodeEvent node output)) := by
  induction wires generalizing routes with
  | nil => simp [connectEvents]
  | cons wire wires induction =>
      rw [List.filterMap_cons]
      cases wire with
      | value source sink => exact induction routes has
      | event source target =>
          cases source with
          | graphInput id => exact induction routes has
          | nodeEvent start event =>
              simp only [connectEvents, Wire.targetFrom?_event,
                EventSource.nodeEvent_beq_nodeEvent, Bool.and_eq_true, beq_iff_eq]
              cases isConnected : routes.connect? start event target with
              | none =>
                  have different : ¬ (start = node ∧ event = output) := by
                    intro same
                    rcases same with ⟨rfl, rfl⟩
                    simp [EventRoutes.connect?, has] at isConnected
                  simp [induction routes has, different]
              | some connected =>
                  have stillHas : connected.hasOutput node output = true := by
                    rw [EventRoutes.hasOutput_connect? isConnected, has]
                  rw [Option.getD_some, induction connected stillHas,
                    EventRoutes.targets_connect? isConnected, List.append_assoc]
                  by_cases hit : start = node ∧ event = output <;> simp [hit]

theorem hasOutput_connectEvents (routes : EventRoutes) (wires : List Wire) (node output : Nat) :
    (connectEvents routes wires).hasOutput node output = routes.hasOutput node output := by
  induction wires generalizing routes with
  | nil => rfl
  | cons wire wires induction =>
      cases wire with
      | value source sink => exact induction routes
      | event source target =>
          cases source with
          | graphInput id => exact induction routes
          | nodeEvent start event =>
              simp only [connectEvents, induction]
              cases isConnected : routes.connect? start event target with
              | none => rfl
              | some connected => exact EventRoutes.hasOutput_connect? isConnected node output

end Assembly

namespace Endpoints

variable {endpoints : Endpoints}

/-- The targets of the event connections that start at `source`, in the order in
which the connections are listed. -/
def targetsFrom (endpoints : Endpoints) (source : EventSource) : List Target :=
  endpoints.prototype.connections.filterMap fun connection =>
    match endpoints.wire connection with
    | .ok wire => wire.targetFrom? source
    | .error _ => none

theorem targetsFrom_eq {wires : List Wire}
    (looked : endpoints.LooksUp endpoints.prototype.connections wires) (source : EventSource) :
    endpoints.targetsFrom source = wires.filterMap (Wire.targetFrom? source) := by
  unfold targetsFrom
  generalize endpoints.prototype.connections = connections at looked
  induction looked with
  | nil => rfl
  | cons first _ induction => simp [List.filterMap_cons, first, induction]

/-- What a source leads to is where an event connection ends that starts
there. -/
theorem exists_of_mem_targetsFrom {source : EventSource} {target : Target}
    (listed : target ∈ endpoints.targetsFrom source) :
    ∃ connection ∈ endpoints.prototype.connections, connection.kind.isEvent = true ∧
      (∃ start, endpoints.eventSource connection.kind.sourceScope connection.source = .ok start ∧
        (start == source) = true) ∧
      endpoints.eventTarget connection.kind.destinationScope connection.destination =
        .ok target := by
  rcases List.mem_filterMap.mp listed with ⟨connection, member, leads⟩
  cases looked : endpoints.wire connection with
  | error error => simp [looked] at leads
  | ok wire =>
      simp only [looked] at leads
      rcases (wire_eq_ok_iff.mp looked).2.2 with
        ⟨isEvent, start, found, sourceFound, targetFound, rfl⟩ | ⟨-, _, _, -, -, rfl⟩
      · rw [Wire.targetFrom?_event] at leads
        split at leads
        next same =>
          cases leads
          exact ⟨connection, member, isEvent, ⟨start, sourceFound, same⟩, targetFound⟩
        next => cases leads
      · cases leads

/-- An event wire that starts on a node starts at an output event of it. -/
theorem nodeEvent_bounded {connections : List Connection} {wires : List Wire}
    (looked : endpoints.LooksUp connections wires) {node output : Nat} {target : Target}
    (listed : .event (.nodeEvent node output) target ∈ wires) :
    ∃ layout, endpoints.layouts[node]? = some layout ∧ output < layout.outputEvents.length := by
  rcases exists_connection_of_mem looked listed with ⟨connection, -, found⟩
  rcases (wire_eq_ok_iff.mp found).2.2 with
    ⟨-, source, _, sourceFound, -, same⟩ | ⟨-, _, _, -, -, same⟩
  · cases same
    rcases plug_eq_ok_iff.mp (eventSource_eq_nodeEvent_iff.mp sourceFound).2 with
      ⟨-, layout, located, event⟩
    refine ⟨layout, located, ?_⟩
    unfold Layout.outputEventIndex? at event
    exact (List.findIdx?_eq_some_iff_getElem.mp event).1
  · cases same

end Endpoints

/-! ## Posted events -/

namespace Endpoints

variable {endpoints : Endpoints}

/-- Whether posting `id` reaches the target of a wire shows in its connection. -/
theorem targetFrom?_graphInput_iff {connection : Connection} {wire : Wire}
    (looked : endpoints.wire connection = .ok wire) (id : Identifier) :
    wire.targetFrom? (.graphInput id) ≠ none ↔
      connection.kind.isEvent = true ∧ connection.kind.sourceScope = .graph ∧
        (connection.source.endpoint == id) = true := by
  rcases (wire_eq_ok_iff.mp looked).2.2 with
    ⟨isEvent, source, target, sourceFound, -, equal⟩ | ⟨isValue, source, sink, -, -, equal⟩
  · subst equal
    cases scope : connection.kind.sourceScope with
    | node =>
        rw [scope] at sourceFound
        simp only [eventSource, except_bind_eq_ok_iff] at sourceFound
        rcases sourceFound with ⟨⟨node, output⟩, -, equal⟩
        cases equal
        simp
    | graph =>
        rw [scope] at sourceFound
        cases found : endpoints.graphInput connection.source with
        | error error => simp [eventSource, found] at sourceFound
        | ok start =>
            simp only [eventSource, found] at sourceFound
            cases sourceFound
            have same := (Identifier.beq_iff _ _).mp (declared_beq found)
            simp [isEvent, Identifier.beq_iff, same]
    | localVariable =>
        cases kind : connection.kind <;>
          simp_all [ConnectionKind.sourceScope, ConnectionKind.isEvent]
  · subst equal
    simp [isValue]

/-- An event that is posted leads somewhere exactly if an event connection
starts at that input of the graph. -/
theorem targetsFrom_graphInput_ne_nil_iff {wires : List Wire}
    (looked : endpoints.LooksUp endpoints.prototype.connections wires) (id : Identifier) :
    endpoints.targetsFrom (.graphInput id) ≠ [] ↔
      ∃ connection ∈ endpoints.prototype.connections, connection.kind.isEvent = true ∧
        connection.kind.sourceScope = .graph ∧ (connection.source.endpoint == id) = true := by
  rw [targetsFrom_eq looked]
  generalize endpoints.prototype.connections = connections at looked
  induction looked with
  | nil => simp
  | @cons connection wire _ _ first _ induction =>
      rw [List.exists_mem_cons_iff, ← targetFrom?_graphInput_iff first id, ← induction,
        List.filterMap_cons]
      cases wire.targetFrom? (.graphInput id) <;> simp

end Endpoints

/-! ## The assembled circuit -/

namespace Assembly

variable {config : Config} {endpoints : Endpoints} {wires : List Wire} {order : List Nat}

/-- The routing row of an output event lists the targets of its connections. An
output event that does not exist has neither. -/
theorem targets_circuit
    (looked : endpoints.LooksUp endpoints.prototype.connections wires) (node output : Nat) :
    (circuit config endpoints wires order).routes.targets node output =
      endpoints.targetsFrom (.nodeEvent node output) := by
  rw [Endpoints.targetsFrom_eq looked]
  show (connectEvents (emptyRoutes endpoints.layouts) wires).targets node output = _
  cases has : (emptyRoutes endpoints.layouts).hasOutput node output with
  | true =>
      rw [targets_connectEvents _ _ has, targets_emptyRoutes, List.nil_append]
  | false =>
      rw [EventRoutes.targets_eq_nil (by rw [hasOutput_connectEvents, has]), eq_comm,
        List.filterMap_eq_nil_iff]
      intro wire listed
      cases wire with
      | value source sink => rfl
      | event source target =>
          by_cases same : (source == EventSource.nodeEvent node output) = true
          · have equal : source = .nodeEvent node output := by
              cases source <;> simp_all [BEq.beq, instBEqEventSource.beq]
            subst equal
            have exists_ := hasOutput_emptyRoutes.mpr
              (Endpoints.nodeEvent_bounded looked listed)
            rw [has] at exists_
            cases exists_
          · simp [same]

/-- An event posted to the graph goes where the connections from that input
lead. -/
theorem entrance_circuit
    (looked : endpoints.LooksUp endpoints.prototype.connections wires) (id : Identifier) :
    (circuit config endpoints wires order).entrance id =
      endpoints.targetsFrom (.graphInput id) := by
  rw [Endpoints.targetsFrom_eq looked]
  show ((entrances wires).filter fun entry => entry.1 == id).map Prod.snd = _
  clear looked
  induction wires with
  | nil => rfl
  | cons wire wires induction =>
      rw [List.filterMap_cons]
      cases wire with
      | value source sink => exact induction
      | event source target =>
          cases source with
          | nodeEvent node output => exact induction
          | graphInput start =>
              simp only [entrances, List.filterMap_cons, Wire.targetFrom?_event,
                EventSource.graphInput_beq_graphInput] at induction ⊢
              by_cases hit : (start == id) = true <;> simp [hit, induction]

end Assembly

end NodeGraph
