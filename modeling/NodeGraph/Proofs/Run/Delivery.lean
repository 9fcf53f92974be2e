import NodeGraph.Proofs.Run.Broadcast
import NodeGraph.Proofs.Run.Reachable
import NodeGraph.Standard

namespace NodeGraph

/-! Deliveries of a compiled graph. Main statement: the deliveries of a call are
those that its events call for by the connections of the prototype, first come
first served, cut off where the budget ends; and a posted event is refused
exactly if no connection starts at it. -/

/-! ## What connections call for -/

namespace Endpoints

/-- The deliveries that fired events call for by the connections of a
prototype. -/
def due (endpoints : Endpoints) (emissions : List (Nat × Emission)) :
    List (Target × Identifier) :=
  emissions.flatMap fun (node, emission) =>
    (endpoints.targetsFrom (.nodeEvent node emission.output)).map fun target =>
      (target, emission.event)

/-- The deliveries that a call asks for by itself: those of a posted event. -/
def opening (endpoints : Endpoints) : Call → List (Target × Identifier)
  | .post id => (endpoints.targetsFrom (.graphInput id)).map fun target => (target, id)
  | _ => []

end Endpoints

/-! ## Calls -/

/-- The deliveries that a call asks for by itself, as the circuit has them. -/
def Circuit.opening (circuit : Circuit) : Call → List (Target × Identifier)
  | .post id => (circuit.entrance id).map fun target => (target, id)
  | _ => []

namespace Graph

variable [Processor ν]

theorem sweep_broadcast (graph : Graph ν) (program : Cell ν → Program (Cell ν)) :
    deliveriesOf (graph.sweep program).journal.toList =
      (graph.circuit.routes.due (emissionsOf (graph.sweep program).journal.toList)).take
        graph.circuit.hopLimit := by
  rcases Turn.visits_continue graph.circuit program graph.begin graph.circuit.order with
    ⟨entries, journal, broadcast⟩
  have journal : (graph.sweep program).journal.toList = entries := journal
  rw [journal]
  exact broadcast.deliveries

/-- Every call on a graph is a broadcast. -/
theorem perform_broadcast (graph : Graph ν) (call : Call) :
    deliveriesOf (graph.perform call).2.2.toList =
      (graph.circuit.opening call ++ graph.circuit.routes.due
        (emissionsOf (graph.perform call).2.2.toList)).take graph.circuit.hopLimit := by
  cases call with
  | setInput id value =>
      have refused : deliveriesOf [.unknownInput graph.circuit.name id] = [] := rfl
      have silent : emissionsOf [.unknownInput graph.circuit.name id] = [] := rfl
      simp only [perform, settled]
      cases graph.setInput? id value <;> simp [Circuit.opening, refused, silent]
  | setLocal id value =>
      have refused : deliveriesOf [.unknownLocal graph.circuit.name id] = [] := rfl
      have silent : emissionsOf [.unknownLocal graph.circuit.name id] = [] := rfl
      simp only [perform, settled]
      cases graph.setLocal? id value <;> simp [Circuit.opening, refused, silent]
  | process timeStep => exact graph.sweep_broadcast _
  | post id =>
      have refused : deliveriesOf [.unknownEvent graph.circuit.name id] = [] := rfl
      have silent : emissionsOf [.unknownEvent graph.circuit.name id] = [] := rfl
      simp only [perform, post?, Circuit.opening]
      cases targets : graph.circuit.entrance id with
      | nil => simp [settled, refused, silent]
      | cons target rest =>
          rcases Turn.settle_continues graph.circuit graph.state #[] graph.circuit.hopLimit
            [⟨id, target :: rest⟩] with ⟨entries, journal, broadcast⟩
          simp only [List.nil_append] at journal
          simp only [settled, journal]
          simpa [Parcel.deliveries] using broadcast.deliveries
  | drain => simp [perform, Circuit.opening]
  | reset => simp [perform, Circuit.opening]
  | init context => exact graph.sweep_broadcast _

/-- A posted event is taken if it leads somewhere. If not, it changes nothing. -/
theorem perform_post (graph : Graph ν) (id : Identifier) :
    ((graph.perform (.post id)).2.1 = .accepted true ∧ graph.circuit.entrance id ≠ []) ∨
      ((graph.perform (.post id)).2.1 = .accepted false ∧
        (graph.perform (.post id)).1 = graph ∧ graph.circuit.entrance id = []) := by
  simp only [perform, post?]
  cases targets : graph.circuit.entrance id with
  | nil => exact .inr ⟨rfl, rfl, rfl⟩
  | cons target rest => exact .inl ⟨rfl, by simp⟩

end Graph

namespace Compile

variable [Processor κ] {registry : Registry κ} {config : Config} {prototype : Prototype}
  {room : Nat} {graph : Graph (Nested κ room)}

theorem Reachable.due_eq (reachable : Reachable registry config prototype graph)
    (emissions : List (Nat × Emission)) :
    graph.circuit.routes.due emissions = (endpointsOf registry prototype).due emissions := by
  simp only [EventRoutes.due, Endpoints.due, reachable.targets_eq]

theorem Reachable.opening_eq (reachable : Reachable registry config prototype graph)
    (call : Call) : graph.circuit.opening call = (endpointsOf registry prototype).opening call := by
  cases call with
  | post id => simp only [Circuit.opening, Endpoints.opening, reachable.entrance_eq]
  | _ => rfl

theorem Reachable.opening_ne_nil_iff (reachable : Reachable registry config prototype graph)
    (id : Identifier) :
    graph.circuit.entrance id ≠ [] ↔
      ∃ connection ∈ prototype.connections, connection.kind.isEvent = true ∧
        connection.kind.sourceScope = .graph ∧ (connection.source.endpoint == id) = true := by
  rcases reachable.circuit_eq with ⟨wires, order, wired, -⟩
  rw [reachable.entrance_eq]
  exact Endpoints.targetsFrom_graphInput_ne_nil_iff wired.looked id

/-- Delivery is a bounded broadcast, first come first served. Every call on a
graph delivers what it asks for itself, then what the first event fired in the
graph calls for, then what the second one does, and so on up to the budget. A
posted event is taken exactly if an event connection starts at it; otherwise the
graph stays as it is. -/
theorem Reachable.delivers_in_order (reachable : Reachable registry config prototype graph) :
    (∀ call, deliveriesOf (graph.perform call).2.2.toList =
      ((endpointsOf registry prototype).opening call ++ (endpointsOf registry prototype).due
        (emissionsOf (graph.perform call).2.2.toList)).take config.maxEventHops.toNat) ∧
    ∀ id,
      ((graph.perform (.post id)).2.1 = .accepted true ↔
        ∃ connection ∈ prototype.connections, connection.kind.isEvent = true ∧
          connection.kind.sourceScope = .graph ∧ (connection.source.endpoint == id) = true) ∧
      ((graph.perform (.post id)).2.1 ≠ .accepted true →
        (graph.perform (.post id)).2.1 = .accepted false ∧
          (graph.perform (.post id)).1 = graph) := by
  constructor
  · intro call
    rw [← reachable.opening_eq, ← reachable.due_eq, ← reachable.hopLimit_eq]
    exact graph.perform_broadcast call
  · intro id
    rw [← reachable.opening_ne_nil_iff]
    rcases graph.perform_post id with ⟨taken, leads⟩ | ⟨refused, unchanged, leadsNowhere⟩
    · exact ⟨⟨fun _ => leads, fun _ => taken⟩, fun notTaken => absurd taken notTaken⟩
    · refine ⟨⟨fun taken => ?_, fun leads => absurd leadsNowhere leads⟩,
        fun _ => ⟨refused, unchanged⟩⟩
      rw [refused] at taken
      cases taken

/-- A graph of one node that fires at itself: an event that enters the graph
goes round until the budget ends. -/
def roundabout : Prototype where
  name := "Ring"
  id := 0
  inputs := [⟨.named "Start", .void⟩]
  outputs := []
  locals := []
  nodes := [⟨.named "Get (Int)", 1, [], none⟩]
  connections := [
    ⟨⟨graphNodeId, .named "Start"⟩, ⟨1, .named "Trigger"⟩, .graphEventToNode⟩,
    ⟨⟨1, .named "OnTrigger"⟩, ⟨1, .named "Trigger"⟩, .nodeEventToNode⟩]

/-- The only node type of `roundabout`. -/
def elements : Registry StandardNode :=
  ⟨[(.named "Get (Int)", fun _ => .element (.number .int))]⟩

theorem roundabout_delivers_in_order :
    ∃ graph : Graph (Nested StandardNode 0),
      Reachable elements Config.default roundabout graph ∧
      (graph.perform (.post (.named "Start"))).2.1 = .accepted true ∧
      deliveriesOf (graph.perform (.post (.named "Start"))).2.2.toList =
        ((endpointsOf elements roundabout).opening (.post (.named "Start")) ++
          (endpointsOf elements roundabout).due (emissionsOf
            (graph.perform (.post (.named "Start"))).2.2.toList)).take 256 := by
  have compiles : (build elements Config.default 0 roundabout).outcome.isOk = true := by
    decide +kernel
  cases compiled : (build elements Config.default 0 roundabout).outcome with
  | error error => simp [compiled, Except.isOk, Except.toBool] at compiles
  | ok graph =>
      have reachable : Reachable elements Config.default roundabout graph :=
        ⟨graph, [], compiled, rfl⟩
      refine ⟨graph, reachable, (reachable.delivers_in_order.2 _).1.mpr ?_,
        reachable.delivers_in_order.1 _⟩
      exact ⟨_, .head _, rfl, rfl, by decide⟩

end Compile

end NodeGraph
