import NodeGraph.Host
import NodeGraph.Proofs.Circuit
import NodeGraph.Proofs.Panel

namespace NodeGraph

/-! What every call leaves as it is: the circuit, the number of nodes and the
number of slots. A call into a graph does nothing but run nodes and queue output
events, so what these two keep is kept by every call. -/

/-! ## Single nodes -/

/-- What the node sees if the slots hold these values. -/
def Placement.window (placement : Placement) (values : Array Value) : Panel where
  values
  inputs := placement.inputs
  outputs := placement.outputs

namespace State

variable {circuit : Circuit} {index : Nat} {program : Cell ν → Program (Cell ν)}

theorem runCell_eq {placement : Placement} {cell : Cell ν} {state : State ν}
    (placed : circuit.placements[index]? = some placement)
    (present : state.cells[index]? = some cell) :
    (state.runCell circuit index program).1 =
      let ran := (program cell).run
        { values := state.values, inputs := placement.inputs, outputs := placement.outputs }
      { state with
        cells := state.cells.setIfInBounds index ran.1
        values := ran.2.values } := by
  simp [runCell, placed, present]

/-- What a node does to the state, seen through its window. -/
theorem runCell_window {placement : Placement} {cell : Cell ν} {state : State ν}
    (placed : circuit.placements[index]? = some placement)
    (present : state.cells[index]? = some cell) :
    (state.runCell circuit index program).1 =
      let ran := (program cell).run (placement.window state.values)
      { state with
        cells := state.cells.setIfInBounds index ran.1
        values := ran.2.values } :=
  runCell_eq placed present

/-- What the node fires and what happens inside it. -/
theorem runCell_fired {placement : Placement} {cell : Cell ν} {state : State ν}
    (placed : circuit.placements[index]? = some placement)
    (present : state.cells[index]? = some cell) :
    (state.runCell circuit index program).2 =
      let ran := (program cell).run (placement.window state.values)
      (ran.2.emitted, ran.2.journal) := by
  simp [runCell, placed, present, Placement.window]

theorem runCell_cases (circuit : Circuit) (index : Nat) (program : Cell ν → Program (Cell ν))
    (state : State ν) :
    (∃ placement cell, circuit.placements[index]? = some placement ∧
      state.cells[index]? = some cell) ∨
    state.runCell circuit index program = (state, #[], #[]) := by
  unfold runCell
  split
  next placement cell placed present => exact .inl ⟨placement, cell, placed, present⟩
  next => exact .inr rfl

@[simp] theorem runCell_cells_size (state : State ν) :
    (state.runCell circuit index program).1.cells.size = state.cells.size := by
  rcases state.runCell_cases circuit index program with
    ⟨placement, cell, placed, present⟩ | unchanged
  · simp [runCell_eq placed present]
  · rw [unchanged]

@[simp] theorem runCell_values_size (state : State ν) :
    (state.runCell circuit index program).1.values.size = state.values.size := by
  rcases state.runCell_cases circuit index program with
    ⟨placement, cell, placed, present⟩ | unchanged
  · simp [runCell_eq placed present]
  · rw [unchanged]

/-- Running a node leaves the other nodes alone. -/
theorem runCell_other (state : State ν) {other : Nat} (different : other ≠ index) :
    (state.runCell circuit index program).1.cells[other]? = state.cells[other]? := by
  rcases state.runCell_cases circuit index program with
    ⟨placement, cell, placed, present⟩ | unchanged
  · simp [runCell_eq placed present, Array.getElem?_setIfInBounds_ne different.symm]
  · rw [unchanged]

/-- Running a node writes the slots of its output plugs only. -/
theorem runCell_unwritten (state : State ν) {slot : Slot}
    (unwritten : slot ∉ circuit.outputsAt index) :
    (state.runCell circuit index program).1.values[slot]? = state.values[slot]? := by
  rcases state.runCell_cases circuit index program with
    ⟨placement, cell, placed, present⟩ | unchanged
  · rw [Circuit.outputsAt_eq placed] at unwritten
    rw [runCell_eq placed present]
    exact Program.run_unwritten (program cell) unwritten
  · rw [unchanged]

end State

/-- Where values flow forward, every node owns what it writes. -/
theorem Circuit.FlowsForward.ownsOutputs {circuit : Circuit} (flows : circuit.FlowsForward)
    {index : Nat} {placement : Placement} (placed : circuit.placements[index]? = some placement)
    {values : Array Value} (sized : values.size = circuit.defaults.size) :
    Panel.OwnsOutputs
      { values, inputs := placement.inputs, outputs := placement.outputs } where
  nodup := outputsAt_eq placed ▸ flows.outputs_nodup index
  bounded slot written :=
    sized ▸ flows.outputs_bounded index slot (by rwa [outputsAt_eq placed])
  apart slot written read :=
    flows.notSelf index ⟨slot, by rwa [outputsAt_eq placed], by rwa [inputsAt_eq placed]⟩

/-! ## Turns -/

/-- What may happen to a node of a graph in a turn. -/
inductive Happening where
  | init (context : Context)
  | process (timeStep : Binary32)
  | onEvent (input : Nat) (event : Identifier)

/-- What the node does then. -/
def Happening.program [Processor ν] : Happening → Cell ν → Program (Cell ν)
  | .init context, cell => do
      let node ← Processor.init context cell.node
      pure { cell with node }
  | .process timeStep, cell => do
      let (node, consumed) ← Processor.process timeStep cell.node
      pure { node, consumed }
  | .onEvent input event, cell => do
      let node ← Processor.onEvent input event cell.node
      pure { cell with node }

/-- Whatever a graph with that circuit does in a turn, the property is kept. -/
structure Circuit.Turns [Processor ν] (circuit : Circuit) (holds : State ν → Prop) : Prop where
  runs : ∀ index (happening : Happening) state, holds state →
    holds (state.runCell circuit index happening.program).1
  queues : ∀ state id outgoing, circuit.LeadsTo (.graphOutput id) →
    state.outgoing.push? id = some outgoing → holds state → holds { state with outgoing }

/-- Parcels are under way along the routes of the circuit. -/
def Circuit.Routes (circuit : Circuit) (parcels : List Parcel) : Prop :=
  ∀ delivery ∈ Parcel.deliveries parcels, circuit.LeadsTo delivery.1

theorem Circuit.Routes.append {circuit : Circuit} {first second : List Parcel}
    (routes : circuit.Routes first) (routesLater : circuit.Routes second) :
    circuit.Routes (first ++ second) := by
  intro delivery member
  simp only [Parcel.deliveries, List.flatMap_append] at member
  exact (List.mem_append.mp member).elim (routes delivery) (routesLater delivery)

/-- A posted event is under way to where it enters. -/
theorem Circuit.routes_entrance (circuit : Circuit) (id : Identifier) :
    circuit.Routes [⟨id, circuit.entrance id⟩] := by
  intro delivery member
  simp only [Parcel.deliveries, List.flatMap_singleton, List.mem_map] at member
  rcases member with ⟨reached, listed, rfl⟩
  exact .inr ⟨id, listed⟩

namespace Turn

@[simp] theorem runCell_state (circuit : Circuit) (index : Nat)
    (program : Cell ν → Program (Cell ν)) (turn : Turn ν) :
    (turn.runCell circuit index program).1.state =
      (turn.state.runCell circuit index program).1 := rfl

theorem runCell_routes (circuit : Circuit) (index : Nat) (program : Cell ν → Program (Cell ν))
    (turn : Turn ν) : circuit.Routes (turn.runCell circuit index program).2 := by
  intro delivery member
  simp only [runCell, Parcel.deliveries, List.mem_flatMap, List.mem_map] at member
  rcases member with ⟨_, ⟨emission, -, rfl⟩, target, routed, rfl⟩
  exact .inl ⟨index, emission.output, routed⟩

variable [Processor ν] {circuit : Circuit} {holds : State ν → Prop}

theorem visit_eq (circuit : Circuit) (program : Cell ν → Program (Cell ν)) (turn : Turn ν)
    (index : Nat) :
    visit circuit program turn index =
      settle circuit (turn.runCell circuit index program).1.state
        (turn.runCell circuit index program).1.journal
        (turn.runCell circuit index program).1.hops (turn.runCell circuit index program).2 := rfl

/-- Parcels that are for nobody change nothing and cost nothing. -/
theorem settle_nothing (circuit : Circuit) (state : State ν) (journal : Array Entry)
    (hops : Nat) {parcels : List Parcel} (nothing : Parcel.deliveries parcels = []) :
    settle circuit state journal hops parcels = { state, hops, journal } := by
  unfold settle
  cases isNext : Parcel.next? parcels with
  | none => rfl
  | some delivery =>
      rw [Parcel.deliveries_of_next?_eq_some isNext] at nothing
      cases nothing

theorem deliver_routes (circuit : Circuit) (target : Target) (event : Identifier)
    (turn : Turn ν) : circuit.Routes (deliver circuit target event turn).2 := by
  cases target with
  | graphOutput id =>
      simp only [deliver]
      split <;> simp [Circuit.Routes, Parcel.deliveries]
  | node index input => exact runCell_routes circuit index _ _

theorem deliver_keeps (keeps : circuit.Turns holds) {target : Target}
    (leads : circuit.LeadsTo target) (event : Identifier) (turn : Turn ν)
    (before : holds turn.state) : holds (deliver circuit target event turn).1.state := by
  cases target with
  | graphOutput id =>
      simp only [deliver]
      split
      next outgoing queued => exact keeps.queues _ id outgoing leads queued before
      next => exact before
  | node index input => exact keeps.runs index (.onEvent input event) turn.state before

theorem settle_keeps (keeps : circuit.Turns holds) (state : State ν) (journal : Array Entry)
    (hops : Nat) {parcels : List Parcel} (routes : circuit.Routes parcels)
    (before : holds state) : holds (settle circuit state journal hops parcels).state := by
  induction hops generalizing state journal parcels with
  | zero =>
      unfold settle
      cases Parcel.next? parcels <;> exact before
  | succ hops induction =>
      unfold settle
      cases isNext : Parcel.next? parcels with
      | none => exact before
      | some delivery =>
          rw [Circuit.Routes, Parcel.deliveries_of_next?_eq_some isNext] at routes
          have leads : circuit.LeadsTo delivery.target := routes _ (.head _)
          have rest : circuit.Routes delivery.rest := fun later member =>
            routes later (.tail _ member)
          exact induction _ _ (rest.append (deliver_routes _ _ _ _))
            (deliver_keeps keeps leads _ _ before)

theorem visits_keep (keeps : circuit.Turns holds) (happening : Happening) (turn : Turn ν)
    (indices : List Nat) (before : holds turn.state) :
    holds (indices.foldl (visit circuit happening.program) turn).state := by
  induction indices generalizing turn with
  | nil => exact before
  | cons index indices induction =>
      exact induction _ (settle_keeps keeps _ _ _ (runCell_routes circuit index _ turn)
        (keeps.runs index happening _ before))

end Turn

/-! ## Calls -/

/-- Whatever is done to a graph with that circuit, the property is kept. -/
structure Circuit.Keeps [Processor ν] (circuit : Circuit) (holds : State ν → Prop) : Prop
    extends circuit.Turns holds where
  sets : ∀ state slot value, holds state →
    holds { state with values := state.values.setIfInBounds slot value }
  drains : ∀ state, holds state → holds { state with outgoing := state.outgoing.clear }
  resets : ∀ state, holds state → holds (Graph.reset ⟨circuit, state⟩).state

namespace Graph

variable [Processor ν] {graph : Graph ν}

@[simp] theorem perform_circuit (graph : Graph ν) (call : Call) :
    (graph.perform call).1.circuit = graph.circuit := by
  cases call with
  | setInput id value =>
      simp only [perform, setInput?]
      cases graph.circuit.inputSlot? id <;> rfl
  | setLocal id value =>
      simp only [perform, setLocal?]
      cases graph.circuit.localSlot? id <;> rfl
  | post id =>
      simp only [perform, post?]
      cases graph.circuit.entrance id <;> rfl
  | process timeStep => rfl
  | drain => rfl
  | reset => rfl
  | init context => rfl

/-- What turns keep, a call keeps as well if setting an input or a local variable,
draining the queue and rewinding do. -/
theorem perform_keeps_of_turns {holds : State ν → Prop} (keeps : graph.circuit.Turns holds)
    (sets : ∀ state id slot value,
      graph.circuit.inputSlot? id = some slot ∨ graph.circuit.localSlot? id = some slot →
      holds state → holds { state with values := state.values.setIfInBounds slot value })
    (drains : ∀ state, holds state → holds { state with outgoing := state.outgoing.clear })
    (resets : ∀ state, holds state → holds (Graph.reset ⟨graph.circuit, state⟩).state)
    (before : holds graph.state) (call : Call) : holds (graph.perform call).1.state := by
  cases call with
  | setInput id value =>
      simp only [perform, setInput?]
      cases located : graph.circuit.inputSlot? id with
      | none => exact before
      | some slot => exact sets graph.state id slot value (.inl located) before
  | setLocal id value =>
      simp only [perform, setLocal?]
      cases located : graph.circuit.localSlot? id with
      | none => exact before
      | some slot => exact sets graph.state id slot value (.inr located) before
  | process timeStep => exact Turn.visits_keep keeps (.process timeStep) _ _ before
  | post id =>
      simp only [perform, post?]
      cases leads : graph.circuit.entrance id with
      | nil => exact before
      | cons target targets =>
          have routes := graph.circuit.routes_entrance id
          rw [leads] at routes
          exact Turn.settle_keeps keeps _ _ _ routes before
  | drain => exact drains graph.state before
  | reset => exact resets graph.state before
  | init context => exact Turn.visits_keep keeps (.init context) _ _ before

theorem perform_keeps {holds : State ν → Prop} (keeps : graph.circuit.Keeps holds)
    (before : holds graph.state) (call : Call) : holds (graph.perform call).1.state :=
  perform_keeps_of_turns keeps.toTurns (fun state _ slot value _ => keeps.sets state slot value)
    keeps.drains keeps.resets before call

@[simp] theorem afterCalls_circuit (graph : Graph ν) (calls : List Call) :
    (graph.afterCalls calls).circuit = graph.circuit := by
  unfold afterCalls
  induction calls generalizing graph with
  | nil => rfl
  | cons call calls induction => rw [List.foldl_cons, induction, perform_circuit]

/-- What turns, setting, draining and rewinding keep, any calls keep. -/
theorem afterCalls_keeps_of_turns {holds : State ν → Prop} (keeps : graph.circuit.Turns holds)
    (sets : ∀ state id slot value,
      graph.circuit.inputSlot? id = some slot ∨ graph.circuit.localSlot? id = some slot →
      holds state → holds { state with values := state.values.setIfInBounds slot value })
    (drains : ∀ state, holds state → holds { state with outgoing := state.outgoing.clear })
    (resets : ∀ state, holds state → holds (Graph.reset ⟨graph.circuit, state⟩).state)
    (before : holds graph.state) (calls : List Call) :
    holds (graph.afterCalls calls).state := by
  unfold afterCalls
  induction calls generalizing graph with
  | nil => exact before
  | cons call calls induction =>
      have after := perform_keeps_of_turns keeps sets drains resets before call
      have same := graph.perform_circuit call
      exact induction (same ▸ keeps) (same ▸ sets) (same ▸ resets) after

theorem afterCalls_keeps {holds : State ν → Prop} (keeps : graph.circuit.Keeps holds)
    (before : holds graph.state) (calls : List Call) :
    holds (graph.afterCalls calls).state :=
  afterCalls_keeps_of_turns keeps.toTurns (fun state _ slot value _ => keeps.sets state slot value)
    keeps.drains keeps.resets before calls

end Graph

/-! ## Sizes -/

/-- A state has a cell for every node and a value for every slot. -/
structure State.Fits (circuit : Circuit) (state : State ν) : Prop where
  cells : state.cells.size = circuit.placements.size
  values : state.values.size = circuit.defaults.size

theorem State.Fits.runCell {circuit : Circuit} {state : State ν} (fits : state.Fits circuit)
    (index : Nat) (program : Cell ν → Program (Cell ν)) :
    (state.runCell circuit index program).1.Fits circuit :=
  ⟨by simpa using fits.cells, by simpa using fits.values⟩

theorem Circuit.keeps_fits [Processor ν] (circuit : Circuit) :
    circuit.Keeps (State.Fits (ν := ν) circuit) where
  runs index happening state fits := fits.runCell index happening.program
  queues state id outgoing _ _ fits := ⟨fits.cells, fits.values⟩
  sets state slot value fits := ⟨fits.cells, by simpa using fits.values⟩
  drains state fits := ⟨fits.cells, fits.values⟩
  resets state fits := ⟨by simpa [Graph.reset] using fits.cells, rfl⟩

/-! ## The outgoing queue -/

/-- A queue of that capacity that holds no more than its capacity. -/
structure OutgoingQueue.Within (capacity : Nat) (queue : OutgoingQueue) : Prop where
  capacity_eq : queue.capacity = capacity
  length_le : queue.waiting.length ≤ capacity

theorem OutgoingQueue.Within.push? {capacity : Nat} {queue pushed : OutgoingQueue}
    {event : Identifier} (within : queue.Within capacity)
    (queued : queue.push? event = some pushed) : pushed.Within capacity := by
  unfold OutgoingQueue.push? at queued
  split at queued
  next room =>
    rw [Option.some.injEq] at queued
    subst queued
    refine ⟨within.capacity_eq, ?_⟩
    rw [List.length_append, List.length_singleton]
    exact within.capacity_eq ▸ room
  next => cases queued

theorem OutgoingQueue.Within.clear {capacity : Nat} {queue : OutgoingQueue}
    (within : queue.Within capacity) : queue.clear.Within capacity :=
  ⟨within.capacity_eq, Nat.zero_le _⟩

theorem State.runCell_outgoing (circuit : Circuit) (index : Nat)
    (program : Cell ν → Program (Cell ν)) (state : State ν) :
    (state.runCell circuit index program).1.outgoing = state.outgoing := by
  rcases state.runCell_cases circuit index program with
    ⟨placement, cell, placed, present⟩ | unchanged
  · rw [runCell_eq placed present]
  · rw [unchanged]

theorem Circuit.keeps_within [Processor ν] (circuit : Circuit) (capacity : Nat) :
    circuit.Keeps fun state : State ν => state.outgoing.Within capacity where
  runs index happening state within := by
    rw [State.runCell_outgoing]
    exact within
  queues state id outgoing _ queued within := within.push? queued
  sets state slot value within := within
  drains state within := within.clear
  resets state within := within.clear

/-! ## Graphs to which nothing has happened -/

namespace Graph

/-- A graph to which nothing has happened holds the nodes that it was made of. -/
theorem pristine_cell {circuit : Circuit} {capacity : Nat} {nodes : List ν} {index : Nat}
    {cell : Cell ν} :
    (pristine circuit capacity nodes).state.cells[index]? = some cell ↔
      ∃ node, nodes[index]? = some node ∧ cell = { node } := by
  show (nodes.map _).toArray[index]? = some cell ↔ _
  rw [List.getElem?_toArray, List.getElem?_map, Option.map_eq_some_iff]
  simp only [eq_comm]

theorem pristine_fits {circuit : Circuit} {capacity : Nat} {nodes : List ν}
    (complete : nodes.length = circuit.placements.size) :
    (pristine circuit capacity nodes).state.Fits circuit :=
  ⟨by simpa [pristine] using complete, rfl⟩

end Graph

end NodeGraph
