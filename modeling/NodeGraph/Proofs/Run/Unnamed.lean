import NodeGraph.Proofs.Run.Crossing
import NodeGraph.Proofs.Stored.Unnamed

namespace NodeGraph

/-! Graphs that differ in the names that identifiers remember. Identifiers are
looked up by hash, so what a graph does to nodes that are the same up to names is
the same up to names. What is on record of it is left out: records show names. -/

/-! ## Leaving out names -/

@[simp] theorem Identifier.unnamed_beq_unnamed (left right : Identifier) :
    (left.unnamed == right.unnamed) = (left == right) := rfl

def Target.unnamed : Target → Target
  | .node index input => .node index input
  | .graphOutput id => .graphOutput id.unnamed

def Emission.unnamed (emission : Emission) : Emission :=
  ⟨emission.output, emission.event.unnamed⟩

def EventRoutes.unnamed (routes : EventRoutes) : EventRoutes :=
  ⟨routes.rows.map (List.map (List.map Target.unnamed))⟩

def OutgoingQueue.unnamed (queue : OutgoingQueue) : OutgoingQueue :=
  ⟨queue.waiting.map Identifier.unnamed, queue.capacity⟩

def Parcel.unnamed (parcel : Parcel) : Parcel :=
  ⟨parcel.event.unnamed, parcel.targets.map Target.unnamed⟩

def Parcel.Delivery.unnamed (delivery : Delivery) : Delivery :=
  ⟨delivery.target.unnamed, delivery.event.unnamed, delivery.rest.map Parcel.unnamed⟩

def Layout.unnamed (layout : Layout) : Layout where
  inputs := layout.inputs.map Endpoint.unnamed
  outputs := layout.outputs.map Endpoint.unnamed
  inputEvents := layout.inputEvents.map Identifier.unnamed
  outputEvents := layout.outputEvents.map Identifier.unnamed

/-- The slots of endpoints without the names of these. -/
def unnamedSlots (declared : List (Identifier × Slot)) : List (Identifier × Slot) :=
  declared.map fun entry => (entry.1.unnamed, entry.2)

def Circuit.unnamed (circuit : Circuit) : Circuit :=
  { circuit with
    inputs := unnamedSlots circuit.inputs
    locals := unnamedSlots circuit.locals
    outputs := unnamedSlots circuit.outputs
    routes := circuit.routes.unnamed
    entrances := circuit.entrances.map fun entry => (entry.1.unnamed, entry.2.unnamed) }

def Answer.unnamed : Answer → Answer
  | .accepted yes => .accepted yes
  | .consumed amount => .consumed amount
  | .events ids => .events (ids.map Identifier.unnamed)
  | .done => .done

/-- Calls that are the same but for the names of what they are about. -/
inductive Call.UpToNames : Call → Call → Prop
  | setInput {id other : Identifier} (ids : (id == other) = true) (value : Value) :
      UpToNames (.setInput id value) (.setInput other value)
  | setLocal {id other : Identifier} (ids : (id == other) = true) (value : Value) :
      UpToNames (.setLocal id value) (.setLocal other value)
  | process (timeStep : Binary32) : UpToNames (.process timeStep) (.process timeStep)
  | post {id other : Identifier} (ids : (id == other) = true) : UpToNames (.post id) (.post other)
  | drain : UpToNames .drain .drain
  | reset : UpToNames .reset .reset
  | init (context : Context) : UpToNames (.init context) (.init context)

/-! ## Lists and options that are the same after a change -/

theorem map_eq_iff_forall₂ {change : α → β} {lefts rights : List α} :
    lefts.map change = rights.map change ↔
      List.Forall₂ (fun left right => change left = change right) lefts rights := by
  rw [← List.forall₂_eq_eq_eq, List.forall₂_map_left_iff, List.forall₂_map_right_iff]

theorem option_rel_of_map_eq {change : α → β} {left right : Option α}
    (same : left.map change = right.map change) :
    Option.Rel (fun left right => change left = change right) left right := by
  cases left <;> cases right
  case none.none => exact .none
  case none.some => cases same
  case some.none => cases same
  case some.some => exact .some (Option.some.inj same)

/-! ## Looking up without names -/

namespace Layout

theorem inputIndex?_unnamed (layout : Layout) (id : Identifier) :
    layout.unnamed.inputIndex? id.unnamed = layout.inputIndex? id := by
  simp only [inputIndex?, unnamed, List.findIdx?_map]
  rfl

theorem outputIndex?_unnamed (layout : Layout) (id : Identifier) :
    layout.unnamed.outputIndex? id.unnamed = layout.outputIndex? id := by
  simp only [outputIndex?, unnamed, List.findIdx?_map]
  rfl

theorem inputEventIndex?_unnamed (layout : Layout) (id : Identifier) :
    layout.unnamed.inputEventIndex? id.unnamed = layout.inputEventIndex? id := by
  simp only [inputEventIndex?, unnamed, List.findIdx?_map]
  rfl

theorem outputEventIndex?_unnamed (layout : Layout) (id : Identifier) :
    layout.unnamed.outputEventIndex? id.unnamed = layout.outputEventIndex? id := by
  simp only [outputEventIndex?, unnamed, List.findIdx?_map]
  rfl

end Layout

theorem EventRoutes.targets_unnamed (routes : EventRoutes) (node output : Nat) :
    routes.unnamed.targets node output = (routes.targets node output).map Target.unnamed := by
  simp only [targets, unnamed, List.getElem?_map]
  cases routes.rows[node]? with
  | none => rfl
  | some events =>
      simp only [Option.map_some, List.getElem?_map]
      cases events[output]? <;> rfl

theorem Parcel.unnamed_ofEmission (routes : EventRoutes) (node : Nat) (emission : Emission) :
    (ofEmission routes node emission).unnamed =
      ofEmission routes.unnamed node emission.unnamed := by
  simp only [ofEmission, unnamed, Emission.unnamed, EventRoutes.targets_unnamed]

theorem Parcel.next?_unnamed (parcels : List Parcel) :
    next? (parcels.map Parcel.unnamed) = (next? parcels).map Delivery.unnamed := by
  induction parcels with
  | nil => rfl
  | cons parcel later induction =>
      obtain ⟨event, targets⟩ := parcel
      cases targets with
      | nil => exact induction
      | cons target targets => rfl

theorem Parcel.next?_upToNames {parcels others : List Parcel}
    (same : parcels.map Parcel.unnamed = others.map Parcel.unnamed) :
    Option.Rel (fun delivery other : Delivery => delivery.unnamed = other.unnamed)
      (next? parcels) (next? others) := by
  apply option_rel_of_map_eq
  rw [← next?_unnamed, ← next?_unnamed, same]

theorem OutgoingQueue.push?_unnamed (queue : OutgoingQueue) (event : Identifier) :
    queue.unnamed.push? event.unnamed = (queue.push? event).map unnamed := by
  have size : queue.unnamed.size = queue.size := List.length_map _
  unfold push?
  rw [size]
  by_cases room : queue.size < queue.capacity
  · rw [if_pos room]
    show (if queue.size < queue.capacity then _ else none) = _
    rw [if_pos room]
    simp [unnamed]
  · rw [if_neg room]
    show (if queue.size < queue.capacity then _ else none) = _
    rw [if_neg room]
    rfl

namespace Circuit

theorem unnamed_eq_iff {left right : Circuit} :
    left.unnamed = right.unnamed ↔ left.name = right.name ∧ left.placements = right.placements ∧
      left.order = right.order ∧ left.defaults = right.defaults ∧
      unnamedSlots left.inputs = unnamedSlots right.inputs ∧
      unnamedSlots left.locals = unnamedSlots right.locals ∧
      unnamedSlots left.outputs = unnamedSlots right.outputs ∧
      left.routes.unnamed = right.routes.unnamed ∧
      (left.entrances.map fun entry => (entry.1.unnamed, entry.2.unnamed)) =
        (right.entrances.map fun entry => (entry.1.unnamed, entry.2.unnamed)) ∧
      left.hopLimit = right.hopLimit :=
  Eq.to_iff (Circuit.mk.injEq ..)

theorem lastSlot?_unnamed (declared : List (Identifier × Slot)) (id : Identifier) :
    lastSlot? (unnamedSlots declared) id.unnamed = lastSlot? declared id := by
  unfold lastSlot? unnamedSlots
  rw [← List.map_reverse, List.find?_map, Option.map_map]
  rfl

theorem inputSlot?_unnamed (circuit : Circuit) (id : Identifier) :
    circuit.unnamed.inputSlot? id.unnamed = circuit.inputSlot? id :=
  lastSlot?_unnamed circuit.inputs id

theorem localSlot?_unnamed (circuit : Circuit) (id : Identifier) :
    circuit.unnamed.localSlot? id.unnamed = circuit.localSlot? id :=
  lastSlot?_unnamed circuit.locals id

theorem outputSlot?_unnamed (circuit : Circuit) (id : Identifier) :
    circuit.unnamed.outputSlot? id.unnamed = circuit.outputSlot? id := by
  simp only [outputSlot?, unnamed, unnamedSlots, List.find?_map, Option.map_map]
  rfl

theorem entrance_unnamed (circuit : Circuit) (id : Identifier) :
    circuit.unnamed.entrance id.unnamed = (circuit.entrance id).map Target.unnamed := by
  simp only [entrance, unnamed, List.filter_map, List.map_map]
  rfl

section
variable {left right : Circuit} {id other : Identifier}

theorem inputSlot?_upToNames (circuits : left.unnamed = right.unnamed)
    (ids : (id == other) = true) : left.inputSlot? id = right.inputSlot? other := by
  rw [Identifier.beq_iff_unnamed] at ids
  rw [← inputSlot?_unnamed left, ← inputSlot?_unnamed right, circuits, ids]

theorem localSlot?_upToNames (circuits : left.unnamed = right.unnamed)
    (ids : (id == other) = true) : left.localSlot? id = right.localSlot? other := by
  rw [Identifier.beq_iff_unnamed] at ids
  rw [← localSlot?_unnamed left, ← localSlot?_unnamed right, circuits, ids]

theorem outputSlot?_upToNames (circuits : left.unnamed = right.unnamed)
    (ids : (id == other) = true) : left.outputSlot? id = right.outputSlot? other := by
  rw [Identifier.beq_iff_unnamed] at ids
  rw [← outputSlot?_unnamed left, ← outputSlot?_unnamed right, circuits, ids]

theorem entrance_upToNames (circuits : left.unnamed = right.unnamed)
    (ids : (id == other) = true) :
    (left.entrance id).map Target.unnamed = (right.entrance other).map Target.unnamed := by
  rw [Identifier.beq_iff_unnamed] at ids
  rw [← entrance_unnamed, ← entrance_unnamed, circuits, ids]

end

end Circuit

/-! ## Programs -/

/-- Panels that differ in the names of events at most, whatever is on record. -/
structure Panel.UpToNames (left right : Panel) : Prop where
  values : left.values = right.values
  inputs : left.inputs = right.inputs
  outputs : left.outputs = right.outputs
  emitted : left.emitted.map Emission.unnamed = right.emitted.map Emission.unnamed

/-- Up to names, both programs do the same and end with results that are the
same. -/
def Program.UpToNames (same : α → β → Prop) (left : Program α) (right : Program β) : Prop :=
  ∀ leftPanel rightPanel, leftPanel.UpToNames rightPanel →
    same (left.run leftPanel).1 (right.run rightPanel).1 ∧
      (left.run leftPanel).2.UpToNames (right.run rightPanel).2

namespace Panel.UpToNames

variable {left right : Panel}

theorem valueAt (panels : left.UpToNames right) (slots : List Slot) (plug : Nat) :
    left.valueAt slots plug = right.valueAt slots plug := by
  simp only [Panel.valueAt, panels.values]

theorem input (panels : left.UpToNames right) (plug : Nat) : left.input plug = right.input plug := by
  rw [Panel.input, Panel.input, panels.inputs]
  exact panels.valueAt _ plug

theorem output (panels : left.UpToNames right) (plug : Nat) :
    left.output plug = right.output plug := by
  rw [Panel.output, Panel.output, panels.outputs]
  exact panels.valueAt _ plug

theorem setOutput (panels : left.UpToNames right) (plug : Nat) (value : Value) :
    (left.setOutput plug value).UpToNames (right.setOutput plug value) := by
  rcases left with ⟨values, inputs, outputs, leftEmitted, leftJournal⟩
  rcases right with ⟨_, _, _, rightEmitted, rightJournal⟩
  rcases panels with ⟨rfl, rfl, rfl, emitted⟩
  unfold Panel.setOutput
  cases outputs[plug]? with
  | none => exact ⟨rfl, rfl, rfl, emitted⟩
  | some slot => exact ⟨rfl, rfl, rfl, emitted⟩

theorem emit (panels : left.UpToNames right) {emission other : Emission}
    (emissions : emission.unnamed = other.unnamed) :
    (left.emit emission).UpToNames (right.emit other) := by
  refine ⟨panels.values, panels.inputs, panels.outputs, ?_⟩
  simp only [Panel.emit, Array.map_push, panels.emitted, emissions]

theorem report (panels : left.UpToNames right) (entry other : Entry) :
    (left.report entry).UpToNames (right.report other) :=
  ⟨panels.values, panels.inputs, panels.outputs, panels.emitted⟩

end Panel.UpToNames

namespace Program

/-- Programs do not see names. -/
theorem upToNames_self (program : Program α) : UpToNames Eq program program := by
  intro left right panels
  induction program generalizing left right with
  | done result => exact ⟨rfl, panels⟩
  | input plug next induction =>
      simp only [run, panels.input plug]
      exact induction _ left right panels
  | output plug next induction =>
      simp only [run, panels.output plug]
      exact induction _ left right panels
  | setOutput plug value next induction => exact induction _ _ (panels.setOutput plug value)
  | emit emission next induction => exact induction _ _ (panels.emit rfl)
  | report entry next induction => exact induction _ _ (panels.report entry entry)

theorem fire_upToNames (output : Nat) {event other : Identifier}
    (events : event.unnamed = other.unnamed) :
    UpToNames Eq (fire output event) (fire output other) := by
  intro left right panels
  exact ⟨rfl, panels.emit (by simp only [Emission.unnamed, events])⟩

theorem reportAll_upToNames (entries others : List Entry) :
    UpToNames Eq (reportAll entries) (reportAll others) := by
  intro left right panels
  refine ⟨rfl, ?_⟩
  rw [Subroutine.reportAll_run, Subroutine.reportAll_run]
  exact ⟨panels.values, panels.inputs, panels.outputs, panels.emitted⟩

namespace UpToNames

variable {same : α → β → Prop} {sameNext : γ → δ → Prop}

theorem pure {left : α} {right : β} (results : same left right) :
    UpToNames same (Pure.pure left) (Pure.pure right) :=
  fun _ _ panels => ⟨results, panels⟩

theorem bind {left : Program α} {right : Program β} {leftNext : α → Program γ}
    {rightNext : β → Program δ} (first : UpToNames same left right)
    (next : ∀ leftResult rightResult, same leftResult rightResult →
      UpToNames sameNext (leftNext leftResult) (rightNext rightResult)) :
    UpToNames sameNext (left >>= leftNext) (right >>= rightNext) := by
  intro leftPanel rightPanel panels
  rw [run_bind, run_bind]
  have ran := first leftPanel rightPanel panels
  exact next _ _ ran.1 _ _ ran.2

theorem map {left : Program α} {right : Program β} {leftChange : α → γ} {rightChange : β → δ}
    (first : UpToNames same left right)
    (change : ∀ leftResult rightResult, same leftResult rightResult →
      sameNext (leftChange leftResult) (rightChange rightResult)) :
    UpToNames sameNext (leftChange <$> left) (rightChange <$> right) := by
  intro leftPanel rightPanel panels
  rw [run_map, run_map]
  have ran := first leftPanel rightPanel panels
  exact ⟨change _ _ ran.1, ran.2⟩

end UpToNames

end Program

/-! ## Nodes -/

/-- Nodes that are the same up to names have plugs that are the same, do the same
and stay the same, up to names. -/
structure Processor.UpToNames [Processor ν] (same : ν → ν → Prop) : Prop where
  layout : ∀ left right, same left right →
    (Processor.layout left).unnamed = (Processor.layout right).unnamed
  init : ∀ context left right, same left right →
    Program.UpToNames same (Processor.init context left) (Processor.init context right)
  process : ∀ timeStep left right, same left right →
    Program.UpToNames (fun leftAfter rightAfter => same leftAfter.1 rightAfter.1 ∧
        leftAfter.2 = rightAfter.2)
      (Processor.process timeStep left) (Processor.process timeStep right)
  onEvent : ∀ input event other left right, (event == other) = true → same left right →
    Program.UpToNames same (Processor.onEvent input event left)
      (Processor.onEvent input other right)
  reset : ∀ left right, same left right → same (Processor.reset left) (Processor.reset right)

/-- Nodes that remember no names ignore them if they ignore those of events. -/
theorem Processor.UpToNames.of_onEvent [Processor ν]
    (onEvent : ∀ input event other (node : ν), (event == other) = true →
      Program.UpToNames Eq (Processor.onEvent input event node)
        (Processor.onEvent input other node)) :
    Processor.UpToNames (Eq : ν → ν → Prop) where
  layout left right same := by rw [same]
  init context left right same := by
    subst same
    exact Program.upToNames_self _
  process timeStep left right same := by
    subst same
    intro leftPanel rightPanel panels
    have ran := Program.upToNames_self (Processor.process timeStep left) _ _ panels
    exact ⟨⟨congrArg Prod.fst ran.1, congrArg Prod.snd ran.1⟩, ran.2⟩
  onEvent input event other left right events same := by
    subst same
    exact onEvent input event other left events
  reset left right same := congrArg Processor.reset same

/-! ## States -/

structure Cell.UpToNames (same : ν → ν → Prop) (left right : Cell ν) : Prop where
  node : same left.node right.node
  consumed : left.consumed = right.consumed

structure State.UpToNames (same : ν → ν → Prop) (left right : State ν) : Prop where
  cells : ∀ index : Nat, Option.Rel (Cell.UpToNames same) left.cells[index]? right.cells[index]?
  values : left.values = right.values
  outgoing : left.outgoing.unnamed = right.outgoing.unnamed

structure Turn.UpToNames (same : ν → ν → Prop) (left right : Turn ν) : Prop where
  state : left.state.UpToNames same right.state
  hops : left.hops = right.hops

structure Graph.UpToNames (same : ν → ν → Prop) (left right : Graph ν) : Prop where
  circuit : left.circuit.unnamed = right.circuit.unnamed
  state : left.state.UpToNames same right.state

/-- Whatever happens to nodes that are the same, they do the same. -/
theorem Processor.UpToNames.delivered [Processor ν] {same : ν → ν → Prop}
    (nodes : Processor.UpToNames same) (input : Nat) {event other : Identifier}
    (events : (event == other) = true) {left right : Cell ν} (cells : left.UpToNames same right) :
    Program.UpToNames (Cell.UpToNames same) ((Happening.onEvent input event).program left)
      ((Happening.onEvent input other).program right) := by
  apply (nodes.onEvent input event other _ _ events cells.node).bind
  intro _ _ after
  exact .pure ⟨after, cells.consumed⟩

theorem Processor.UpToNames.happening [Processor ν] {same : ν → ν → Prop}
    (nodes : Processor.UpToNames same) (happening : Happening) {left right : Cell ν}
    (cells : left.UpToNames same right) :
    Program.UpToNames (Cell.UpToNames same) (happening.program left)
      (happening.program right) := by
  cases happening with
  | init context =>
      apply (nodes.init context _ _ cells.node).bind
      intro _ _ after
      exact .pure ⟨after, cells.consumed⟩
  | process timeStep =>
      apply (nodes.process timeStep _ _ cells.node).bind
      intro _ _ after
      exact .pure ⟨after.1, after.2⟩
  | onEvent input event => exact nodes.delivered input BEq.rfl cells

namespace State.UpToNames

variable {same : ν → ν → Prop} {left right : State ν}

theorem consumedBy (states : left.UpToNames same right) (index : Nat) :
    left.consumedBy index = right.consumedBy index := by
  have held := states.cells index
  unfold State.consumedBy
  generalize left.cells[index]? = leftCell at held ⊢
  generalize right.cells[index]? = rightCell at held ⊢
  cases held with
  | none => rfl
  | some cells => exact cells.consumed

theorem size_eq (states : left.UpToNames same right) : left.cells.size = right.cells.size := by
  apply eq_of_forall_lt_iff
  intro index
  have held := states.cells index
  rw [← Nat.not_le, ← Nat.not_le, ← Array.getElem?_eq_none_iff, ← Array.getElem?_eq_none_iff]
  generalize left.cells[index]? = leftCell at held ⊢
  generalize right.cells[index]? = rightCell at held ⊢
  cases held <;> simp

theorem setCell (states : left.UpToNames same right) (index : Nat) {leftCell rightCell : Cell ν}
    (cells : leftCell.UpToNames same rightCell) (other : Nat) :
    Option.Rel (Cell.UpToNames same) (left.cells.setIfInBounds index leftCell)[other]?
      (right.cells.setIfInBounds index rightCell)[other]? := by
  rw [Array.getElem?_setIfInBounds, Array.getElem?_setIfInBounds, states.size_eq]
  by_cases here : index = other
  · rw [if_pos here, if_pos here]
    by_cases bound : index < right.cells.size
    · rw [if_pos bound, if_pos bound]
      exact .some cells
    · rw [if_neg bound, if_neg bound]
      exact .none
  · rw [if_neg here, if_neg here]
    exact states.cells other

/-- A node does the same in states that are the same. -/
theorem runCell (states : left.UpToNames same right) {leftCircuit rightCircuit : Circuit}
    (circuits : leftCircuit.unnamed = rightCircuit.unnamed) (index : Nat)
    {leftProgram rightProgram : Cell ν → Program (Cell ν)}
    (programs : ∀ leftCell rightCell, leftCell.UpToNames same rightCell →
      Program.UpToNames (Cell.UpToNames same) (leftProgram leftCell) (rightProgram rightCell)) :
    (left.runCell leftCircuit index leftProgram).1.UpToNames same
        (right.runCell rightCircuit index rightProgram).1 ∧
      (left.runCell leftCircuit index leftProgram).2.1.map Emission.unnamed =
        (right.runCell rightCircuit index rightProgram).2.1.map Emission.unnamed := by
  rcases Circuit.unnamed_eq_iff.mp circuits with ⟨-, placements, -⟩
  have held := states.cells index
  unfold State.runCell
  rw [placements]
  cases rightCircuit.placements[index]? with
  | none => exact ⟨states, rfl⟩
  | some placement =>
      generalize left.cells[index]? = leftHeld at held ⊢
      generalize right.cells[index]? = rightHeld at held ⊢
      cases held with
      | none => exact ⟨states, rfl⟩
      | some cells =>
          have ran := programs _ _ cells
            { values := left.values, inputs := placement.inputs, outputs := placement.outputs }
            { values := right.values, inputs := placement.inputs, outputs := placement.outputs }
            ⟨states.values, rfl, rfl, rfl⟩
          exact ⟨⟨states.setCell index ran.1, ran.2.values, states.outgoing⟩, ran.2.emitted⟩

end State.UpToNames

/-! ## Turns -/

section
variable [Processor ν] {same : ν → ν → Prop} {leftCircuit rightCircuit : Circuit}

namespace Turn

omit [Processor ν] in
theorem runCell_upToNames (circuits : leftCircuit.unnamed = rightCircuit.unnamed) (index : Nat)
    {leftProgram rightProgram : Cell ν → Program (Cell ν)}
    (programs : ∀ leftCell rightCell, leftCell.UpToNames same rightCell →
      Program.UpToNames (Cell.UpToNames same) (leftProgram leftCell) (rightProgram rightCell))
    {left right : Turn ν} (turns : left.UpToNames same right) :
    (left.runCell leftCircuit index leftProgram).1.UpToNames same
        (right.runCell rightCircuit index rightProgram).1 ∧
      (left.runCell leftCircuit index leftProgram).2.map Parcel.unnamed =
        (right.runCell rightCircuit index rightProgram).2.map Parcel.unnamed := by
  rcases Circuit.unnamed_eq_iff.mp circuits with ⟨-, -, -, -, -, -, -, routes, -⟩
  have ran := turns.state.runCell circuits index programs
  have fired := congrArg Array.toList ran.2
  rw [Array.toList_map, Array.toList_map] at fired
  refine ⟨⟨ran.1, turns.hops⟩, ?_⟩
  have parcels (circuit : Circuit) (emitted : List Emission) :
      (emitted.map (Parcel.ofEmission circuit.routes index)).map Parcel.unnamed =
        (emitted.map Emission.unnamed).map (Parcel.ofEmission circuit.routes.unnamed index) := by
    simp [Parcel.unnamed_ofEmission]
  simp only [runCell]
  rw [parcels, parcels, fired, routes]

theorem deliver_upToNames (nodes : Processor.UpToNames same)
    (circuits : leftCircuit.unnamed = rightCircuit.unnamed) {target otherTarget : Target}
    (targets : target.unnamed = otherTarget.unnamed) {event other : Identifier}
    (events : event.unnamed = other.unnamed) {left right : Turn ν}
    (turns : left.UpToNames same right) :
    (deliver leftCircuit target event left).1.UpToNames same
        (deliver rightCircuit otherTarget other right).1 ∧
      (deliver leftCircuit target event left).2.map Parcel.unnamed =
        (deliver rightCircuit otherTarget other right).2.map Parcel.unnamed := by
  cases target <;> cases otherTarget
  case node.graphOutput => cases targets
  case graphOutput.node => cases targets
  case node.node index input otherIndex otherInput =>
      cases targets
      exact runCell_upToNames circuits index
        (fun _ _ => nodes.delivered input ((Identifier.beq_iff_unnamed _ _).mpr events))
        ⟨turns.state, turns.hops⟩
  case graphOutput.graphOutput id otherId =>
      have ids : id.unnamed = otherId.unnamed := Target.graphOutput.inj targets
      have pushed : (left.state.outgoing.push? id).map OutgoingQueue.unnamed =
          (right.state.outgoing.push? otherId).map OutgoingQueue.unnamed := by
        rw [← OutgoingQueue.push?_unnamed, ← OutgoingQueue.push?_unnamed, ids,
          turns.state.outgoing]
      have pushed := option_rel_of_map_eq pushed
      simp only [deliver]
      generalize left.state.outgoing.push? id = leftQueue at pushed ⊢
      generalize right.state.outgoing.push? otherId = rightQueue at pushed ⊢
      cases pushed with
      | none => exact ⟨⟨turns.state, turns.hops⟩, rfl⟩
      | some queues => exact ⟨⟨⟨turns.state.cells, turns.state.values, queues⟩, turns.hops⟩, rfl⟩

/-- What is delivered next, and what that leaves, is the same up to names. -/
theorem settle_upToNames (nodes : Processor.UpToNames same)
    (circuits : leftCircuit.unnamed = rightCircuit.unnamed) {left right : State ν}
    (states : left.UpToNames same right) (leftJournal rightJournal : Array Entry) (hops : Nat)
    {leftParcels rightParcels : List Parcel}
    (parcels : leftParcels.map Parcel.unnamed = rightParcels.map Parcel.unnamed) :
    (settle leftCircuit left leftJournal hops leftParcels).UpToNames same
      (settle rightCircuit right rightJournal hops rightParcels) := by
  -- The parcels change with every delivery, so the induction is on the budget.
  induction hops generalizing left right leftJournal rightJournal leftParcels rightParcels with
  | zero =>
      have next := Parcel.next?_upToNames parcels
      unfold settle
      generalize Parcel.next? leftParcels = leftNext at next ⊢
      generalize Parcel.next? rightParcels = rightNext at next ⊢
      cases next with
      | none => exact ⟨states, rfl⟩
      | some => exact ⟨states, rfl⟩
  | succ hops induction =>
      have next := Parcel.next?_upToNames parcels
      unfold settle
      generalize Parcel.next? leftParcels = leftNext at next ⊢
      generalize Parcel.next? rightParcels = rightNext at next ⊢
      cases next with
      | none => exact ⟨states, rfl⟩
      | some deliveries =>
          rcases (Parcel.Delivery.mk.injEq ..).mp deliveries with ⟨targets, events, rests⟩
          have start : (⟨left, hops, leftJournal⟩ : Turn ν).UpToNames same
              ⟨right, hops, rightJournal⟩ := ⟨states, rfl⟩
          have delivered := deliver_upToNames nodes circuits targets events start
          refine induction delivered.1.state _ _ ?_
          rw [List.map_append, List.map_append, rests]
          exact congrArg _ delivered.2

theorem visits_upToNames (nodes : Processor.UpToNames same)
    (circuits : leftCircuit.unnamed = rightCircuit.unnamed) (happening : Happening)
    (indices : List Nat) {left right : Turn ν} (turns : left.UpToNames same right) :
    (indices.foldl (visit leftCircuit happening.program) left).UpToNames same
      (indices.foldl (visit rightCircuit happening.program) right) := by
  induction indices generalizing left right with
  | nil => exact turns
  | cons index indices induction =>
      apply induction
      have ran := runCell_upToNames circuits index (fun _ _ => nodes.happening happening) turns
      simp only [visit, ran.1.hops]
      exact settle_upToNames nodes circuits ran.1.state _ _ _ ran.2

end Turn

/-! ## Calls -/

namespace Graph.UpToNames

variable {left right : Graph ν}

omit [Processor ν] in
theorem readOutput? (graphs : left.UpToNames same right) {id other : Identifier}
    (ids : (id == other) = true) : left.readOutput? id = right.readOutput? other := by
  have slots := Circuit.outputSlot?_upToNames graphs.circuit ids
  simp only [Graph.readOutput?, slots, graphs.state.values]

omit [Processor ν] in
theorem orderIds (graphs : left.UpToNames same right) :
    left.circuit.orderIds = right.circuit.orderIds := by
  rcases Circuit.unnamed_eq_iff.mp graphs.circuit with ⟨-, placements, order, -⟩
  simp only [Circuit.orderIds, placements, order]

omit [Processor ν] in
theorem consumed? (graphs : left.UpToNames same right) (node : NodeId) :
    left.consumed? node = right.consumed? node := by
  rcases Circuit.unnamed_eq_iff.mp graphs.circuit with ⟨-, placements, -⟩
  have consumed : left.state.consumedBy = right.state.consumedBy :=
    funext graphs.state.consumedBy
  simp only [Graph.consumed?, Circuit.position?, placements, consumed]

omit [Processor ν] in
theorem mostConsumed (graphs : left.UpToNames same right) :
    left.mostConsumed = right.mostConsumed := by
  rcases Circuit.unnamed_eq_iff.mp graphs.circuit with ⟨-, -, order, -⟩
  simp only [Graph.mostConsumed, order, graphs.state.consumedBy]

omit [Processor ν] in
theorem setSlot (graphs : left.UpToNames same right) (slot : Slot) (value : Value) :
    (left.setSlot slot value).UpToNames same (right.setSlot slot value) :=
  ⟨graphs.circuit, graphs.state.cells,
    congrArg (fun values => values.setIfInBounds slot value) graphs.state.values,
    graphs.state.outgoing⟩

omit [Processor ν] in
theorem drain (graphs : left.UpToNames same right) :
    left.drain.1.map Identifier.unnamed = right.drain.1.map Identifier.unnamed ∧
      left.drain.2.UpToNames same right.drain.2 := by
  rcases (OutgoingQueue.mk.injEq ..).mp graphs.state.outgoing with ⟨waiting, capacity⟩
  exact ⟨waiting, graphs.circuit, graphs.state.cells, graphs.state.values,
    (OutgoingQueue.mk.injEq ..).mpr ⟨rfl, capacity⟩⟩

theorem sweep (nodes : Processor.UpToNames same) (graphs : left.UpToNames same right)
    (happening : Happening) :
    (left.sweep happening.program).UpToNames same (right.sweep happening.program) := by
  rcases Circuit.unnamed_eq_iff.mp graphs.circuit with
    ⟨-, -, order, -, -, -, -, -, -, hopLimit⟩
  unfold Graph.sweep
  rw [order]
  exact Turn.visits_upToNames nodes graphs.circuit happening _ ⟨graphs.state, hopLimit⟩

theorem init (nodes : Processor.UpToNames same) (graphs : left.UpToNames same right)
    (context : Context) : (left.init context).1.UpToNames same (right.init context).1 :=
  ⟨graphs.circuit, (graphs.sweep nodes (.init context)).state⟩

theorem process (nodes : Processor.UpToNames same) (graphs : left.UpToNames same right)
    (timeStep : Binary32) :
    (left.process timeStep).1.UpToNames same (right.process timeStep).1 ∧
      (left.process timeStep).2.1 = (right.process timeStep).2.1 := by
  have after : (left.process timeStep).1.UpToNames same (right.process timeStep).1 :=
    ⟨graphs.circuit, (graphs.sweep nodes (.process timeStep)).state⟩
  exact ⟨after, after.mostConsumed⟩

/-- An event is taken by both graphs or by neither. -/
theorem post? (nodes : Processor.UpToNames same) (graphs : left.UpToNames same right)
    {id other : Identifier} (ids : (id == other) = true) :
    (left.post? id = none ∧ right.post? other = none) ∨
      ∃ leftAfter rightAfter, left.post? id = some leftAfter ∧
        right.post? other = some rightAfter ∧ leftAfter.1.UpToNames same rightAfter.1 := by
  rcases Circuit.unnamed_eq_iff.mp graphs.circuit with
    ⟨-, -, -, -, -, -, -, -, -, hopLimit⟩
  have named := (Identifier.beq_iff_unnamed _ _).mp ids
  have targets := Circuit.entrance_upToNames graphs.circuit ids
  unfold Graph.post?
  cases leftTargets : left.circuit.entrance id <;>
    cases rightTargets : right.circuit.entrance other <;>
    rw [leftTargets, rightTargets] at targets
  case nil.nil => exact .inl ⟨rfl, rfl⟩
  case nil.cons => cases targets
  case cons.nil => cases targets
  case cons.cons =>
    refine .inr ⟨_, _, rfl, rfl, graphs.circuit, ?_⟩
    rw [hopLimit]
    refine (Turn.settle_upToNames nodes graphs.circuit graphs.state _ _ _ ?_).state
    simp only [List.map_cons, List.map_nil, Parcel.unnamed, named] at targets ⊢
    rw [targets]

theorem reset (nodes : Processor.UpToNames same) (graphs : left.UpToNames same right) :
    left.reset.UpToNames same right.reset := by
  rcases Circuit.unnamed_eq_iff.mp graphs.circuit with ⟨-, -, -, defaults, -⟩
  refine ⟨graphs.circuit, fun index => ?_, defaults, graphs.drain.2.state.outgoing⟩
  have held := graphs.state.cells index
  simp only [Graph.reset, Array.getElem?_map]
  generalize left.state.cells[index]? = leftCell at held ⊢
  generalize right.state.cells[index]? = rightCell at held ⊢
  cases held with
  | none => exact .none
  | some cells => exact .some ⟨nodes.reset _ _ cells.node, rfl⟩

/-- Calls that are the same up to names have answers that are the same up to names,
and leave graphs that are. -/
theorem perform (nodes : Processor.UpToNames same) (graphs : left.UpToNames same right)
    {call other : Call} (calls : call.UpToNames other) :
    (left.perform call).1.UpToNames same (right.perform other).1 ∧
      (left.perform call).2.1.unnamed = (right.perform other).2.1.unnamed := by
  cases calls with
  | @setInput id other ids value =>
      have slots := Circuit.inputSlot?_upToNames graphs.circuit ids
      simp only [Graph.perform, setInput?, slots]
      cases right.circuit.inputSlot? other with
      | none => exact ⟨graphs, rfl⟩
      | some slot => exact ⟨graphs.setSlot slot value, rfl⟩
  | @setLocal id other ids value =>
      have slots := Circuit.localSlot?_upToNames graphs.circuit ids
      simp only [Graph.perform, setLocal?, slots]
      cases right.circuit.localSlot? other with
      | none => exact ⟨graphs, rfl⟩
      | some slot => exact ⟨graphs.setSlot slot value, rfl⟩
  | process timeStep =>
      have ticked := graphs.process nodes timeStep
      exact ⟨ticked.1, congrArg Answer.consumed ticked.2⟩
  | @post id other ids =>
      simp only [Graph.perform]
      rcases graphs.post? nodes ids with
        ⟨leftRefused, rightRefused⟩ | ⟨_, _, leftPosted, rightPosted, after⟩
      · rw [leftRefused, rightRefused]
        exact ⟨graphs, rfl⟩
      · rw [leftPosted, rightPosted]
        exact ⟨after, rfl⟩
  | drain => exact ⟨graphs.drain.2, congrArg Answer.events graphs.drain.1⟩
  | reset => exact ⟨graphs.reset nodes, rfl⟩
  | init context => exact ⟨graphs.init nodes context, rfl⟩

theorem afterCalls (nodes : Processor.UpToNames same) (graphs : left.UpToNames same right)
    {calls others : List Call} (named : List.Forall₂ Call.UpToNames calls others) :
    (left.afterCalls calls).UpToNames same (right.afterCalls others) := by
  induction named generalizing left right with
  | nil => exact graphs
  | cons call _ induction => exact induction (graphs.perform nodes call).1

end Graph.UpToNames

end

end NodeGraph
