import NodeGraph.Proofs.Run.Subroutine

namespace NodeGraph

/-! Graphs that look the same. `look` and `other` say what is to be seen of nodes
of two types. If nodes that look the same do the same, then so do graphs that
look the same, node by node, and so do subroutines around such graphs. -/

/-! ## Programs -/

/-- On every panel both programs leave the same panel behind, and results that
look the same. -/
def Program.Alike (look : α → τ) (other : β → τ) (left : Program α) (right : Program β) : Prop :=
  ∀ panel, look (left.run panel).1 = other (right.run panel).1 ∧
    (left.run panel).2 = (right.run panel).2

namespace Program.Alike

variable {look : α → τ} {other : β → τ} {view : γ → σ} {otherView : δ → σ}

theorem pure {left : α} {right : β} (same : look left = other right) :
    Program.Alike look other (Pure.pure left) (Pure.pure right) :=
  fun _ => ⟨same, rfl⟩

theorem bind {left : Program α} {right : Program β} {leftNext : α → Program γ}
    {rightNext : β → Program δ} (first : Program.Alike look other left right)
    (next : ∀ leftResult rightResult, look leftResult = other rightResult →
      Program.Alike view otherView (leftNext leftResult) (rightNext rightResult)) :
    Program.Alike view otherView (left >>= leftNext) (right >>= rightNext) := by
  intro panel
  rw [run_bind, run_bind]
  have ran := first panel
  rw [ran.2]
  exact next _ _ ran.1 _

theorem map {left : Program α} {right : Program β} {leftChange : α → γ} {rightChange : β → δ}
    (first : Program.Alike look other left right)
    (change : ∀ leftResult rightResult, look leftResult = other rightResult →
      view (leftChange leftResult) = otherView (rightChange rightResult)) :
    Program.Alike view otherView (leftChange <$> left) (rightChange <$> right) := by
  intro panel
  rw [run_map, run_map]
  have ran := first panel
  exact ⟨change _ _ ran.1, ran.2⟩

/-- A change of one result that is not seen makes no difference. -/
theorem map_right {left : Program α} {right : Program β} {change : β → γ} {view : γ → τ}
    (alike : Program.Alike look other left right)
    (unseen : ∀ result, view (change result) = other result) :
    Program.Alike look view left (change <$> right) := by
  intro panel
  rw [run_map, unseen]
  exact alike panel

end Program.Alike

/-- A program is like itself. -/
theorem Program.alike_self (program : Program α) : Program.Alike id id program program :=
  fun _ => ⟨rfl, rfl⟩

/-! ## Nodes -/

/-- Nodes that look the same do the same, and look the same afterwards. -/
structure Processor.Alike [Processor ν] [Processor μ] (look : ν → τ) (other : μ → τ) : Prop where
  init : ∀ context left right, look left = other right →
    Program.Alike look other (Processor.init context left) (Processor.init context right)
  process : ∀ timeStep left right, look left = other right →
    Program.Alike (Prod.map look id) (Prod.map other id) (Processor.process timeStep left)
      (Processor.process timeStep right)
  onEvent : ∀ input event left right, look left = other right →
    Program.Alike look other (Processor.onEvent input event left)
      (Processor.onEvent input event right)
  reset : ∀ left right, look left = other right →
    look (Processor.reset left) = other (Processor.reset right)

/-! ## What is to be seen of a graph -/

def Cell.map (look : ν → τ) (cell : Cell ν) : Cell τ where
  node := look cell.node
  consumed := cell.consumed

def State.map (look : ν → τ) (state : State ν) : State τ where
  cells := state.cells.map (Cell.map look)
  values := state.values
  outgoing := state.outgoing

def Turn.map (look : ν → τ) (turn : Turn ν) : Turn τ where
  state := turn.state.map look
  hops := turn.hops
  journal := turn.journal

def Graph.map (look : ν → τ) (graph : Graph ν) : Graph τ where
  circuit := graph.circuit
  state := graph.state.map look

def Subroutine.map (look : ν → τ) (subroutine : Subroutine ν) : Subroutine τ where
  graph := subroutine.graph.map look
  layout := subroutine.layout

theorem State.map_eq_iff {look : ν → τ} {other : μ → τ} {left : State ν} {right : State μ} :
    left.map look = right.map other ↔
      left.cells.map (Cell.map look) = right.cells.map (Cell.map other) ∧
        left.values = right.values ∧ left.outgoing = right.outgoing :=
  Eq.to_iff (State.mk.injEq ..)

theorem Turn.map_eq_iff {look : ν → τ} {other : μ → τ} {left : Turn ν} {right : Turn μ} :
    left.map look = right.map other ↔ left.state.map look = right.state.map other ∧
      left.hops = right.hops ∧ left.journal = right.journal :=
  Eq.to_iff (Turn.mk.injEq ..)

theorem Graph.map_eq_iff {look : ν → τ} {other : μ → τ} {left : Graph ν} {right : Graph μ} :
    left.map look = right.map other ↔
      left.circuit = right.circuit ∧ left.state.map look = right.state.map other :=
  Eq.to_iff (Graph.mk.injEq ..)

theorem Subroutine.map_eq_iff {look : ν → τ} {other : μ → τ} {left : Subroutine ν}
    {right : Subroutine μ} :
    left.map look = right.map other ↔
      left.graph.map look = right.graph.map other ∧ left.layout = right.layout :=
  Eq.to_iff (Subroutine.mk.injEq ..)

theorem Cell.map_injective {look : ν → τ} (injective : Function.Injective look) :
    Function.Injective (Cell.map look) := by
  rintro ⟨leftNode, leftConsumed⟩ ⟨rightNode, rightConsumed⟩ same
  rcases (Cell.mk.injEq ..).mp same with ⟨nodes, consumed⟩
  exact (Cell.mk.injEq ..).mpr ⟨injective nodes, consumed⟩

/-- If nothing of the nodes stays out of sight, nothing of the graph does. -/
theorem Graph.map_injective {look : ν → τ} (injective : Function.Injective look) :
    Function.Injective (Graph.map look) := by
  rintro ⟨leftCircuit, leftState⟩ ⟨rightCircuit, rightState⟩ same
  rcases map_eq_iff.mp same with ⟨circuit, states⟩
  rcases State.map_eq_iff.mp states with ⟨cells, values, outgoing⟩
  rw [Array.map_inj_right fun _ _ equal => Cell.map_injective injective equal] at cells
  exact (Graph.mk.injEq ..).mpr ⟨circuit, (State.mk.injEq ..).mpr ⟨cells, values, outgoing⟩⟩

theorem Subroutine.map_injective {look : ν → τ} (injective : Function.Injective look) :
    Function.Injective (Subroutine.map look) := by
  rintro ⟨leftGraph, leftLayout⟩ ⟨rightGraph, rightLayout⟩ same
  rcases map_eq_iff.mp same with ⟨graphs, layout⟩
  exact (Subroutine.mk.injEq ..).mpr ⟨Graph.map_injective injective graphs, layout⟩

/-- In states that look the same, cells at the same position do. -/
theorem State.cell_alike {look : ν → τ} {other : μ → τ} {left : State ν} {right : State μ}
    (same : left.map look = right.map other) (index : Nat) :
    left.cells[index]?.map (Cell.map look) = right.cells[index]?.map (Cell.map other) := by
  rw [← Array.getElem?_map, ← Array.getElem?_map, (map_eq_iff.mp same).1]

theorem State.consumedBy_map (look : ν → τ) (state : State ν) (index : Nat) :
    (state.map look).consumedBy index = state.consumedBy index := by
  unfold consumedBy
  rw [map, Array.getElem?_map]
  cases state.cells[index]? <;> rfl

theorem Graph.mostConsumed_map (look : ν → τ) (graph : Graph ν) :
    (graph.map look).mostConsumed = graph.mostConsumed := by
  unfold mostConsumed
  simp only [map, State.consumedBy_map]

theorem Graph.pristine_map (look : ν → τ) (circuit : Circuit) (capacity : Nat)
    (nodes : List ν) :
    (pristine circuit capacity nodes).map look = pristine circuit capacity (nodes.map look) := by
  simp [map, pristine, State.map, Cell.map]

theorem Graph.finish_alike {look : ν → τ} {other : μ → τ} {left : Graph ν} {right : Graph μ}
    {leftTurn : Turn ν} {rightTurn : Turn μ} (same : left.map look = right.map other)
    (turns : leftTurn.map look = rightTurn.map other) :
    (left.finish leftTurn).map look = (right.finish rightTurn).map other :=
  map_eq_iff.mpr ⟨(map_eq_iff.mp same).1, (Turn.map_eq_iff.mp turns).1⟩

/-! ## Turns -/

section
variable [Processor ν] [Processor μ] {look : ν → τ} {other : μ → τ}

theorem Happening.alike (alike : Processor.Alike look other) (happening : Happening)
    {left : Cell ν} {right : Cell μ} (same : left.map look = right.map other) :
    Program.Alike (Cell.map look) (Cell.map other) (happening.program left)
      (happening.program right) := by
  have node : look left.node = other right.node := congrArg Cell.node same
  have consumed : left.consumed = right.consumed := congrArg Cell.consumed same
  cases happening with
  | init context =>
      apply (alike.init context _ _ node).bind
      intro _ _ after
      exact .pure (by simp [Cell.map, after, consumed])
  | process timeStep =>
      apply (alike.process timeStep _ _ node).bind
      intro _ _ after
      exact .pure (by simpa [Cell.map, Prod.ext_iff] using after)
  | onEvent input event =>
      apply (alike.onEvent input event _ _ node).bind
      intro _ _ after
      exact .pure (by simp [Cell.map, after, consumed])

theorem State.runCell_alike (alike : Processor.Alike look other) (circuit : Circuit)
    (index : Nat) (happening : Happening) {left : State ν} {right : State μ}
    (same : left.map look = right.map other) :
    (left.runCell circuit index happening.program).1.map look =
        (right.runCell circuit index happening.program).1.map other ∧
      (left.runCell circuit index happening.program).2 =
        (right.runCell circuit index happening.program).2 := by
  rcases map_eq_iff.mp same with ⟨cells, values, outgoing⟩
  have held := cell_alike same index
  unfold runCell
  cases circuit.placements[index]? with
  | none => exact ⟨same, rfl⟩
  | some placement =>
      cases leftFound : left.cells[index]? <;> cases rightFound : right.cells[index]? <;>
        rw [leftFound, rightFound] at held
      case none.none => exact ⟨same, rfl⟩
      case none.some => cases held
      case some.none => cases held
      case some.some leftCell rightCell =>
        have ran := happening.alike alike (Option.some.inj held)
          { values := left.values, inputs := placement.inputs, outputs := placement.outputs }
        simp only [map_eq_iff, Array.map_setIfInBounds, cells, ← values, outgoing, ran, and_self]

namespace Turn

theorem runCell_alike (alike : Processor.Alike look other) (circuit : Circuit) (index : Nat)
    (happening : Happening) {left : Turn ν} {right : Turn μ}
    (same : left.map look = right.map other) :
    (left.runCell circuit index happening.program).1.map look =
        (right.runCell circuit index happening.program).1.map other ∧
      (left.runCell circuit index happening.program).2 =
        (right.runCell circuit index happening.program).2 := by
  rcases map_eq_iff.mp same with ⟨states, hops, journal⟩
  have ran := State.runCell_alike alike circuit index happening states
  have fired := Prod.ext_iff.mp ran.2
  simp only [runCell, map_eq_iff, ran.1, fired.1, fired.2, hops, journal, and_self]

theorem deliver_alike (alike : Processor.Alike look other) (circuit : Circuit) (target : Target)
    (event : Identifier) {left : Turn ν} {right : Turn μ}
    (same : left.map look = right.map other) :
    (deliver circuit target event left).1.map look =
        (deliver circuit target event right).1.map other ∧
      (deliver circuit target event left).2 = (deliver circuit target event right).2 := by
  rcases map_eq_iff.mp same with ⟨states, hops, journal⟩
  rcases State.map_eq_iff.mp states with ⟨cells, values, outgoing⟩
  cases target with
  | graphOutput id =>
      simp only [deliver, outgoing]
      cases right.state.outgoing.push? id <;>
        simp [map_eq_iff, State.map_eq_iff, cells, values, outgoing, hops, journal]
  | node index input =>
      apply runCell_alike alike circuit index (.onEvent input event)
      simp [map_eq_iff, states, hops, journal]

theorem settle_alike (alike : Processor.Alike look other) (circuit : Circuit)
    {left : State ν} {right : State μ} (same : left.map look = right.map other)
    (journal : Array Entry) (hops : Nat) (parcels : List Parcel) :
    (settle circuit left journal hops parcels).map look =
      (settle circuit right journal hops parcels).map other := by
  induction hops generalizing left right journal parcels with
  | zero =>
      unfold settle
      cases Parcel.next? parcels <;> simp [map_eq_iff, same]
  | succ hops induction =>
      unfold settle
      cases Parcel.next? parcels with
      | none => simp [map_eq_iff, same]
      | some delivery =>
          have start : ({ state := left, hops, journal } : Turn ν).map look =
              ({ state := right, hops, journal } : Turn μ).map other := by
            simp [map_eq_iff, same]
          have delivered := deliver_alike alike circuit delivery.target delivery.event start
          rcases map_eq_iff.mp delivered.1 with ⟨states, -, journals⟩
          simp only [delivered.2, journals]
          exact induction states _ _

theorem visits_alike (alike : Processor.Alike look other) (circuit : Circuit)
    (happening : Happening) (indices : List Nat) {left : Turn ν} {right : Turn μ}
    (same : left.map look = right.map other) :
    (indices.foldl (visit circuit happening.program) left).map look =
      (indices.foldl (visit circuit happening.program) right).map other := by
  induction indices generalizing left right with
  | nil => exact same
  | cons index indices induction =>
      apply induction
      have ran := runCell_alike alike circuit index happening same
      rcases map_eq_iff.mp ran.1 with ⟨states, hops, journal⟩
      simp only [visit, ran.2, hops, journal]
      exact settle_alike alike circuit states _ _ _

end Turn

/-! ## Calls -/

namespace Graph

theorem sweep_alike (alike : Processor.Alike look other) (happening : Happening)
    {left : Graph ν} {right : Graph μ} (same : left.map look = right.map other) :
    (left.sweep happening.program).map look = (right.sweep happening.program).map other := by
  rcases map_eq_iff.mp same with ⟨circuit, states⟩
  rw [sweep, sweep, circuit]
  apply Turn.visits_alike alike
  simp [Turn.map_eq_iff, begin, circuit, states]

theorem reset_alike (alike : Processor.Alike look other) {left : Graph ν} {right : Graph μ}
    (same : left.map look = right.map other) :
    left.reset.map look = right.reset.map other := by
  rcases map_eq_iff.mp same with ⟨circuit, states⟩
  rcases State.map_eq_iff.mp states with ⟨-, -, outgoing⟩
  refine map_eq_iff.mpr ⟨circuit, State.map_eq_iff.mpr ⟨?_, ?_, ?_⟩⟩
  · apply Array.ext_getElem?
    intro index
    have held := State.cell_alike states index
    simp only [reset, Array.getElem?_map, Option.map_map]
    cases leftFound : left.state.cells[index]? <;> cases rightFound : right.state.cells[index]? <;>
      rw [leftFound, rightFound] at held
    case none.none => rfl
    case none.some => cases held
    case some.none => cases held
    case some.some leftCell rightCell =>
      have nodes := congrArg Cell.node (Option.some.inj held)
      simp [Cell.map, alike.reset _ _ nodes]
  · exact congrArg Circuit.defaults circuit
  · exact congrArg OutgoingQueue.clear outgoing

theorem init_alike (alike : Processor.Alike look other) {left : Graph ν} {right : Graph μ}
    (same : left.map look = right.map other) (context : Context) :
    (left.init context).1.map look = (right.init context).1.map other ∧
      (left.init context).2 = (right.init context).2 := by
  have turns := sweep_alike alike (.init context) same
  exact ⟨finish_alike same turns, (Turn.map_eq_iff.mp turns).2.2⟩

theorem process_alike (alike : Processor.Alike look other) {left : Graph ν} {right : Graph μ}
    (same : left.map look = right.map other) (timeStep : Binary32) :
    (left.process timeStep).1.map look = (right.process timeStep).1.map other ∧
      (left.process timeStep).2 = (right.process timeStep).2 := by
  have turns := sweep_alike alike (.process timeStep) same
  have finished := finish_alike same turns
  have consumed := congrArg mostConsumed finished
  rw [mostConsumed_map, mostConsumed_map] at consumed
  exact ⟨finished, Prod.ext consumed (Turn.map_eq_iff.mp turns).2.2⟩

/-- An event is taken by both graphs or by neither. -/
theorem post?_alike (alike : Processor.Alike look other) {left : Graph ν} {right : Graph μ}
    (same : left.map look = right.map other) (id : Identifier) :
    (left.post? id = none ∧ right.post? id = none) ∨
      ∃ leftAfter rightAfter journal, left.post? id = some (leftAfter, journal) ∧
        right.post? id = some (rightAfter, journal) ∧
        leftAfter.map look = rightAfter.map other := by
  rcases map_eq_iff.mp same with ⟨circuit, states⟩
  simp only [post?, circuit]
  cases right.circuit.entrance id with
  | nil => exact .inl ⟨rfl, rfl⟩
  | cons target targets =>
      have turns := Turn.settle_alike alike right.circuit states #[] right.circuit.hopLimit
        [⟨id, target :: targets⟩]
      refine .inr ⟨_, _, _, rfl, ?_, finish_alike same turns⟩
      rw [(Turn.map_eq_iff.mp turns).2.2]

/-- Calls into graphs that look the same have the same answers and journals, and
leave graphs that look the same. -/
theorem perform_alike (alike : Processor.Alike look other) {left : Graph ν} {right : Graph μ}
    (same : left.map look = right.map other) (call : Call) :
    (left.perform call).1.map look = (right.perform call).1.map other ∧
      (left.perform call).2 = (right.perform call).2 := by
  rcases map_eq_iff.mp same with ⟨circuit, states⟩
  rcases State.map_eq_iff.mp states with ⟨cells, values, outgoing⟩
  cases call with
  | setInput id value =>
      simp only [perform, setInput?, circuit]
      cases right.circuit.inputSlot? id with
      | none => exact ⟨same, rfl⟩
      | some slot =>
          simp [settled, map_eq_iff, State.map_eq_iff, setSlot, circuit, cells, values, outgoing]
  | setLocal id value =>
      simp only [perform, setLocal?, circuit]
      cases right.circuit.localSlot? id with
      | none => exact ⟨same, rfl⟩
      | some slot =>
          simp [settled, map_eq_iff, State.map_eq_iff, setSlot, circuit, cells, values, outgoing]
  | process timeStep =>
      have ticked := process_alike alike same timeStep
      simp only [perform, ticked, and_self]
  | post id =>
      simp only [perform, circuit]
      rcases post?_alike alike same id with
        ⟨leftRefused, rightRefused⟩ | ⟨_, _, _, leftPosted, rightPosted, after⟩
      · simp only [leftRefused, rightRefused]
        exact ⟨same, rfl⟩
      · simp only [leftPosted, rightPosted]
        exact ⟨after, rfl⟩
  | drain => simp [perform, drain, map_eq_iff, State.map_eq_iff, circuit, cells, values, outgoing]
  | reset => exact ⟨reset_alike alike same, rfl⟩
  | init context =>
      have initialized := init_alike alike same context
      simp only [perform, initialized, and_self]

end Graph

/-! ## Subroutines -/

namespace Subroutine

theorem copyIn_alike (alike : Processor.Alike look other) (plug : Nat) (plugs : List Endpoint)
    {left : Graph ν} {right : Graph μ} (same : left.map look = right.map other) :
    Program.Alike (Graph.map look) (Graph.map other) (copyIn plug plugs left)
      (copyIn plug plugs right) := by
  induction plugs generalizing plug left right with
  | nil => exact .pure same
  | cons endpoint plugs induction =>
      apply (Program.alike_self (Program.read plug)).bind
      intro value _ sameValue
      subst sameValue
      apply induction
      have set := (Graph.perform_alike alike same (.setInput endpoint.id value)).1
      rwa [Graph.perform_setInput, Graph.perform_setInput] at set

omit [Processor ν] [Processor μ] in
theorem copyOut_alike (plug : Nat) (plugs : List Endpoint) {left : Graph ν} {right : Graph μ}
    (same : left.map look = right.map other) :
    copyOut plug plugs left = copyOut plug plugs right := by
  induction plugs generalizing plug with
  | nil => rfl
  | cons endpoint plugs induction =>
      have shown : left.readOutput? endpoint.id = right.readOutput? endpoint.id :=
        congrArg (fun graph => graph.readOutput? endpoint.id) same
      rw [copyOut, copyOut, shown, induction]

omit [Processor ν] [Processor μ] in
theorem forward_alike {left : Subroutine ν} {right : Subroutine μ} {leftGraph : Graph ν}
    {rightGraph : Graph μ} (same : left.map look = right.map other)
    (graphs : leftGraph.map look = rightGraph.map other) :
    Program.Alike (map look) (map other) (left.forward leftGraph) (right.forward rightGraph) := by
  rcases map_eq_iff.mp same with ⟨-, layout⟩
  rcases Graph.map_eq_iff.mp graphs with ⟨circuit, states⟩
  rcases State.map_eq_iff.mp states with ⟨cells, values, outgoing⟩
  simp only [forward, Graph.drain, layout, outgoing]
  apply (Program.alike_self _).bind
  intro _ _ _
  apply Program.Alike.pure
  simp [map_eq_iff, Graph.map_eq_iff, State.map_eq_iff, circuit, cells, values, OutgoingQueue.clear]

/-- Subroutines around graphs that look the same do the same. -/
theorem alike (alike : Processor.Alike look other) :
    Processor.Alike (Subroutine.map look) (Subroutine.map other) where
  init context left right same := by
    rcases map_eq_iff.mp same with ⟨graphs, -⟩
    have initialized := Graph.init_alike alike graphs context
    show Program.Alike _ _ (init context left) (init context right)
    simp only [init, initialized.2]
    apply (Program.alike_self _).bind
    intro _ _ _
    exact forward_alike same initialized.1
  process timeStep left right same := by
    rcases map_eq_iff.mp same with ⟨graphs, layout⟩
    show Program.Alike _ _ (process timeStep left) (process timeStep right)
    unfold process
    rw [layout]
    apply (copyIn_alike alike 0 right.layout.inputs graphs).bind
    intro leftEntered rightEntered entered
    have ticked := Graph.process_alike alike entered timeStep
    simp only [ticked.2, copyOut_alike 0 right.layout.outputs ticked.1]
    apply (Program.alike_self _).bind
    intro _ _ _
    apply (Program.alike_self _).bind
    intro _ _ _
    apply (forward_alike same ticked.1).bind
    intro _ _ after
    exact .pure (by simp [after])
  onEvent input event left right same := by
    rcases map_eq_iff.mp same with ⟨graphs, layout⟩
    show Program.Alike _ _ (onEvent input left) (onEvent input right)
    unfold onEvent
    rw [layout]
    cases right.layout.inputEvents[input]? with
    | none => exact .pure same
    | some id =>
        rcases Graph.post?_alike alike graphs id with
          ⟨leftRefused, rightRefused⟩ | ⟨_, _, _, leftPosted, rightPosted, after⟩
        · simp only [leftRefused, rightRefused, Option.getD_none]
          apply (Program.alike_self _).bind
          intro _ _ _
          exact forward_alike same graphs
        · simp only [leftPosted, rightPosted, Option.getD_some]
          apply (Program.alike_self _).bind
          intro _ _ _
          exact forward_alike same after
  reset left right same := by
    rcases map_eq_iff.mp same with ⟨graphs, layout⟩
    exact map_eq_iff.mpr ⟨Graph.reset_alike alike graphs, layout⟩

end Subroutine

end

/-! ## Kinds of nodes -/

namespace Processor.Alike

variable [Processor ν] [Processor μ]

/-- Nodes of one type do the same if they look the same only where they are
equal. -/
theorem of_injective {look : ν → τ} (injective : Function.Injective look) : Alike look look where
  init context left right same := by
    rw [injective same]
    exact fun _ => ⟨rfl, rfl⟩
  process timeStep left right same := by
    rw [injective same]
    exact fun _ => ⟨rfl, rfl⟩
  onEvent input event left right same := by
    rw [injective same]
    exact fun _ => ⟨rfl, rfl⟩
  reset left right same := by rw [injective same]

theorem symm {look : ν → τ} {other : μ → τ} (alike : Alike look other) : Alike other look where
  init context left right same panel :=
    have ran := alike.init context right left same.symm panel
    ⟨ran.1.symm, ran.2.symm⟩
  process timeStep left right same panel :=
    have ran := alike.process timeStep right left same.symm panel
    ⟨ran.1.symm, ran.2.symm⟩
  onEvent input event left right same panel :=
    have ran := alike.onEvent input event right left same.symm panel
    ⟨ran.1.symm, ran.2.symm⟩
  reset left right same := (alike.reset right left same.symm).symm

/-- What is seen may be put in another form. -/
theorem comp {look : ν → τ} {other : μ → τ} {view : τ → σ} (alike : Alike look other)
    (injective : Function.Injective view) : Alike (view ∘ look) (view ∘ other) where
  init context left right same panel :=
    have ran := alike.init context left right (injective same) panel
    ⟨congrArg view ran.1, ran.2⟩
  process timeStep left right same panel :=
    have ran := alike.process timeStep left right (injective same) panel
    ⟨congrArg (Prod.map view id) ran.1, ran.2⟩
  onEvent input event left right same panel :=
    have ran := alike.onEvent input event left right (injective same) panel
    ⟨congrArg view ran.1, ran.2⟩
  reset left right same := congrArg view (alike.reset left right (injective same))

variable [Processor κ] [Processor ρ]

/-- Nodes do the same among nodes of another type, if they are never taken for
those. -/
theorem inl {look : ν → τ} {other : μ → τ} {composite : κ → τ} (alike : Alike look other)
    (apart : ∀ left right, look left ≠ composite right) :
    Alike look (Sum.elim other composite) where
  init context left right same := by
    cases right with
    | inl right => exact (alike.init context left right same).map_right fun _ => rfl
    | inr right => exact absurd same (apart left right)
  process timeStep left right same := by
    cases right with
    | inl right => exact (alike.process timeStep left right same).map_right fun _ => rfl
    | inr right => exact absurd same (apart left right)
  onEvent input event left right same := by
    cases right with
    | inl right => exact (alike.onEvent input event left right same).map_right fun _ => rfl
    | inr right => exact absurd same (apart left right)
  reset left right same := by
    cases right with
    | inl right => exact alike.reset left right same
    | inr right => exact absurd same (apart left right)

theorem sum {look : ν → τ} {other : μ → τ} {composite : κ → τ} {otherComposite : ρ → τ}
    (plain : Alike look other) (composites : Alike composite otherComposite)
    (apart : ∀ left right, look left ≠ otherComposite right)
    (otherApart : ∀ left right, composite left ≠ other right) :
    Alike (Sum.elim look composite) (Sum.elim other otherComposite) where
  init context left right same := by
    cases left <;> cases right
    case inl.inl left right => exact (plain.init context left right same).map fun _ _ => id
    case inl.inr left right => exact absurd same (apart left right)
    case inr.inl left right => exact absurd same (otherApart left right)
    case inr.inr left right => exact (composites.init context left right same).map fun _ _ => id
  process timeStep left right same := by
    cases left <;> cases right
    case inl.inl left right => exact (plain.process timeStep left right same).map fun _ _ => id
    case inl.inr left right => exact absurd same (apart left right)
    case inr.inl left right => exact absurd same (otherApart left right)
    case inr.inr left right =>
      exact (composites.process timeStep left right same).map fun _ _ => id
  onEvent input event left right same := by
    cases left <;> cases right
    case inl.inl left right => exact (plain.onEvent input event left right same).map fun _ _ => id
    case inl.inr left right => exact absurd same (apart left right)
    case inr.inl left right => exact absurd same (otherApart left right)
    case inr.inr left right =>
      exact (composites.onEvent input event left right same).map fun _ _ => id
  reset left right same := by
    cases left <;> cases right
    case inl.inl left right => exact plain.reset left right same
    case inl.inr left right => exact absurd same (apart left right)
    case inr.inl left right => exact absurd same (otherApart left right)
    case inr.inr left right => exact composites.reset left right same

end Processor.Alike

end NodeGraph
