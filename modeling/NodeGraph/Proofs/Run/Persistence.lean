import NodeGraph.Proofs.Compile.Reservation
import NodeGraph.Proofs.Compile.Unnamed
import NodeGraph.Proofs.Run.UnnamedNodes
import NodeGraph.Proofs.Stored.Determined

namespace NodeGraph

/-! Prototypes that are equal compile to graphs that a host cannot tell apart, as
long as it compares identifiers and does not print them. So a prototype that was
stored and read again behaves as the one that was stored. -/

/-! ## What a host sees -/

/-- Up to names, the graphs show the same to a host. -/
structure Graph.ShowAlike (left right : Graph ν) : Prop where
  outputs : ∀ id other : Identifier, (id == other) = true →
    left.readOutput? id = right.readOutput? other
  outputIds : left.circuit.outputs.map (fun entry => entry.1.unnamed) =
    right.circuit.outputs.map fun entry => entry.1.unnamed
  hasInput : ∀ id other : Identifier, (id == other) = true →
    (left.circuit.inputSlot? id).isSome = (right.circuit.inputSlot? other).isSome
  hasLocal : ∀ id other : Identifier, (id == other) = true →
    (left.circuit.localSlot? id).isSome = (right.circuit.localSlot? other).isSome
  waiting : left.state.outgoing.waiting.map Identifier.unnamed =
    right.state.outgoing.waiting.map Identifier.unnamed
  order : left.circuit.orderIds = right.circuit.orderIds
  consumed : ∀ node, left.consumed? node = right.consumed? node

/-- Whatever calls a host has made, the same to both graphs up to names, the graphs
show the same, and answer the same to the next call. -/
structure Graph.ActAlike [Processor ν] (left right : Graph ν) : Prop where
  shown : ∀ calls others, List.Forall₂ Call.UpToNames calls others →
    (left.afterCalls calls).ShowAlike (right.afterCalls others)
  answered : ∀ calls others, List.Forall₂ Call.UpToNames calls others →
    ∀ call other, call.UpToNames other →
      ((left.afterCalls calls).perform call).2.1.unnamed =
        ((right.afterCalls others).perform other).2.1.unnamed

namespace Graph.UpToNames

variable {same : ν → ν → Prop} {left right : Graph ν}

theorem showAlike (graphs : left.UpToNames same right) : left.ShowAlike right where
  outputs _ _ ids := graphs.readOutput? ids
  outputIds := by
    rcases Circuit.unnamed_eq_iff.mp graphs.circuit with ⟨-, -, -, -, -, -, outputs, -⟩
    have ids := congrArg (List.map Prod.fst) outputs
    rwa [unnamedSlots, unnamedSlots, List.map_map, List.map_map] at ids
  hasInput _ _ ids := congrArg Option.isSome (Circuit.inputSlot?_upToNames graphs.circuit ids)
  hasLocal _ _ ids := congrArg Option.isSome (Circuit.localSlot?_upToNames graphs.circuit ids)
  waiting := graphs.drain.1
  order := graphs.orderIds
  consumed := graphs.consumed?

theorem actAlike [Processor ν] (nodes : Processor.UpToNames same)
    (graphs : left.UpToNames same right) : left.ActAlike right where
  shown _ _ named := (graphs.afterCalls nodes named).showAlike
  answered _ _ named _ _ call := ((graphs.afterCalls nodes named).perform nodes call).2

end Graph.UpToNames

/-! ## Nodes -/

theorem Registry.create?_upToNames (registry : Registry κ) {type other : Identifier}
    (types : type.unnamed = other.unnamed) (id : NodeId) :
    registry.create? type id = registry.create? other id := by
  have found : (fun entry : Identifier × (NodeId → κ) => entry.1 == type) =
      fun entry => entry.1 == other := by
    funext entry
    rw [Bool.eq_iff_iff, Identifier.beq_iff_unnamed, Identifier.beq_iff_unnamed, types]
  rw [create?, create?, found]

namespace Subroutine

theorem isEventInput_unnamed (prototype : Prototype) (id : Identifier) :
    isEventInput prototype.unnamed id.unnamed = isEventInput prototype id := by
  unfold isEventInput
  rw [Prototype.unnamed_connections, List.any_map]
  rfl

theorem isEventOutput_unnamed (prototype : Prototype) (id : Identifier) :
    isEventOutput prototype.unnamed id.unnamed = isEventOutput prototype id := by
  unfold isEventOutput
  rw [Prototype.unnamed_connections, List.any_map]
  rfl

/-- Whether an endpoint of a prototype carries events is seen by its hash. -/
theorem layoutOf_unnamed (prototype : Prototype) :
    layoutOf prototype.unnamed = (layoutOf prototype).unnamed := by
  have input : (fun input : Endpoint => isEventInput prototype.unnamed input.id) ∘
      Endpoint.unnamed = fun input => isEventInput prototype input.id :=
    funext fun input => isEventInput_unnamed prototype input.id
  have output : (fun output : Endpoint => isEventOutput prototype.unnamed output.id) ∘
      Endpoint.unnamed = fun output => isEventOutput prototype output.id :=
    funext fun output => isEventOutput_unnamed prototype output.id
  have valueInput : (fun input : Endpoint => !isEventInput prototype.unnamed input.id) ∘
      Endpoint.unnamed = fun input => !isEventInput prototype input.id :=
    funext fun input => congrArg not (isEventInput_unnamed prototype input.id)
  have valueOutput : (fun output : Endpoint => !isEventOutput prototype.unnamed output.id) ∘
      Endpoint.unnamed = fun output => !isEventOutput prototype output.id :=
    funext fun output => congrArg not (isEventOutput_unnamed prototype output.id)
  simp only [layoutOf, Layout.unnamed, Prototype.unnamed_inputs, Prototype.unnamed_outputs,
    List.filter_map, input, output, valueInput, valueOutput, List.map_map]
  rfl

theorem ofPrototype_upToNames {same : ν → ν → Prop} {left right : Prototype}
    (prototypes : left.unnamed = right.unnamed) {graph other : Graph ν}
    (graphs : graph.UpToNames same other) :
    UpToNames same (ofPrototype left graph) (ofPrototype right other) where
  graph := graphs
  layout := by
    show (layoutOf left).unnamed = (layoutOf right).unnamed
    rw [← layoutOf_unnamed, ← layoutOf_unnamed, prototypes]

end Subroutine

/-! ## Compiling -/

theorem option_rel_getElem? {related : α → β → Prop} {lefts : List α} {rights : List β}
    (all : List.Forall₂ related lefts rights) (index : Nat) :
    Option.Rel related lefts[index]? rights[index]? := by
  induction all generalizing index with
  | nil => exact .none
  | cons first _ induction =>
      cases index with
      | zero => exact .some first
      | succ index => exact induction index

theorem Graph.pristine_upToNames {same : ν → ν → Prop} {left right : Circuit}
    (circuits : left.unnamed = right.unnamed) (capacity : Nat) {lefts rights : List ν}
    (nodes : List.Forall₂ same lefts rights) :
    (pristine left capacity lefts).UpToNames same (pristine right capacity rights) := by
  rcases Circuit.unnamed_eq_iff.mp circuits with ⟨-, -, -, defaults, -⟩
  refine ⟨circuits, fun index => ?_, defaults, rfl⟩
  have held := option_rel_getElem? nodes index
  simp only [pristine, List.getElem?_toArray, List.getElem?_map]
  generalize lefts[index]? = leftNode at held ⊢
  generalize rights[index]? = rightNode at held ⊢
  cases held with
  | none => exact .none
  | some nodes => exact .some ⟨nodes, rfl⟩

/-! ## Compiling up to names -/

/-- Up to names, the same comes of both: the end of the process, an error or a result. -/
structure Compilation.Alike (same : α → β → Prop) (left : Compilation α)
    (right : Compilation β) : Prop where
  overflows : left.overflows = right.overflows
  outcome : SameOutcome same left.outcome right.outcome

namespace Compilation

variable {same : α → β → Prop} {sameNext : γ → δ → Prop} {left : Compilation α}
  {right : Compilation β}

theorem alike_pure {leftResult : α} {rightResult : β} (results : same leftResult rightResult) :
    Alike same (pure leftResult) (pure rightResult) :=
  ⟨rfl, .ok results⟩

theorem alike_ofExcept {left : Except CompileError α} {right : Except CompileError β}
    (outcomes : SameOutcome same left right) : Alike same (ofExcept left) (ofExcept right) :=
  ⟨rfl, outcomes⟩

theorem alike_fail {error other : CompileError} (errors : error.unnamed = other.unnamed) :
    Alike same (fail error) (fail other) :=
  alike_ofExcept (.error errors)

theorem alike_reserve (capacity : Nat) : Alike Eq (reserve capacity) (reserve capacity) :=
  ⟨rfl, .ok rfl⟩

/-- What is logged may hold names, but decides nothing. -/
theorem alike_noteAll (records others : List LogRecord) :
    Alike Eq (noteAll records) (noteAll others) :=
  ⟨rfl, .ok rfl⟩

namespace Alike

theorem bind {leftNext : α → Compilation γ} {rightNext : β → Compilation δ}
    (first : Alike same left right)
    (next : ∀ leftResult rightResult, same leftResult rightResult →
      Alike sameNext (leftNext leftResult) (rightNext rightResult)) :
    Alike sameNext (left >>= leftNext) (right >>= rightNext) := by
  obtain ⟨leftLog, leftOverflows, leftOutcome⟩ := left
  obtain ⟨rightLog, rightOverflows, rightOutcome⟩ := right
  obtain ⟨overflows, outcome⟩ := first
  obtain rfl : leftOverflows = rightOverflows := overflows
  cases outcome with
  | error errors => exact ⟨rfl, .error errors⟩
  | ok results =>
      have later := next _ _ results
      exact ⟨congrArg (leftOverflows || ·) later.overflows, later.outcome⟩

theorem map {leftChange : α → γ} {rightChange : β → δ} (first : Alike same left right)
    (change : ∀ leftResult rightResult, same leftResult rightResult →
      sameNext (leftChange leftResult) (rightChange rightResult)) :
    Alike sameNext (leftChange <$> left) (rightChange <$> right) :=
  first.bind fun _ _ results => alike_pure (change _ _ results)

theorem mapError {change : CompileError → CompileError}
    (keeps : ∀ error other, error.unnamed = other.unnamed →
      (change error).unnamed = (change other).unnamed)
    (first : Alike same left right) : Alike same (left.mapError change) (right.mapError change) :=
  ⟨first.overflows, first.outcome.mapError keeps⟩

theorem imp {other : α → β → Prop} (first : Alike same left right)
    (weaken : ∀ leftResult rightResult, same leftResult rightResult →
      other leftResult rightResult) :
    Alike other left right :=
  ⟨first.overflows, first.outcome.imp weaken⟩

theorem result? (first : Alike same left right) :
    Option.Rel (SameOutcome same) left.result? right.result? := by
  unfold Compilation.result?
  rw [first.overflows]
  cases right.overflows with
  | true => exact .none
  | false => exact .some first.outcome

end Alike

theorem each_upToNames {change : γ → δ} {step : γ → Compilation α} {otherStep : γ → Compilation β}
    (steps : ∀ item other, change item = change other → Alike same (step item) (otherStep other))
    {lefts rights : List γ} (items : lefts.map change = rights.map change) :
    Alike (List.Forall₂ same) (each step lefts) (each otherStep rights) := by
  replace items := map_eq_iff_forall₂.mp items
  induction items with
  | nil => exact alike_pure .nil
  | cons first _ induction =>
      apply (steps _ _ first).bind
      intro _ _ results
      apply induction.bind
      intro _ _ others
      exact alike_pure (.cons results others)

end Compilation

namespace Compile

theorem fromRegistry_upToNames {same : κ → κ → Prop} {registry : Registry κ}
    (known : ∀ entry ∈ registry.entries, ∀ id, same (entry.2 id) (entry.2 id))
    {placed other : PrototypeNode} (nodes : placed.unnamed = other.unnamed) :
    Compilation.Alike same (fromRegistry registry placed) (fromRegistry registry other) := by
  rcases PrototypeNode.unnamed_eq_iff.mp nodes with ⟨type, id, -⟩
  unfold fromRegistry
  rw [registry.create?_upToNames type, id]
  cases found : registry.create? other.type other.id with
  | none => exact Compilation.alike_fail (by simp only [CompileError.unnamed, type])
  | some node =>
      rcases Option.map_eq_some_iff.mp found with ⟨entry, listed, rfl⟩
      exact Compilation.alike_pure (known entry (List.mem_of_find?_eq_some listed) other.id)

section
variable {same : κ → κ → Prop} {registry : Registry κ}
  (known : ∀ entry ∈ registry.entries, ∀ id, same (entry.2 id) (entry.2 id))
  {placed other : PrototypeNode} (nodes : placed.unnamed = other.unnamed)
include known nodes

theorem createPlain_upToNames (config : Config) :
    Compilation.Alike same (createPlain registry config placed)
      (createPlain registry config other) := by
  rcases PrototypeNode.unnamed_eq_iff.mp nodes with ⟨-, id, -, subroutines⟩
  replace subroutines := Prototype.subroutines_of_unnamed subroutines
  unfold createPlain
  generalize placed.subroutine = leftSubroutine at subroutines ⊢
  generalize other.subroutine = rightSubroutine at subroutines ⊢
  cases subroutines with
  | none => exact fromRegistry_upToNames known nodes
  | some => exact Compilation.alike_fail (by simp only [CompileError.unnamed, id])

theorem createNested_upToNames {sameInside : ν → ν → Prop}
    {compile : Prototype → Compilation (Graph ν)}
    (compiled : ∀ prototype other : Prototype, prototype.unnamed = other.unnamed →
      Compilation.Alike (Graph.UpToNames sameInside) (compile prototype) (compile other)) :
    Compilation.Alike (Sum.LiftRel same (Subroutine.UpToNames sameInside))
      (createNested registry compile placed) (createNested registry compile other) := by
  rcases PrototypeNode.unnamed_eq_iff.mp nodes with ⟨-, id, -, subroutines⟩
  replace subroutines := Prototype.subroutines_of_unnamed subroutines
  unfold createNested
  generalize placed.subroutine = leftSubroutine at subroutines ⊢
  generalize other.subroutine = rightSubroutine at subroutines ⊢
  cases subroutines with
  | none => exact (fromRegistry_upToNames known nodes).map fun _ _ => .inl
  | some prototypes =>
      have keeps (error otherError : CompileError) (errors : error.unnamed = otherError.unnamed) :
          (CompileError.inSubroutine other.id error).unnamed =
            (CompileError.inSubroutine other.id otherError).unnamed :=
        congrArg (CompileError.inSubroutine other.id) errors
      simp only [id]
      apply ((compiled _ _ prototypes).mapError keeps).bind
      intro _ _ graphs
      exact Compilation.alike_pure (.inr (Subroutine.ofPrototype_upToNames prototypes graphs))

end

theorem layouts_upToNames [Processor ν] {same : ν → ν → Prop} (nodes : Processor.UpToNames same)
    {lefts rights : List ν} (all : List.Forall₂ same lefts rights) :
    (lefts.map Processor.layout).map Layout.unnamed =
      (rights.map Processor.layout).map Layout.unnamed := by
  rw [List.map_map, List.map_map, map_eq_iff_forall₂]
  exact all.imp nodes.layout

theorem withNodes_upToNames [Processor ν] {same : ν → ν → Prop}
    (nodes : Processor.UpToNames same) (config : Config) {create : PrototypeNode → Compilation ν}
    (created : ∀ placed other : PrototypeNode, placed.unnamed = other.unnamed →
      Compilation.Alike same (create placed) (create other))
    {left right : Prototype} (prototypes : left.unnamed = right.unnamed) :
    Compilation.Alike (Graph.UpToNames same) (withNodes config create left)
      (withNodes config create right) := by
  rcases Prototype.unnamed_eq_iff.mp prototypes with ⟨-, -, -, -, -, placed, connections⟩
  simp only [withNodes, checkIds_congr (Prototype.ids_of_unnamed placed)]
  apply (Compilation.alike_ofExcept (SameOutcome.self (checkIds [] right.nodes))).bind
  intro _ _ _
  have steps (placed other : PrototypeNode) (placements : placed.unnamed = other.unnamed) :
      Compilation.Alike same
        (create placed >>= fun node =>
          Compilation.note (createdRecord placed) >>= fun _ => pure node)
        (create other >>= fun node =>
          Compilation.note (createdRecord other) >>= fun _ => pure node) :=
    (created placed other placements).bind fun _ _ same =>
      (Compilation.alike_noteAll _ _).bind fun _ _ _ => Compilation.alike_pure same
  apply (Compilation.each_upToNames steps placed).bind
  intro lefts rights all
  have layouts := layouts_upToNames nodes all
  have endpoints : (⟨left, lefts.map Processor.layout⟩ : Endpoints).unnamed =
      (⟨right, rights.map Processor.layout⟩ : Endpoints).unnamed :=
    Endpoints.unnamed_eq_iff.mpr ⟨prototypes, layouts⟩
  apply (Compilation.alike_ofExcept (checkOverrides_upToNames placed layouts)).bind
  intro _ _ _
  apply (Compilation.alike_reserve _).bind
  intro _ _ _
  have overflows : (Endpoints.wireAll ⟨left, lefts.map Processor.layout⟩ []
        left.connections).overflows =
      (Endpoints.wireAll ⟨right, rights.map Processor.layout⟩ [] right.connections).overflows := by
    rw [Endpoints.wireAll_overflows, Endpoints.wireAll_overflows]
  apply (Compilation.Alike.mk overflows
    (Endpoints.wireAll_upToNames endpoints rfl connections)).bind
  intro wires others wired
  apply (Compilation.alike_ofExcept (order_upToNames prototypes)).bind
  intro order _ sameOrder
  subst sameOrder
  have circuits : (Assembly.circuit config ⟨left, lefts.map Processor.layout⟩ wires
        order).unnamed =
      (Assembly.circuit config ⟨right, rights.map Processor.layout⟩ others order).unnamed := by
    rw [← Assembly.circuit_unnamed, ← Assembly.circuit_unnamed, endpoints, wired]
  exact Compilation.alike_pure (Graph.pristine_upToNames circuits _ all)

/-- Whatever its depth, a prototype compiles to a graph that is the same up to
names, or fails for the same reason. -/
theorem build_upToNames [Processor κ] {same : κ → κ → Prop} (nodes : Processor.UpToNames same)
    {registry : Registry κ}
    (known : ∀ entry ∈ registry.entries, ∀ id, same (entry.2 id) (entry.2 id))
    (config : Config) (room : Nat) {left right : Prototype}
    (prototypes : left.unnamed = right.unnamed) :
    Compilation.Alike (Graph.UpToNames (Nested.UpToNames same room))
      (build registry config room left) (build registry config room right) := by
  -- Subroutines are compiled by the level below, so the induction is on the room.
  induction room generalizing left right with
  | zero =>
      exact withNodes_upToNames nodes config
        (fun _ _ same => createPlain_upToNames known same config) prototypes
  | succ room induction =>
      exact withNodes_upToNames (Nested.upToNames nodes (room + 1)) config
        (fun _ _ same => createNested_upToNames known same fun _ _ => induction) prototypes

end Compile

namespace Instance

theorem create_upToNames [Processor κ] {same : κ → κ → Prop} (nodes : Processor.UpToNames same)
    {registry : Registry κ}
    (known : ∀ entry ∈ registry.entries, ∀ id, same (entry.2 id) (entry.2 id))
    (config : Config) (context : Context) {left right : Prototype}
    (prototypes : left.unnamed = right.unnamed) :
    Compilation.Alike (Graph.UpToNames (Nested.UpToNames same config.maxSubroutineDepth.toNat))
      (create registry config context left) (create registry config context right) := by
  apply (Compile.build_upToNames nodes known config _ prototypes).bind
  intro _ _ graphs
  apply (Compilation.alike_noteAll _ _).bind
  intro _ _ _
  apply (Compilation.alike_noteAll _ _).bind
  intro _ _ _
  exact Compilation.alike_pure (graphs.init (Nested.upToNames nodes _) context)

/-- Equal prototypes fail alike or compile to graphs that act alike: identifiers
are equal if their hashes are, so names that they remember change nothing. In
particular, storing a prototype and reading it again changes nothing. The nodes in
the registry must ignore names too, as the standard ones do. -/
theorem create_ignores_names [Processor κ] {same : κ → κ → Prop}
    (nodes : Processor.UpToNames same) {registry : Registry κ}
    (known : ∀ entry ∈ registry.entries, ∀ id, same (entry.2 id) (entry.2 id)) (config : Config)
    (context : Context) :
    (∀ prototype other : Prototype, (prototype == other) = true →
        Option.Rel (SameOutcome Graph.ActAlike) (create registry config context prototype).result?
          (create registry config context other).result?) ∧
      ∀ prototype stored : Prototype, prototype.Fits →
        Prototype.ofBytes prototype.toBytes = .ok stored →
          Option.Rel (SameOutcome Graph.ActAlike)
            (create registry config context prototype).result?
            (create registry config context stored).result? := by
  have alike (prototype other : Prototype) (equal : (prototype == other) = true) :
      Option.Rel (SameOutcome Graph.ActAlike) (create registry config context prototype).result?
        (create registry config context other).result? := by
    have prototypes := (Prototype.beq_iff_unnamed _ _).mp equal
    exact ((create_upToNames nodes known config context prototypes).imp
      fun _ _ graphs => graphs.actAlike (Nested.upToNames nodes _)).result?
  refine ⟨alike, fun prototype stored fits read => alike _ _ ?_⟩
  have equal := (Prototype.beq_iff_unnamed _ _).mp (Prototype.beq_of_ofBytes fits read)
  exact (Prototype.beq_iff_unnamed _ _).mpr equal.symm

/-- A graph that passes events through an array node in a subroutine. -/
def doorbell : Prototype where
  name := "door"
  id := 1
  inputs := [⟨.named "Ring", .void⟩]
  outputs := [⟨.named "Rang", .void⟩]
  locals := []
  nodes := [⟨.named "Bell", 1, [], some {
    name := "bell"
    id := 2
    inputs := [⟨.named "Ring", .void⟩]
    outputs := [⟨.named "Rang", .void⟩]
    locals := []
    nodes := [⟨.named "Get (Int)", 1, [], none⟩]
    connections := [
      ⟨⟨graphNodeId, .named "Ring"⟩, ⟨1, .named "Trigger"⟩, .graphEventToNode⟩,
      ⟨⟨1, .named "OnTrigger"⟩, ⟨graphNodeId, .named "Rang"⟩, .nodeEventToGraph⟩] }⟩]
  connections := [
    ⟨⟨graphNodeId, .named "Ring"⟩, ⟨1, .named "Ring"⟩, .graphEventToNode⟩,
    ⟨⟨1, .named "Rang"⟩, ⟨graphNodeId, .named "Rang"⟩, .nodeEventToGraph⟩]

theorem create_ignores_names_doorbell :
    doorbell.Fits ∧ Prototype.ofBytes doorbell.toBytes = .ok doorbell.unnamed ∧
      (doorbell.unnamed == doorbell) = true ∧
      (create StandardNode.registry default default doorbell).outcome.isOk = true ∧
      Option.Rel (SameOutcome Graph.ActAlike)
        (create StandardNode.registry default default doorbell.unnamed).result?
        (create StandardNode.registry default default doorbell).result? ∧
      Option.Rel (SameOutcome Graph.ActAlike)
        (create StandardNode.registry default default doorbell).result?
        (create StandardNode.registry default default doorbell.unnamed).result? := by
  have fits : doorbell.Fits := by
    simp only [doorbell, Prototype.Fits, Prototype.EndpointsFit, Prototype.NodesFit,
      Prototype.SubroutineFits, List.forall_mem_cons, List.not_mem_nil, false_imp_iff,
      implies_true, Value.Fits, and_true]
    decide
  have read : Prototype.ofBytes doorbell.toBytes = .ok doorbell.unnamed :=
    Prototype.ofBytes_eq_ok_unnamed_iff.mpr ⟨⟨fits, by decide⟩, List.prefix_refl _⟩
  have alike := create_ignores_names StandardNode.upToNames
    (fun (entry : Identifier × (NodeId → StandardNode))
      (_ : entry ∈ StandardNode.registry.entries) _ => rfl)
    default default
  have equal : (doorbell.unnamed == doorbell) = true := by decide +kernel
  exact ⟨fits, read, equal, by decide +kernel, alike.1 _ _ equal, alike.2 _ _ fits read⟩

/-! ## Nodes that look at names -/

/-- A node that shows whether the last event that it heard of remembers its name. -/
structure Listener where
  deriving DecidableEq, Repr

instance : Processor Listener where
  layout _ :=
    { outputs := [.zero Bool "Named"]
      inputEvents := [.named "Hear"] }
  init _ node := pure node
  process timeStep node := pure (node, timeStep)
  onEvent _ event node := do
    Program.writeAs 0 event.name.isSome
    pure node
  reset node := node

def Listener.registry : Registry Listener :=
  .ofList [(.named "Listener", fun _ => {})]

/-- A graph with a listener in a subroutine, to which it passes an event. -/
def listening : Prototype where
  name := "Hall"
  id := 1
  inputs := [⟨.named "Ring", .void⟩]
  outputs := [⟨.named "Named", .bool false⟩]
  locals := []
  nodes := [⟨.named "Room", 1, [], some {
    name := "Room"
    id := 2
    inputs := [⟨.named "Ring", .void⟩]
    outputs := [⟨.named "Named", .bool false⟩]
    locals := []
    nodes := [⟨.named "Listener", 1, [], none⟩]
    connections := [
      ⟨⟨graphNodeId, .named "Ring"⟩, ⟨1, .named "Hear"⟩, .graphEventToNode⟩,
      ⟨⟨1, .named "Named"⟩, ⟨graphNodeId, .named "Named"⟩, .nodeValueToGraph⟩] }⟩]
  connections := [
    ⟨⟨graphNodeId, .named "Ring"⟩, ⟨1, .named "Ring"⟩, .graphEventToNode⟩,
    ⟨⟨1, .named "Named"⟩, ⟨graphNodeId, .named "Named"⟩, .nodeValueToGraph⟩]

/-- What an instance shows at an output after some calls, if there is an instance. -/
def shownAfter [Processor κ] (registry : Registry κ) (prototype : Prototype) (calls : List Call)
    (output : Identifier) : Option Value :=
  (create registry default default prototype).result?.bind fun outcome =>
    outcome.toOption.bind fun graph => (graph.afterCalls calls).readOutput? output

/-- The text of the error that a prototype fails with, if it fails. -/
def complaint [Processor κ] (registry : Registry κ) (prototype : Prototype) : Option String :=
  (create registry default default prototype).result?.bind fun outcome =>
    match outcome with
    | .ok _ => none
    | .error error => some error.message

/-- A prototype that has been stored and read again equals what it was, but has lost its
names: a listener inside misses them in the events that it hears of, and where there are no
listeners the text of the error does without them. -/
theorem listening_shows_names :
    Prototype.ofBytes listening.toBytes = .ok listening.unnamed ∧
      (listening == listening.unnamed) = true ∧
      shownAfter Listener.registry listening
        [.post (.named "Ring"), .process .one] (.named "Named") = some (.bool true) ∧
      shownAfter Listener.registry listening.unnamed
        [.post (.named "Ring"), .process .one] (.named "Named") = some (.bool false) ∧
      complaint StandardNode.registry listening =
        some "in subroutine of node 1: node 1 has unknown type Listener" ∧
      complaint StandardNode.registry listening.unnamed =
        some ("in subroutine of node 1: node 1 has unknown type " ++
          (Identifier.named "Listener").hashText) := by
  have fits : listening.Fits := by
    simp only [listening, Prototype.Fits, Prototype.EndpointsFit, Prototype.NodesFit,
      Prototype.SubroutineFits, List.forall_mem_cons, List.not_mem_nil, false_imp_iff,
      implies_true, Value.Fits, and_true]
    decide
  have read : Prototype.ofBytes listening.toBytes = .ok listening.unnamed :=
    Prototype.ofBytes_eq_ok_unnamed_iff.mpr ⟨⟨fits, by decide⟩, List.prefix_refl _⟩
  exact ⟨read, by decide +kernel, by decide +kernel, by decide +kernel, by decide +kernel,
    by decide +kernel⟩

end Instance

end NodeGraph
