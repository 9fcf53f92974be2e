import Mathlib.Data.List.Forall2
import NodeGraph.Compile

namespace NodeGraph

/-! When compiling succeeds, and what it has settled by then. The plugs of the
nodes are known before any node is created, so everything else about a
compilation can be said of the prototype and the registry alone. -/

/-! ## Sequences of steps -/

theorem except_bind_eq_ok_iff {first : Except ε α} {next : α → Except ε β} {result : β} :
    (first >>= next) = .ok result ↔ ∃ value, first = .ok value ∧ next value = .ok result := by
  cases first with
  | error error => simp [bind, Except.bind]
  | ok value => simp [bind, Except.bind]

theorem except_seq_eq_ok_iff {check : Except ε PUnit} {next : PUnit → Except ε β} {result : β} :
    (check >>= next) = .ok result ↔ check = .ok () ∧ next () = .ok result := by
  cases check with
  | error error => simp [bind, Except.bind]
  | ok value => simp [bind, Except.bind]

/-- A result of which something is known is there. -/
theorem exists_of_any {outcome : Except ε α} {holds : α → Bool}
    (any : outcome.toOption.any holds = true) :
    ∃ value, outcome = .ok value ∧ holds value = true := by
  cases outcome with
  | error error => cases any
  | ok value => exact ⟨value, rfl, any⟩

theorem exists_eq_ok {outcome : Except ε α} (isOk : outcome.isOk = true) :
    ∃ value, outcome = .ok value := by
  cases outcome with
  | error error => cases isOk
  | ok value => exact ⟨value, rfl⟩

/-- A check of each item succeeds if it succeeds on every one. -/
theorem forM_eq_ok_iff {check : α → Except ε PUnit} {items : List α} :
    items.forM check = .ok () ↔ ∀ item ∈ items, check item = .ok () := by
  rw [List.forM_eq_forM]
  induction items with
  | nil => simp [pure, Except.pure]
  | cons item items induction =>
      rw [List.forM_cons, except_seq_eq_ok_iff, List.forall_mem_cons, ← induction]

/-- Related lists are related at every position. -/
theorem forall₂_getElem? {related : α → β → Prop} {lefts : List α} {rights : List β}
    (all : List.Forall₂ related lefts rights) {index : Nat} {left : α} {right : β}
    (leftFound : lefts[index]? = some left) (rightFound : rights[index]? = some right) :
    related left right := by
  rcases List.getElem?_eq_some_iff.mp leftFound with ⟨leftBound, rfl⟩
  rcases List.getElem?_eq_some_iff.mp rightFound with ⟨rightBound, rfl⟩
  exact (List.forall₂_iff_get.mp all).2 index leftBound rightBound

/-- Results of two kinds for the same items look the same if they do item by
item. -/
theorem map_eq_of_forall₂ {makes : α → β → Prop} {otherMakes : α → γ → Prop} {look : β → τ}
    {other : γ → τ} {items : List α} {lefts : List β} {rights : List γ}
    (same : ∀ item left right, makes item left → otherMakes item right → look left = other right)
    (leftMade : List.Forall₂ makes items lefts)
    (rightMade : List.Forall₂ otherMakes items rights) : lefts.map look = rights.map other := by
  induction leftMade generalizing rights with
  | nil =>
      cases rightMade
      rfl
  | cons first _ induction =>
      cases rightMade with
      | cons second others =>
          rw [List.map_cons, List.map_cons, same _ _ _ first second, induction others]

namespace Compilation

theorem outcome_bind_eq_ok_iff {first : Compilation α} {next : α → Compilation β} {result : β} :
    (first >>= next).outcome = .ok result ↔
      ∃ value, first.outcome = .ok value ∧ (next value).outcome = .ok result := by
  rw [outcome_bind, except_bind_eq_ok_iff]

@[simp] theorem outcome_map (change : α → β) (compilation : Compilation α) :
    (change <$> compilation).outcome = change <$> compilation.outcome := by
  show (compilation >>= fun value => pure (change value)).outcome = _
  rw [outcome_bind]
  cases compilation.outcome <;> rfl

theorem outcome_mapError_eq_ok_iff {change : CompileError → CompileError}
    {compilation : Compilation α} {result : α} :
    (compilation.mapError change).outcome = .ok result ↔ compilation.outcome = .ok result := by
  rw [outcome_mapError]
  cases compilation.outcome <;> simp [Except.mapError]

/-- A step for each item succeeds if it succeeds on every item, and yields the
results in order. -/
theorem each_eq_ok_iff {step : α → Compilation β} {items : List α} {results : List β} :
    (each step items).outcome = .ok results ↔
      List.Forall₂ (fun item result => (step item).outcome = .ok result) items results := by
  induction items generalizing results with
  | nil => simp [each, eq_comm]
  | cons item items induction =>
      simp only [each, outcome_bind_eq_ok_iff, outcome_pure, induction]
      constructor
      · intro steps
        rcases steps with ⟨first, stepped, others, rest, equal⟩
        cases equal
        exact .cons stepped rest
      · intro steps
        cases steps with
        | cons stepped rest => exact ⟨_, stepped, _, rest, rfl⟩

end Compilation

namespace Compile

/-! ## Plugs known in advance -/

variable [Processor κ]

/-- The plugs that a node will have: those of its subroutine, or else those of
its type. -/
def layout? (registry : Registry κ) (placed : PrototypeNode) : Option Layout :=
  match placed.subroutine with
  | some prototype => some (Subroutine.layoutOf prototype)
  | none => (registry.create? placed.type placed.id).map Processor.layout

/-- What the ends of wires are looked up in. A node that cannot be created
counts as one without plugs. -/
def endpointsOf (registry : Registry κ) (prototype : Prototype) : Endpoints where
  prototype
  layouts := prototype.nodes.map fun placed => (layout? registry placed).getD {}

/-! ## What compiling settles -/

/-- The checks of a prototype succeed, its connections are wired as `wires`, and
its nodes run in `order`. -/
structure Wired (endpoints : Endpoints) (wires : List Wire) (order : List Nat) : Prop where
  ids : checkIds [] endpoints.prototype.nodes = .ok ()
  overrides : checkOverrides (endpoints.prototype.nodes.zip endpoints.layouts) = .ok ()
  wires : (endpoints.wireAll [] endpoints.prototype.connections).outcome = .ok wires
  order : Compile.order endpoints.prototype = .ok order

/-- Nodes that have been created have the plugs that were known in advance. -/
theorem map_layout_of_created [Processor ν] {registry : Registry κ}
    {create : PrototypeNode → Compilation ν} {placed : List PrototypeNode} {nodes : List ν}
    (layouts : ∀ placed node, (create placed).outcome = .ok node →
      layout? registry placed = some (Processor.layout node))
    (created : List.Forall₂ (fun placed node => (create placed).outcome = .ok node) placed nodes) :
    nodes.map Processor.layout = placed.map fun placed => (layout? registry placed).getD {} := by
  induction created with
  | nil => rfl
  | cons head _ induction => simp [layouts _ _ head, induction]

/-- Compiling succeeds if every node can be created and the checks succeed. -/
theorem withNodes_eq_ok_iff [Processor ν] {registry : Registry κ} {config : Config}
    {create : PrototypeNode → Compilation ν} {prototype : Prototype} {graph : Graph ν}
    (layouts : ∀ placed node, (create placed).outcome = .ok node →
      layout? registry placed = some (Processor.layout node)) :
    (withNodes config create prototype).outcome = .ok graph ↔
      ∃ nodes wires order,
        List.Forall₂ (fun placed node => (create placed).outcome = .ok node)
          prototype.nodes nodes ∧
        Wired (endpointsOf registry prototype) wires order ∧
        graph = Graph.pristine
          (Assembly.circuit config (endpointsOf registry prototype) wires order)
          config.eventQueueCapacity.toNat nodes := by
  simp only [withNodes, Compilation.outcome_bind_eq_ok_iff, Compilation.outcome_ofExcept,
    Compilation.outcome_note, Compilation.outcome_pure, Compilation.each_eq_ok_iff]
  constructor
  · intro succeeded
    rcases succeeded with
      ⟨_, ids, nodes, created, _, overrides, _, -, wires, wired, order, ordered, equal⟩
    have created : List.Forall₂ (fun placed node => (create placed).outcome = .ok node)
        prototype.nodes nodes := by
      simpa using created
    rw [map_layout_of_created layouts created] at overrides wired equal
    exact ⟨nodes, wires, order, created, ⟨ids, overrides, wired, ordered⟩,
      (Except.ok.inj equal).symm⟩
  · intro settled
    rcases settled with ⟨nodes, wires, order, created, ⟨ids, overrides, wired, ordered⟩, rfl⟩
    refine ⟨(), ids, nodes, by simpa using created, (), ?_, (), Compilation.outcome_reserve _,
      wires, ?_, order, ordered, ?_⟩
    · rw [map_layout_of_created layouts created]
      exact overrides
    · rw [map_layout_of_created layouts created]
      exact wired
    · rw [map_layout_of_created layouts created]
      rfl

/-! ## Creating nodes -/

omit [Processor κ] in
theorem fromRegistry_eq_ok_iff {registry : Registry κ} {placed : PrototypeNode} {node : κ} :
    (fromRegistry registry placed).outcome = .ok node ↔
      registry.create? placed.type placed.id = some node := by
  unfold fromRegistry
  cases registry.create? placed.type placed.id <;> simp

omit [Processor κ] in
theorem createPlain_eq_ok_iff {registry : Registry κ} {config : Config}
    {placed : PrototypeNode} {node : κ} :
    (createPlain registry config placed).outcome = .ok node ↔
      placed.subroutine = none ∧ registry.create? placed.type placed.id = some node := by
  unfold createPlain
  cases placed.subroutine with
  | none => simp [fromRegistry_eq_ok_iff]
  | some prototype => simp

omit [Processor κ] in
theorem createNested_eq_ok_iff {registry : Registry κ}
    {compile : Prototype → Compilation (Graph ν)} {placed : PrototypeNode}
    {node : κ ⊕ Subroutine ν} :
    (createNested registry compile placed).outcome = .ok node ↔
      (placed.subroutine = none ∧
        ∃ plain, registry.create? placed.type placed.id = some plain ∧ node = .inl plain) ∨
      ∃ prototype graph, placed.subroutine = some prototype ∧
        (compile prototype).outcome = .ok graph ∧
        node = .inr (Subroutine.ofPrototype prototype graph) := by
  unfold createNested
  cases placed.subroutine with
  | none =>
      rw [Compilation.outcome_map]
      simp only [true_and, reduceCtorEq, false_and, exists_false, or_false,
        ← fromRegistry_eq_ok_iff]
      cases (fromRegistry registry placed).outcome <;> simp [eq_comm]
  | some prototype =>
      simp only [Compilation.outcome_bind_eq_ok_iff, Compilation.outcome_mapError_eq_ok_iff,
        Compilation.outcome_pure]
      simp [eq_comm]

theorem createPlain_layout {registry : Registry κ} {config : Config} {placed : PrototypeNode}
    {node : κ} (created : (createPlain registry config placed).outcome = .ok node) :
    layout? registry placed = some (Processor.layout node) := by
  rcases createPlain_eq_ok_iff.mp created with ⟨plain, found⟩
  simp [layout?, plain, found]

theorem createNested_layout [Processor ν] {registry : Registry κ}
    {compile : Prototype → Compilation (Graph ν)} {placed : PrototypeNode}
    {node : κ ⊕ Subroutine ν}
    (created : (createNested registry compile placed).outcome = .ok node) :
    layout? registry placed = some (Processor.layout node) := by
  rcases createNested_eq_ok_iff.mp created with
    ⟨plain, type, found, equal⟩ | ⟨prototype, graph, nested, -, equal⟩
  · subst equal
    simp [layout?, plain, found, Processor.layout]
  · subst equal
    simp [layout?, nested, Processor.layout, Subroutine.ofPrototype]

/-! ## Whole prototypes -/

/-- How the nodes of a prototype are created if there is room for that many
levels of subroutines. -/
def createNode (registry : Registry κ) (config : Config) :
    (room : Nat) → PrototypeNode → Compilation (Nested κ room)
  | 0 => createPlain registry config
  | room + 1 => createNested registry (build registry config room)

theorem createNode_layout {registry : Registry κ} {config : Config} {room : Nat}
    {placed : PrototypeNode} {node : Nested κ room}
    (created : (createNode registry config room placed).outcome = .ok node) :
    layout? registry placed = some (Processor.layout node) := by
  cases room with
  | zero => exact createPlain_layout created
  | succ room => exact createNested_layout created

theorem build_eq_withNodes (registry : Registry κ) (config : Config) (room : Nat)
    (prototype : Prototype) : build registry config room prototype =
      withNodes config (createNode registry config room) prototype := by
  cases room <;> rfl

theorem build_eq_ok_iff {registry : Registry κ} {config : Config} {room : Nat}
    {prototype : Prototype} {graph : Graph (Nested κ room)} :
    (build registry config room prototype).outcome = .ok graph ↔
      ∃ nodes wires order,
        List.Forall₂ (fun placed node =>
          (createNode registry config room placed).outcome = .ok node) prototype.nodes nodes ∧
        Wired (endpointsOf registry prototype) wires order ∧
        graph = Graph.pristine
          (Assembly.circuit config (endpointsOf registry prototype) wires order)
          config.eventQueueCapacity.toNat nodes := by
  rw [build_eq_withNodes]
  exact withNodes_eq_ok_iff fun _ _ => createNode_layout

theorem build_eq_ok {registry : Registry κ} {config : Config} {room : Nat}
    {prototype : Prototype} {graph : Graph (Nested κ room)}
    (built : (build registry config room prototype).outcome = .ok graph) :
    ∃ nodes wires order, nodes.length = prototype.nodes.length ∧
      Wired (endpointsOf registry prototype) wires order ∧
      graph = Graph.pristine
        (Assembly.circuit config (endpointsOf registry prototype) wires order)
        config.eventQueueCapacity.toNat nodes := by
  rcases build_eq_ok_iff.mp built with ⟨nodes, wires, order, created, wired, equal⟩
  exact ⟨nodes, wires, order, created.length_eq.symm, wired, equal⟩

end Compile

theorem Instance.create_eq_ok_iff [Processor κ] {registry : Registry κ} {config : Config}
    {context : Context} {prototype : Prototype} {graph : Instance κ config} :
    (Instance.create registry config context prototype).outcome = .ok graph ↔
      ∃ built, (Compile.build registry config config.maxSubroutineDepth.toNat
          prototype).outcome = .ok built ∧
        graph = (built.init context).1 := by
  simp only [Instance.create, Compilation.outcome_bind_eq_ok_iff, Compilation.outcome_noteAll,
    Compilation.outcome_note, Compilation.outcome_pure]
  simp [eq_comm]

/-- An instance can be created of whatever can be compiled. -/
theorem Instance.exists_create_iff [Processor κ] {registry : Registry κ} {config : Config}
    {context : Context} {prototype : Prototype} :
    (∃ graph, (Instance.create registry config context prototype).outcome = .ok graph) ↔
      ∃ built, (Compile.build registry config config.maxSubroutineDepth.toNat
        prototype).outcome = .ok built := by
  simp only [Instance.create_eq_ok_iff]
  constructor
  · intro created
    rcases created with ⟨_, built, compiled, -⟩
    exact ⟨built, compiled⟩
  · intro compiled
    rcases compiled with ⟨built, compiled⟩
    exact ⟨_, built, compiled, rfl⟩

end NodeGraph
