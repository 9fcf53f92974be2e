import NodeGraph.Proofs.Compile.Canonical

namespace NodeGraph

/-! Faults of a prototype, and which of them comes first. What is wrong with a
node, an override or a connection is said in terms of the prototype and of the
registry alone. Faults are looked for phase by phase, in each phase in the order
of a list, and the nodes of a phase may be graphs with faults of their own. -/

/-! ## Firsts -/

section
variable {α ε : Type}

/-- The fault is one that is looked for first, or there is no such fault and it
is one that is looked for next. -/
def FirstThen (first next : ε → Prop) (fault : ε) : Prop :=
  first fault ∨ (∀ other, ¬ first other) ∧ next fault

/-- The fault is one of the first phase in which there are any. -/
def FirstOf : (phases : List (ε → Prop)) → ε → Prop
  | [] => fun _ => False
  | phase :: phases => FirstThen phase (FirstOf phases)

/-- The fault is one of the first item that has any. What is wrong with an item
may depend on the items before it. -/
def FirstAmong (wrong : (earlier : List α) → α → ε → Prop) (items : List α) (fault : ε) : Prop :=
  ∃ earlier item later, items = earlier ++ item :: later ∧ wrong earlier item fault ∧
    ∀ before other after, earlier = before ++ other :: after →
      ∀ another, ¬ wrong before other another

/-- What matters is the order, not how it is divided. -/
theorem firstThen_assoc (first second third : ε → Prop) (fault : ε) :
    FirstThen (FirstThen first second) third fault ↔
      FirstThen first (FirstThen second third) fault := by
  unfold FirstThen
  constructor
  · intro found
    rcases found with (isFirst | ⟨noFirst, isSecond⟩) | ⟨neither, isThird⟩
    · exact .inl isFirst
    · exact .inr ⟨noFirst, .inl isSecond⟩
    · have noFirst (other : ε) : ¬ first other := fun isFirst => neither other (.inl isFirst)
      exact .inr ⟨noFirst, .inr ⟨fun other isSecond => neither other (.inr ⟨noFirst, isSecond⟩),
        isThird⟩⟩
  · intro found
    rcases found with isFirst | ⟨noFirst, isSecond | ⟨noSecond, isThird⟩⟩
    · exact .inl (.inl isFirst)
    · exact .inl (.inr ⟨noFirst, isSecond⟩)
    · exact .inr ⟨fun other either => either.elim (noFirst other) fun second =>
        noSecond other second.2, isThird⟩

@[simp] theorem firstAmong_nil (wrong : List α → α → ε → Prop) (fault : ε) :
    ¬ FirstAmong wrong [] fault := by
  intro found
  rcases found with ⟨earlier, item, later, split, -⟩
  simp at split

/-- The head of a list comes before its tail. -/
theorem firstAmong_cons {wrong : List α → α → ε → Prop} {item : α} {items : List α} {fault : ε} :
    FirstAmong wrong (item :: items) fault ↔
      FirstThen (wrong [] item) (FirstAmong (fun earlier => wrong (item :: earlier)) items)
        fault := by
  constructor
  · intro found
    rcases found with ⟨earlier, other, later, split, isWrong, clean⟩
    cases earlier with
    | nil =>
        cases split
        exact .inl isWrong
    | cons head earlier =>
        cases split
        refine .inr ⟨clean [] item earlier rfl, earlier, other, later, rfl, isWrong, ?_⟩
        intro before another after within
        exact clean (item :: before) another after (congrArg (item :: ·) within)
  · intro found
    rcases found with isWrong | ⟨headClean, earlier, other, later, rfl, isWrong, clean⟩
    · exact ⟨[], item, items, rfl, isWrong, fun before _ _ within => by simp at within⟩
    · refine ⟨item :: earlier, other, later, rfl, isWrong, ?_⟩
      intro before another after within
      cases before with
      | nil =>
          cases within
          exact headClean
      | cons head before =>
          cases within
          exact clean before another after rfl

theorem exists_of_firstOf {phases : List (ε → Prop)} {fault : ε} (found : FirstOf phases fault) :
    ∃ phase ∈ phases, phase fault := by
  induction phases with
  | nil => cases found
  | cons phase phases induction =>
      rcases found with here | ⟨-, later⟩
      · exact ⟨phase, .head _, here⟩
      · rcases induction later with ⟨other, member, isFault⟩
        exact ⟨other, .tail _ member, isFault⟩

theorem exists_of_firstAmong {wrong : List α → α → ε → Prop} {items : List α} {fault : ε}
    (found : FirstAmong wrong items fault) :
    ∃ earlier, ∃ item ∈ items, wrong earlier item fault := by
  rcases found with ⟨earlier, item, later, rfl, isWrong, -⟩
  exact ⟨earlier, item, List.mem_append_right _ (.head _), isWrong⟩

end

/-! ## Faults of the parts -/

/-- What is wrong with the id of a node, ids of earlier nodes being used up. -/
def IdFault (used : List NodeId) (placed : PrototypeNode) : CompileError → Prop :=
  FirstOf [
    fun fault => placed.id = graphNodeId ∧ fault = .reservedNode,
    fun fault => placed.id ∈ used ∧ fault = .duplicateNode placed.id]

/-- Why a node cannot be created: it is a graph, and `inside` says what is wrong
with that, or its type is not known. -/
def NodeFault (registry : Registry κ)
    (inside : PrototypeNode → Prototype → CompileError → Prop) (placed : PrototypeNode)
    (fault : CompileError) : Prop :=
  match placed.subroutine with
  | some nested => inside placed nested fault
  | none => registry.contains placed.type = false ∧ fault = .unknownType placed.id placed.type

namespace Compile

variable [Processor κ]

/-- What is wrong with an override of a node: there is no such plug, or the first
plug of that id is of another kind. -/
def OverrideFault (registry : Registry κ) (placed : PrototypeNode) (override : Endpoint)
    (fault : CompileError) : Prop :=
  ∃ layout, layout? registry placed = some layout ∧
    match layout.inputs.find? fun plug => plug.id == override.id with
    | none => fault = .unknownOverride placed.id override.id
    | some plug =>
        plug.default.kind ≠ .void ∧ plug.default.kind ≠ override.default.kind ∧
          fault = .overrideKind placed.id override.id plug.default.kind override.default.kind

/-- How the destination of a connection is named when another value arrives there
already: a plug of a node as the connection names it, an output of the graph as
it is declared. -/
def NamesDestination (prototype : Prototype) (connection : Connection) (terminus : Terminus) :
    Prop :=
  match connection.kind.destinationScope with
  | .node => terminus = connection.destination
  | .graph | .localVariable =>
      ∃ output, prototype.output? connection.destination.endpoint = some output ∧
        terminus = ⟨graphNodeId, output.id⟩

/-- Why a connection is no wire: an end is where its kind does not put it, or what
it refers to is not there. -/
def WireFault (registry : Registry κ) (prototype : Prototype) (connection : Connection) :
    CompileError → Prop :=
  FirstOf [
    fun fault =>
      ¬ (connection.source.node = graphNodeId ↔ connection.kind.sourceScope ≠ .node) ∧
        fault = .boundary connection.kind connection.source.node,
    fun fault =>
      ¬ (connection.destination.node = graphNodeId ↔ connection.kind.destinationScope ≠ .node) ∧
        fault = .boundary connection.kind connection.destination.node,
    fun fault =>
      ¬ SourceExists registry prototype connection ∧ fault = .dangling connection.source,
    fun fault =>
      ¬ DestinationExists registry prototype connection ∧
        fault = .dangling connection.destination]

/-- An earlier connection carries a value to the destination of a connection
already. -/
def CollisionFault (prototype : Prototype) (earlier : List Connection) (connection : Connection)
    (fault : CompileError) : Prop :=
  (∃ other ∈ earlier, other.Collides connection) ∧
    ∃ terminus, NamesDestination prototype connection terminus ∧ fault = .multipleSources terminus

/-- Why a connection cannot be wired after earlier ones. -/
def ConnectionFault (registry : Registry κ) (prototype : Prototype) (earlier : List Connection)
    (connection : Connection) : CompileError → Prop :=
  FirstThen (WireFault registry prototype connection)
    (CollisionFault prototype earlier connection)

/-- Values go round: the nodes that lie on cycles are named as they are listed. -/
def CycleFault (prototype : Prototype) (fault : CompileError) : Prop :=
  ∃ nodes, fault = .valueCycle nodes ∧ nodes ≠ [] ∧ nodes.Sublist prototype.ids ∧
    ∀ node, node ∈ nodes ↔ Relation.TransGen prototype.ValueEdge node node

/-! ## Faults of a prototype -/

/-- The first fault of a prototype, `inside` saying what is wrong with the graphs
of its nodes. -/
def LevelFault (registry : Registry κ)
    (inside : PrototypeNode → Prototype → CompileError → Prop) (prototype : Prototype) :
    CompileError → Prop :=
  FirstOf [
    FirstAmong (fun earlier => IdFault (earlier.map PrototypeNode.id)) prototype.nodes,
    FirstAmong (fun _ => NodeFault registry inside) prototype.nodes,
    FirstAmong (fun _ placed => FirstAmong (fun _ => OverrideFault registry placed)
      placed.overrides) prototype.nodes,
    FirstAmong (ConnectionFault registry prototype) prototype.connections,
    CycleFault prototype]

/-- The first fault of a prototype at a level below which there is room for that
many levels of subroutines, `limit` being the room at the top. -/
def FirstFault (registry : Registry κ) (limit : Nat) :
    (room : Nat) → Prototype → CompileError → Prop
  | 0 =>
      LevelFault registry fun placed _ fault => fault = .subroutineTooDeep placed.id (limit + 1)
  | room + 1 =>
      LevelFault registry fun placed nested fault =>
        ∃ cause, FirstFault registry limit room nested cause ∧
          fault = .inSubroutine placed.id cause

end Compile

/-! ## Where a fault lies -/

/-- The prototype that lies inside the nodes of those ids, from the outside in. -/
inductive Prototype.Encloses : Prototype → (path : List NodeId) → Prototype → Prop
  | itself (prototype : Prototype) : Encloses prototype [] prototype
  | inside {prototype nested inner : Prototype} {placed : PrototypeNode} {path : List NodeId}
      (listed : placed ∈ prototype.nodes) (composite : placed.subroutine = some nested)
      (below : Encloses nested path inner) : Encloses prototype (placed.id :: path) inner

/-- A fault as it is reported from inside the nodes of those ids. -/
def CompileError.within (cause : CompileError) (path : List NodeId) : CompileError :=
  path.foldr .inSubroutine cause

theorem CompileError.subroutineDepth_within (cause : CompileError) (path : List NodeId) :
    (cause.within path).subroutineDepth = cause.subroutineDepth + path.length := by
  induction path with
  | nil => rfl
  | cons node path induction => exact congrArg (· + 1) induction

namespace Compile

variable [Processor κ] {registry : Registry κ}

/-- A fault that is not reported from inside a subroutine and is not that there is
one. -/
def OnLevel (fault : CompileError) : Prop :=
  fault.subroutineDepth = 0 ∧ ∀ node depth, fault ≠ .subroutineTooDeep node depth

omit [Processor κ] in
theorem onLevel_of_idFault {used : List NodeId} {placed : PrototypeNode} {fault : CompileError}
    (found : IdFault used placed fault) : OnLevel fault := by
  rcases exists_of_firstOf found with ⟨phase, member, isFault⟩
  simp only [List.mem_cons, List.not_mem_nil, or_false] at member
  rcases member with rfl | rfl <;> rcases isFault with ⟨-, rfl⟩ <;>
    simp [OnLevel, CompileError.subroutineDepth]

theorem onLevel_of_overrideFault {placed : PrototypeNode} {override : Endpoint}
    {fault : CompileError} (found : OverrideFault registry placed override fault) :
    OnLevel fault := by
  rcases found with ⟨layout, -, isFault⟩
  split at isFault
  · subst isFault
    simp [OnLevel, CompileError.subroutineDepth]
  · rcases isFault with ⟨-, -, rfl⟩
    simp [OnLevel, CompileError.subroutineDepth]

theorem onLevel_of_connectionFault {prototype : Prototype} {earlier : List Connection}
    {connection : Connection} {fault : CompileError}
    (found : ConnectionFault registry prototype earlier connection fault) : OnLevel fault := by
  rcases found with atAnEnd | ⟨-, -, terminus, -, rfl⟩
  · rcases exists_of_firstOf atAnEnd with ⟨phase, member, isFault⟩
    simp only [List.mem_cons, List.not_mem_nil, or_false] at member
    rcases member with rfl | rfl | rfl | rfl <;> rcases isFault with ⟨-, rfl⟩ <;>
      simp [OnLevel, CompileError.subroutineDepth]
  · simp [OnLevel, CompileError.subroutineDepth]

/-- A fault of a prototype is on its own level or inside a node. -/
theorem LevelFault.cases {inside : PrototypeNode → Prototype → CompileError → Prop}
    {prototype : Prototype} {fault : CompileError}
    (found : LevelFault registry inside prototype fault) :
    OnLevel fault ∨ ∃ placed ∈ prototype.nodes, ∃ nested, placed.subroutine = some nested ∧
      inside placed nested fault := by
  rcases exists_of_firstOf found with ⟨phase, member, isFault⟩
  simp only [List.mem_cons, List.not_mem_nil, or_false] at member
  rcases member with rfl | rfl | rfl | rfl | rfl
  · rcases exists_of_firstAmong isFault with ⟨_, _, -, isFault⟩
    exact .inl (onLevel_of_idFault isFault)
  · rcases exists_of_firstAmong isFault with ⟨_, placed, listed, isFault⟩
    unfold NodeFault at isFault
    split at isFault
    next nested composite => exact .inr ⟨placed, listed, nested, composite, isFault⟩
    next plain =>
      rcases isFault with ⟨-, rfl⟩
      simp [OnLevel, CompileError.subroutineDepth]
  · rcases exists_of_firstAmong isFault with ⟨_, _, -, isFault⟩
    rcases exists_of_firstAmong isFault with ⟨_, _, -, isFault⟩
    exact .inl (onLevel_of_overrideFault isFault)
  · rcases exists_of_firstAmong isFault with ⟨_, _, -, isFault⟩
    exact .inl (onLevel_of_connectionFault isFault)
  · rcases isFault with ⟨nodes, rfl, -⟩
    simp [OnLevel, CompileError.subroutineDepth]

/-- Wherever the first fault lies, it is reported through the nodes that lead there,
from the outside in, and is the first fault of the prototype there. That a
subroutine lies too deep is found only where there is no more room. -/
theorem FirstFault.lies {limit room : Nat} {prototype : Prototype} {fault : CompileError}
    (found : FirstFault registry limit room prototype fault) :
    ∃ path inner cause, prototype.Encloses path inner ∧ path.length ≤ room ∧
      fault = cause.within path ∧ cause.subroutineDepth = 0 ∧
      FirstFault registry limit (room - path.length) inner cause ∧
      ∀ node depth, cause = .subroutineTooDeep node depth →
        path.length = room ∧ depth = limit + 1 := by
  induction room generalizing prototype fault with
  | zero =>
      refine ⟨[], prototype, fault, .itself prototype, Nat.le_refl 0, rfl, ?_, found, ?_⟩
      · rcases LevelFault.cases found with onLevel | ⟨placed, -, nested, -, rfl⟩
        · exact onLevel.1
        · rfl
      · intro node depth tooDeep
        rcases LevelFault.cases found with onLevel | ⟨placed, -, nested, -, isFault⟩
        · exact absurd tooDeep (onLevel.2 node depth)
        · rw [isFault] at tooDeep
          cases tooDeep
          exact ⟨rfl, rfl⟩
  | succ room induction =>
      rcases LevelFault.cases found with onLevel | ⟨placed, listed, nested, composite, cause, isFault, rfl⟩
      · exact ⟨[], prototype, fault, .itself prototype, Nat.zero_le _, rfl, onLevel.1, found,
          fun node depth tooDeep => absurd tooDeep (onLevel.2 node depth)⟩
      · rcases induction isFault with
          ⟨path, inner, deepest, encloses, bound, rfl, own, here, tooDeep⟩
        refine ⟨placed.id :: path, inner, deepest, .inside listed composite encloses,
          Nat.succ_le_succ bound, rfl, own, ?_, ?_⟩
        · rw [List.length_cons, Nat.succ_sub_succ]
          exact here
        · intro node depth isTooDeep
          rcases tooDeep node depth isTooDeep with ⟨atBottom, number⟩
          exact ⟨congrArg (· + 1) atBottom, number⟩

end Compile

end NodeGraph
