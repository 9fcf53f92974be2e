import NodeGraph.Proofs.Compile.Wires
import NodeGraph.Proofs.Run.Unnamed

namespace NodeGraph

/-! Compiling prototypes that differ in the names that identifiers remember. Ends
of wires are looked up by hash, so the same checks fail in the same way, and the
same wires lead to the same slots. -/

/-! ## Leaving out names -/

def ValueSource.unnamed : ValueSource → ValueSource
  | .nodeOutput index plug => .nodeOutput index plug
  | .graphInput id => .graphInput id.unnamed
  | .localVariable id => .localVariable id.unnamed

def ValueSink.unnamed : ValueSink → ValueSink
  | .nodeInput index plug => .nodeInput index plug
  | .graphOutput id => .graphOutput id.unnamed

def EventSource.unnamed : EventSource → EventSource
  | .nodeEvent index output => .nodeEvent index output
  | .graphInput id => .graphInput id.unnamed

def Wire.unnamed : Wire → Wire
  | .value source sink => .value source.unnamed sink.unnamed
  | .event source target => .event source.unnamed target.unnamed

def Endpoints.unnamed (endpoints : Endpoints) : Endpoints :=
  ⟨endpoints.prototype.unnamed, endpoints.layouts.map Layout.unnamed⟩

def CompileError.unnamed : CompileError → CompileError
  | .unknownType node type => .unknownType node type.unnamed
  | .dangling terminus => .dangling terminus.unnamed
  | .duplicateNode node => .duplicateNode node
  | .reservedNode => .reservedNode
  | .valueCycle nodes => .valueCycle nodes
  | .overrideKind node plug expected found => .overrideKind node plug.unnamed expected found
  | .unknownOverride node plug => .unknownOverride node plug.unnamed
  | .multipleSources terminus => .multipleSources terminus.unnamed
  | .boundary kind node => .boundary kind node
  | .subroutineTooDeep node depth => .subroutineTooDeep node depth
  | .inSubroutine node cause => .inSubroutine node cause.unnamed

theorem Terminus.unnamed_eq_iff {left right : Terminus} :
    left.unnamed = right.unnamed ↔
      left.node = right.node ∧ left.endpoint.unnamed = right.endpoint.unnamed :=
  Eq.to_iff (Terminus.mk.injEq ..)

theorem Connection.unnamed_eq_iff {left right : Connection} :
    left.unnamed = right.unnamed ↔ left.source.unnamed = right.source.unnamed ∧
      left.destination.unnamed = right.destination.unnamed ∧ left.kind = right.kind :=
  Eq.to_iff (Connection.mk.injEq ..)

theorem Endpoint.unnamed_eq_iff {left right : Endpoint} :
    left.unnamed = right.unnamed ↔
      left.id.unnamed = right.id.unnamed ∧ left.default = right.default :=
  Eq.to_iff (Endpoint.mk.injEq ..)

theorem PrototypeNode.unnamed_eq_iff {left right : PrototypeNode} :
    left.unnamed = right.unnamed ↔ left.type.unnamed = right.type.unnamed ∧ left.id = right.id ∧
      left.overrides.map Endpoint.unnamed = right.overrides.map Endpoint.unnamed ∧
      Prototype.unnamedSubroutine left.subroutine = Prototype.unnamedSubroutine right.subroutine :=
  Eq.to_iff (PrototypeNode.mk.injEq ..)

theorem Endpoints.unnamed_eq_iff {left right : Endpoints} :
    left.unnamed = right.unnamed ↔ left.prototype.unnamed = right.prototype.unnamed ∧
      left.layouts.map Layout.unnamed = right.layouts.map Layout.unnamed :=
  Eq.to_iff (Endpoints.mk.injEq ..)

namespace Prototype

section
variable (prototype : Prototype)

@[simp] theorem unnamed_name : prototype.unnamed.name = prototype.name := by
  cases prototype
  rfl

@[simp] theorem unnamed_inputs :
    prototype.unnamed.inputs = prototype.inputs.map Endpoint.unnamed := by
  cases prototype
  rfl

@[simp] theorem unnamed_outputs :
    prototype.unnamed.outputs = prototype.outputs.map Endpoint.unnamed := by
  cases prototype
  rfl

@[simp] theorem unnamed_locals :
    prototype.unnamed.locals = prototype.locals.map Endpoint.unnamed := by
  cases prototype
  rfl

@[simp] theorem unnamed_nodes :
    prototype.unnamed.nodes = prototype.nodes.map PrototypeNode.unnamed := by
  cases prototype
  exact unnamedNodes_eq_map _

@[simp] theorem unnamed_connections :
    prototype.unnamed.connections = prototype.connections.map Connection.unnamed := by
  cases prototype
  rfl

end

theorem unnamed_eq_iff {left right : Prototype} :
    left.unnamed = right.unnamed ↔ left.name = right.name ∧ left.id = right.id ∧
      left.inputs.map Endpoint.unnamed = right.inputs.map Endpoint.unnamed ∧
      left.outputs.map Endpoint.unnamed = right.outputs.map Endpoint.unnamed ∧
      left.locals.map Endpoint.unnamed = right.locals.map Endpoint.unnamed ∧
      left.nodes.map PrototypeNode.unnamed = right.nodes.map PrototypeNode.unnamed ∧
      left.connections.map Connection.unnamed = right.connections.map Connection.unnamed := by
  cases left
  cases right
  simp only [unnamed, unnamedNodes_eq_map, Prototype.mk.injEq]

theorem subroutines_of_unnamed {left right : Option Prototype}
    (same : unnamedSubroutine left = unnamedSubroutine right) :
    Option.Rel (fun left right : Prototype => left.unnamed = right.unnamed) left right := by
  have mapped (subroutine : Option Prototype) :
      unnamedSubroutine subroutine = subroutine.map unnamed := by
    cases subroutine <;> rfl
  rw [mapped, mapped] at same
  exact option_rel_of_map_eq same

/-- Node ids are not names. -/
theorem ids_of_unnamed {lefts rights : List PrototypeNode}
    (same : lefts.map PrototypeNode.unnamed = rights.map PrototypeNode.unnamed) :
    lefts.map PrototypeNode.id = rights.map PrototypeNode.id := by
  have ids := congrArg (List.map PrototypeNode.id) same
  rwa [List.map_map, List.map_map] at ids

end Prototype

/-- An endpoint is found by hash. -/
theorem find?_map_unnamed (endpoints : List Endpoint) (id : Identifier) :
    (endpoints.map Endpoint.unnamed).find? (fun endpoint => endpoint.id == id.unnamed) =
      (endpoints.find? fun endpoint => endpoint.id == id).map Endpoint.unnamed := by
  rw [List.find?_map]
  rfl

theorem find?_upToNames {lefts rights : List Endpoint}
    (endpoints : lefts.map Endpoint.unnamed = rights.map Endpoint.unnamed) {id other : Identifier}
    (ids : id.unnamed = other.unnamed) :
    Option.Rel (fun left right : Endpoint => left.unnamed = right.unnamed)
      (lefts.find? fun endpoint => endpoint.id == id)
      (rights.find? fun endpoint => endpoint.id == other) := by
  apply option_rel_of_map_eq
  rw [← find?_map_unnamed, ← find?_map_unnamed, endpoints, ids]

/-! ## Outcomes -/

/-- Both outcomes are errors that are the same up to names, or both are results
that are the same. -/
inductive SameOutcome (same : α → β → Prop) :
    Except CompileError α → Except CompileError β → Prop
  | error {left right : CompileError} (errors : left.unnamed = right.unnamed) :
      SameOutcome same (.error left) (.error right)
  | ok {left : α} {right : β} (results : same left right) :
      SameOutcome same (.ok left) (.ok right)

namespace SameOutcome

variable {same : α → β → Prop} {sameNext : γ → δ → Prop}

theorem self (outcome : Except CompileError α) : SameOutcome Eq outcome outcome := by
  cases outcome with
  | error error => exact .error rfl
  | ok result => exact .ok rfl

theorem imp {other : α → β → Prop} {left : Except CompileError α}
    {right : Except CompileError β} (first : SameOutcome same left right)
    (weaken : ∀ leftResult rightResult, same leftResult rightResult →
      other leftResult rightResult) :
    SameOutcome other left right := by
  cases first with
  | error errors => exact .error errors
  | ok results => exact .ok (weaken _ _ results)

theorem bind {left : Except CompileError α} {right : Except CompileError β}
    {leftNext : α → Except CompileError γ} {rightNext : β → Except CompileError δ}
    (first : SameOutcome same left right)
    (next : ∀ leftResult rightResult, same leftResult rightResult →
      SameOutcome sameNext (leftNext leftResult) (rightNext rightResult)) :
    SameOutcome sameNext (left >>= leftNext) (right >>= rightNext) := by
  cases first with
  | error errors => exact .error errors
  | ok results => exact next _ _ results

theorem map {left : Except CompileError α} {right : Except CompileError β}
    {leftChange : α → γ} {rightChange : β → δ} (first : SameOutcome same left right)
    (change : ∀ leftResult rightResult, same leftResult rightResult →
      sameNext (leftChange leftResult) (rightChange rightResult)) :
    SameOutcome sameNext (leftChange <$> left) (rightChange <$> right) := by
  cases first with
  | error errors => exact .error errors
  | ok results => exact .ok (change _ _ results)

theorem mapError {left : Except CompileError α} {right : Except CompileError β}
    {change : CompileError → CompileError}
    (keeps : ∀ error other, error.unnamed = other.unnamed →
      (change error).unnamed = (change other).unnamed)
    (first : SameOutcome same left right) :
    SameOutcome same (left.mapError change) (right.mapError change) := by
  cases first with
  | error errors => exact .error (keeps _ _ errors)
  | ok results => exact .ok results

end SameOutcome

/-! ## Ends of wires -/

namespace Endpoints

variable {left right : Endpoints} (endpoints : left.unnamed = right.unnamed)
  {terminus other : Terminus} (termini : terminus.unnamed = other.unnamed)
include endpoints termini

theorem node_upToNames : SameOutcome Eq (left.node terminus) (right.node other) := by
  rcases Endpoints.unnamed_eq_iff.mp endpoints with ⟨prototypes, -⟩
  rcases Prototype.unnamed_eq_iff.mp prototypes with ⟨-, -, -, -, -, nodes, -⟩
  rcases Terminus.unnamed_eq_iff.mp termini with ⟨sameNode, -⟩
  have located : left.prototype.nodes.findIdx? (fun placed => placed.id == terminus.node) =
      right.prototype.nodes.findIdx? (fun placed => placed.id == other.node) := by
    have ids := congrArg (List.findIdx? (· == terminus.node)) (Prototype.ids_of_unnamed nodes)
    rw [List.findIdx?_map, List.findIdx?_map] at ids
    rw [← sameNode]
    exact ids
  unfold node
  rw [located]
  cases right.prototype.nodes.findIdx? fun placed => placed.id == other.node with
  | none => exact .error (congrArg CompileError.dangling termini)
  | some index => exact .ok rfl

theorem plug_upToNames {find : Layout → Identifier → Option Nat}
    (finds : ∀ layout id, find layout.unnamed id.unnamed = find layout id) :
    SameOutcome Eq (left.plug find terminus) (right.plug find other) := by
  rcases Endpoints.unnamed_eq_iff.mp endpoints with ⟨-, layouts⟩
  rcases Terminus.unnamed_eq_iff.mp termini with ⟨-, named⟩
  apply (node_upToNames endpoints termini).bind
  intro index _ sameIndex
  subst sameIndex
  have found (endpoints : Endpoints) (id : Identifier) :
      (endpoints.layouts[index]?.bind fun layout => find layout id) =
        ((endpoints.layouts.map Layout.unnamed)[index]?.bind fun layout =>
          find layout id.unnamed) := by
    rw [List.getElem?_map]
    cases endpoints.layouts[index]? with
    | none => rfl
    | some layout => exact (finds layout id).symm
  rw [found left, found right, layouts, named]
  cases (right.layouts.map Layout.unnamed)[index]?.bind fun layout =>
      find layout other.endpoint.unnamed with
  | none => exact .error (congrArg CompileError.dangling termini)
  | some plug => exact .ok rfl

omit endpoints in
theorem declared_upToNames {lefts rights : List Endpoint}
    (declarations : lefts.map Endpoint.unnamed = rights.map Endpoint.unnamed) :
    SameOutcome (fun id otherId => id.unnamed = otherId.unnamed)
      (declared (lefts.find? fun endpoint => endpoint.id == terminus.endpoint) terminus)
      (declared (rights.find? fun endpoint => endpoint.id == other.endpoint) other) := by
  rcases Terminus.unnamed_eq_iff.mp termini with ⟨-, named⟩
  have found := find?_upToNames declarations named
  generalize lefts.find? (fun endpoint => endpoint.id == terminus.endpoint) = leftFound at found ⊢
  generalize rights.find? (fun endpoint => endpoint.id == other.endpoint) = rightFound at found ⊢
  cases found with
  | none => exact .error (congrArg CompileError.dangling termini)
  | some endpoints => exact .ok (congrArg Endpoint.id endpoints)

theorem graphInput_upToNames :
    SameOutcome (fun id otherId => id.unnamed = otherId.unnamed) (left.graphInput terminus)
      (right.graphInput other) := by
  rcases Endpoints.unnamed_eq_iff.mp endpoints with ⟨prototypes, -⟩
  rcases Prototype.unnamed_eq_iff.mp prototypes with ⟨-, -, inputs, -⟩
  exact declared_upToNames termini inputs

theorem graphOutput_upToNames :
    SameOutcome (fun id otherId => id.unnamed = otherId.unnamed) (left.graphOutput terminus)
      (right.graphOutput other) := by
  rcases Endpoints.unnamed_eq_iff.mp endpoints with ⟨prototypes, -⟩
  rcases Prototype.unnamed_eq_iff.mp prototypes with ⟨-, -, -, outputs, -⟩
  exact declared_upToNames termini outputs

theorem localVariable_upToNames :
    SameOutcome (fun id otherId => id.unnamed = otherId.unnamed) (left.localVariable terminus)
      (right.localVariable other) := by
  rcases Endpoints.unnamed_eq_iff.mp endpoints with ⟨prototypes, -⟩
  rcases Prototype.unnamed_eq_iff.mp prototypes with ⟨-, -, -, -, locals, -⟩
  exact declared_upToNames termini locals

theorem valueSource_upToNames (scope : Scope) :
    SameOutcome (fun source otherSource => source.unnamed = otherSource.unnamed)
      (left.valueSource scope terminus) (right.valueSource scope other) := by
  cases scope with
  | node =>
      apply (plug_upToNames endpoints termini Layout.outputIndex?_unnamed).bind
      intro found _ sameFound
      subst sameFound
      exact .ok rfl
  | graph =>
      exact (graphInput_upToNames endpoints termini).map
        fun _ _ => congrArg ValueSource.graphInput
  | localVariable =>
      exact (localVariable_upToNames endpoints termini).map
        fun _ _ => congrArg ValueSource.localVariable

theorem valueSink_upToNames (scope : Scope) :
    SameOutcome (fun sink otherSink => sink.unnamed = otherSink.unnamed)
      (left.valueSink scope terminus) (right.valueSink scope other) := by
  cases scope with
  | node =>
      apply (plug_upToNames endpoints termini Layout.inputIndex?_unnamed).bind
      intro found _ sameFound
      subst sameFound
      exact .ok rfl
  | graph | localVariable =>
      exact (graphOutput_upToNames endpoints termini).map
        fun _ _ => congrArg ValueSink.graphOutput

theorem eventSource_upToNames (scope : Scope) :
    SameOutcome (fun source otherSource => source.unnamed = otherSource.unnamed)
      (left.eventSource scope terminus) (right.eventSource scope other) := by
  cases scope with
  | node =>
      apply (plug_upToNames endpoints termini Layout.outputEventIndex?_unnamed).bind
      intro found _ sameFound
      subst sameFound
      exact .ok rfl
  | graph | localVariable =>
      exact (graphInput_upToNames endpoints termini).map
        fun _ _ => congrArg EventSource.graphInput

theorem eventTarget_upToNames (scope : Scope) :
    SameOutcome (fun target otherTarget => target.unnamed = otherTarget.unnamed)
      (left.eventTarget scope terminus) (right.eventTarget scope other) := by
  cases scope with
  | node =>
      apply (plug_upToNames endpoints termini Layout.inputEventIndex?_unnamed).bind
      intro found _ sameFound
      subst sameFound
      exact .ok rfl
  | graph | localVariable =>
      exact (graphOutput_upToNames endpoints termini).map
        fun _ _ => congrArg Target.graphOutput

omit endpoints in
theorem checkScope_upToNames (kind : ConnectionKind) (scope : Scope) :
    SameOutcome Eq (checkScope kind scope terminus) (checkScope kind scope other) := by
  unfold checkScope
  rw [(Terminus.unnamed_eq_iff.mp termini).1]
  exact .self _

end Endpoints

/-! ## Wires -/

theorem ValueSink.unnamed_beq_unnamed (left right : ValueSink) :
    (left.unnamed == right.unnamed) = (left == right) := by
  cases left <;> cases right <;> rfl

theorem Wire.sink?_unnamed (wire : Wire) :
    wire.unnamed.sink? = wire.sink?.map ValueSink.unnamed := by
  cases wire <;> rfl

theorem Wire.sourceOf?_unnamed (wires : List Wire) (sink : ValueSink) :
    sourceOf? (wires.map Wire.unnamed) sink.unnamed =
      (sourceOf? wires sink).map ValueSource.unnamed := by
  unfold sourceOf?
  rw [List.findSome?_map, List.map_findSome?]
  congr 1
  funext wire
  cases wire with
  | value source other =>
      simp only [Function.comp, unnamed, ValueSink.unnamed_beq_unnamed]
      split <;> rfl
  | event source target => rfl

namespace Endpoints

theorem wire_upToNames {left right : Endpoints} (endpoints : left.unnamed = right.unnamed)
    {connection other : Connection} (connections : connection.unnamed = other.unnamed) :
    SameOutcome (fun wire otherWire => wire.unnamed = otherWire.unnamed) (left.wire connection)
      (right.wire other) := by
  rcases Connection.unnamed_eq_iff.mp connections with ⟨sources, destinations, kind⟩
  unfold wire
  rw [kind]
  apply (checkScope_upToNames sources _ _).bind
  intro _ _ _
  apply (checkScope_upToNames destinations _ _).bind
  intro _ _ _
  cases other.kind.isEvent with
  | true =>
      apply (eventSource_upToNames endpoints sources _).bind
      intro source otherSource sameSource
      apply (eventTarget_upToNames endpoints destinations _).bind
      intro target otherTarget sameTarget
      exact .ok (by simp only [Wire.unnamed, sameSource, sameTarget])
  | false =>
      apply (valueSource_upToNames endpoints sources _).bind
      intro source otherSource sameSource
      apply (valueSink_upToNames endpoints destinations _).bind
      intro sink otherSink sameSink
      exact .ok (by simp only [Wire.unnamed, sameSource, sameSink])

theorem sinkTerminus_unnamed (connection : Connection) (sink : ValueSink) :
    (sinkTerminus connection sink).unnamed = sinkTerminus connection.unnamed sink.unnamed := by
  cases sink <;> rfl

theorem checkSink_upToNames {wires others : List Wire}
    (wired : wires.map Wire.unnamed = others.map Wire.unnamed) {connection other : Connection}
    (connections : connection.unnamed = other.unnamed) {wire otherWire : Wire}
    (same : wire.unnamed = otherWire.unnamed) :
    SameOutcome Eq (checkSink wires connection wire) (checkSink others other otherWire) := by
  have sinks := congrArg Wire.sink? same
  rw [Wire.sink?_unnamed, Wire.sink?_unnamed] at sinks
  have sinks := option_rel_of_map_eq sinks
  unfold checkSink
  generalize wire.sink? = leftSink at sinks ⊢
  generalize otherWire.sink? = rightSink at sinks ⊢
  cases sinks with
  | none => exact .ok rfl
  | @some sink otherSink sinks =>
      have taken : (Wire.sourceOf? wires sink).isSome =
          (Wire.sourceOf? others otherSink).isSome := by
        have sources := congrArg Option.isSome (congrArg₂ Wire.sourceOf? wired sinks)
        simpa only [Wire.sourceOf?_unnamed, Option.isSome_map] using sources
      simp only [taken]
      split
      · exact .error (by
          simp only [CompileError.unnamed, sinkTerminus_unnamed, connections, sinks])
      · exact .ok rfl

theorem wireAll_upToNames {left right : Endpoints} (endpoints : left.unnamed = right.unnamed)
    {wires others : List Wire} (wired : wires.map Wire.unnamed = others.map Wire.unnamed)
    {lefts rights : List Connection}
    (connections : lefts.map Connection.unnamed = rights.map Connection.unnamed) :
    SameOutcome (fun wires others => wires.map Wire.unnamed = others.map Wire.unnamed)
      (left.wireAll wires lefts).outcome (right.wireAll others rights).outcome := by
  replace connections := map_eq_iff_forall₂.mp connections
  induction connections generalizing wires others with
  | nil => exact .ok wired
  | cons first _ induction =>
      simp only [wireAll, Compilation.outcome_bind, Compilation.outcome_ofExcept,
        Compilation.outcome_note]
      apply (wire_upToNames endpoints first).bind
      intro wire otherWire sameWire
      apply (checkSink_upToNames wired first sameWire).bind
      intro _ _ _
      apply induction
      rw [List.map_append, List.map_append, wired, List.map_singleton, List.map_singleton,
        sameWire]

end Endpoints

/-! ## Checks -/

namespace Compile

theorem checkIds_congr {seen : List NodeId} {lefts rights : List PrototypeNode}
    (ids : lefts.map PrototypeNode.id = rights.map PrototypeNode.id) :
    checkIds seen lefts = checkIds seen rights := by
  replace ids := map_eq_iff_forall₂.mp ids
  induction ids generalizing seen with
  | nil => rfl
  | cons first _ induction => rw [checkIds, checkIds, first, induction]

theorem checkOverride_upToNames (node : NodeId) {left right : Layout}
    (layouts : left.unnamed = right.unnamed) {override other : Endpoint}
    (overrides : override.unnamed = other.unnamed) :
    SameOutcome Eq (checkOverride node left override) (checkOverride node right other) := by
  rcases (Layout.mk.injEq ..).mp layouts with ⟨inputs, -⟩
  rcases Endpoint.unnamed_eq_iff.mp overrides with ⟨named, default⟩
  have found := find?_upToNames inputs named
  unfold checkOverride
  generalize left.inputs.find? (fun plug => plug.id == override.id) = leftFound at found ⊢
  generalize right.inputs.find? (fun plug => plug.id == other.id) = rightFound at found ⊢
  cases found with
  | none => exact .error (by simp only [CompileError.unnamed, named])
  | some plugs =>
      rcases Endpoint.unnamed_eq_iff.mp plugs with ⟨-, plugDefault⟩
      simp only [plugDefault, default]
      split
      · exact .ok rfl
      · exact .error (by simp only [CompileError.unnamed, named])

theorem forM_upToNames {check otherCheck : α → Except CompileError PUnit} {change : α → β}
    {lefts rights : List α}
    (checks : ∀ item other, change item = change other →
      SameOutcome Eq (check item) (otherCheck other))
    (items : lefts.map change = rights.map change) :
    SameOutcome Eq (lefts.forM check) (rights.forM otherCheck) := by
  simp only [List.forM_eq_forM]
  replace items := map_eq_iff_forall₂.mp items
  induction items with
  | nil => exact .ok rfl
  | cons first _ induction =>
      rw [List.forM_cons, List.forM_cons]
      exact (checks _ _ first).bind fun _ _ _ => induction

theorem checkOverrides_upToNames {lefts rights : List PrototypeNode}
    (nodes : lefts.map PrototypeNode.unnamed = rights.map PrototypeNode.unnamed)
    {leftLayouts rightLayouts : List Layout}
    (layouts : leftLayouts.map Layout.unnamed = rightLayouts.map Layout.unnamed) :
    SameOutcome Eq (checkOverrides (lefts.zip leftLayouts))
      (checkOverrides (rights.zip rightLayouts)) := by
  replace nodes := map_eq_iff_forall₂.mp nodes
  replace layouts := map_eq_iff_forall₂.mp layouts
  induction nodes generalizing leftLayouts rightLayouts with
  | nil => exact .ok rfl
  | cons first _ induction =>
      rcases PrototypeNode.unnamed_eq_iff.mp first with ⟨-, id, overrides, -⟩
      cases layouts with
      | nil => exact .ok rfl
      | cons layout others =>
          simp only [List.zip_cons_cons, checkOverrides, id]
          apply (forM_upToNames (fun _ _ => checkOverride_upToNames _ layout) overrides).bind
          intro _ _ _
          exact induction others

section
variable {left right : Prototype} (prototypes : left.unnamed = right.unnamed)
include prototypes

theorem edges_upToNames {lefts rights : List Connection}
    (connections : lefts.map Connection.unnamed = rights.map Connection.unnamed) :
    SameOutcome Eq (edges left lefts) (edges right rights) := by
  have endpoints : (⟨left, []⟩ : Endpoints).unnamed = (⟨right, []⟩ : Endpoints).unnamed :=
    Endpoints.unnamed_eq_iff.mpr ⟨prototypes, rfl⟩
  replace connections := map_eq_iff_forall₂.mp connections
  induction connections with
  | nil => exact .ok rfl
  | cons first _ induction =>
      rcases Connection.unnamed_eq_iff.mp first with ⟨sources, destinations, kind⟩
      unfold edges
      rw [kind]
      split
      · apply (Endpoints.node_upToNames endpoints sources).bind
        intro source _ sameSource
        apply (Endpoints.node_upToNames endpoints destinations).bind
        intro destination _ sameDestination
        apply induction.bind
        intro others _ sameOthers
        rw [sameSource, sameDestination, sameOthers]
        exact .ok rfl
      · exact induction

theorem order_upToNames : SameOutcome Eq (order left) (order right) := by
  rcases Prototype.unnamed_eq_iff.mp prototypes with ⟨-, -, -, -, -, nodes, connections⟩
  have ids := Prototype.ids_of_unnamed nodes
  have count : left.nodes.length = right.nodes.length := by
    simpa using congrArg List.length ids
  apply (edges_upToNames prototypes connections).bind
  intro edges _ sameEdges
  subst sameEdges
  rw [count]
  cases Schedule.order edges right.nodes.length with
  | ok order => exact .ok rfl
  | error cycle =>
      refine .error ?_
      simp only [← List.getElem?_map, ids]

end

end Compile

/-! ## Circuits -/

namespace Assembly

theorem number_unnamed (first : Slot) (endpoints : List Endpoint) :
    number first (endpoints.map Endpoint.unnamed) = unnamedSlots (number first endpoints) := by
  induction endpoints generalizing first with
  | nil => rfl
  | cons endpoint endpoints induction =>
      rw [List.map_cons, number, number, induction]
      rfl

theorem outputSlots_unnamed (first : Slot) (layouts : List Layout) :
    outputSlots first (layouts.map Layout.unnamed) = outputSlots first layouts := by
  induction layouts generalizing first with
  | nil => rfl
  | cons layout layouts induction =>
      have width : layout.unnamed.outputs.length = layout.outputs.length := List.length_map _
      rw [List.map_cons, outputSlots, outputSlots, width, induction]

theorem ownedValues_unnamed (endpoints : Endpoints) :
    ownedValues endpoints.unnamed = ownedValues endpoints := by
  have defaults (endpoints : List Endpoint) :
      (endpoints.map Endpoint.unnamed).map Endpoint.default = endpoints.map Endpoint.default := by
    simp
  simp only [ownedValues, Endpoints.unnamed, Prototype.unnamed_inputs, Prototype.unnamed_locals,
    List.flatMap_map, Layout.unnamed, defaults]

theorem slotOf?_unnamed (endpoints : Endpoints) (source : ValueSource) :
    slotOf? endpoints.unnamed source.unnamed = slotOf? endpoints source := by
  cases source with
  | nodeOutput index plug =>
      simp only [ValueSource.unnamed, slotOf?, Endpoints.unnamed, firstNodeSlot,
        Prototype.unnamed_inputs, Prototype.unnamed_locals, List.length_map, outputSlots_unnamed]
  | graphInput id =>
      simp only [ValueSource.unnamed, slotOf?, Endpoints.unnamed, inputSlots,
        Prototype.unnamed_inputs, number_unnamed, Circuit.lastSlot?_unnamed]
  | localVariable id =>
      simp only [ValueSource.unnamed, slotOf?, Endpoints.unnamed, localSlots,
        Prototype.unnamed_inputs, Prototype.unnamed_locals, List.length_map, number_unnamed,
        Circuit.lastSlot?_unnamed]

theorem restingValue_unnamed (overrides : List Endpoint) (plug : Endpoint) :
    restingValue (overrides.map Endpoint.unnamed) plug.unnamed = restingValue overrides plug := by
  unfold restingValue
  rw [show plug.unnamed.id = plug.id.unnamed from rfl, find?_map_unnamed]
  cases overrides.find? fun override => override.id == plug.id <;> rfl

theorem plugSlots_unnamed (source? : Nat → Option Slot) (overrides : List Endpoint) (plug : Nat)
    (plugs : List Endpoint) (values : Array Value) :
    plugSlots source? (overrides.map Endpoint.unnamed) plug (plugs.map Endpoint.unnamed) values =
      plugSlots source? overrides plug plugs values := by
  induction plugs generalizing plug values with
  | nil => rfl
  | cons endpoint plugs induction =>
      rw [List.map_cons, plugSlots, plugSlots, restingValue_unnamed, induction]

theorem nodeSlots_unnamed {source? other? : ValueSink → Option Slot}
    (sources : ∀ sink, other? sink.unnamed = source? sink) (node : Nat)
    (nodes : List (PrototypeNode × Layout)) (values : Array Value) :
    nodeSlots other? node (nodes.map (Prod.map PrototypeNode.unnamed Layout.unnamed)) values =
      nodeSlots source? node nodes values := by
  induction nodes generalizing node values with
  | nil => rfl
  | cons first nodes induction =>
      rcases first with ⟨placed, layout⟩
      have wired : (fun plug => other? (.nodeInput node plug)) =
          fun plug => source? (.nodeInput node plug) :=
        funext fun plug => sources (.nodeInput node plug)
      have slots := plugSlots_unnamed (fun plug => source? (.nodeInput node plug))
        placed.overrides 0 layout.inputs values
      simp only [List.map_cons, Prod.map, nodeSlots, wired, PrototypeNode.unnamed, Layout.unnamed,
        slots, induction]

theorem shownSlots_unnamed {source? other? : ValueSink → Option Slot}
    (sources : ∀ sink, other? sink.unnamed = source? sink) (outputs : List Endpoint)
    (values : Array Value) :
    shownSlots other? (outputs.map Endpoint.unnamed) values =
      ⟨unnamedSlots (shownSlots source? outputs values).slots,
        (shownSlots source? outputs values).values⟩ := by
  induction outputs generalizing values with
  | nil => rfl
  | cons endpoint outputs induction =>
      have wired : other? (.graphOutput endpoint.id.unnamed) =
          source? (.graphOutput endpoint.id) := sources (.graphOutput endpoint.id)
      simp only [List.map_cons, shownSlots, Endpoint.unnamed, wired, induction]
      rfl

theorem emptyRoutes_unnamed (layouts : List Layout) :
    emptyRoutes (layouts.map Layout.unnamed) = (emptyRoutes layouts).unnamed := by
  have added (routes : EventRoutes) : (layouts.map Layout.unnamed).foldl
        (fun routes layout => routes.addNode layout.outputEvents.length) routes.unnamed =
      (layouts.foldl (fun routes layout => routes.addNode layout.outputEvents.length)
        routes).unnamed := by
    induction layouts generalizing routes with
    | nil => rfl
    | cons layout layouts induction =>
        have first : routes.unnamed.addNode layout.unnamed.outputEvents.length =
            (routes.addNode layout.outputEvents.length).unnamed := by
          simp [EventRoutes.addNode, EventRoutes.unnamed, Layout.unnamed]
        rw [List.map_cons, List.foldl_cons, List.foldl_cons, first]
        exact induction _
  exact added {}

theorem map_modify {change : α → β} {update : α → α} {otherUpdate : β → β}
    (same : ∀ item, change (update item) = otherUpdate (change item)) (items : List α)
    (index : Nat) :
    (items.modify index update).map change = (items.map change).modify index otherUpdate := by
  induction items generalizing index with
  | nil => simp
  | cons item items induction =>
      cases index with
      | zero => simp [same]
      | succ index => simp [induction]

theorem hasOutput_unnamed (routes : EventRoutes) (node output : Nat) :
    routes.unnamed.hasOutput node output = routes.hasOutput node output := by
  simp only [EventRoutes.hasOutput, EventRoutes.unnamed, List.getElem?_map]
  cases routes.rows[node]? with
  | none => rfl
  | some events => simp

theorem connect?_unnamed (routes : EventRoutes) (node output : Nat) (target : Target) :
    routes.unnamed.connect? node output target.unnamed =
      (routes.connect? node output target).map EventRoutes.unnamed := by
  unfold EventRoutes.connect?
  rw [hasOutput_unnamed]
  split
  · have added (targets : List Target) : (targets ++ [target]).map Target.unnamed =
        targets.map Target.unnamed ++ [target.unnamed] := by simp
    have row (events : List (List Target)) :
        (events.modify output (· ++ [target])).map (List.map Target.unnamed) =
          (events.map (List.map Target.unnamed)).modify output (· ++ [target.unnamed]) :=
      map_modify added events output
    have rows := map_modify row routes.rows node
    simp only [Option.map_some, EventRoutes.unnamed, rows]
    rfl
  · rfl

theorem connectEvents_unnamed (routes : EventRoutes) (wires : List Wire) :
    connectEvents routes.unnamed (wires.map Wire.unnamed) =
      (connectEvents routes wires).unnamed := by
  induction wires generalizing routes with
  | nil => rfl
  | cons wire wires induction =>
      cases wire with
      | value source sink => exact induction routes
      | event source target =>
          cases source with
          | graphInput id => exact induction routes
          | nodeEvent node output =>
              have connected : (routes.unnamed.connect? node output target.unnamed).getD
                    routes.unnamed =
                  ((routes.connect? node output target).getD routes).unnamed := by
                rw [connect?_unnamed]
                cases routes.connect? node output target <;> rfl
              simp only [List.map_cons, Wire.unnamed, EventSource.unnamed, connectEvents,
                connected]
              exact induction _

theorem entrances_unnamed (wires : List Wire) :
    entrances (wires.map Wire.unnamed) =
      (entrances wires).map fun entry => (entry.1.unnamed, entry.2.unnamed) := by
  unfold entrances
  rw [List.filterMap_map, List.map_filterMap]
  congr 1
  funext wire
  cases wire with
  | value source sink => rfl
  | event source target => cases source <;> rfl

theorem wiredSlot?_unnamed (endpoints : Endpoints) (wires : List Wire) (sink : ValueSink) :
    wiredSlot? endpoints.unnamed (wires.map Wire.unnamed) sink.unnamed =
      wiredSlot? endpoints wires sink := by
  rw [wiredSlot?, Wire.sourceOf?_unnamed]
  unfold wiredSlot?
  cases Wire.sourceOf? wires sink with
  | none => rfl
  | some source => exact slotOf?_unnamed endpoints source

/-- The input plugs of nodes lie in the same slots. -/
theorem pluggedSlots_unnamed (endpoints : Endpoints) (wires : List Wire) :
    nodeSlots (wiredSlot? endpoints.unnamed (wires.map Wire.unnamed)) 0
        (endpoints.unnamed.prototype.nodes.zip endpoints.unnamed.layouts)
        (ownedValues endpoints.unnamed).toArray =
      nodeSlots (wiredSlot? endpoints wires) 0 (endpoints.prototype.nodes.zip endpoints.layouts)
        (ownedValues endpoints).toArray := by
  have nodes : endpoints.unnamed.prototype.nodes.zip endpoints.unnamed.layouts =
      (endpoints.prototype.nodes.zip endpoints.layouts).map
        (Prod.map PrototypeNode.unnamed Layout.unnamed) := by
    simp [Endpoints.unnamed, List.zip_map]
  rw [nodes, ownedValues_unnamed]
  exact nodeSlots_unnamed (wiredSlot?_unnamed endpoints wires) 0 _ _

theorem circuit_unnamed (config : Config) (endpoints : Endpoints) (wires : List Wire)
    (order : List Nat) :
    circuit config endpoints.unnamed (wires.map Wire.unnamed) order =
      (circuit config endpoints wires order).unnamed := by
  -- Outputs without a wire get the slots behind those of the nodes.
  have slots := pluggedSlots_unnamed endpoints wires
  have shown : shownSlots (wiredSlot? endpoints.unnamed (wires.map Wire.unnamed))
        endpoints.unnamed.prototype.outputs
        (nodeSlots (wiredSlot? endpoints.unnamed (wires.map Wire.unnamed)) 0
          (endpoints.unnamed.prototype.nodes.zip endpoints.unnamed.layouts)
          (ownedValues endpoints.unnamed).toArray).values =
      let plain := shownSlots (wiredSlot? endpoints wires) endpoints.prototype.outputs
        (nodeSlots (wiredSlot? endpoints wires) 0
          (endpoints.prototype.nodes.zip endpoints.layouts)
          (ownedValues endpoints).toArray).values
      ⟨unnamedSlots plain.slots, plain.values⟩ := by
    rw [slots, Endpoints.unnamed, Prototype.unnamed_outputs]
    exact shownSlots_unnamed (wiredSlot?_unnamed endpoints wires) _ _
  have first : firstNodeSlot endpoints.unnamed.prototype = firstNodeSlot endpoints.prototype := by
    simp [Endpoints.unnamed, firstNodeSlot]
  have given : endpoints.unnamed.layouts = endpoints.layouts.map Layout.unnamed := rfl
  have values := congrArg Allocation.values shown
  have outputs := congrArg Allocation.slots shown
  refine (Circuit.mk.injEq ..).mpr ⟨?_, ?_, rfl, values, ?_, ?_, outputs, ?_, ?_, rfl⟩
  · exact Prototype.unnamed_name _
  · have placed := congrArg Allocation.slots slots
    change (List.map _ (endpoints.unnamed.prototype.nodes.zip
      (List.zip (Allocation.slots (nodeSlots (wiredSlot? endpoints.unnamed
        (wires.map Wire.unnamed)) 0 _ _)) _))).toArray = _
    rw [placed, first, given, outputSlots_unnamed]
    simp only [Endpoints.unnamed, Prototype.unnamed_nodes, List.zip_map_left, List.map_map]
    rfl
  · simp only [inputSlots, Endpoints.unnamed, Prototype.unnamed_inputs, number_unnamed]
    rfl
  · simp only [localSlots, Endpoints.unnamed, Prototype.unnamed_inputs, Prototype.unnamed_locals,
      List.length_map, number_unnamed]
    rfl
  · rw [given, emptyRoutes_unnamed, connectEvents_unnamed]
    rfl
  · exact entrances_unnamed wires

end Assembly

end NodeGraph
