import NodeGraph.Proofs.Run.Unnamed
import NodeGraph.Standard

namespace NodeGraph

/-! Nodes that ignore the names that identifiers remember. A subroutine hands on
names between the graph inside it and its surroundings and looks at none of them,
so whatever its nodes are, it ignores names if they do. Standard nodes do. -/

/-! ## Subroutines -/

structure Subroutine.UpToNames (same : ν → ν → Prop) (left right : Subroutine ν) : Prop where
  graph : left.graph.UpToNames same right.graph
  layout : left.layout.unnamed = right.layout.unnamed

namespace Subroutine

variable [Processor ν] {same : ν → ν → Prop}

theorem copyIn_upToNames (nodes : Processor.UpToNames same) (plug : Nat)
    {leftPlugs rightPlugs : List Endpoint}
    (plugs : leftPlugs.map Endpoint.unnamed = rightPlugs.map Endpoint.unnamed)
    {left right : Graph ν} (graphs : left.UpToNames same right) :
    Program.UpToNames (Graph.UpToNames same) (copyIn plug leftPlugs left)
      (copyIn plug rightPlugs right) := by
  replace plugs := map_eq_iff_forall₂.mp plugs
  induction plugs generalizing plug left right with
  | nil => exact .pure graphs
  | cons endpoints _ induction =>
      have ids := (Identifier.beq_iff_unnamed _ _).mpr (congrArg Endpoint.id endpoints)
      apply (Program.upToNames_self (Program.read plug)).bind
      intro value _ sameValue
      subst sameValue
      apply induction
      rw [← Graph.perform_setInput, ← Graph.perform_setInput]
      exact (graphs.perform nodes (.setInput ids value)).1

omit [Processor ν] in
theorem copyOut_upToNames (plug : Nat) {leftPlugs rightPlugs : List Endpoint}
    (plugs : leftPlugs.map Endpoint.unnamed = rightPlugs.map Endpoint.unnamed)
    {left right : Graph ν} (graphs : left.UpToNames same right) :
    Program.UpToNames Eq (copyOut plug leftPlugs left) (copyOut plug rightPlugs right) := by
  replace plugs := map_eq_iff_forall₂.mp plugs
  induction plugs generalizing plug with
  | nil => exact .pure rfl
  | @cons _ other _ _ endpoints _ induction =>
      have ids := (Identifier.beq_iff_unnamed _ _).mpr (congrArg Endpoint.id endpoints)
      simp only [copyOut, graphs.readOutput? ids]
      cases right.readOutput? other.id with
      | none => exact induction _
      | some value =>
          exact (Program.upToNames_self (Program.write plug value)).bind fun _ _ _ => induction _

theorem fireAll_upToNames {left right : Layout} (layouts : left.unnamed = right.unnamed)
    {leftEvents rightEvents : List Identifier}
    (events : leftEvents.map Identifier.unnamed = rightEvents.map Identifier.unnamed) :
    Program.UpToNames Eq (fireAll left leftEvents) (fireAll right rightEvents) := by
  replace events := map_eq_iff_forall₂.mp events
  induction events with
  | nil => exact .pure rfl
  | @cons event other _ _ named _ induction =>
      have outputs : left.outputEventIndex? event = right.outputEventIndex? other := by
        rw [← Layout.outputEventIndex?_unnamed left, ← Layout.outputEventIndex?_unnamed right,
          layouts, named]
      simp only [fireAll, outputs]
      cases right.outputEventIndex? other with
      | none => exact induction
      | some output => exact (Program.fire_upToNames output named).bind fun _ _ _ => induction

omit [Processor ν] in
theorem forward_upToNames {left right : Subroutine ν}
    (layouts : left.layout.unnamed = right.layout.unnamed) {leftGraph rightGraph : Graph ν}
    (graphs : leftGraph.UpToNames same rightGraph) :
    Program.UpToNames (UpToNames same) (left.forward leftGraph) (right.forward rightGraph) := by
  have drained := graphs.drain
  apply (fireAll_upToNames layouts drained.1).bind
  intro _ _ _
  exact .pure ⟨drained.2, layouts⟩

/-- Subroutines around graphs that are the same up to names do the same up to
names. -/
theorem upToNames (nodes : Processor.UpToNames same) :
    Processor.UpToNames (UpToNames same) where
  layout left right same := same.layout
  init context left right same := by
    apply (Program.reportAll_upToNames _ _).bind
    intro _ _ _
    exact forward_upToNames same.layout (same.graph.init nodes context)
  process timeStep left right same := by
    rcases (Layout.mk.injEq ..).mp same.layout with ⟨inputs, outputs, -⟩
    apply (copyIn_upToNames nodes 0 inputs same.graph).bind
    intro leftEntered rightEntered entered
    have ticked := entered.process nodes timeStep
    apply (Program.reportAll_upToNames _ _).bind
    intro _ _ _
    apply (copyOut_upToNames 0 outputs ticked.1).bind
    intro _ _ _
    apply (forward_upToNames same.layout ticked.1).bind
    intro _ _ after
    exact .pure ⟨after, ticked.2⟩
  onEvent input event other left right events same := by
    rcases (Layout.mk.injEq ..).mp same.layout with ⟨-, -, inputEvents, -⟩
    show Program.UpToNames _ (onEvent input left) (onEvent input right)
    have named := congrArg (fun events => events[input]?) inputEvents
    simp only [List.getElem?_map] at named
    have named := option_rel_of_map_eq named
    unfold onEvent
    generalize left.layout.inputEvents[input]? = leftId at named ⊢
    generalize right.layout.inputEvents[input]? = rightId at named ⊢
    cases named with
    | none => exact .pure same
    | some named =>
        have ids := (Identifier.beq_iff_unnamed _ _).mpr named
        have posted := (same.graph.perform nodes (.post ids)).1
        rw [Graph.perform_post_graph, Graph.perform_post_graph] at posted
        apply (Program.reportAll_upToNames _ _).bind
        intro _ _ _
        exact forward_upToNames same.layout posted
  reset left right same := ⟨same.graph.reset nodes, same.layout⟩

end Subroutine

/-! ## Nested nodes -/

theorem Processor.UpToNames.sum [Processor ν] [Processor μ] {same : ν → ν → Prop}
    {otherSame : μ → μ → Prop} (nodes : Processor.UpToNames same)
    (others : Processor.UpToNames otherSame) :
    Processor.UpToNames (Sum.LiftRel same otherSame) where
  layout left right both := by
    cases both with
    | inl both => exact nodes.layout _ _ both
    | inr both => exact others.layout _ _ both
  init context left right both := by
    cases both with
    | inl both => exact (nodes.init context _ _ both).map fun _ _ => .inl
    | inr both => exact (others.init context _ _ both).map fun _ _ => .inr
  process timeStep left right both := by
    cases both with
    | inl both => exact (nodes.process timeStep _ _ both).map fun _ _ => And.imp_left .inl
    | inr both => exact (others.process timeStep _ _ both).map fun _ _ => And.imp_left .inr
  onEvent input event other left right events both := by
    cases both with
    | inl both => exact (nodes.onEvent input event other _ _ events both).map fun _ _ => .inl
    | inr both => exact (others.onEvent input event other _ _ events both).map fun _ _ => .inr
  reset left right both := by
    cases both with
    | inl both => exact .inl (nodes.reset _ _ both)
    | inr both => exact .inr (others.reset _ _ both)

/-- Nested nodes that are the same up to names: plain nodes that are the same, or
graphs around nodes that are. -/
def Nested.UpToNames (same : κ → κ → Prop) :
    (room : Nat) → Nested κ room → Nested κ room → Prop
  | 0 => same
  | room + 1 => Sum.LiftRel same (Subroutine.UpToNames (Nested.UpToNames same room))

theorem Nested.upToNames [Processor κ] {same : κ → κ → Prop}
    (nodes : Processor.UpToNames same) (room : Nat) :
    Processor.UpToNames (Nested.UpToNames same room) := by
  induction room with
  | zero => exact nodes
  | succ room induction => exact nodes.sum (Subroutine.upToNames induction)

/-! ## Standard nodes -/

/-- Array nodes pass on the event that they get, no other node looks at it. -/
theorem StandardNode.upToNames : Processor.UpToNames (Eq : StandardNode → StandardNode → Prop) := by
  apply Processor.UpToNames.of_onEvent
  intro input event other node events
  have named := (Identifier.beq_iff_unnamed _ _).mp events
  cases node with
  | element type =>
      have shown : Program.UpToNames Eq (Element.update type.Payload)
          (Element.update type.Payload) := Program.upToNames_self _
      have fired : Program.UpToNames Eq (Element.onEvent type.Payload event)
          (Element.onEvent type.Payload other) :=
        shown.bind fun _ _ _ => Program.fire_upToNames 0 named
      exact fired.bind fun _ _ _ => .pure rfl
  | _ => exact Program.upToNames_self _

end NodeGraph
