import NodeGraph.Proofs.Run.Invariant

namespace NodeGraph

/-! What nodes keep. A call into a graph changes a node by running one of its
programs or by resetting it, and in no other way. So a property of a node that
its programs and its reset keep is kept by every call into the graph. -/

/-- Whatever happens to a node that has the property, it has it afterwards. -/
structure Processor.Keeps [Processor ν] (holds : ν → Prop) : Prop where
  init : ∀ context node panel, holds node →
    holds ((Processor.init context node).run panel).1
  process : ∀ timeStep node panel, holds node →
    holds ((Processor.process timeStep node).run panel).1.1
  onEvent : ∀ input event node panel, holds node →
    holds ((Processor.onEvent input event node).run panel).1
  reset : ∀ node, holds node → holds (Processor.reset node)

namespace Processor

variable [Processor ν] [Processor μ]

/-- Of nodes of two types, a property is kept if it is kept on either side. -/
theorem Keeps.sum {left : ν → Prop} {right : μ → Prop} (keepsLeft : Keeps left)
    (keepsRight : Keeps right) : Keeps (Sum.elim left right) where
  init context node panel before := by
    cases node with
    | inl node => simpa [Processor.init] using keepsLeft.init context node panel before
    | inr node => simpa [Processor.init] using keepsRight.init context node panel before
  process timeStep node panel before := by
    cases node with
    | inl node => simpa [Processor.process] using keepsLeft.process timeStep node panel before
    | inr node => simpa [Processor.process] using keepsRight.process timeStep node panel before
  onEvent input event node panel before := by
    cases node with
    | inl node => simpa [Processor.onEvent] using keepsLeft.onEvent input event node panel before
    | inr node => simpa [Processor.onEvent] using keepsRight.onEvent input event node panel before
  reset node before := by
    cases node with
    | inl node => exact keepsLeft.reset node before
    | inr node => exact keepsRight.reset node before

/-- Properties that are kept one by one are kept together. -/
theorem Keeps.all {asked : ι → Prop} {holds : ι → ν → Prop} (keeps : ∀ item, Keeps (holds item)) :
    Keeps fun node => ∀ item, asked item → holds item node where
  init context node panel before item wanted :=
    (keeps item).init context node panel (before item wanted)
  process timeStep node panel before item wanted :=
    (keeps item).process timeStep node panel (before item wanted)
  onEvent input event node panel before item wanted :=
    (keeps item).onEvent input event node panel (before item wanted)
  reset node before item wanted := (keeps item).reset node (before item wanted)

end Processor

/-! ## Nodes of a state -/

/-- Every node has what is asked of the node at its position. -/
def State.Every (holds : Nat → ν → Prop) (state : State ν) : Prop :=
  ∀ index cell, state.cells[index]? = some cell → holds index cell.node

theorem State.runCell_every {holds : Nat → ν → Prop} {circuit : Circuit} {index : Nat}
    {program : Cell ν → Program (Cell ν)}
    (keeps : ∀ cell panel, holds index cell.node →
      holds index ((program cell).run panel).1.node)
    {state : State ν} (before : state.Every holds) :
    (state.runCell circuit index program).1.Every holds := by
  rcases state.runCell_cases circuit index program with
    ⟨placement, cell, placed, present⟩ | unchanged
  · intro other found present'
    rw [runCell_eq placed present] at present'
    by_cases same : index = other
    · subst same
      have bound := (Array.getElem?_eq_some_iff.mp present).1
      rw [Array.getElem?_setIfInBounds_self_of_lt bound, Option.some.injEq] at present'
      rw [← present']
      exact keeps cell _ (before index cell present)
    · rw [Array.getElem?_setIfInBounds_ne same] at present'
      exact before other found present'
  · rw [unchanged]
    exact before

/-! ## Calls -/

namespace Circuit

variable [Processor ν] {holds : Nat → ν → Prop}

/-- What nodes keep one by one, is kept of all of them by whatever is done to the
graph. -/
theorem keeps_every (circuit : Circuit) (keeps : ∀ index, Processor.Keeps (holds index)) :
    circuit.Keeps (State.Every holds) where
  runs index happening state before := by
    apply State.runCell_every _ before
    intro cell panel kept
    cases happening with
    | init context =>
        simpa [Happening.program] using (keeps index).init context cell.node panel kept
    | process timeStep =>
        simpa [Happening.program] using (keeps index).process timeStep cell.node panel kept
    | onEvent input event =>
        simpa [Happening.program] using (keeps index).onEvent input event cell.node panel kept
  queues state id outgoing _ _ before := before
  sets state slot value before := before
  drains state before := before
  resets state before := by
    intro index cell found
    simp only [Graph.reset, Array.getElem?_map, Option.map_eq_some_iff] at found
    rcases found with ⟨earlier, present, rfl⟩
    exact (keeps index).reset earlier.node (before index earlier present)

end Circuit

end NodeGraph
