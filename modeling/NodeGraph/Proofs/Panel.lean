import Mathlib.Data.List.Nodup
import NodeGraph.Program

namespace NodeGraph

/-! What a program does depends on what its plugs read and on nothing else. So
running a node somewhere in a graph comes to the same as running it on its own,
on a panel that holds just the values of its plugs. -/

/-- What some slots hold. A slot that does not exist holds void. -/
def readSlots (values : Array Value) (slots : List Slot) : List Value :=
  slots.map fun slot => values[slot]?.getD .void

@[simp] theorem readSlots_length (values : Array Value) (slots : List Slot) :
    (readSlots values slots).length = slots.length := by
  simp [readSlots]

theorem readSlots_congr {left right : Array Value} {slots : List Slot}
    (equal : ∀ slot ∈ slots, left[slot]? = right[slot]?) :
    readSlots left slots = readSlots right slots := by
  apply List.map_congr_left
  intro slot member
  rw [equal slot member]

/-! ## Frames -/

namespace Panel

theorem valueAt_eq (panel : Panel) (slots : List Slot) (plug : Nat) :
    panel.valueAt slots plug = (readSlots panel.values slots)[plug]?.getD .void := by
  unfold valueAt readSlots
  rw [List.getElem?_map]
  cases slots[plug]? <;> rfl

@[simp] theorem setOutput_inputs (panel : Panel) (plug : Nat) (value : Value) :
    (panel.setOutput plug value).inputs = panel.inputs := by
  unfold setOutput
  split <;> rfl

@[simp] theorem setOutput_outputs (panel : Panel) (plug : Nat) (value : Value) :
    (panel.setOutput plug value).outputs = panel.outputs := by
  unfold setOutput
  split <;> rfl

@[simp] theorem setOutput_size (panel : Panel) (plug : Nat) (value : Value) :
    (panel.setOutput plug value).values.size = panel.values.size := by
  unfold setOutput
  split <;> simp

@[simp] theorem setOutput_emitted (panel : Panel) (plug : Nat) (value : Value) :
    (panel.setOutput plug value).emitted = panel.emitted := by
  unfold setOutput
  split <;> rfl

@[simp] theorem setOutput_journal (panel : Panel) (plug : Nat) (value : Value) :
    (panel.setOutput plug value).journal = panel.journal := by
  unfold setOutput
  split <;> rfl

theorem setOutput_unwritten {panel : Panel} {slot : Slot} (unwritten : slot ∉ panel.outputs)
    (plug : Nat) (value : Value) :
    (panel.setOutput plug value).values[slot]? = panel.values[slot]? := by
  unfold setOutput
  split
  next written found =>
    have different : written ≠ slot := fun equal =>
      unwritten (equal ▸ List.mem_of_getElem? found)
    exact Array.getElem?_setIfInBounds_ne different
  next => rfl

end Panel

namespace Program

@[simp] theorem run_map (change : α → β) (program : Program α) (panel : Panel) :
    (change <$> program).run panel =
      (change (program.run panel).1, (program.run panel).2) :=
  run_bind program (fun result => pure (change result)) panel

@[simp] theorem run_inputs (program : Program α) (panel : Panel) :
    (program.run panel).2.inputs = panel.inputs := by
  induction program generalizing panel with
  | done result => rfl
  | input plug next induction => exact induction _ _
  | output plug next induction => exact induction _ _
  | setOutput plug value next induction => exact (induction _).trans (by simp)
  | emit emission next induction => exact induction _
  | report entry next induction => exact induction _

@[simp] theorem run_outputs (program : Program α) (panel : Panel) :
    (program.run panel).2.outputs = panel.outputs := by
  induction program generalizing panel with
  | done result => rfl
  | input plug next induction => exact induction _ _
  | output plug next induction => exact induction _ _
  | setOutput plug value next induction => exact (induction _).trans (by simp)
  | emit emission next induction => exact induction _
  | report entry next induction => exact induction _

@[simp] theorem run_size (program : Program α) (panel : Panel) :
    (program.run panel).2.values.size = panel.values.size := by
  induction program generalizing panel with
  | done result => rfl
  | input plug next induction => exact induction _ _
  | output plug next induction => exact induction _ _
  | setOutput plug value next induction => exact (induction _).trans (by simp)
  | emit emission next induction => exact induction _
  | report entry next induction => exact induction _

/-- A program writes its output plugs only. -/
theorem run_unwritten (program : Program α) {panel : Panel} {slot : Slot}
    (unwritten : slot ∉ panel.outputs) :
    (program.run panel).2.values[slot]? = panel.values[slot]? := by
  induction program generalizing panel with
  | done result => rfl
  | input plug next induction => exact induction _ unwritten
  | output plug next induction => exact induction _ unwritten
  | setOutput plug value next induction =>
      rw [← Panel.setOutput_unwritten unwritten plug value]
      exact induction (by simpa using unwritten)
  | emit emission next induction => exact induction unwritten
  | report entry next induction => exact induction unwritten

end Program

/-! ## Reading alike -/

namespace Panel

/-- Every output plug has a slot to itself. -/
structure OwnsOutputs (panel : Panel) : Prop where
  nodup : panel.outputs.Nodup
  bounded : ∀ slot ∈ panel.outputs, slot < panel.values.size
  apart : ∀ slot ∈ panel.outputs, slot ∉ panel.inputs

theorem OwnsOutputs.setOutput {panel : Panel} (owns : panel.OwnsOutputs) (plug : Nat)
    (value : Value) : (panel.setOutput plug value).OwnsOutputs where
  nodup := by simpa using owns.nodup
  bounded := by simpa using owns.bounded
  apart := by simpa using owns.apart

theorem input_setOutput {panel : Panel} (owns : panel.OwnsOutputs) (plug other : Nat)
    (value : Value) : (panel.setOutput plug value).input other = panel.input other := by
  unfold input valueAt
  rw [setOutput_inputs]
  cases found : panel.inputs[other]? with
  | none => rfl
  | some slot =>
      have unwritten : slot ∉ panel.outputs := fun written =>
        owns.apart slot written (List.mem_of_getElem? found)
      simp only [setOutput_unwritten unwritten]

theorem output_setOutput {panel : Panel} (owns : panel.OwnsOutputs) (plug other : Nat)
    (value : Value) :
    (panel.setOutput plug value).output other =
      if plug = other ∧ plug < panel.outputs.length then value else panel.output other := by
  unfold output valueAt
  rw [setOutput_outputs]
  unfold setOutput
  cases written : panel.outputs[plug]? with
  | none =>
      have beyond : ¬ plug < panel.outputs.length := by
        simpa [List.getElem?_eq_none_iff] using written
      simp [beyond]
  | some slot =>
      have within : plug < panel.outputs.length := (List.getElem?_eq_some_iff.mp written).1
      have bounded := owns.bounded slot (List.mem_of_getElem? written)
      by_cases same : plug = other
      · subst same
        simp only [written, within, Array.getElem?_setIfInBounds_self_of_lt bounded,
          Option.getD_some, and_self, if_true]
      · cases read : panel.outputs[other]? with
        | none => simp [same]
        | some otherSlot =>
            have different : slot ≠ otherSlot := by
              intro equal
              rcases List.getElem?_eq_some_iff.mp written with ⟨_, writtenAt⟩
              rcases List.getElem?_eq_some_iff.mp read with ⟨_, readAt⟩
              exact same ((List.Nodup.getElem_inj_iff owns.nodup).mp
                (writtenAt.trans (equal.trans readAt.symm)))
            simp [same, Array.getElem?_setIfInBounds_ne different]

/-- Two panels on which every program does the same. -/
structure ReadsAlike (left right : Panel) : Prop where
  input : ∀ plug, left.input plug = right.input plug
  output : ∀ plug, left.output plug = right.output plug
  width : left.outputs.length = right.outputs.length
  emitted : left.emitted = right.emitted
  journal : left.journal = right.journal

theorem ReadsAlike.setOutput {left right : Panel} (alike : left.ReadsAlike right)
    (leftOwns : left.OwnsOutputs) (rightOwns : right.OwnsOutputs) (plug : Nat) (value : Value) :
    (left.setOutput plug value).ReadsAlike (right.setOutput plug value) where
  input other := by
    rw [input_setOutput leftOwns, input_setOutput rightOwns, alike.input]
  output other := by
    rw [output_setOutput leftOwns, output_setOutput rightOwns, alike.output, alike.width]
  width := by simpa using alike.width
  emitted := by simpa using alike.emitted
  journal := by simpa using alike.journal

end Panel

/-- On panels that read alike, a program has the same result and leaves panels
that read alike. -/
theorem Program.run_alike (program : Program α) {left right : Panel}
    (leftOwns : left.OwnsOutputs) (rightOwns : right.OwnsOutputs)
    (alike : left.ReadsAlike right) :
    (program.run left).1 = (program.run right).1 ∧
      (program.run left).2.ReadsAlike (program.run right).2 := by
  induction program generalizing left right with
  | done result => exact ⟨rfl, alike⟩
  | input plug next induction =>
      simp only [run, alike.input]
      exact induction _ leftOwns rightOwns alike
  | output plug next induction =>
      simp only [run, alike.output]
      exact induction _ leftOwns rightOwns alike
  | setOutput plug value next induction =>
      exact induction (leftOwns.setOutput plug value) (rightOwns.setOutput plug value)
        (alike.setOutput leftOwns rightOwns plug value)
  | emit emission next induction =>
      refine induction ⟨leftOwns.nodup, leftOwns.bounded, leftOwns.apart⟩
        ⟨rightOwns.nodup, rightOwns.bounded, rightOwns.apart⟩
        ⟨alike.input, alike.output, alike.width, ?_, alike.journal⟩
      simp [Panel.emit, alike.emitted]
  | report entry next induction =>
      refine induction ⟨leftOwns.nodup, leftOwns.bounded, leftOwns.apart⟩
        ⟨rightOwns.nodup, rightOwns.bounded, rightOwns.apart⟩
        ⟨alike.input, alike.output, alike.width, alike.emitted, ?_⟩
      simp [Panel.report, alike.journal]

/-! ## Nodes on their own -/

namespace Panel

/-- A panel whose plugs hold the given values and share nothing. -/
def isolated (inputs outputs : List Value) : Panel where
  values := (inputs ++ outputs).toArray
  inputs := List.range inputs.length
  outputs := List.range' inputs.length outputs.length

/-- What the output plugs hold. -/
def outputValues (panel : Panel) : List Value :=
  readSlots panel.values panel.outputs

theorem isolated_owns (inputs outputs : List Value) : (isolated inputs outputs).OwnsOutputs where
  nodup := List.nodup_range'
  bounded slot member := by
    simp only [isolated, List.mem_range'_1, List.size_toArray, List.length_append] at member ⊢
    exact member.2
  apart slot written read := by
    simp only [isolated, List.mem_range'_1, List.mem_range] at written read
    exact Nat.not_lt.mpr written.1 read

theorem isolated_readInputs (inputs outputs : List Value) :
    readSlots (isolated inputs outputs).values (isolated inputs outputs).inputs = inputs := by
  apply List.ext_getElem (by simp [isolated])
  intro plug _ bound
  simp [isolated, readSlots, List.getElem?_append_left bound, bound]

theorem isolated_outputValues (inputs outputs : List Value) :
    (isolated inputs outputs).outputValues = outputs := by
  apply List.ext_getElem (by simp [isolated, outputValues])
  intro plug _ bound
  simp [isolated, outputValues, readSlots, bound]

theorem readsAlike_isolated (panel : Panel) (emitted : panel.emitted = #[])
    (journal : panel.journal = #[]) :
    panel.ReadsAlike (isolated (readSlots panel.values panel.inputs) panel.outputValues) where
  input plug := by rw [input, input, valueAt_eq, valueAt_eq, isolated_readInputs]
  output plug := by
    rw [output, output, valueAt_eq, valueAt_eq]
    exact congrArg (fun values => values[plug]?.getD Value.void)
      (isolated_outputValues _ panel.outputValues).symm
  width := by simp [isolated, outputValues]
  emitted := emitted
  journal := journal

theorem ReadsAlike.outputValues_eq {left right : Panel} (alike : left.ReadsAlike right) :
    left.outputValues = right.outputValues := by
  apply List.ext_getElem (by simp [outputValues, alike.width])
  intro plug leftBound rightBound
  have equal : left.valueAt left.outputs plug = right.valueAt right.outputs plug :=
    alike.output plug
  rw [valueAt_eq, valueAt_eq, ← outputValues, ← outputValues] at equal
  simpa [leftBound, rightBound] using equal

end Panel

/-- A program run somewhere in a graph does what it does on its own. -/
theorem Program.run_isolated (program : Program α) {panel : Panel} (owns : panel.OwnsOutputs)
    (emitted : panel.emitted = #[]) (journal : panel.journal = #[]) :
    (program.run panel).1 = (program.run
        (.isolated (readSlots panel.values panel.inputs) panel.outputValues)).1 ∧
      (program.run panel).2.outputValues = (program.run
        (.isolated (readSlots panel.values panel.inputs) panel.outputValues)).2.outputValues := by
  have alike := program.run_alike owns (Panel.isolated_owns _ _)
    (panel.readsAlike_isolated emitted journal)
  exact ⟨alike.1, alike.2.outputValues_eq⟩

end NodeGraph
