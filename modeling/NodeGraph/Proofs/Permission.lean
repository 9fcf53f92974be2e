import NodeGraph.Proofs.Panel

namespace NodeGraph

/-! What programs are allowed to do. Every program may read the inputs of its
panel; whether it may do anything else is a matter of permission. What a program
is not allowed to do, no run of it does, and what it is allowed to write is all
that its outputs can come to hold. -/

/-! ## Panels before and after a run -/

namespace Panel

theorem OwnsOutputs.emit {panel : Panel} (owns : panel.OwnsOutputs) (emission : Emission) :
    (panel.emit emission).OwnsOutputs :=
  ⟨owns.nodup, owns.bounded, owns.apart⟩

theorem OwnsOutputs.report {panel : Panel} (owns : panel.OwnsOutputs) (entry : Entry) :
    (panel.report entry).OwnsOutputs :=
  ⟨owns.nodup, owns.bounded, owns.apart⟩

theorem OwnsOutputs.run {panel : Panel} (owns : panel.OwnsOutputs) (program : Program α) :
    (program.run panel).2.OwnsOutputs where
  nodup := by simpa using owns.nodup
  bounded := by simpa using owns.bounded
  apart := by simpa using owns.apart

/-- Values that a program has left in all its outputs, it has left everywhere. -/
theorem values_eq_of_outputs {left right : Panel} (rightOwns : right.OwnsOutputs)
    (outputs : left.outputs = right.outputs) (size : left.values.size = right.values.size)
    (unwritten : ∀ slot, slot ∉ right.outputs → left.values[slot]? = right.values[slot]?)
    (same : ∀ plug, left.output plug = right.output plug) : left.values = right.values := by
  apply Array.ext_getElem?
  intro slot
  by_cases written : slot ∈ right.outputs
  · obtain ⟨plug, located⟩ := List.mem_iff_getElem?.mp written
    have bound := rightOwns.bounded slot written
    have read := same plug
    simp only [output, valueAt, outputs, located] at read
    rw [Array.getElem?_eq_getElem bound, Array.getElem?_eq_getElem (size ▸ bound)] at read ⊢
    exact congrArg some read
  · exact unwritten slot written

theorem eq_of_fields {left right : Panel} (values : left.values = right.values)
    (inputs : left.inputs = right.inputs) (outputs : left.outputs = right.outputs)
    (emitted : left.emitted = right.emitted) (journal : left.journal = right.journal) :
    left = right := by
  cases left
  cases right
  cases values
  cases inputs
  cases outputs
  cases emitted
  cases journal
  rfl

end Panel

/-- The inputs of a panel are the same after a run. -/
theorem Program.run_input (program : Program α) {panel : Panel} (owns : panel.OwnsOutputs)
    (plug : Nat) : (program.run panel).2.input plug = panel.input plug := by
  unfold Panel.input Panel.valueAt
  rw [Program.run_inputs]
  cases found : panel.inputs[plug]? with
  | none => rfl
  | some slot =>
      have unwritten : slot ∉ panel.outputs := fun written =>
        owns.apart slot written (List.mem_of_getElem? found)
      simp only [Program.run_unwritten program unwritten]

/-! ## Permissions -/

/-- What a program may do besides reading inputs. -/
structure Permission where
  /-- The output plugs that it may read back. -/
  reads : Nat → Prop
  writes : Nat → Value → Prop
  emits : Emission → Prop
  reports : Entry → Prop

/-- Whatever the program reads, it does only what it may do. -/
def Program.Heeds (permission : Permission) : Program α → Prop
  | .done _ => True
  | .input _ next => ∀ value, (next value).Heeds permission
  | .output plug next => permission.reads plug ∧ ∀ value, (next value).Heeds permission
  | .setOutput plug value next => permission.writes plug value ∧ next.Heeds permission
  | .emit emission next => permission.emits emission ∧ next.Heeds permission
  | .report entry next => permission.reports entry ∧ next.Heeds permission

namespace Program

variable {permission : Permission}

@[simp] theorem heeds_pure (result : α) : (pure result : Program α).Heeds permission := trivial

theorem Heeds.bind {program : Program α} {next : α → Program β} (heeds : program.Heeds permission)
    (nextHeeds : ∀ result, (next result).Heeds permission) :
    (program >>= next).Heeds permission := by
  show (program.bind next).Heeds permission
  induction program with
  | done result => exact nextHeeds result
  | input plug following induction => exact fun value => induction value (heeds value)
  | output plug following induction =>
      exact ⟨heeds.1, fun value => induction value (heeds.2 value)⟩
  | setOutput plug value following induction => exact ⟨heeds.1, induction heeds.2⟩
  | emit emission following induction => exact ⟨heeds.1, induction heeds.2⟩
  | report entry following induction => exact ⟨heeds.1, induction heeds.2⟩

theorem Heeds.map {program : Program α} (heeds : program.Heeds permission) (change : α → β) :
    (change <$> program).Heeds permission :=
  heeds.bind fun result => heeds_pure (change result)

@[simp] theorem heeds_read (plug : Nat) : (read plug).Heeds permission := fun _ => trivial

@[simp] theorem heeds_readAs [Scalar α] (plug : Nat) : (readAs α plug).Heeds permission :=
  fun _ => trivial

@[simp] theorem heeds_write {plug : Nat} {value : Value} :
    (write plug value).Heeds permission ↔ permission.writes plug value :=
  and_iff_left trivial

@[simp] theorem heeds_fire {output : Nat} {event : Identifier} :
    (fire output event).Heeds permission ↔ permission.emits ⟨output, event⟩ :=
  and_iff_left trivial

/-- A program that may make nothing known makes nothing known. -/
theorem Heeds.run_silent {program : Program α} (heeds : program.Heeds permission)
    (emits : ∀ emission, ¬ permission.emits emission)
    (reports : ∀ entry, ¬ permission.reports entry) (panel : Panel) :
    (program.run panel).2.emitted = panel.emitted ∧
      (program.run panel).2.journal = panel.journal := by
  induction program generalizing panel with
  | done result => exact ⟨rfl, rfl⟩
  | input plug next induction => exact induction _ (heeds _) panel
  | output plug next induction => exact induction _ (heeds.2 _) panel
  | setOutput plug value next induction =>
      have rest := induction heeds.2 (panel.setOutput plug value)
      rw [Panel.setOutput_emitted, Panel.setOutput_journal] at rest
      exact rest
  | emit emission next induction => exact absurd heeds.1 (emits emission)
  | report entry next induction => exact absurd heeds.1 (reports entry)

/-- If every output holds what may be written there, it still does after a run. -/
theorem Heeds.run_outputs {program : Program α} (heeds : program.Heeds permission)
    {panel : Panel} (owns : panel.OwnsOutputs)
    (before : ∀ plug < panel.outputs.length, permission.writes plug (panel.output plug)) :
    ∀ plug < panel.outputs.length,
      permission.writes plug ((program.run panel).2.output plug) := by
  induction program generalizing panel with
  | done result => exact before
  | input plug next induction => exact induction _ (heeds _) owns before
  | output plug next induction => exact induction _ (heeds.2 _) owns before
  | setOutput plug value next induction =>
      have rest := induction heeds.2 (owns.setOutput plug value)
      rw [Panel.setOutput_outputs] at rest
      apply rest
      intro other bound
      rw [Panel.output_setOutput owns]
      split
      next written => exact written.1 ▸ heeds.1
      next => exact before other bound
  | emit emission next induction =>
      exact induction heeds.2 (owns.emit emission) before
  | report entry next induction =>
      exact induction heeds.2 (owns.report entry) before

/-! ## Running again -/

/-- A program that reads no outputs does the same on panels with the same inputs:
either it writes an output, the same on both, or it leaves it alone on both. -/
theorem Heeds.run_inputs_alike {program : Program α} (heeds : program.Heeds permission)
    (reads : ∀ plug, ¬ permission.reads plug) {left right : Panel} (leftOwns : left.OwnsOutputs)
    (rightOwns : right.OwnsOutputs) (alike : ∀ plug, left.input plug = right.input plug)
    (width : left.outputs.length = right.outputs.length) :
    (program.run left).1 = (program.run right).1 ∧
      ∀ plug, (program.run left).2.output plug = (program.run right).2.output plug ∨
        (program.run left).2.output plug = left.output plug ∧
          (program.run right).2.output plug = right.output plug := by
  induction program generalizing left right with
  | done result => exact ⟨rfl, fun plug => .inr ⟨rfl, rfl⟩⟩
  | input plug next induction =>
      simp only [run, alike]
      exact induction _ (heeds _) leftOwns rightOwns alike width
  | output plug next induction => exact absurd heeds.1 (reads plug)
  | setOutput plug value next induction =>
      obtain ⟨same, rest⟩ := induction heeds.2 (leftOwns.setOutput plug value)
        (rightOwns.setOutput plug value)
        (fun other => by
          rw [Panel.input_setOutput leftOwns, Panel.input_setOutput rightOwns, alike])
        (by simpa using width)
      refine ⟨same, fun other => ?_⟩
      obtain written | ⟨leftKept, rightKept⟩ := rest other
      · exact .inl written
      · rw [Panel.output_setOutput leftOwns] at leftKept
        rw [Panel.output_setOutput rightOwns, ← width] at rightKept
        by_cases here : plug = other ∧ plug < left.outputs.length
        · rw [if_pos here] at leftKept rightKept
          exact .inl (leftKept.trans rightKept.symm)
        · rw [if_neg here] at leftKept rightKept
          exact .inr ⟨leftKept, rightKept⟩
  | emit emission next induction =>
      exact induction heeds.2 (leftOwns.emit emission) (rightOwns.emit emission) alike width
  | report entry next induction =>
      exact induction heeds.2 (leftOwns.report entry) (rightOwns.report entry) alike width

end Program

/-- A program that reads no outputs and makes nothing known changes nothing when
it runs again. -/
theorem Program.Heeds.run_again {permission : Permission} {program : Program α}
    (heeds : program.Heeds permission) (reads : ∀ plug, ¬ permission.reads plug)
    (emits : ∀ emission, ¬ permission.emits emission)
    (reports : ∀ entry, ¬ permission.reports entry) {panel : Panel} (owns : panel.OwnsOutputs) :
    program.run (program.run panel).2 = program.run panel := by
  have ownsAfter := owns.run program
  obtain ⟨result, written⟩ := heeds.run_inputs_alike reads ownsAfter owns
    (program.run_input owns) (by simp)
  obtain ⟨emitted, journal⟩ := heeds.run_silent emits reports (program.run panel).2
  have values : (program.run (program.run panel).2).2.values = (program.run panel).2.values := by
    apply Panel.values_eq_of_outputs ownsAfter (by simp) (by simp)
    · intro slot unwritten
      exact Program.run_unwritten program unwritten
    · intro plug
      exact (written plug).elim id And.left
  exact Prod.ext result
    (Panel.eq_of_fields values (by simp) (by simp) (by simpa using emitted) (by simpa using journal))

end NodeGraph
