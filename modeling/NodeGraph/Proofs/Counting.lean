import NodeGraph.Proofs.Permission
import NodeGraph.Standard.Trigger

namespace NodeGraph.TriggerCounter

/-! Counting for ever. A counter that starts over at a fixed count shows how many events
it has counted, up to multiples of that count; one that never starts over wraps around.
Whatever happens to other values between the events is of no importance. Main statement:
this is so after any events, and tells which events the counter fires. -/

/-! ## Numbers -/

/-- The count after one more event. -/
def nextCount (resetCount count : Int32) : Int32 :=
  if 0 < resetCount ∧ resetCount ≤ count + 1 then 0 else count + 1

/-- The count that is right after that many events. -/
structure Counted (resetCount : Int32) (events : Nat) (count : Int32) : Prop where
  modulo : 0 < resetCount → 0 ≤ count.toInt ∧ count.toInt < resetCount.toInt ∧
    count.toInt = events % resetCount.toInt
  wrapped : resetCount ≤ 0 → count.toInt = (events : Int).bmod Int32.size

namespace Counted

variable {resetCount count : Int32} {events : Nat}

theorem zero (resetCount : Int32) : Counted resetCount 0 0 where
  modulo positive := by
    rw [Int32.lt_iff_toInt_lt] at positive
    exact ⟨Int.le_refl 0, positive, rfl⟩
  wrapped _ := rfl

/-- A counter that starts over does so before it wraps around. -/
theorem toInt_succ (counted : Counted resetCount events count) (positive : 0 < resetCount) :
    (count + 1).toInt = count.toInt + 1 := by
  rcases counted.modulo positive with ⟨nonneg, below, -⟩
  have bound := resetCount.toInt_lt
  have one : (1 : Int32).toInt = 1 := rfl
  rw [Int32.toInt_add, one]
  exact Int.bmod_eq_of_le (by omega) (by omega)

/-- One more event makes the count full if the events are then a multiple of the full
count. -/
theorem le_succ_iff (counted : Counted resetCount events count) (positive : 0 < resetCount) :
    resetCount ≤ count + 1 ↔ resetCount.toInt ∣ (events : Int) + 1 := by
  rcases counted.modulo positive with ⟨nonneg, below, modulo⟩
  rw [Int32.le_iff_toInt_le, counted.toInt_succ positive, Int.dvd_iff_emod_eq_zero,
    ← Int.emod_add_emod, ← modulo]
  constructor
  · intro full
    have same : count.toInt + 1 = resetCount.toInt := by omega
    rw [same, Int.emod_self]
  · intro multiple
    apply Int.not_lt.mp
    intro room
    rw [Int.emod_eq_of_lt (by omega) room] at multiple
    omega

theorem succ (counted : Counted resetCount events count) :
    Counted resetCount (events + 1) (nextCount resetCount count) where
  modulo positive := by
    have further := counted.le_succ_iff positive
    have fits := counted.toInt_succ positive
    rcases counted.modulo positive with ⟨nonneg, below, modulo⟩
    rw [Int.natCast_add, Int.natCast_one]
    by_cases full : resetCount ≤ count + 1
    · rw [nextCount, if_pos ⟨positive, full⟩, Int.emod_eq_zero_of_dvd (further.mp full)]
      rw [Int32.lt_iff_toInt_lt] at positive
      exact ⟨Int.le_refl 0, positive, rfl⟩
    · rw [nextCount, if_neg (full ·.2), fits, ← Int.emod_add_emod, ← modulo]
      rw [Int32.le_iff_toInt_le, fits, Int.not_le] at full
      exact ⟨by omega, full, (Int.emod_eq_of_lt (by omega) full).symm⟩
  wrapped notPositive := by
    have endless : ¬ (0 < resetCount ∧ resetCount ≤ count + 1) := fun full =>
      Int32.not_le.mpr full.1 notPositive
    rw [nextCount, if_neg endless, Int32.toInt_add, counted.wrapped notPositive]
    exact Int.bmod_add_bmod

end Counted

/-! ## Runs -/

/-- The panel is that of a counter somewhere in a graph, and its third input reads as that
number. -/
structure Hosts (resetCount : Int32) (panel : Panel) : Prop where
  owns : panel.OwnsOutputs
  width : panel.outputs.length = layout.outputs.length
  reads : Scalar.ofValue (panel.input 2) = resetCount

namespace Hosts

variable {resetCount : Int32} {panel : Panel}

theorem run (hosts : Hosts resetCount panel) (program : Program α) :
    Hosts resetCount (program.run panel).2 where
  owns := hosts.owns.run program
  width := by rw [Program.run_outputs, hosts.width]
  reads := by rw [Program.run_input program hosts.owns, hosts.reads]

theorem publish_output (hosts : Hosts resetCount panel) (counter : TriggerCounter) :
    (counter.publish.run panel).2.output 0 = .int32 counter.count := by
  have shows : 0 < panel.outputs.length := hosts.width ▸ Nat.zero_lt_two
  show ((panel.setOutput 0 (.int32 counter.count)).setOutput 1 _).output 0 = _
  rw [Panel.output_setOutput (hosts.owns.setOutput 0 _), if_neg (by simp),
    Panel.output_setOutput hosts.owns, if_pos ⟨rfl, shows⟩]

end Hosts

/-! ## Single events -/

/-- Says that an event has been counted. -/
def onTrigger : Emission := ⟨0, .named "Trigger"⟩

/-- Says that the counter has started over. -/
def onReset : Emission := ⟨1, .named "Reset"⟩

variable {resetCount : Int32} {panel : Panel}

theorem publish_emitted (counter : TriggerCounter) (panel : Panel) :
    (counter.publish.run panel).2.emitted = panel.emitted := by
  show ((panel.setOutput 0 (.int32 counter.count)).setOutput 1 _).emitted = _
  simp only [Panel.setOutput_emitted]

/-- Starting over shows zero and fires one event. -/
theorem restart_run (hosts : Hosts resetCount panel) :
    (restart.run panel).1 = {} ∧ (restart.run panel).2.output 0 = .int32 0 ∧
      (restart.run panel).2.emitted = panel.emitted.push onReset :=
  ⟨rfl, hosts.publish_output {}, congrArg (·.push onReset) (publish_emitted {} panel)⟩

/-- Whether to start over is decided once the next count has been shown and an event has
been fired. -/
theorem advance_run (hosts : Hosts resetCount panel) (counter : TriggerCounter) :
    let shown := ((publish ⟨counter.count + 1⟩).run panel).2.emit onTrigger
    Hosts resetCount shown ∧
      counter.advance.run panel =
        if 0 < resetCount ∧ resetCount ≤ counter.count + 1 then restart.run shown
        else (⟨counter.count + 1⟩, shown) := by
  have later : Hosts resetCount (((publish ⟨counter.count + 1⟩).run panel).2.emit onTrigger) :=
    (hosts.run (publish ⟨counter.count + 1⟩)).run (Program.fire 0 (.named "Trigger"))
  refine ⟨later, ?_⟩
  rw [← later.reads, advance, Program.run_bind, Program.run_bind, Program.run_bind]
  exact apply_ite (Program.run · _) _ _ _

/-- Counting an event shows the next count, fires an event, and another one if the counter
starts over. -/
theorem advance_spec (hosts : Hosts resetCount panel) (counter : TriggerCounter) :
    (counter.advance.run panel).1 = ⟨nextCount resetCount counter.count⟩ ∧
      (counter.advance.run panel).2.output 0 = .int32 (nextCount resetCount counter.count) ∧
      (counter.advance.run panel).2.emitted =
        if 0 < resetCount ∧ resetCount ≤ counter.count + 1 then
          (panel.emitted.push onTrigger).push onReset
        else panel.emitted.push onTrigger := by
  have fired : (((publish ⟨counter.count + 1⟩).run panel).2.emit onTrigger).emitted =
      panel.emitted.push onTrigger :=
    congrArg (·.push onTrigger) (publish_emitted _ panel)
  rcases advance_run hosts counter with ⟨later, ran⟩
  rw [ran, nextCount]
  split
  next full =>
    rw [← fired]
    exact restart_run later
  next room => exact ⟨rfl, hosts.publish_output ⟨counter.count + 1⟩, fired⟩

/-! ## Any number of events -/

/-- How often events have come in on the first input since one came in on the second. -/
def triggers (inputs : List Nat) : Nat :=
  (inputs.reverse.takeWhile (· != 1)).count 0

@[simp] theorem triggers_nil : triggers [] = 0 := rfl

@[simp] theorem triggers_trigger (inputs : List Nat) :
    triggers (inputs ++ [0]) = triggers inputs + 1 := by
  simp [triggers]

@[simp] theorem triggers_reset (inputs : List Nat) : triggers (inputs ++ [1]) = 0 := by
  simp [triggers]

theorem triggers_other (inputs : List Nat) {input : Nat} (noTrigger : input ≠ 0)
    (noReset : input ≠ 1) : triggers (inputs ++ [input]) = triggers inputs := by
  simp [triggers, noTrigger, noReset]

/-- What a counter may come to after it has been initialized and some events have come in.
Between two of them anything may happen to other values of the graph. -/
inductive Life (resetCount : Int32) : List Nat → TriggerCounter → Panel → Prop where
  | init {panel : Panel} (hosts : Hosts resetCount panel) :
      Life resetCount [] (init.run panel).1 (init.run panel).2
  | event {inputs : List Nat} {counter : TriggerCounter} {left panel : Panel}
      (life : Life resetCount inputs counter left) (hosts : Hosts resetCount panel)
      (kept : panel.output 0 = left.output 0) (input : Nat) :
      Life resetCount (inputs ++ [input]) ((counter.onEvent input).run panel).1
        ((counter.onEvent input).run panel).2

/-- The induction is on the events. -/
theorem Life.counted {inputs : List Nat} {counter : TriggerCounter}
    (life : Life resetCount inputs counter panel) :
    Counted resetCount (triggers inputs) counter.count ∧
      panel.output 0 = .int32 counter.count := by
  induction life with
  | init hosts => exact ⟨.zero resetCount, hosts.publish_output {}⟩
  | @event inputs counter left panel life hosts kept input induction =>
      match input with
      | 0 =>
          rcases advance_spec hosts counter with ⟨advanced, shown, -⟩
          rw [triggers_trigger, onEvent, advanced]
          exact ⟨induction.1.succ, shown⟩
      | 1 =>
          rcases restart_run hosts with ⟨restarted, shown, -⟩
          rw [triggers_reset, onEvent, restarted]
          exact ⟨.zero resetCount, shown⟩
      | input + 2 =>
          rw [triggers_other inputs (by simp) (by simp)]
          exact ⟨induction.1, kept.trans induction.2⟩

/-- After any events the counter has counted those on the first input since the last one on
the second, and shows their number: the remainder by the count at which it starts over, or
if it never does, the number wrapped around. An event on the first input fires an event,
and right after it another one exactly if the number of events is a multiple of that count.
An event on the second input fires that other one and nothing else and leaves nothing
counted. Events on other inputs change nothing. -/
theorem Life.counts_modulo {inputs : List Nat} {counter : TriggerCounter}
    (life : Life resetCount inputs counter panel) :
    (0 < resetCount → 0 ≤ counter.count.toInt ∧ counter.count.toInt < resetCount.toInt ∧
      counter.count.toInt = triggers inputs % resetCount.toInt) ∧
    (resetCount ≤ 0 → counter.count.toInt = (triggers inputs : Int).bmod Int32.size) ∧
    panel.output 0 = .int32 counter.count ∧
    ∀ later, Hosts resetCount later →
      (((counter.onEvent 0).run later).2.emitted.toList = later.emitted.toList ++ onTrigger ::
        if 0 < resetCount ∧ resetCount.toInt ∣ (triggers inputs : Int) + 1 then [onReset]
        else []) ∧
      (((counter.onEvent 1).run later).1.count = 0 ∧
        ((counter.onEvent 1).run later).2.output 0 = .int32 0 ∧
        ((counter.onEvent 1).run later).2.emitted.toList = later.emitted.toList ++ [onReset]) ∧
      ∀ input, input ≠ 0 → input ≠ 1 → (counter.onEvent input).run later = (counter, later) := by
  rcases life.counted with ⟨counted, shown⟩
  refine ⟨counted.modulo, counted.wrapped, shown, fun later hosts => ⟨?trigger, ?reset, ?other⟩⟩
  case trigger =>
    have full := and_congr_right counted.le_succ_iff
    rw [onEvent, (advance_spec hosts counter).2.2, ← if_congr full rfl rfl]
    split <;> simp
  case reset =>
    rcases restart_run hosts with ⟨restarted, shown, fired⟩
    exact ⟨congrArg TriggerCounter.count restarted, shown, by simp [onEvent, fired]⟩
  case other =>
    intro input noTrigger noReset
    match input with
    | 0 => exact absurd rfl noTrigger
    | 1 => exact absurd rfl noReset
    | input + 2 => rfl

/-- The panel of a counter that starts over at two. -/
def pairs : Panel :=
  .isolated [.float32 .zero, .float32 .one, .int64 2] [.int32 0, .float32 .zero]

/-- One event has been counted, another one has come in where nothing is counted; the next
one that is counted makes two. -/
theorem pairs_counts_modulo :
    ∃ counter panel, Life 2 [0, 7] counter panel ∧ Hosts 2 pairs ∧
      counter.count.toInt = 1 ∧ panel.output 0 = .int32 counter.count ∧
      ((counter.onEvent 0).run pairs).2.emitted.toList = [onTrigger, onReset] := by
  have hosts : Hosts 2 pairs := ⟨Panel.isolated_owns _ _, rfl, rfl⟩
  have counts := (Life.init hosts).event (hosts.run _) rfl 0
  have waits := counts.event ((hosts.run _).run _) rfl 7
  rcases waits.counts_modulo with ⟨modulo, -, shown, fires⟩
  exact ⟨_, _, waits, hosts, (modulo (by decide)).2.2, shown, (fires pairs hosts).1⟩

end NodeGraph.TriggerCounter
