import NodeGraph.Compile.Error
import NodeGraph.Events

namespace NodeGraph

/-! Compiling yields a result or the first error, and either way a log of what
was done until then. -/

structure Compilation (α : Type) where
  log : List LogRecord
  /-- On the way more room was asked for than there can be. -/
  overflows : Bool := false
  /-- What comes of it if there always is the room that is asked for. -/
  outcome : Except CompileError α

namespace Compilation

/-- What whoever compiles gets: nothing if the process ended on the way. -/
def result? (compilation : Compilation α) : Option (Except CompileError α) :=
  if compilation.overflows then none else some compilation.outcome

/-- Continues after a success; the log goes on. -/
protected def bind (first : Compilation α) (next : α → Compilation β) : Compilation β :=
  match first.outcome with
  | .ok value =>
      { log := first.log ++ (next value).log
        overflows := first.overflows || (next value).overflows
        outcome := (next value).outcome }
  | .error error => { first with outcome := .error error }

instance : Monad Compilation where
  pure value := { log := [], outcome := .ok value }
  bind := Compilation.bind

def noteAll (records : List LogRecord) : Compilation Unit where
  log := records
  outcome := .ok ()

def note (record : LogRecord) : Compilation Unit :=
  noteAll [record]

def ofExcept (outcome : Except CompileError α) : Compilation α where
  log := []
  outcome

def fail (error : CompileError) : Compilation α :=
  ofExcept (.error error)

/-- Changes the error of a compilation that has failed. -/
def mapError (change : CompileError → CompileError) (compilation : Compilation α) :
    Compilation α :=
  { compilation with outcome := compilation.outcome.mapError change }

/-- Sets room for so many events aside. -/
def reserve (capacity : Nat) : Compilation Unit where
  log := []
  overflows := !decide (OutgoingQueue.CanReserve capacity)
  outcome := .ok ()

/-! Whether a compilation succeeds does not depend on what is logged. -/

@[simp] theorem outcome_pure (value : α) : (pure value : Compilation α).outcome = .ok value := rfl

@[simp] theorem outcome_bind (first : Compilation α) (next : α → Compilation β) :
    (first >>= next).outcome = first.outcome >>= fun value => (next value).outcome := by
  obtain ⟨log, overflows, outcome⟩ := first
  cases outcome <;> rfl

@[simp] theorem outcome_noteAll (records : List LogRecord) :
    (noteAll records).outcome = .ok () := rfl

@[simp] theorem outcome_note (record : LogRecord) : (note record).outcome = .ok () := rfl

@[simp] theorem outcome_reserve (capacity : Nat) : (reserve capacity).outcome = .ok () := rfl

@[simp] theorem outcome_ofExcept (outcome : Except CompileError α) :
    (ofExcept outcome).outcome = outcome := rfl

@[simp] theorem outcome_fail (error : CompileError) :
    (fail error : Compilation α).outcome = .error error := rfl

@[simp] theorem outcome_mapError (change : CompileError → CompileError)
    (compilation : Compilation α) :
    (compilation.mapError change).outcome = compilation.outcome.mapError change := rfl

/-! Asking for room is all that a compilation can go wrong over. -/

@[simp] theorem overflows_pure (value : α) : (pure value : Compilation α).overflows = false := rfl

@[simp] theorem overflows_note (record : LogRecord) : (note record).overflows = false := rfl

@[simp] theorem overflows_ofExcept (outcome : Except CompileError α) :
    (ofExcept outcome).overflows = false := rfl

@[simp] theorem overflows_mapError (change : CompileError → CompileError)
    (compilation : Compilation α) :
    (compilation.mapError change).overflows = compilation.overflows := rfl

/-- A second compilation follows only if the first one yields something. -/
theorem result?_bind (first : Compilation α) (next : α → Compilation β) :
    (first >>= next).result? =
      match first.result? with
      | none => none
      | some (.error error) => some (.error error)
      | some (.ok value) => (next value).result? := by
  obtain ⟨log, overflows, outcome⟩ := first
  cases outcome with
  | error error => cases overflows <;> rfl
  | ok value => cases overflows <;> rfl

/-- Runs a step for each item in order and collects the results. -/
def each (step : α → Compilation β) : List α → Compilation (List β)
  | [] => pure []
  | item :: items => do
      let result ← step item
      let results ← each step items
      pure (result :: results)

end Compilation

end NodeGraph
