import NodeGraph.Journal
import NodeGraph.Scalar

namespace NodeGraph

/-! Nodes do not touch the values of a graph directly. What a node does is a
program over its own plugs; the engine runs the program on a panel, the node's
window onto the values of the whole graph. -/

/-- The position of a value among the values of a graph. -/
abbrev Slot := Nat

/-! ## Panels -/

/-- The values of a graph as one node sees them: `inputs` and `outputs` say in
which slot each plug lies. Several plugs may share a slot, and a slot need not
exist. -/
structure Panel where
  values : Array Value
  inputs : List Slot
  outputs : List Slot
  /-- The events fired so far, oldest first. -/
  emitted : Array Emission := #[]
  /-- What happened inside the node so far, oldest first. -/
  journal : Array Entry := #[]

namespace Panel

/-- What a plug that lies in the `plug`-th of `slots` reads. A plug that does
not exist reads void. -/
def valueAt (panel : Panel) (slots : List Slot) (plug : Nat) : Value :=
  match slots[plug]? with
  | some slot => panel.values[slot]?.getD .void
  | none => .void

def input (panel : Panel) (plug : Nat) : Value :=
  panel.valueAt panel.inputs plug

def output (panel : Panel) (plug : Nat) : Value :=
  panel.valueAt panel.outputs plug

/-- Writes an output plug. Writing a plug that does not exist has no effect. -/
def setOutput (panel : Panel) (plug : Nat) (value : Value) : Panel :=
  match panel.outputs[plug]? with
  | some slot => { panel with values := panel.values.setIfInBounds slot value }
  | none => panel

def emit (panel : Panel) (emission : Emission) : Panel :=
  { panel with emitted := panel.emitted.push emission }

def report (panel : Panel) (entry : Entry) : Panel :=
  { panel with journal := panel.journal.push entry }

end Panel

/-! ## Programs -/

/-- What a node does: read and write plugs, fire events, and end with a
result. -/
inductive Program (α : Type) : Type where
  | done (result : α)
  | input (plug : Nat) (next : Value → Program α)
  | output (plug : Nat) (next : Value → Program α)
  | setOutput (plug : Nat) (value : Value) (next : Program α)
  | emit (emission : Emission) (next : Program α)
  /-- Puts something that happened inside the node on record. -/
  | report (entry : Entry) (next : Program α)

namespace Program

def run : Program α → Panel → α × Panel
  | .done result, panel => (result, panel)
  | .input plug next, panel => (next (panel.input plug)).run panel
  | .output plug next, panel => (next (panel.output plug)).run panel
  | .setOutput plug value next, panel => next.run (panel.setOutput plug value)
  | .emit emission next, panel => next.run (panel.emit emission)
  | .report entry next, panel => next.run (panel.report entry)

protected def bind (program : Program α) (next : α → Program β) : Program β :=
  match program with
  | .done result => next result
  | .input plug following => .input plug fun value => (following value).bind next
  | .output plug following => .output plug fun value => (following value).bind next
  | .setOutput plug value following => .setOutput plug value (following.bind next)
  | .emit emission following => .emit emission (following.bind next)
  | .report entry following => .report entry (following.bind next)

instance : Monad Program where
  pure := .done
  bind := Program.bind

@[simp] theorem run_pure (result : α) (panel : Panel) :
    (pure result : Program α).run panel = (result, panel) := rfl

/-- Running two programs after each other is running the second on the panel
that the first leaves. -/
@[simp] theorem run_bind (program : Program α) (next : α → Program β) (panel : Panel) :
    (program >>= next).run panel =
      (next (program.run panel).1).run (program.run panel).2 := by
  show (program.bind next).run panel = _
  induction program generalizing panel with
  | done result => rfl
  | input plug following induction => exact induction _ _
  | output plug following induction => exact induction _ _
  | setOutput plug value following induction => exact induction _
  | emit emission following induction => exact induction _
  | report entry following induction => exact induction _

/-! ## Instructions -/

def read (plug : Nat) : Program Value :=
  .input plug .done

def readAs (α : Type) [Scalar α] (plug : Nat) : Program α :=
  .input plug fun value => .done (Scalar.ofValue value)

def write (plug : Nat) (value : Value) : Program Unit :=
  .setOutput plug value (.done ())

def writeAs [Scalar α] (plug : Nat) (payload : α) : Program Unit :=
  write plug (Scalar.toValue payload)

/-- Fires an output event. It is delivered after the node has finished. -/
def fire (output : Nat) (event : Identifier) : Program Unit :=
  .emit ⟨output, event⟩ (.done ())

/-- Puts on record, in order, what happened inside the node. -/
def reportAll : List Entry → Program Unit
  | [] => pure ()
  | entry :: entries => .report entry (reportAll entries)

/-- Plug 0 is doubled onto an output that shares its slot, then read again. -/
example :
    let program : Program Int32 := do
      let number ← readAs Int32 0
      writeAs 0 (number + number)
      readAs Int32 0
    (program.run ⟨#[.int32 4], [0], [0], #[], #[]⟩).1 = 8 := by decide

end Program

end NodeGraph
