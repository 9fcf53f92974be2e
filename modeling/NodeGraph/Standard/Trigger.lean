import NodeGraph.Program
import NodeGraph.Standard.Plug

namespace NodeGraph

/-! Nodes that turn values into events and count events. They use up the whole
time step. -/

/-! ## Bool trigger -/

namespace BoolTrigger

def layout : Layout where
  inputs := [.zero Bool "Value"]
  outputEvents := [.named "OnTrue", .named "OnFalse"]

/-- Fires one of its two events in every tick. -/
def process : Program Unit := do
  if ← Program.readAs Bool 0 then
    Program.fire 0 (.named "True")
  else
    Program.fire 1 (.named "False")

end BoolTrigger

/-! ## Trigger counter -/

/-- A counter of events. It starts over by itself when its count reaches a
positive `ResetCount`. -/
structure TriggerCounter where
  count : Int32 := 0
  deriving DecidableEq, Repr

namespace TriggerCounter

def layout : Layout where
  inputs := [.zero Binary32 "StartValue", .one Binary32 "StepSize", .zero Int32 "ResetCount"]
  outputs := [.zero Int32 "Count", .zero Binary32 "Value"]
  inputEvents := [.named "Trigger", .named "Reset"]
  outputEvents := [.named "OnTrigger", .named "OnReset"]

/-- Shows the count, and the start value plus the count times the step size. -/
def publish (counter : TriggerCounter) : Program Unit := do
  let start ← Program.readAs Binary32 0
  let step ← Program.readAs Binary32 1
  Program.writeAs 0 counter.count
  Program.writeAs 1 (start + step * Binary32.ofInt32 counter.count)

/-- Starts over at zero. -/
def init : Program TriggerCounter := do
  let counter : TriggerCounter := {}
  counter.publish
  pure counter

/-- Starts over at zero and says so. -/
def restart : Program TriggerCounter := do
  let counter ← init
  Program.fire 1 (.named "Reset")
  pure counter

/-- Counts one event. The count wraps around. Whether to start over is read
after the new count has been shown. -/
def advance (counter : TriggerCounter) : Program TriggerCounter := do
  let counter : TriggerCounter := ⟨counter.count + 1⟩
  counter.publish
  Program.fire 0 (.named "Trigger")
  let resetCount ← Program.readAs Int32 2
  if 0 < resetCount ∧ resetCount ≤ counter.count then restart else pure counter

def onEvent (input : Nat) (counter : TriggerCounter) : Program TriggerCounter :=
  match input with
  | 0 => counter.advance
  | 1 => restart
  | _ => pure counter

end TriggerCounter

end NodeGraph
