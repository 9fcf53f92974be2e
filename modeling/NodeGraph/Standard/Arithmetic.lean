import NodeGraph.Program
import NodeGraph.Standard.Plug

namespace NodeGraph

/-! Arithmetic nodes. They use up none of the time step. -/

/-! ## Operations -/

namespace Number

/-- The smaller of two payloads, the first unless the second is less. -/
def min [Scalar α] (left right : α) : α :=
  if Scalar.less right left then right else left

/-- The larger of two payloads, the first unless the second is more. -/
def max [Scalar α] (left right : α) : α :=
  if Scalar.less left right then right else left

/-- Holds a payload between two bounds; where they are the wrong way round, the
upper bound wins. -/
def clamp [Scalar α] (payload low high : α) : α :=
  min (max payload low) high

end Number

inductive ArithmeticOperation where
  | add
  | subtract
  | multiply
  | divide
  | modulo
  | min
  | max
  deriving DecidableEq, Repr

namespace ArithmeticOperation

/-- The result of an operation. Dividing by zero, and modulo zero, give -1. -/
def apply [Number α] (operation : ArithmeticOperation) (left right : α) : α :=
  match operation with
  | .add => Number.add left right
  | .subtract => Number.sub left right
  | .multiply => Number.mul left right
  | .divide => (Number.quotient? left right).getD Number.minusOne
  | .modulo => (Number.remainder? left right).getD Number.minusOne
  | .min => Number.min left right
  | .max => Number.max left right

def plugNames : ArithmeticOperation → String × String × String
  | .add | .subtract => ("Value1", "Value2", "Out")
  | .multiply => ("Value", "Multiplier", "Out")
  | .divide | .modulo => ("Value", "Divisor", "Out")
  | .min | .max => ("Value1", "Value2", "Value")

def layout (α : Type) [Scalar α] (operation : ArithmeticOperation) : Layout :=
  let (left, right, result) := operation.plugNames
  { inputs := [.zero α left, .zero α right], outputs := [.zero α result] }

def process (α : Type) [Number α] (operation : ArithmeticOperation) : Program Unit := do
  let left ← Program.readAs α 0
  let right ← Program.readAs α 1
  Program.writeAs 0 (operation.apply left right)

example : apply .divide (7 : Int32) 0 = -1 ∧ apply .modulo (-7 : Int32) 2 = -1 := by decide

end ArithmeticOperation

/-! ## Clamp -/

namespace Clamp

def layout (α : Type) [Scalar α] : Layout where
  inputs := [.zero α "Value", .zero α "Min", .one α "Max"]
  outputs := [.zero α "Value"]

def process (α : Type) [Scalar α] : Program Unit := do
  let payload ← Program.readAs α 0
  let low ← Program.readAs α 1
  let high ← Program.readAs α 2
  Program.writeAs 0 (Number.clamp payload low high)

end Clamp

/-! ## Map range -/

namespace MapRange

def layout (α : Type) [Scalar α] : Layout where
  inputs := [.zero α "Value", .zero α "InRangeMin", .one α "InRangeMax", .zero α "OutRangeMin",
    .one α "OutRangeMax", .zero Bool "Clamped"]
  outputs := [.zero α "Value"]

/-- Carries a number from one range to another, linearly. A range without width
is carried to the lower end of the other. -/
def map (number inMin inMax outMin outMax : Binary64) : Binary64 :=
  let width := inMax - inMin
  if width.same .zero then outMin
  else outMin + (outMax - outMin) * ((number - inMin) / width)

def process (α : Type) [Scalar α] : Program Unit := do
  let payload ← Program.readAs α 0
  let inMin ← Program.readAs α 1
  let inMax ← Program.readAs α 2
  let outMin ← Program.readAs α 3
  let outMax ← Program.readAs α 4
  let clamped ← Program.readAs Bool 5
  let payload := if clamped then Number.clamp payload inMin inMax else payload
  let mapped := map (Scalar.toBinary64 payload) (Scalar.toBinary64 inMin)
    (Scalar.toBinary64 inMax) (Scalar.toBinary64 outMin) (Scalar.toBinary64 outMax)
  Program.writeAs 0 (Scalar.ofBinary64 mapped : α)

end MapRange

/-! ## Powers and logarithms -/

namespace Power

def layout : Layout where
  inputs := [.zero Binary32 "Base", .one Binary32 "Exponent"]
  outputs := [.zero Binary32 "Out"]

def process : Program Unit := do
  let base ← Program.readAs Binary32 0
  let exponent ← Program.readAs Binary32 1
  Program.writeAs 0 (base.pow exponent)

end Power

namespace Logarithm

def ten : Binary32 := ⟨0x41200000⟩

def layout : Layout where
  inputs := [.one Binary32 "Value", .holding "Base" ten]
  outputs := [.zero Binary32 "Out"]

/-- The logarithm of a number to a base; zero where there is none, and where it
is not finite. -/
def logarithm (number base : Binary32) : Binary32 :=
  if number.atMost .zero || base.atMost .zero || base.same .one then .zero
  else
    let result := number.log / base.log
    if result.isFinite then result else .zero

def process : Program Unit := do
  let number ← Program.readAs Binary32 0
  let base ← Program.readAs Binary32 1
  Program.writeAs 0 (logarithm number base)

end Logarithm

end NodeGraph
