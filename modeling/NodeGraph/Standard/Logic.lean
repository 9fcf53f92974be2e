import NodeGraph.Program
import NodeGraph.Standard.Plug

namespace NodeGraph

/-! Comparisons and connectives. Logic nodes use up the whole time step. -/

inductive Comparison where
  | equal
  | notEqual
  | less
  | lessEqual
  | greater
  | greaterEqual
  deriving DecidableEq, Repr

namespace Comparison

def apply [Scalar α] (comparison : Comparison) (left right : α) : Bool :=
  match comparison with
  | .equal => Scalar.same left right
  | .notEqual => !Scalar.same left right
  | .less => Scalar.less left right
  | .lessEqual => Scalar.atMost left right
  | .greater => Scalar.less right left
  | .greaterEqual => Scalar.atMost right left

def layout (α : Type) [Scalar α] : Layout where
  inputs := [.zero α "Value1", .zero α "Value2"]
  outputs := [.zero Bool "Out"]

def process (α : Type) [Scalar α] (comparison : Comparison) : Program Unit := do
  let left ← Program.readAs α 0
  let right ← Program.readAs α 1
  Program.writeAs 0 (comparison.apply left right)

end Comparison

inductive Connective where
  | and
  | or
  | not
  deriving DecidableEq, Repr

namespace Connective

def layout : Connective → Layout
  | .and | .or => {
      inputs := [.zero Bool "Value1", .zero Bool "Value2"]
      outputs := [.zero Bool "Out"] }
  | .not => {
      inputs := [.zero Bool "Value"]
      outputs := [.holding "Out" true] }

def process : Connective → Program Unit
  | .and => do
      let left ← Program.readAs Bool 0
      let right ← Program.readAs Bool 1
      Program.writeAs 0 (left && right)
  | .or => do
      let left ← Program.readAs Bool 0
      let right ← Program.readAs Bool 1
      Program.writeAs 0 (left || right)
  | .not => do
      let flag ← Program.readAs Bool 0
      Program.writeAs 0 (!flag)

end Connective

end NodeGraph
