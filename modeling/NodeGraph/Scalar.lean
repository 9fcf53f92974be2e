import NodeGraph.Value

namespace NodeGraph

/-! Payloads that typed nodes compute with. Reading a payload never fails: a
value of the wrong shape reads as zero. -/

/-- A type of payload, its values and its order. -/
class Scalar (α : Type) where
  zero : α
  ofValue : Value → α
  toValue : α → Value
  toBinary64 : α → Binary64
  ofBinary64 : Binary64 → α
  same : α → α → Bool
  less : α → α → Bool
  atMost : α → α → Bool

instance : Scalar Binary32 where
  zero := .zero
  ofValue value := (value.asBinary64?.map Binary64.toBinary32).getD .zero
  toValue := .float32
  toBinary64 := Binary32.toBinary64
  ofBinary64 := Binary64.toBinary32
  same := Binary32.same
  less := Binary32.less
  atMost := Binary32.atMost

/-- Whole numbers are cut to their low 32 bits. -/
instance : Scalar Int32 where
  zero := 0
  ofValue value := (value.asInt64?.map Int64.toInt32).getD 0
  toValue := .int32
  toBinary64 := .ofInt32
  ofBinary64 := Binary64.toInt32
  same left right := left == right
  less left right := left < right
  atMost left right := left ≤ right

instance : Scalar Int64 where
  zero := 0
  ofValue value := value.asInt64?.getD 0
  toValue := .int64
  toBinary64 := .ofInt64
  ofBinary64 := Binary64.toInt64
  same left right := left == right
  less left right := left < right
  atMost left right := left ≤ right

/-- False comes before true. -/
instance : Scalar Bool where
  zero := false
  ofValue value := value.asBool?.getD false
  toValue := .bool
  toBinary64 := .ofBool
  ofBinary64 := Binary64.toBool
  same left right := left == right
  less left right := !left && right
  atMost left right := !left || right

example : (Scalar.ofValue (.int64 0x100000005) : Int32) = 5 := by decide

example : (Scalar.ofValue (.string "7") : Int64) = 0 := by decide

/-- A payload with arithmetic. Whole numbers wrap around; there is no quotient
and no remainder by zero. -/
class Number (α : Type) extends Scalar α where
  minusOne : α
  add : α → α → α
  sub : α → α → α
  mul : α → α → α
  quotient? : α → α → Option α
  remainder? : α → α → Option α

instance : Number Binary32 where
  minusOne := .minusOne
  add := Binary32.add
  sub := Binary32.sub
  mul := Binary32.mul
  quotient? dividend divisor := if divisor.same .zero then none else some (dividend / divisor)
  remainder? dividend divisor :=
    if divisor.same .zero then none else some (dividend.remainder divisor)

instance : Number Int32 where
  minusOne := -1
  add left right := left + right
  sub left right := left - right
  mul left right := left * right
  quotient? dividend divisor := if divisor = 0 then none else some (dividend / divisor)
  remainder? dividend divisor := if divisor = 0 then none else some (dividend % divisor)

instance : Number Int64 where
  minusOne := -1
  add left right := left + right
  sub left right := left - right
  mul left right := left * right
  quotient? dividend divisor := if divisor = 0 then none else some (dividend / divisor)
  remainder? dividend divisor := if divisor = 0 then none else some (dividend % divisor)

/-- Division drops the fraction, and the one quotient out of range wraps. -/
example : Number.quotient? (-7 : Int32) 2 = some (-3) ∧
    Number.quotient? (Int32.minValue) (-1) = some Int32.minValue := by decide

end NodeGraph
