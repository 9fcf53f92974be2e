import Mathlib.Algebra.Group.Int.Defs
import Mathlib.Algebra.Group.Nat.Defs
import Mathlib.Data.Int.DivMod
import NodeGraph.Proofs.Panel
import NodeGraph.Standard

namespace NodeGraph

/-! Dividing whole numbers. Whole payloads are words of so many bits, which stand for
numbers and wrap around. A node that divides and a node that takes the remainder compute
apart from each other. Main statement: for all words they fit together as quotient and
remainder of numbers do, and what is not divided is what would be divided by zero. -/

/-! ## Words -/

/-- How the payloads of a type stand for whole numbers. Arithmetic is that of the numbers,
wrapped around; only the lowest number divided by minus one has a quotient that is none of
the numbers. -/
structure Word (α : Type) [Number α] where
  bits : Nat
  toInt : α → Int
  quotient : α → α → α
  remainder : α → α → α
  quotient?_eq : ∀ dividend divisor, Number.quotient? dividend divisor =
    if toInt divisor = 0 then none else some (quotient dividend divisor)
  remainder?_eq : ∀ dividend divisor, Number.remainder? dividend divisor =
    if toInt divisor = 0 then none else some (remainder dividend divisor)
  toInt_inj : ∀ left right, toInt left = toInt right → left = right
  toInt_bmod : ∀ word, (toInt word).bmod (2 ^ bits) = toInt word
  toInt_minusOne : toInt Number.minusOne = -1
  toInt_add : ∀ left right,
    toInt (Number.add left right) = (toInt left + toInt right).bmod (2 ^ bits)
  toInt_mul : ∀ left right,
    toInt (Number.mul left right) = (toInt left * toInt right).bmod (2 ^ bits)
  toInt_quotient : ∀ dividend divisor, toInt (quotient dividend divisor) =
    ((toInt dividend).tdiv (toInt divisor)).bmod (2 ^ bits)
  toInt_remainder : ∀ dividend divisor,
    toInt (remainder dividend divisor) = (toInt dividend).tmod (toInt divisor)
  toInt_quotient_of_fits : ∀ dividend divisor,
    ¬ (toInt dividend = -2 ^ (bits - 1) ∧ toInt divisor = -1) →
      toInt (quotient dividend divisor) = (toInt dividend).tdiv (toInt divisor)
  quotient_of_lowest : ∀ dividend divisor,
    toInt dividend = -2 ^ (bits - 1) → toInt divisor = -1 → quotient dividend divisor = dividend

namespace Word

def int32 : Word Int32 where
  bits := 32
  toInt := Int32.toInt
  quotient dividend divisor := dividend / divisor
  remainder dividend divisor := dividend % divisor
  quotient?_eq dividend divisor := by
    simp only [Number.quotient?, ← Int32.toInt_inj, Int32.toInt_zero]
  remainder?_eq dividend divisor := by
    simp only [Number.remainder?, ← Int32.toInt_inj, Int32.toInt_zero]
  toInt_inj left right := Int32.toInt_inj.mp
  toInt_bmod word := word.toInt_bmod_size
  toInt_minusOne := rfl
  toInt_add left right := Int32.toInt_add left right
  toInt_mul left right := Int32.toInt_mul left right
  toInt_quotient dividend divisor := Int32.toInt_div dividend divisor
  toInt_remainder dividend divisor := Int32.toInt_mod dividend divisor
  toInt_quotient_of_fits dividend divisor fits := by
    by_cases lowest : dividend = Int32.minValue
    · refine Int32.toInt_div_of_ne_right _ _ fun minusOne => fits ?_
      rw [lowest, minusOne]
      exact ⟨rfl, rfl⟩
    · exact Int32.toInt_div_of_ne_left _ _ lowest
  quotient_of_lowest dividend divisor lowest minusOne := by
    have dividendLowest : dividend = Int32.minValue := Int32.toInt_inj.mp lowest
    have divisorMinusOne : divisor = -1 := Int32.toInt_inj.mp minusOne
    rw [dividendLowest, divisorMinusOne]
    exact Int32.minValue_div_neg_one

def int64 : Word Int64 where
  bits := 64
  toInt := Int64.toInt
  quotient dividend divisor := dividend / divisor
  remainder dividend divisor := dividend % divisor
  quotient?_eq dividend divisor := by
    simp only [Number.quotient?, ← Int64.toInt_inj, Int64.toInt_zero]
  remainder?_eq dividend divisor := by
    simp only [Number.remainder?, ← Int64.toInt_inj, Int64.toInt_zero]
  toInt_inj left right := Int64.toInt_inj.mp
  toInt_bmod word := word.toInt_bmod_size
  toInt_minusOne := rfl
  toInt_add left right := Int64.toInt_add left right
  toInt_mul left right := Int64.toInt_mul left right
  toInt_quotient dividend divisor := Int64.toInt_div dividend divisor
  toInt_remainder dividend divisor := Int64.toInt_mod dividend divisor
  toInt_quotient_of_fits dividend divisor fits := by
    by_cases lowest : dividend = Int64.minValue
    · refine Int64.toInt_div_of_ne_right _ _ fun minusOne => fits ?_
      rw [lowest, minusOne]
      exact ⟨rfl, rfl⟩
    · exact Int64.toInt_div_of_ne_left _ _ lowest
  quotient_of_lowest dividend divisor lowest minusOne := by
    have dividendLowest : dividend = Int64.minValue := Int64.toInt_inj.mp lowest
    have divisorMinusOne : divisor = -1 := Int64.toInt_inj.mp minusOne
    rw [dividendLowest, divisorMinusOne]
    exact Int64.minValue_div_neg_one

/-! ## Quotient and remainder -/

variable {α : Type} [Number α]

/-- The two words are the quotient, truncated toward zero, and the remainder that goes with
it. The quotient that is out of range wraps around. -/
structure Truncates (word : Word α) (dividend divisor quotient remainder : α) : Prop where
  recovers : Number.add (Number.mul quotient divisor) remainder = dividend
  smaller : (word.toInt remainder).natAbs < (word.toInt divisor).natAbs
  sign : word.toInt remainder = 0 ∨ (word.toInt remainder).sign = (word.toInt dividend).sign
  exact : ¬ (word.toInt dividend = -2 ^ (word.bits - 1) ∧ word.toInt divisor = -1) →
    word.toInt quotient = (word.toInt dividend).tdiv (word.toInt divisor)
  wraps : word.toInt dividend = -2 ^ (word.bits - 1) → word.toInt divisor = -1 →
    quotient = dividend ∧ word.toInt remainder = 0

/-- Wrapping a product and a sum around comes to wrapping around once. -/
theorem toInt_mul_add (word : Word α) (left right summand : α) :
    word.toInt (Number.add (Number.mul left right) summand) =
      (word.toInt left * word.toInt right + word.toInt summand).bmod (2 ^ word.bits) := by
  rw [word.toInt_add, word.toInt_mul, Int.bmod_add_bmod]

theorem recovers (word : Word α) (dividend divisor : α) :
    Number.add (Number.mul (word.quotient dividend divisor) divisor)
      (word.remainder dividend divisor) = dividend := by
  apply word.toInt_inj
  calc word.toInt (Number.add (Number.mul (word.quotient dividend divisor) divisor)
        (word.remainder dividend divisor))
      = (((word.toInt dividend).tdiv (word.toInt divisor)).bmod (2 ^ word.bits) *
          word.toInt divisor +
          (word.toInt dividend).tmod (word.toInt divisor)).bmod (2 ^ word.bits) := by
        rw [word.toInt_mul_add, word.toInt_quotient, word.toInt_remainder]
    _ = ((word.toInt dividend).tdiv (word.toInt divisor) * word.toInt divisor +
          (word.toInt dividend).tmod (word.toInt divisor)).bmod (2 ^ word.bits) := by
        rw [← Int.bmod_add_bmod, Int.bmod_mul_bmod, Int.bmod_add_bmod]
    _ = (word.toInt dividend).bmod (2 ^ word.bits) := by rw [Int.tdiv_mul_add_tmod]
    _ = word.toInt dividend := word.toInt_bmod dividend

theorem truncates (word : Word α) {dividend divisor : α} (nonzero : word.toInt divisor ≠ 0) :
    word.Truncates dividend divisor (word.quotient dividend divisor)
      (word.remainder dividend divisor) where
  recovers := word.recovers dividend divisor
  smaller := by
    rw [word.toInt_remainder, Int.natAbs_tmod]
    exact Nat.mod_lt _ (Int.natAbs_pos.mpr nonzero)
  sign := by
    rw [word.toInt_remainder, Int.sign_tmod]
    by_cases divides : word.toInt divisor ∣ word.toInt dividend
    · exact .inl (Int.tmod_eq_zero_of_dvd divides)
    · exact .inr (if_neg divides)
  exact := word.toInt_quotient_of_fits dividend divisor
  wraps lowest minusOne := by
    refine ⟨word.quotient_of_lowest dividend divisor lowest minusOne, ?_⟩
    rw [word.toInt_remainder, minusOne]
    exact Int.tmod_eq_zero_of_dvd ⟨-word.toInt dividend, by omega⟩

end Word

/-! ## Nodes -/

namespace StandardNode

/-- A tick of an arithmetic node shows what its operation gives, and nothing else. -/
theorem arithmetic_run (operation : ArithmeticOperation) (type : NumberType)
    (timeStep : Binary32) (panel : Panel) :
    (Processor.process timeStep (arithmetic operation type)).run panel =
      ((arithmetic operation type, .zero), panel.setOutput 0 (Scalar.toValue
        (operation.apply (Scalar.ofValue (panel.input 0) : type.Payload)
          (Scalar.ofValue (panel.input 1))))) :=
  rfl

/-- Whatever the plugs of two nodes hold, a tick of either shows a word and does nothing
else. If the second word is zero, nothing is divided and both show minus one. Otherwise one
shows the quotient of the words and the other one their remainder. -/
def DivideAlike (type : NumberType) (word : Word type.Payload) : Prop :=
  ∀ (timeStep : Binary32) (panel : Panel),
    let dividend : type.Payload := Scalar.ofValue (panel.input 0)
    let divisor : type.Payload := Scalar.ofValue (panel.input 1)
    ∃ quotient remainder : type.Payload,
      (Processor.process timeStep (arithmetic .divide type)).run panel =
        ((arithmetic .divide type, .zero), panel.setOutput 0 (Scalar.toValue quotient)) ∧
      (Processor.process timeStep (arithmetic .modulo type)).run panel =
        ((arithmetic .modulo type, .zero), panel.setOutput 0 (Scalar.toValue remainder)) ∧
      (word.toInt divisor = 0 →
        Number.quotient? dividend divisor = none ∧ Number.remainder? dividend divisor = none ∧
          word.toInt quotient = -1 ∧ word.toInt remainder = -1) ∧
      (word.toInt divisor ≠ 0 →
        Number.quotient? dividend divisor = some quotient ∧
          Number.remainder? dividend divisor = some remainder ∧
          word.Truncates dividend divisor quotient remainder)

theorem divideAlike (type : NumberType) (word : Word type.Payload) : DivideAlike type word := by
  intro timeStep panel dividend divisor
  refine ⟨_, _, arithmetic_run .divide type timeStep panel,
    arithmetic_run .modulo type timeStep panel, fun zero => ?_, fun nonzero => ?_⟩
  · have noQuotient : Number.quotient? dividend divisor = none := by
      rw [word.quotient?_eq, if_pos zero]
    have noRemainder : Number.remainder? dividend divisor = none := by
      rw [word.remainder?_eq, if_pos zero]
    refine ⟨noQuotient, noRemainder, ?_, ?_⟩
    · rw [ArithmeticOperation.apply, noQuotient]
      exact word.toInt_minusOne
    · rw [ArithmeticOperation.apply, noRemainder]
      exact word.toInt_minusOne
  · have quotient : Number.quotient? dividend divisor = some (word.quotient dividend divisor) := by
      rw [word.quotient?_eq, if_neg nonzero]
    have remainder :
        Number.remainder? dividend divisor = some (word.remainder dividend divisor) := by
      rw [word.remainder?_eq, if_neg nonzero]
    rw [ArithmeticOperation.apply, ArithmeticOperation.apply, quotient, remainder]
    exact ⟨rfl, rfl, word.truncates nonzero⟩

/-- Nodes that divide words and nodes that take their remainder fit together, for words of
32 and of 64 bits. -/
theorem divide_and_modulo_agree :
    DivideAlike .int Word.int32 ∧ DivideAlike .int64 Word.int64 :=
  ⟨divideAlike .int .int32, divideAlike .int64 .int64⟩

end StandardNode

end NodeGraph
