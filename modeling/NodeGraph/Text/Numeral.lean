import NodeGraph.Binary64

namespace NodeGraph

/-! Decimal numerals as they stand in a configuration: `-12`, `44100.5`, `4.8e4`. -/

/-- The number `significand * 10 ^ exponent`, with the sign that was written. -/
structure Numeral where
  isNegative : Bool
  significand : Nat
  exponent : Int
  /-- Whether there is neither a fraction nor an exponent. -/
  isWhole : Bool
  deriving DecidableEq, Repr

namespace Numeral

def ofDigits (digits : List Char) : Nat :=
  digits.foldl (fun number digit => 10 * number + (digit.toNat - 48)) 0

def splitMinus : List Char → Bool × List Char
  | '-' :: rest => (true, rest)
  | characters => (false, characters)

def splitSign : List Char → Bool × List Char
  | '+' :: rest => (false, rest)
  | characters => splitMinus characters

/-- The digits of the fraction, if there is one, and what follows. -/
def splitFraction : List Char → List Char × List Char
  | '.' :: rest => rest.span Char.isDigit
  | characters => ([], characters)

/-- The exponent that ends a numeral. -/
def exponentOf? : List Char → Option Int
  | [] => some 0
  | letter :: rest =>
      let (isNegative, digits) := splitSign rest
      if (letter = 'e' ∨ letter = 'E') ∧ digits ≠ [] ∧ digits.all Char.isDigit then
        some (if isNegative then -(ofDigits digits : Int) else ofDigits digits)
      else none

def ofText? (text : String) : Option Numeral :=
  let (isNegative, unsigned) := splitMinus text.toList
  let (whole, rest) := unsigned.span Char.isDigit
  let (fraction, rest) := splitFraction rest
  (exponentOf? rest).map fun exponent => {
    isNegative
    significand := ofDigits (whole ++ fraction)
    exponent := exponent - fraction.length
    isWhole := fraction.isEmpty && rest.isEmpty }

example : ofText? "-44.1e+3" = some ⟨true, 441, 2, false⟩ := by decide

example : ofText? "12" = some ⟨false, 12, 0, true⟩ := by decide

example : ofText? "fast" = none := by decide

def toBinary64 (numeral : Numeral) : Binary64 :=
  let magnitude :=
    Float.ofScientific numeral.significand (numeral.exponent < 0) numeral.exponent.natAbs
  .ofFloat (if numeral.isNegative then -magnitude else magnitude)

end Numeral

end NodeGraph
