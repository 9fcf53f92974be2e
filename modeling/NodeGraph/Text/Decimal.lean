import NodeGraph.Binary64

namespace NodeGraph.Decimal

/-! The shortest decimal text of a double. A finite number stands for an
interval of reals that round to it; among the grids of the powers of ten, the
coarsest one with a point in that interval gives the fewest digits. -/

/-- A finite positive number in quarters of its last place: the number itself
and the two ends of the interval that rounds to it are `value`, `low` and `high`
times `2 ^ exponent`. The ends belong to the interval when `closed`. -/
structure Interval where
  low : Nat
  value : Nat
  high : Nat
  exponent : Int
  closed : Bool
  deriving DecidableEq, Repr

/-- The interval of the absolute value of a finite number. Below a power of two
the numbers lie twice as dense. -/
def Interval.ofBinary (x : Binary64) : Interval :=
  let significand :=
    if x.exponentBits = 0 then x.fractionBits else Binary64.hiddenBit + x.fractionBits
  let dense := x.fractionBits = 0 ∧ x.exponentBits > 1
  { low := 4 * significand - (if dense then 1 else 2)
    value := 4 * significand
    high := 4 * significand + 2
    exponent := (max x.exponentBits 1 : Nat) - 1077
    closed := significand % 2 = 0 }

/-- The decimal number `coefficient * 10 ^ power`. -/
structure Candidate where
  coefficient : Nat
  power : Int
  deriving DecidableEq, Repr

/-- Both `n * 2 ^ exponent` and `10 ^ power`, brought to whole numbers by one
factor. -/
def scaled (n : Nat) (exponent power : Int) : Nat × Nat :=
  (Nat.pow 10 (-power).toNat * n <<< exponent.toNat, Nat.pow 10 power.toNat <<< (-exponent).toNat)

/-- Whether `coefficient * 10 ^ power` rounds to the number. -/
def Interval.contains (interval : Interval) (candidate : Candidate) : Bool :=
  let (low, unit) := scaled interval.low interval.exponent candidate.power
  let (high, _) := scaled interval.high interval.exponent candidate.power
  let point := candidate.coefficient * unit
  if interval.closed then low ≤ point && point ≤ high else low < point && point < high

/-- The point of the grid of `10 ^ power` nearest to the number among those that
round to it; the upper one of two equally near. -/
def Interval.onGrid (interval : Interval) (power : Int) : Option Candidate :=
  let (value, unit) := scaled interval.value interval.exponent power
  let below : Candidate := ⟨value / unit, power⟩
  let above : Candidate := ⟨value / unit + 1, power⟩
  match interval.contains below, interval.contains above with
  | true, true => some (if 2 * (value % unit) < unit then below else above)
  | true, false => some below
  | false, true => some above
  | false, false => none

/-- The powers of ten from the coarsest to the finest that a double may need. -/
def powers : List Int :=
  (List.range 653).map fun step : Nat => 309 - (step : Int)

/-- The decimal with the fewest digits that rounds to the number. -/
def Interval.shortest (interval : Interval) : Candidate :=
  (powers.findSome? interval.onGrid).getD ⟨0, 0⟩

/-- Where a text changes from positional to scientific form: numbers from
`10 ^ tooLarge` on, and those below `10 ^ tooSmall`. -/
structure Style where
  tooSmall : Int
  tooLarge : Int

private def zeros (count : Nat) : String :=
  String.ofList (List.replicate count '0')

/-- The text of `digits`, the first of which stands for `10 ^ leading`. Positional
text always has a fraction; scientific text has one when there are more digits. -/
def layOut (style : Style) (digits : List Char) (leading : Int) : String :=
  if leading < style.tooSmall ∨ style.tooLarge ≤ leading then
    let fraction := digits.drop 1
    String.ofList (digits.take 1) ++
      (if fraction.isEmpty then "" else "." ++ String.ofList fraction) ++ "e" ++ toString leading
  else if leading < 0 then
    "0." ++ zeros (-leading - 1).toNat ++ String.ofList digits
  else
    let whole := leading.toNat + 1
    let fraction := digits.drop whole
    String.ofList (digits.take whole) ++ zeros (whole - digits.length) ++
      "." ++ (if fraction.isEmpty then "0" else String.ofList fraction)

def text (style : Style) (x : Binary64) : String :=
  if x.isNaN then "NaN"
  else
    let sign := if x.isNegative then "-" else ""
    if x.isInfinite then sign ++ "inf"
    else if x.exponentBits = 0 ∧ x.fractionBits = 0 then sign ++ "0.0"
    else
      let shortest := (Interval.ofBinary x).shortest
      let digits := Nat.toDigits 10 shortest.coefficient
      sign ++ layOut style digits (shortest.power + digits.length - 1)

/-- Diagnostics write numbers positionally from `0.0001` up to, but not
including, `10 ^ 16`. -/
def diagnosticStyle : Style where
  tooSmall := -4
  tooLarge := 16

def inspect (x : Binary64) : String :=
  text diagnosticStyle x

end NodeGraph.Decimal
