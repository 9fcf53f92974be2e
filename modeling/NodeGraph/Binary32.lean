import NodeGraph.Binary64

namespace NodeGraph

/-! Single-precision numbers as bit patterns, with the same conventions as
double precision. -/

/-- A 32-bit IEEE-754 number, given by its bits. -/
structure Binary32 where
  bits : UInt32
  deriving DecidableEq, Repr, Inhabited

namespace Binary32

def toFloat32 (x : Binary32) : Float32 :=
  Float32.ofBits x.bits

def ofFloat32 (x : Float32) : Binary32 :=
  ⟨x.toBits⟩

def zero : Binary32 := ⟨0⟩

def one : Binary32 := ⟨0x3f800000⟩

def minusOne : Binary32 := ⟨0xbf800000⟩

/-- The NaN that arithmetic yields. -/
def nan : Binary32 := ⟨0x7fc00000⟩

/-! ## Parts of the bit pattern -/

def isNegative (x : Binary32) : Bool :=
  x.bits ≥ 0x80000000

/-- The leading bit of a significand, which is not stored. -/
def hiddenBit : Nat := 0x800000

def exponentBits (x : Binary32) : Nat :=
  x.bits.toNat / hiddenBit % 256

def fractionBits (x : Binary32) : Nat :=
  x.bits.toNat % hiddenBit

def isNaN (x : Binary32) : Bool :=
  x.exponentBits = 255 && x.fractionBits ≠ 0

def isInfinite (x : Binary32) : Bool :=
  x.exponentBits = 255 && x.fractionBits = 0

def isFinite (x : Binary32) : Bool :=
  x.exponentBits ≠ 255

/-! ## Arithmetic and comparison -/

def add (x y : Binary32) : Binary32 := ofFloat32 (x.toFloat32 + y.toFloat32)

def sub (x y : Binary32) : Binary32 := ofFloat32 (x.toFloat32 - y.toFloat32)

def mul (x y : Binary32) : Binary32 := ofFloat32 (x.toFloat32 * y.toFloat32)

def div (x y : Binary32) : Binary32 := ofFloat32 (x.toFloat32 / y.toFloat32)

instance : Add Binary32 := ⟨add⟩

instance : Sub Binary32 := ⟨sub⟩

instance : Mul Binary32 := ⟨mul⟩

instance : Div Binary32 := ⟨div⟩

/-- Numeric equality: false of a NaN, true of the two zeros. -/
def same (x y : Binary32) : Bool := x.toFloat32 == y.toFloat32

/-- Numeric order: false as soon as a NaN takes part. -/
def less (x y : Binary32) : Bool := x.toFloat32 < y.toFloat32

/-- Numeric order: false as soon as a NaN takes part. -/
def atMost (x y : Binary32) : Bool := x.toFloat32 ≤ y.toFloat32

/-- The larger of two numbers; a NaN gives way to the other one. -/
def max (x y : Binary32) : Binary32 :=
  if y.isNaN then x else if x.isNaN then y else if x.less y then y else x

/-! ## Remainder

The remainder of a division that drops the fraction is always representable, so
it is computed on whole numbers: the absolute value of a finite number is a
whole multiple of the least positive one. -/

/-- The absolute value of a finite number, in units of the least positive
number. -/
def magnitude (x : Binary32) : Nat :=
  if x.exponentBits = 0 then x.fractionBits
  else (hiddenBit + x.fractionBits) <<< (x.exponentBits - 1)

/-- The number of that magnitude and sign, for a magnitude that has at most
twenty-four significant bits. -/
def ofMagnitude (negative : Bool) (units : Nat) : Binary32 :=
  let sign := if negative then 0x80000000 else 0
  if units < hiddenBit then ⟨UInt32.ofNat (sign + units)⟩
  else
    let shift := units.log2 - 23
    ⟨UInt32.ofNat (sign + (shift + 1) * hiddenBit + (units >>> shift - hiddenBit))⟩

example : ofMagnitude true (magnitude ⟨0x40490fdb⟩) = ⟨0xc0490fdb⟩ := by decide

/-- What is left of `x` after taking out the whole multiples of `y`; it has the
sign of `x`. -/
def remainder (x y : Binary32) : Binary32 :=
  if x.isNaN || y.isNaN || x.isInfinite || y.magnitude = 0 then nan
  else if y.isInfinite then x
  else ofMagnitude x.isNegative (x.magnitude % y.magnitude)

/-- 5.5 modulo -2 is 1.5. -/
example : remainder ⟨0x40b00000⟩ ⟨0xc0000000⟩ = ⟨0x3fc00000⟩ := by decide

/-- -0.5 modulo infinity is -0.5. -/
example : remainder ⟨0xbf000000⟩ ⟨0x7f800000⟩ = ⟨0xbf000000⟩ := by decide

/-! ## Powers and logarithms -/

def pow (base exponent : Binary32) : Binary32 :=
  ofFloat32 (base.toFloat32.pow exponent.toFloat32)

def log (x : Binary32) : Binary32 :=
  ofFloat32 x.toFloat32.log

/-! ## Conversions -/

def ofInt32 (n : Int32) : Binary32 := ofFloat32 n.toFloat32

def toBinary64 (x : Binary32) : Binary64 := .ofFloat x.toFloat32.toFloat

end Binary32

/-- The nearest single-precision number, ties to even. -/
def Binary64.toBinary32 (x : Binary64) : Binary32 := .ofFloat32 x.toFloat.toFloat32

end NodeGraph
