namespace NodeGraph

/-! Double-precision numbers as bit patterns. Two of them are equal when their
bits are, so a NaN equals itself and the two zeros differ. Arithmetic goes
through the machine's floating-point unit and yields one fixed NaN. -/

/-- A 64-bit IEEE-754 number, given by its bits. -/
structure Binary64 where
  bits : UInt64
  deriving DecidableEq, Repr, Inhabited

namespace Binary64

def toFloat (x : Binary64) : Float :=
  Float.ofBits x.bits

def ofFloat (x : Float) : Binary64 :=
  ⟨x.toBits⟩

def zero : Binary64 := ⟨0⟩

def one : Binary64 := ⟨0x3ff0000000000000⟩

/-! ## Parts of the bit pattern -/

def isNegative (x : Binary64) : Bool :=
  x.bits ≥ 0x8000000000000000

/-- The leading bit of a significand, which is not stored. -/
def hiddenBit : Nat := 0x10000000000000

def exponentBits (x : Binary64) : Nat :=
  x.bits.toNat / hiddenBit % 2048

def fractionBits (x : Binary64) : Nat :=
  x.bits.toNat % hiddenBit

def isNaN (x : Binary64) : Bool :=
  x.exponentBits = 2047 && x.fractionBits ≠ 0

def isInfinite (x : Binary64) : Bool :=
  x.exponentBits = 2047 && x.fractionBits = 0

example : (Binary64.mk 0xfff8000000000123).isNaN = true := by decide

/-! ## Arithmetic and comparison -/

def add (x y : Binary64) : Binary64 := ofFloat (x.toFloat + y.toFloat)

def sub (x y : Binary64) : Binary64 := ofFloat (x.toFloat - y.toFloat)

def mul (x y : Binary64) : Binary64 := ofFloat (x.toFloat * y.toFloat)

def div (x y : Binary64) : Binary64 := ofFloat (x.toFloat / y.toFloat)

instance : Add Binary64 := ⟨add⟩

instance : Sub Binary64 := ⟨sub⟩

instance : Mul Binary64 := ⟨mul⟩

instance : Div Binary64 := ⟨div⟩

/-- Numeric equality: false of a NaN, true of the two zeros. -/
def same (x y : Binary64) : Bool := x.toFloat == y.toFloat

/-- Numeric order: false as soon as a NaN takes part. -/
def less (x y : Binary64) : Bool := x.toFloat < y.toFloat

/-- Numeric order: false as soon as a NaN takes part. -/
def atMost (x y : Binary64) : Bool := x.toFloat ≤ y.toFloat

/-! ## Conversions -/

def ofBool (flag : Bool) : Binary64 := if flag then one else zero

def ofInt32 (n : Int32) : Binary64 := ofFloat n.toFloat

def ofInt64 (n : Int64) : Binary64 := ofFloat n.toFloat

/-- Drops the fraction; numbers out of range go to the nearest bound and a NaN
to zero. -/
def toInt32 (x : Binary64) : Int32 := x.toFloat.toInt32

/-- Drops the fraction; numbers out of range go to the nearest bound and a NaN
to zero. -/
def toInt64 (x : Binary64) : Int64 := x.toFloat.toInt64

/-- Whether the number counts as true: every number but the zeros does, a NaN
included. -/
def toBool (x : Binary64) : Bool := !x.same zero

/-! ## Powers and logarithms of two -/

def exp2 (x : Binary64) : Binary64 := ofFloat x.toFloat.exp2

def log2 (x : Binary64) : Binary64 := ofFloat x.toFloat.log2

end Binary64

end NodeGraph
