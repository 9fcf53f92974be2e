namespace NodeGraph.Hex

/-! Lower-case hexadecimal digits. -/

/-- The digit for `n`, which is read modulo sixteen. -/
def digit (n : Nat) : Char :=
  Nat.digitChar (n % 16)

/-- The `width` low hexadecimal digits of `n`, most significant first. -/
def digits : (width : Nat) → (n : Nat) → List Char
  | 0, _ => []
  | width + 1, n => digits width (n / 16) ++ [digit n]

/-- `n` as `0x` and exactly `width` digits. -/
def fixed (width n : Nat) : String :=
  "0x" ++ String.ofList (digits width n)

example : fixed 8 0x50c5d1f = "0x050c5d1f" := by decide

def shortest (n : Nat) : String :=
  String.ofList (Nat.toDigits 16 n)

example : shortest 0x301 = "301" := by decide

end NodeGraph.Hex
