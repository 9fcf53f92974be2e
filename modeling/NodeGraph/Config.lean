import NodeGraph.Binary64
import NodeGraph.Bytes
import NodeGraph.Text.Numeral

namespace NodeGraph

/-! Limits that a graph is compiled and run with. -/

/-- Limits and the default sample rate. -/
structure Config where
  eventQueueCapacity : UInt64
  maxEventHops : UInt64
  maxSubroutineDepth : UInt64
  sampleRate : Binary64
  deriving DecidableEq, Repr

namespace Config

protected def default : Config where
  eventQueueCapacity := 1024
  maxEventHops := 256
  maxSubroutineDepth := 16
  sampleRate := ⟨0x40e7700000000000⟩

instance : Inhabited Config := ⟨Config.default⟩

/-! ## Byte form -/

def toBytes (config : Config) : List UInt8 :=
  Bytes.word 8 config.eventQueueCapacity.toNat ++ Bytes.word 8 config.maxEventHops.toNat ++
    Bytes.word 8 config.maxSubroutineDepth.toNat ++ Bytes.word 8 config.sampleRate.bits.toNat

def reader : Reader Config := do
  let eventQueueCapacity ← Reader.word 8
  let maxEventHops ← Reader.word 8
  let maxSubroutineDepth ← Reader.word 8
  let sampleRate ← Reader.word 8
  pure {
    eventQueueCapacity := UInt64.ofNat eventQueueCapacity
    maxEventHops := UInt64.ofNat maxEventHops
    maxSubroutineDepth := UInt64.ofNat maxSubroutineDepth
    sampleRate := ⟨UInt64.ofNat sampleRate⟩ }

/-! ## Settings

A configuration may also be given as named settings, or as a sequence in the
order of the fields. What is not given keeps its default. -/

/-- One setting. A number written without fraction and exponent is whole. -/
inductive Setting where
  | whole (number : Int)
  | real (number : Binary64)
  | other

/-- The setting of a number. Minus zero is not whole. -/
def Setting.ofNumeral (numeral : Numeral) : Setting :=
  if numeral.isWhole && !(numeral.isNegative && numeral.significand == 0) then
    .whole (if numeral.isNegative then -numeral.significand else numeral.significand)
  else .real numeral.toBinary64

/-- Whole numbers up to `2 ^ 64 - 1` are counts. -/
def Setting.count? : Setting → Option UInt64
  | .whole number =>
      if 0 ≤ number ∧ number ≤ 0xffffffffffffffff then some (UInt64.ofNat number.toNat) else none
  | _ => none

def Setting.binaryOfWhole (number : Int) : Binary64 :=
  .ofFloat (Float.ofInt number)

/-- Every number is a rate. -/
def Setting.rate? : Setting → Option Binary64
  | .whole number => some (binaryOfWhole number)
  | .real number => some number
  | .other => none

/-- Sets one field; `none` if the setting does not suit it. Unknown names are
ignored. -/
def set? (config : Config) (name : String) (setting : Setting) : Option Config :=
  match name with
  | "event_queue_capacity" =>
      setting.count?.map fun count => { config with eventQueueCapacity := count }
  | "max_event_hops" => setting.count?.map fun count => { config with maxEventHops := count }
  | "max_subroutine_depth" =>
      setting.count?.map fun count => { config with maxSubroutineDepth := count }
  | "sample_rate" => setting.rate?.map fun rate => { config with sampleRate := rate }
  | _ => some config

def ofSettings? (settings : List (String × Setting)) : Option Config :=
  settings.foldlM (fun config (name, setting) => config.set? name setting) Config.default

/-- The names of the settings in the order of the fields. -/
def settingNames : List String :=
  ["event_queue_capacity", "max_event_hops", "max_subroutine_depth", "sample_rate"]

/-- The configuration of a sequence of settings, which must not be longer than
the number of fields. -/
def ofSequence? (settings : List Setting) : Option Config :=
  if settings.length ≤ settingNames.length then ofSettings? (settingNames.zip settings) else none

example : ofSettings? [("max_event_hops", .whole 8), ("colour", .other)] =
    some { Config.default with maxEventHops := 8 } := by decide

example : ofSettings? [("max_event_hops", .real .one)] = none := by decide

end Config

end NodeGraph
