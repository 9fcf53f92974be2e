import NodeGraph.Proofs.Stored.Shallow

namespace NodeGraph

/-! Verdicts on bytes. A reader looks at no byte that it does not take, so what it says
of some bytes it says of them whatever follows; except that the input ended, which more
input may cure. Main statement: this is so for values and prototypes, and what is cut
short is always said to have ended. -/

/-- The input ended before everything was read. -/
def DecodeError.isEnd : DecodeError → Bool
  | .endOfInput | .endOfText => true
  | .invalidFlag _ | .invalidValueTag _ | .invalidPresence _ | .invalidText _
  | .invalidConnectionKind _ | .nestingTooDeep => false

/-! ## Readings with more input behind -/

namespace Reading

/-- The input ended. -/
def ranOut (reading : Reading α) : Bool :=
  match reading.outcome with
  | .ok _ => false
  | .error error => error.isEnd

/-- The same reading in front of more input. -/
def before (reading : Reading α) (trailing : List UInt8) : Reading α :=
  { reading with
    outcome := reading.outcome.map fun (value, rest) => (value, rest ++ trailing) }

end Reading

namespace Reader

/-- More input makes no difference to what the reader does, unless there was too
little. -/
def Steady (reader : Reader α) : Prop :=
  ∀ nesting input trailing,
    (reader.run nesting input).ranOut = true ∨
      reader.run nesting (input ++ trailing) = (reader.run nesting input).before trailing

variable {reader : Reader α}

theorem Steady.read_append (steady : reader.Steady) (input trailing : List UInt8) :
    (∃ error, reader.read input = .error error ∧ error.isEnd = true) ∨
      reader.read (input ++ trailing) = reader.read input := by
  unfold read
  rcases steady 0 input trailing with ranOut | same
  · unfold Reading.ranOut at ranOut
    split at ranOut
    next => cases ranOut
    next error failed =>
      rw [failed]
      exact .inl ⟨error, rfl, ranOut⟩
  · rw [same, Reading.before]
    cases (reader.run 0 input).outcome <;> exact .inr rfl

/-! ## Steps -/

theorem steady_pure (value : α) : (pure value : Reader α).Steady :=
  fun _ _ _ => .inr rfl

theorem steady_fail (error : DecodeError) : (fail error : Reader α).Steady :=
  fun _ _ _ => .inr rfl

theorem Steady.bind {next : α → Reader β} (first : reader.Steady)
    (second : ∀ value, (next value).Steady) : (reader >>= next).Steady := by
  intro nesting input trailing
  rw [run_bind, run_bind]
  rcases first nesting input trailing with ranOut | same
  · unfold Reading.ranOut at ranOut
    split at ranOut
    next => cases ranOut
    next error failed =>
      -- What comes second is not reached.
      split
      next value rest after read =>
        rw [read] at failed
        cases failed
      next other after read =>
        rw [read] at failed
        cases failed
        exact .inl ranOut
  · rw [same]
    rcases reader.run nesting input with ⟨outcome, after⟩
    cases outcome with
    | error error => exact .inr rfl
    | ok taken => exact second taken.1 after taken.2 trailing

theorem Steady.nested (inner : reader.Steady) : reader.nested.Steady := by
  intro nesting input trailing
  by_cases full : maxNestingDepth ≤ nesting
  · simp only [Reader.nested, run, if_pos full]
    exact .inr rfl
  · simp only [Reader.nested, run, if_neg full]
    rcases inner (nesting + 1) input trailing with ranOut | same
    · exact .inl ranOut
    · rw [run] at same
      rw [same]
      exact .inr rfl

/-! ## Bytes and words -/

theorem steady_byte {short : DecodeError} (isEnd : short.isEnd = true) : (byte short).Steady := by
  intro nesting input trailing
  cases input with
  | nil => exact .inl isEnd
  | cons first rest => exact .inr rfl

theorem steady_bytes {short : DecodeError} (isEnd : short.isEnd = true) (count : Nat) :
    (bytes short count).Steady := by
  have onto (taken : List UInt8) : (bytesOnto short count taken).Steady := by
    induction count generalizing taken with
    | zero => exact steady_pure _
    | succ count induction => exact (steady_byte isEnd).bind fun _ => induction _
  exact onto []

theorem steady_word (width : Nat) : (word width).Steady := by
  induction width with
  | zero => exact steady_pure 0
  | succ width induction =>
      exact (steady_byte rfl).bind fun _ => induction.bind fun _ => steady_pure _

theorem steady_truth (wrong : UInt8 → DecodeError) : (truth wrong).Steady := by
  apply (steady_byte rfl).bind
  intro first
  split
  · exact steady_pure _
  · exact steady_pure _
  · exact steady_fail _

/-- A text is decoded when all of its bytes are there. -/
theorem steady_text : text.Steady := by
  apply (steady_word 8).bind
  intro length
  apply (steady_bytes rfl length).bind
  intro spelled
  split
  · exact steady_pure _
  · exact steady_fail _

theorem Steady.list {item : Reader α} (steady : item.Steady) : (list item).Steady := by
  have onto (count : Nat) (taken : List α) : (itemsOnto item count taken).Steady := by
    induction count generalizing taken with
    | zero => exact steady_pure _
    | succ count induction => exact steady.bind fun _ => induction _
  exact (steady_word 8).bind fun count => onto count []

end Reader

open Reader

/-! ## Values -/

namespace Value

theorem steady_readBinary32 : readBinary32.Steady :=
  (steady_word 4).bind fun _ => steady_pure _

theorem steady_readBinary64 : readBinary64.Steady :=
  (steady_word 8).bind fun _ => steady_pure _

theorem steady_payloadReader {inner : Reader Value} (steady : inner.Steady) (tag : Nat) :
    (payloadReader inner tag).Steady := by
  have binary32 := steady_readBinary32
  have member : (memberReader inner).Steady :=
    steady_text.bind fun _ => steady.bind fun _ => steady_pure _
  unfold payloadReader
  split
  · exact steady_pure _
  · exact (steady_truth _).bind fun _ => steady_pure _
  · exact (steady_word 4).bind fun _ => steady_pure _
  · exact (steady_word 8).bind fun _ => steady_pure _
  · exact binary32.bind fun _ => steady_pure _
  · exact steady_readBinary64.bind fun _ => steady_pure _
  · exact binary32.bind fun _ => binary32.bind fun _ => steady_pure _
  · exact binary32.bind fun _ => binary32.bind fun _ => binary32.bind fun _ => steady_pure _
  · exact binary32.bind fun _ => binary32.bind fun _ => binary32.bind fun _ =>
      binary32.bind fun _ => steady_pure _
  · exact steady_text.bind fun _ => steady_pure _
  · exact steady.list.bind fun _ => steady_pure _
  · exact steady_text.bind fun _ => member.list.bind fun _ => steady_pure _
  · exact steady_fail _

/-- The level is entered before any byte is looked at. -/
theorem steady_reader (levels : Nat) : (reader levels).Steady := by
  induction levels with
  | zero => exact (steady_fail _).nested
  | succ levels induction => exact ((steady_word 4).bind (steady_payloadReader induction)).nested

end Value

/-! ## Prototypes -/

theorem Identifier.steady_reader : Identifier.reader.Steady :=
  (steady_word 4).bind fun _ => steady_pure _

theorem ConnectionKind.steady_reader : ConnectionKind.reader.Steady := by
  apply (steady_byte rfl).bind
  intro tag
  split
  · exact steady_pure _
  · exact steady_fail _

theorem Terminus.steady_reader : Terminus.reader.Steady :=
  (steady_word 8).bind fun _ => Identifier.steady_reader.bind fun _ => steady_pure _

theorem Connection.steady_reader : Connection.reader.Steady :=
  Terminus.steady_reader.bind fun _ => Terminus.steady_reader.bind fun _ =>
    ConnectionKind.steady_reader.bind fun _ => steady_pure _

theorem Endpoint.steady_reader (levels : Nat) : (Endpoint.reader levels).Steady :=
  Identifier.steady_reader.bind fun _ => (Value.steady_reader levels).bind fun _ => steady_pure _

namespace Prototype

theorem steady_bodyReader {levels : Nat} {inner : Reader (Option Prototype)}
    (steady : inner.Steady) : (bodyReader levels inner).Steady := by
  have endpoints := (Endpoint.steady_reader levels).list
  have node : (nodeReader levels inner).Steady :=
    Identifier.steady_reader.bind fun _ => (steady_word 8).bind fun _ =>
      endpoints.bind fun _ => steady.bind fun _ => steady_pure _
  exact steady_text.bind fun _ => (steady_word 8).bind fun _ => endpoints.bind fun _ =>
    endpoints.bind fun _ => endpoints.bind fun _ => node.list.bind fun _ =>
      Connection.steady_reader.list.bind fun _ => steady_pure _

theorem steady_subroutineReader (levels : Nat) : (subroutineReader levels).Steady := by
  induction levels with
  | zero => exact (steady_fail _).nested
  | succ levels induction =>
      refine ((steady_truth _).bind fun present => ?_).nested
      split
      · exact (steady_bodyReader induction).bind fun _ => steady_pure _
      · exact steady_pure _

theorem steady_reader (levels : Nat) : (reader levels).Steady :=
  steady_bodyReader (steady_subroutineReader levels)

end Prototype

/-! ## Verdicts -/

/-- What is said of bytes is said of them whatever follows, but that they ended. -/
structure Bytes.Verdicts (read : List UInt8 → Except DecodeError α) : Prop where
  ok : ∀ bytes trailing item, read bytes = .ok item → read (bytes ++ trailing) = .ok item
  error : ∀ bytes trailing error, read bytes = .error error → error.isEnd = false →
    read (bytes ++ trailing) = .error error

/-- Whatever is cut off from the bytes, the rest is said to have ended. -/
def Bytes.TellsEnd (read : List UInt8 → Except DecodeError α) (written : List UInt8) : Prop :=
  ∀ front, front <+: written → front ≠ written →
    ∃ error, read front = .error error ∧ error.isEnd = true

namespace Bytes

theorem verdicts_of_steady {reader : Reader α} (steady : reader.Steady) :
    Verdicts reader.read where
  ok bytes trailing item read := by
    rcases steady.read_append bytes trailing with ⟨error, failed, -⟩ | same
    · rw [read] at failed
      cases failed
    · rw [same, read]
  error bytes trailing error read lasting := by
    rcases steady.read_append bytes trailing with ⟨other, failed, isEnd⟩ | same
    · rw [read, Except.error.injEq] at failed
      rw [failed, isEnd] at lasting
      cases lasting
    · rw [same, read]

/-- No verdict but one can be given on the front of bytes that are read to their end:
it would be the verdict on all of them. -/
theorem Verdicts.tellsEnd {read : List UInt8 → Except DecodeError α} (verdicts : Verdicts read)
    {write : α → List UInt8} (takes : ∀ bytes item, read bytes = .ok item → write item <+: bytes)
    {item : α} (whole : read (write item) = .ok item) : TellsEnd read (write item) := by
  intro front before short
  rcases before with ⟨trailing, written⟩
  cases verdict : read front with
  | ok other =>
      have same := verdicts.ok front trailing other verdict
      rw [written, whole, Except.ok.injEq] at same
      have enough := (takes front other verdict).length_le
      have length := congrArg List.length written
      rw [← same] at enough
      rw [List.length_append] at length
      have nothing : trailing = [] := List.length_eq_zero_iff.mp (by omega)
      rw [nothing, List.append_nil] at written
      exact absurd written short
  | error error =>
      refine ⟨error, rfl, ?_⟩
      cases isEnd : error.isEnd with
      | true => rfl
      | false =>
          have same := verdicts.error front trailing error verdict isEnd
          rw [written, whole] at same
          cases same

end Bytes

open Bytes

theorem Value.tellsEnd {value : Value} (fits : value.Fits) (shallow : value.depth ≤ 64) :
    TellsEnd ofBytes value.toBytes :=
  (verdicts_of_steady (steady_reader _)).tellsEnd
    (fun _ _ read => (ofBytes_eq_ok_iff.mp read).2.2)
    (ofBytes_eq_ok_iff.mpr ⟨fits, shallow, List.prefix_refl _⟩)

theorem Prototype.tellsEnd {prototype : Prototype} (fits : prototype.Fits)
    (shallow : prototype.depth ≤ 64) : TellsEnd ofBytes prototype.toBytes := by
  have storable := storable_unnamed_iff.mpr ⟨fits, shallow⟩
  rw [← toBytes_unnamed]
  exact (verdicts_of_steady (steady_reader _)).tellsEnd
    (fun _ _ read => (ofBytes_eq_ok_iff.mp read).2)
    (ofBytes_eq_ok_iff.mpr ⟨storable, List.prefix_refl _⟩)

/-- Whatever a thread has decoded before: what bytes are read as, and why they are
refused, does not depend on what follows them, unless they are refused because they
ended; and this is why every part cut off from the front of a stored value or prototype
is refused. -/
theorem verdicts_stand (earlier : List Decoding) :
    Verdicts (Value.ofBytesAfter earlier) ∧ Verdicts (Prototype.ofBytesAfter earlier) ∧
      (∀ value : Value, value.Fits → value.depth ≤ 64 →
        TellsEnd (Value.ofBytesAfter earlier) value.toBytes) ∧
      ∀ prototype : Prototype, prototype.Fits → prototype.depth ≤ 64 →
        TellsEnd (Prototype.ofBytesAfter earlier) prototype.toBytes := by
  have values : Value.ofBytesAfter earlier = Value.ofBytes :=
    funext (Value.ofBytesAfter_eq earlier)
  have prototypes : Prototype.ofBytesAfter earlier = Prototype.ofBytes :=
    funext (Prototype.ofBytesAfter_eq earlier)
  rw [values, prototypes]
  exact ⟨verdicts_of_steady (Value.steady_reader _), verdicts_of_steady (Prototype.steady_reader _),
    fun _ => Value.tellsEnd, fun _ => Prototype.tellsEnd⟩

/-- A list is refused for the flag 2 in it, though more is missing behind the flag, and so
it is when more follows. A name cut off in its length has ended, and so has one that is cut
off in its text. -/
theorem signalling_verdicts_stand :
    Value.ofBytesAfter [.prototype [1]]
        ([10, 0, 0, 0, 2, 0, 0, 0, 0, 0, 0, 0, 1, 0, 0, 0, 2] ++ [1, 7]) =
      .error (.invalidFlag 2) ∧
    Value.signalling.Fits ∧ Prototype.composite.Fits ∧
    (∃ error, Value.ofBytesAfter [.prototype [1]] (Value.signalling.toBytes.take 6) =
      .error error ∧ error.isEnd = true) ∧
    ∃ error, Prototype.ofBytesAfter [.prototype [1]] (Prototype.composite.toBytes.take 10) =
      .error error ∧ error.isEnd = true := by
  rcases verdicts_stand [.prototype [1]] with ⟨values, -, valueEnds, prototypeEnds⟩
  exact ⟨values.error _ _ _ (by rfl) rfl, Value.signalling_fits, Prototype.composite_fits,
    valueEnds _ Value.signalling_fits (by decide) _ (List.take_prefix _ _) (by decide),
    prototypeEnds _ Prototype.composite_fits (by decide) _ (List.take_prefix _ _) (by decide)⟩

end NodeGraph
