import NodeGraph.Proofs.Stored.Determined

namespace NodeGraph.Value

/-! Values from bytes. Bytes are read as a value exactly if they start with its
bytes and it has at most 64 levels. Bytes that start like no such value are
refused, and so are the bytes of a deeper value: no other value starts like it. -/

open Reader

/-- The value at the front of stored bytes, on a thread that has decoded other
things before. -/
def ofBytesAfter (earlier : List Decoding) (bytes : List UInt8) : Except DecodeError Value :=
  ((reader maxNestingDepth).run (earlier.foldl Decoding.nestingAfter 0) bytes).outcome.map Prod.fst

theorem ofBytesAfter_eq (earlier : List Decoding) (bytes : List UInt8) :
    ofBytesAfter earlier bytes = ofBytes bytes := by
  rw [ofBytesAfter, Prototype.foldl_nestingAfter]
  rfl

theorem ofBytes_eq_ok_iff {value : Value} {bytes : List UInt8} :
    ofBytes bytes = .ok value ↔ value.Fits ∧ value.depth ≤ 64 ∧ value.toBytes <+: bytes := by
  simp only [ofBytes, read_eq_ok_iff, takes_reader, Nat.sub_zero, and_self, maxNestingDepth]
  constructor
  · intro taken
    obtain ⟨rest, ⟨fits, shallow⟩, rfl⟩ := taken
    exact ⟨fits, shallow, List.prefix_append _ _⟩
  · intro front
    obtain ⟨fits, shallow, rest, rfl⟩ := front
    exact ⟨rest, ⟨fits, shallow⟩, rfl⟩

/-- Only one value has its bytes at the front. -/
theorem eq_of_toBytes_prefix {left right : Value} {bytes : List UInt8} (leftFits : left.Fits)
    (rightFits : right.Fits) (leftFront : left.toBytes <+: bytes)
    (rightFront : right.toBytes <+: bytes) : left = right := by
  obtain ⟨rest, written⟩ := leftFront
  obtain ⟨otherRest, otherWritten⟩ := rightFront
  exact (determine _ _ rest otherRest leftFits rightFits (written.trans otherWritten.symm)).1

/-- Bytes at whose front no shallow value lies are refused. -/
theorem exists_ofBytes_eq_error {bytes : List UInt8}
    (malformed : ∀ value : Value, value.Fits → value.depth ≤ 64 → ¬ value.toBytes <+: bytes) :
    ∃ error, ofBytes bytes = .error error := by
  cases read : ofBytes bytes with
  | error error => exact ⟨error, rfl⟩
  | ok value =>
      obtain ⟨fits, shallow, front⟩ := ofBytes_eq_ok_iff.mp read
      exact absurd front (malformed value fits shallow)

/-- Bytes are read as a value exactly if they start with its bytes and it has at
most 64 levels; the value that is read has every bit of the one that was written.
What starts with the bytes of a deeper value, or with those of no value at all, is
refused. Written again, what was read gives the bytes that were taken for it. What
the thread has decoded before does not matter. -/
theorem ofBytesAfter_eq_ok_iff {value : Value} (fits : value.Fits) (earlier : List Decoding)
    (bytes : List UInt8) :
    (ofBytesAfter earlier bytes = .ok value ↔ value.depth ≤ 64 ∧ value.toBytes <+: bytes) ∧
      (64 < value.depth → value.toBytes <+: bytes →
        ∃ error, ofBytesAfter earlier bytes = .error error) ∧
      ((∀ other : Value, other.Fits → other.depth ≤ 64 → ¬ other.toBytes <+: bytes) →
        ∃ error, ofBytesAfter earlier bytes = .error error) ∧
      (∀ decoded rest,
        ((reader maxNestingDepth).run (earlier.foldl Decoding.nestingAfter 0) bytes).outcome =
            .ok (decoded, rest) →
          decoded.Fits ∧ decoded.depth ≤ 64 ∧ decoded.toBytes ++ rest = bytes) ∧
      ofBytesAfter earlier bytes = ofBytes bytes := by
  simp only [ofBytesAfter_eq, Prototype.foldl_nestingAfter]
  refine ⟨?exact, ?deep, exists_ofBytes_eq_error, ?again, trivial⟩
  case exact => rw [ofBytes_eq_ok_iff, and_iff_right fits]
  case deep =>
    intro deep front
    apply exists_ofBytes_eq_error
    intro other otherFits shallow otherFront
    have same : other = value := eq_of_toBytes_prefix otherFits fits otherFront front
    rw [same] at shallow
    exact absurd shallow (Nat.not_le.mpr deep)
  case again =>
    intro decoded rest read
    obtain ⟨⟨decodedFits, shallow, -⟩, written⟩ := takes_reader _ _ _ |>.mp read
    exact ⟨decodedFits, shallow, written.symm⟩

/-- An object with a signalling NaN next to an empty list. -/
def signalling : Value :=
  .object "Pose" [("weight", .float32 ⟨0x7fa00001⟩), ("tags", .array [])]

theorem signalling_fits : signalling.Fits := by
  simp only [signalling, Fits, MembersFit, ItemsFit, and_true]
  decide

theorem signalling_ofBytesAfter_eq_ok :
    signalling.Fits ∧
      ofBytesAfter [.value [10, 0, 0, 0], .prototype [1]] (signalling.toBytes ++ [7]) =
        .ok signalling :=
  ⟨signalling_fits,
    (ofBytesAfter_eq_ok_iff signalling_fits _ _).1.mpr ⟨by decide, List.prefix_append _ _⟩⟩

end NodeGraph.Value
