import NodeGraph.Proofs.Stored.Prototype

namespace NodeGraph

/-! Bytes tell what was written. The bytes of one prototype are never the front of
the bytes of another one, names apart, however deep either is; so reading what a
prototype was written as gives that prototype or fails. -/

/-- Up to what `look` leaves out, bytes that an item was written as are the bytes
of no other item, and tell where they end. -/
def Bytes.Determine (write : α → List UInt8) (fits : α → Prop) (look : α → β) : Prop :=
  ∀ left right rest otherRest, fits left → fits right →
    write left ++ rest = write right ++ otherRest → look left = look right ∧ rest = otherRest

namespace Bytes

/-- What a reader takes is determined by its input. -/
theorem Determine.of_takes {reader : Reader α} {write : α → List UInt8} {fits : α → Prop}
    (takes : ∀ input item rest, reader.Takes 0 input item rest ↔
      fits item ∧ input = write item ++ rest) :
    Determine write fits id := by
  intro left right rest otherRest leftFits rightFits written
  have one := (takes _ left rest).mpr ⟨leftFits, rfl⟩
  have other := (takes _ right otherRest).mpr ⟨rightFits, written⟩
  rw [Reader.Takes, one, Except.ok.injEq, Prod.mk.injEq] at other
  exact other

/-- What reading gives back without names, written with names, is determined up to
these. -/
theorem Determine.of_unnamed {write : α → List UInt8} {unnamed : α → α}
    (determine : Determine write (fun item => unnamed item = item) id)
    (idempotent : ∀ item, unnamed (unnamed item) = unnamed item)
    (unseen : ∀ item, write (unnamed item) = write item) :
    Determine write (fun _ => True) unnamed := by
  intro left right rest otherRest _ _ written
  rw [← unseen left, ← unseen right] at written
  exact determine _ _ rest otherRest (idempotent left) (idempotent right) written

theorem determine_word (width : Nat) : Determine (word width) (· < 256 ^ width) id :=
  .of_takes fun _ _ _ => Reader.takes_word

theorem determine_text :
    Determine text (fun value => (Utf8.bytes value).length < 2 ^ 64) id :=
  .of_takes fun _ _ _ => Reader.takes_text

/-- A number that fills all eight bytes of its word. -/
theorem determine_word64 :
    Determine (fun number : UInt64 => word 8 number.toNat) (fun _ => True) id := by
  intro left right rest otherRest _ _ written
  rcases determine_word 8 _ _ _ _ left.toNat_lt right.toNat_lt written with ⟨same, rests⟩
  exact ⟨UInt64.toNat_inj.mp same, rests⟩

theorem determine_flag : Determine flag (fun _ => True) id := by
  have takes (input : List UInt8) (value : Bool) (rest : List UInt8) :
      Reader.flag.Takes 0 input value rest ↔ True ∧ input = flag value ++ rest := by
    rw [true_and]
    exact Reader.takes_truth
  exact .of_takes takes

section
variable {write : α → List UInt8} {fits : α → Prop} {look : α → β}

/-- Items one after the other, if there are equally many. -/
theorem Determine.flatMap (item : Determine write fits look) {lefts rights : List α}
    {rest otherRest : List UInt8} (leftFits : ∀ left ∈ lefts, fits left)
    (rightFits : ∀ right ∈ rights, fits right) (count : lefts.length = rights.length)
    (written : lefts.flatMap write ++ rest = rights.flatMap write ++ otherRest) :
    lefts.map look = rights.map look ∧ rest = otherRest := by
  induction lefts generalizing rights with
  | nil =>
      rw [List.length_nil, eq_comm, List.length_eq_zero_iff] at count
      subst count
      exact ⟨rfl, written⟩
  | cons left lefts induction =>
      cases rights with
      | nil => cases count
      | cons right rights =>
          simp only [List.flatMap_cons, List.append_assoc] at written
          rcases List.forall_mem_cons.mp leftFits with ⟨leftFit, leftFits⟩
          rcases List.forall_mem_cons.mp rightFits with ⟨rightFit, rightFits⟩
          rcases item _ _ _ _ leftFit rightFit written with ⟨same, written⟩
          rcases induction leftFits rightFits (Nat.succ.inj count) written with ⟨others, rests⟩
          exact ⟨by rw [List.map_cons, List.map_cons, same, others], rests⟩

theorem Determine.list (item : Determine write fits look) :
    Determine (Bytes.list write) (fun items => items.length < 2 ^ 64 ∧ ∀ item ∈ items, fits item)
      (List.map look) := by
  intro lefts rights rest otherRest leftFits rightFits written
  simp only [Bytes.list, List.append_assoc] at written
  rcases determine_word 8 _ _ _ _ leftFits.1 rightFits.1 written with ⟨count, written⟩
  exact item.flatMap leftFits.2 rightFits.2 count written

end

end Bytes

open Bytes Reader

/-! ## Wires -/

theorem Identifier.determine :
    Determine Identifier.toBytes (fun _ => True) Identifier.unnamed :=
  Determine.of_unnamed (.of_takes fun _ _ _ => takes_reader) unnamed_unnamed toBytes_unnamed

theorem Connection.determine :
    Determine Connection.toBytes (fun _ => True) Connection.unnamed :=
  Determine.of_unnamed (.of_takes takes_reader) unnamed_unnamed toBytes_unnamed

/-! ## Values

Reading stops at a limit, so a reader that knows no limit stands in for it. -/

namespace Value

/-- Reads values of at most so many levels, without regard to the thread. -/
def unlimitedReader : (levels : Nat) → Reader Value
  | 0 => Reader.fail .nestingTooDeep
  | levels + 1 => do
      let tag ← Reader.word 4
      payloadReader (unlimitedReader levels) tag

theorem balanced_unlimitedReader (levels : Nat) : (unlimitedReader levels).Balanced := by
  induction levels with
  | zero => exact balanced_fail _
  | succ levels induction => exact (balanced_word 4).bind (balanced_payloadReader induction)

theorem takes_unlimitedReader {levels nesting : Nat} (input : List UInt8) (value : Value)
    (rest : List UInt8) :
    (unlimitedReader levels).Takes nesting input value rest ↔
      (value.Fits ∧ value.depth ≤ levels) ∧ input = value.toBytes ++ rest := by
  induction levels generalizing input value rest with
  | zero =>
      have deep := value.depth_pos
      simp only [unlimitedReader, takes_fail, false_iff]
      intro written
      have shallow := written.1.2
      omega
  | succ levels induction =>
      have balanced := balanced_unlimitedReader levels
      -- `fitsInside_iff` bounds levels twice, since it serves readers with a limit.
      have inside (input : List UInt8) (value : Value) (rest : List UInt8) :
          (unlimitedReader levels).Takes nesting input value rest ↔
            (value.Fits ∧ value.depth ≤ levels ∧ value.depth ≤ levels) ∧
              input = value.toBytes ++ rest := by
        rw [induction, and_self]
      simp only [unlimitedReader, takes_bind (balanced_word 4), takes_word]
      constructor
      · intro taken
        rcases taken with ⟨tag, _, ⟨-, rfl⟩, taken⟩
        rcases payloadReader_sound balanced inside taken with ⟨-, fit, written⟩
        rcases fitsInside_iff.mp fit with ⟨fits, shallow, -⟩
        exact ⟨⟨fits, shallow⟩, written⟩
      · intro written
        rcases written with ⟨⟨fits, shallow⟩, rfl⟩
        rcases value.exists_payload with ⟨payload, written⟩
        refine ⟨value.tag, payload ++ rest, ⟨value.tag_lt, by simp [written]⟩, ?_⟩
        exact payloadReader_complete balanced inside (fitsInside_iff.mpr ⟨fits, shallow, shallow⟩)
          (by simp [written])

theorem determine : Determine Value.toBytes Value.Fits id := by
  intro left right rest otherRest leftFits rightFits written
  -- One reader that goes as deep as the deeper of the two takes both.
  have read : Determine Value.toBytes
      (fun value => value.Fits ∧ value.depth ≤ max left.depth right.depth) id :=
    .of_takes takes_unlimitedReader
  exact read _ _ _ _ ⟨leftFits, Nat.le_max_left ..⟩ ⟨rightFits, Nat.le_max_right ..⟩ written

end Value

/-! ## Prototypes -/

theorem Endpoint.determine :
    Determine Endpoint.toBytes (fun endpoint => endpoint.default.Fits) Endpoint.unnamed := by
  intro left right rest otherRest leftFits rightFits written
  simp only [Endpoint.toBytes, List.append_assoc] at written
  rcases Identifier.determine _ _ _ _ trivial trivial written with ⟨ids, written⟩
  rcases Value.determine _ _ _ _ leftFits rightFits written with ⟨defaults, rests⟩
  have defaults : left.default = right.default := defaults
  exact ⟨by rw [unnamed, unnamed, ids, defaults], rests⟩

namespace Prototype

theorem determine_endpoints :
    Determine (Bytes.list Endpoint.toBytes) EndpointsFit (List.map Endpoint.unnamed) :=
  Endpoint.determine.list

mutual
/-- Along the subroutines of one prototype, those of the other one are the same. -/
theorem toBytes_determine : ∀ left right : Prototype, left.Fits → right.Fits →
    ∀ rest otherRest, left.toBytes ++ rest = right.toBytes ++ otherRest →
      left.unnamed = right.unnamed ∧ rest = otherRest
  | ⟨name, id, inputs, outputs, locals, nodes, connections⟩,
    ⟨otherName, otherId, otherInputs, otherOutputs, otherLocals, others, otherConnections⟩,
    ⟨nameFits, inputsFit, outputsFit, localsFit, nodesFit, connectionsFit⟩,
    ⟨otherNameFits, otherInputsFit, otherOutputsFit, otherLocalsFit, othersFit,
      otherConnectionsFit⟩, rest, otherRest, written => by
      simp only [toBytes, List.append_assoc] at written
      rcases determine_text _ _ _ _ nameFits otherNameFits written with ⟨names, written⟩
      rcases determine_word64 _ _ _ _ trivial trivial written with ⟨ids, written⟩
      rcases determine_endpoints _ _ _ _ inputsFit otherInputsFit written with
        ⟨sameInputs, written⟩
      rcases determine_endpoints _ _ _ _ outputsFit otherOutputsFit written with
        ⟨sameOutputs, written⟩
      rcases determine_endpoints _ _ _ _ localsFit otherLocalsFit written with
        ⟨sameLocals, written⟩
      rcases determine_word 8 _ _ _ _ nodesFit.1 othersFit.1 written with ⟨count, written⟩
      rcases nodeBytes_determine nodes others nodesFit.2 othersFit.2 count _ _ written with
        ⟨sameNodes, written⟩
      rcases Connection.determine.list _ _ _ _ ⟨connectionsFit, fun _ _ => trivial⟩
        ⟨otherConnectionsFit, fun _ _ => trivial⟩ written with ⟨sameConnections, rests⟩
      have names : name = otherName := names
      have ids : id = otherId := ids
      exact ⟨by rw [unnamed, unnamed, names, ids, sameInputs, sameOutputs, sameLocals, sameNodes,
        sameConnections], rests⟩

theorem nodeBytes_determine : ∀ lefts rights : List PrototypeNode, NodesFit lefts →
    NodesFit rights → lefts.length = rights.length →
    ∀ rest otherRest, nodeBytes lefts ++ rest = nodeBytes rights ++ otherRest →
      unnamedNodes lefts = unnamedNodes rights ∧ rest = otherRest
  | [], [], _, _, _, _, _, written => ⟨rfl, written⟩
  | [], _ :: _, _, _, count, _, _, _ => nomatch count
  | _ :: _, [], _, _, count, _, _, _ => nomatch count
  | ⟨type, id, overrides, subroutine⟩ :: lefts,
    ⟨otherType, otherId, otherOverrides, otherSubroutine⟩ :: rights,
    ⟨overridesFit, subroutineFits, leftsFit⟩, ⟨otherOverridesFit, otherSubroutineFits, rightsFit⟩,
    count, rest, otherRest, written => by
      simp only [nodeBytes, List.append_assoc] at written
      rcases Identifier.determine _ _ _ _ trivial trivial written with ⟨types, written⟩
      rcases determine_word64 _ _ _ _ trivial trivial written with ⟨ids, written⟩
      rcases determine_endpoints _ _ _ _ overridesFit otherOverridesFit written with
        ⟨sameOverrides, written⟩
      rcases subroutineBytes_determine subroutine otherSubroutine subroutineFits
        otherSubroutineFits _ _ written with ⟨sameSubroutine, written⟩
      rcases nodeBytes_determine lefts rights leftsFit rightsFit (Nat.succ.inj count) _ _
        written with ⟨others, rests⟩
      have ids : id = otherId := ids
      exact ⟨by rw [unnamedNodes, unnamedNodes, types, ids, sameOverrides, sameSubroutine,
        others], rests⟩

theorem subroutineBytes_determine : ∀ left right : Option Prototype, SubroutineFits left →
    SubroutineFits right →
    ∀ rest otherRest, subroutineBytes left ++ rest = subroutineBytes right ++ otherRest →
      unnamedSubroutine left = unnamedSubroutine right ∧ rest = otherRest
  | none, none, _, _, _, _, written =>
      ⟨rfl, (determine_flag _ _ _ _ trivial trivial written).2⟩
  | none, some right, _, _, rest, otherRest, written => by
      simp only [subroutineBytes, List.append_assoc] at written
      exact nomatch (determine_flag _ _ _ _ trivial trivial written).1
  | some left, none, _, _, rest, otherRest, written => by
      simp only [subroutineBytes, List.append_assoc] at written
      exact nomatch (determine_flag _ _ _ _ trivial trivial written).1
  | some left, some right, leftFits, rightFits, rest, otherRest, written => by
      simp only [subroutineBytes, List.append_assoc] at written
      have rests := (determine_flag _ _ _ _ trivial trivial written).2
      rcases toBytes_determine left right leftFits rightFits _ _ rests with ⟨same, rests⟩
      exact ⟨congrArg some same, rests⟩
end

/-- What is read from the bytes of a prototype equals the prototype. -/
theorem beq_of_ofBytes {prototype stored : Prototype} (fits : prototype.Fits)
    (read : ofBytes prototype.toBytes = .ok stored) : (stored == prototype) = true := by
  rcases ofBytes_eq_ok_iff.mp read with ⟨storable, rest, front⟩
  have written : stored.toBytes ++ rest = prototype.toBytes ++ [] := by
    rw [front, List.append_nil]
  exact (beq_iff_unnamed _ _).mpr (toBytes_determine _ _ storable.2.1 fits _ _ written).1

end Prototype

end NodeGraph
