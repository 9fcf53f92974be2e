import NodeGraph.Proofs.Stored.Reading
import NodeGraph.Value.Stored

namespace NodeGraph

/-! Stored values. A value is read exactly if the input starts with its bytes and
it is nested no deeper than the thread may still go. -/

namespace Reader

variable {nesting : Nat} {input rest : List UInt8}

/-- A word that stands for something. -/
theorem takes_map_word {width : Nat} (make : Nat → α) (number : α → Nat)
    (small : ∀ value, number value < 256 ^ width) (makes : ∀ value, make (number value) = value)
    (numbers : ∀ code < 256 ^ width, number (make code) = code) {value : α} :
    (do pure (make (← word width))).Takes nesting input value rest ↔
      input = Bytes.word width (number value) ++ rest := by
  simp only [takes_bind (balanced_word width), takes_word, takes_pure]
  constructor
  · intro taken
    rcases taken with ⟨code, _, ⟨bound, rfl⟩, rfl, rfl⟩
    rw [numbers code bound]
  · intro written
    subst written
    exact ⟨_, rest, ⟨small value, rfl⟩, (makes value).symm, rfl⟩

end Reader

namespace Value

open Reader

/-! ## Sizes -/

mutual
/-- The lengths of all texts and lists in a value fit into their prefixes. -/
def Fits : Value → Prop
  | .string text => (Utf8.bytes text).length < 2 ^ 64
  | .array items => items.length < 2 ^ 64 ∧ ItemsFit items
  | .object className members =>
      (Utf8.bytes className).length < 2 ^ 64 ∧ members.length < 2 ^ 64 ∧ MembersFit members
  | _ => True

def ItemsFit : List Value → Prop
  | [] => True
  | item :: items => item.Fits ∧ ItemsFit items

def MembersFit : List (String × Value) → Prop
  | [] => True
  | (name, value) :: members =>
      (Utf8.bytes name).length < 2 ^ 64 ∧ value.Fits ∧ MembersFit members
end

theorem itemsFit_iff {items : List Value} : ItemsFit items ↔ ∀ item ∈ items, item.Fits := by
  induction items with
  | nil => simp [ItemsFit]
  | cons item items induction => simp [ItemsFit, induction]

theorem membersFit_iff {members : List (String × Value)} :
    MembersFit members ↔
      ∀ member ∈ members, (Utf8.bytes member.1).length < 2 ^ 64 ∧ member.2.Fits := by
  induction members with
  | nil => simp [MembersFit]
  | cons member members induction => simp [MembersFit, induction, and_assoc]

theorem depthOfItems_le_iff {items : List Value} {bound : Nat} :
    depthOfItems items ≤ bound ↔ ∀ item ∈ items, item.depth ≤ bound := by
  induction items with
  | nil => simp [depthOfItems]
  | cons item items induction =>
      rw [depthOfItems, Nat.max_le, induction, List.forall_mem_cons]

theorem depthOfMembers_le_iff {members : List (String × Value)} {bound : Nat} :
    depthOfMembers members ≤ bound ↔ ∀ member ∈ members, member.2.depth ≤ bound := by
  induction members with
  | nil => simp [depthOfMembers]
  | cons member members induction =>
      rw [depthOfMembers, Nat.max_le, induction, List.forall_mem_cons]

theorem depth_pos (value : Value) : 0 < value.depth := by
  cases value <;> simp [depth]

/-! ## Bytes -/

/-- The bytes of a member: its name, then its value. -/
def bytesOfMember (member : String × Value) : List UInt8 :=
  Bytes.text member.1 ++ member.2.toBytes

theorem list_toBytes (items : List Value) :
    Bytes.list toBytes items = Bytes.word 8 items.length ++ itemBytes items := by
  have flattened : itemBytes items = items.flatMap toBytes := by
    induction items with
    | nil => rfl
    | cons item items induction => simp [itemBytes, induction]
  rw [Bytes.list, flattened]

theorem list_bytesOfMember (members : List (String × Value)) :
    Bytes.list bytesOfMember members =
      Bytes.word 8 members.length ++ memberBytes members := by
  have flattened : memberBytes members = members.flatMap bytesOfMember := by
    induction members with
    | nil => rfl
    | cons member members induction => simp [memberBytes, bytesOfMember, induction]
  rw [Bytes.list, flattened]

/-! ## Numbers -/

variable {nesting : Nat} {input rest : List UInt8}

@[simp] theorem balanced_readBinary32 : readBinary32.Balanced :=
  (balanced_word 4).bind fun _ => balanced_pure _

@[simp] theorem balanced_readBinary64 : readBinary64.Balanced :=
  (balanced_word 8).bind fun _ => balanced_pure _

@[simp] theorem takes_readBinary32 {value : Binary32} :
    readBinary32.Takes nesting input value rest ↔ input = bytesOfBinary32 value ++ rest :=
  takes_map_word (fun code => (⟨UInt32.ofNat code⟩ : Binary32)) (fun value => value.bits.toNat)
    (fun value => value.bits.toNat_lt) (fun value => by simp)
    fun code small => UInt32.toNat_ofNat_of_lt' small

@[simp] theorem takes_readBinary64 {value : Binary64} :
    readBinary64.Takes nesting input value rest ↔ input = bytesOfBinary64 value ++ rest :=
  takes_map_word (fun code => (⟨UInt64.ofNat code⟩ : Binary64)) (fun value => value.bits.toNat)
    (fun value => value.bits.toNat_lt) (fun value => by simp)
    fun code small => UInt64.toNat_ofNat_of_lt' small

/-! ## Payloads -/

/-- The tag of a value. -/
def tag : Value → Nat
  | .void => 0
  | .bool _ => 1
  | .int32 _ => 2
  | .int64 _ => 3
  | .float32 _ => 4
  | .float64 _ => 5
  | .vec2 .. => 6
  | .vec3 .. => 7
  | .vec4 .. => 8
  | .string _ => 9
  | .array _ => 10
  | .object .. => 11

/-- The lengths at the top of a value fit into their prefixes, and the values
right inside it satisfy `fits`. -/
def FitsInside (fits : Value → Prop) : Value → Prop
  | .string text => (Utf8.bytes text).length < 2 ^ 64
  | .array items => items.length < 2 ^ 64 ∧ ∀ item ∈ items, fits item
  | .object className members =>
      (Utf8.bytes className).length < 2 ^ 64 ∧ members.length < 2 ^ 64 ∧
        ∀ member ∈ members, (Utf8.bytes member.1).length < 2 ^ 64 ∧ fits member.2
  | _ => True

section
variable {inner : Reader Value} {fits : Value → Prop}

theorem balanced_memberReader (balanced : inner.Balanced) : (memberReader inner).Balanced :=
  balanced_text.bind fun _ => balanced.bind fun _ => balanced_pure _

theorem balanced_payloadReader (balanced : inner.Balanced) (tag : Nat) :
    (payloadReader inner tag).Balanced := by
  have binary32 := balanced_readBinary32
  unfold payloadReader
  split
  · exact balanced_pure _
  · exact (balanced_truth _).bind fun _ => balanced_pure _
  · exact (balanced_word 4).bind fun _ => balanced_pure _
  · exact (balanced_word 8).bind fun _ => balanced_pure _
  · exact binary32.bind fun _ => balanced_pure _
  · exact balanced_readBinary64.bind fun _ => balanced_pure _
  · exact binary32.bind fun _ => binary32.bind fun _ => balanced_pure _
  · exact binary32.bind fun _ => binary32.bind fun _ => binary32.bind fun _ => balanced_pure _
  · exact binary32.bind fun _ => binary32.bind fun _ => binary32.bind fun _ =>
      binary32.bind fun _ => balanced_pure _
  · exact balanced_text.bind fun _ => balanced_pure _
  · exact balanced.list.bind fun _ => balanced_pure _
  · exact balanced_text.bind fun _ => (balanced_memberReader balanced).list.bind fun _ =>
      balanced_pure _
  · exact balanced_fail _

theorem takes_memberReader (balanced : inner.Balanced)
    (takes : ∀ input value rest, inner.Takes nesting input value rest ↔
      fits value ∧ input = value.toBytes ++ rest) (input : List UInt8) (member : String × Value)
    (rest : List UInt8) :
    (memberReader inner).Takes nesting input member rest ↔
      ((Utf8.bytes member.1).length < 2 ^ 64 ∧ fits member.2) ∧
        input = bytesOfMember member ++ rest := by
  simp only [memberReader, takes_bind balanced_text, takes_bind balanced, takes_text, takes,
    takes_pure]
  constructor
  · intro taken
    rcases taken with ⟨name, _, ⟨bound, rfl⟩, value, _, ⟨fit, rfl⟩, rfl, rfl⟩
    exact ⟨⟨bound, fit⟩, by simp [bytesOfMember]⟩
  · intro written
    rcases written with ⟨⟨bound, fit⟩, rfl⟩
    exact ⟨member.1, member.2.toBytes ++ rest, ⟨bound, by simp [bytesOfMember]⟩, member.2, rest,
      ⟨fit, rfl⟩, rfl, rfl⟩

/-- What a payload reader takes is, behind the tag, what writing the value gives. -/
theorem payloadReader_sound (balanced : inner.Balanced)
    (takes : ∀ input value rest, inner.Takes nesting input value rest ↔
      fits value ∧ input = value.toBytes ++ rest) {tag : Nat} {value : Value}
    (taken : (payloadReader inner tag).Takes nesting input value rest) :
    value.tag = tag ∧ value.FitsInside fits ∧
      Bytes.word 4 tag ++ input = value.toBytes ++ rest := by
  have binary32 := balanced_readBinary32
  have member := balanced_memberReader balanced
  unfold payloadReader at taken
  split at taken
  · rcases takes_pure.mp taken with ⟨rfl, rfl⟩
    exact ⟨rfl, trivial, rfl⟩
  · simp only [flag, takes_bind (balanced_truth _), takes_truth, takes_pure] at taken
    rcases taken with ⟨flag, _, rfl, rfl, rfl⟩
    exact ⟨rfl, trivial, by simp [toBytes]⟩
  · simp only [takes_bind (balanced_word 4), takes_word, takes_pure] at taken
    rcases taken with ⟨code, _, ⟨bound, rfl⟩, rfl, rfl⟩
    have same : (UInt32.ofNat code).toNat = code := UInt32.toNat_ofNat_of_lt' bound
    exact ⟨rfl, trivial, by simp [toBytes, same]⟩
  · simp only [takes_bind (balanced_word 8), takes_word, takes_pure] at taken
    rcases taken with ⟨code, _, ⟨bound, rfl⟩, rfl, rfl⟩
    have same : (UInt64.ofNat code).toNat = code := UInt64.toNat_ofNat_of_lt' bound
    exact ⟨rfl, trivial, by simp [toBytes, same]⟩
  · simp only [takes_bind binary32, takes_readBinary32, takes_pure] at taken
    rcases taken with ⟨x, _, rfl, rfl, rfl⟩
    exact ⟨rfl, trivial, by simp [toBytes]⟩
  · simp only [takes_bind balanced_readBinary64, takes_readBinary64, takes_pure] at taken
    rcases taken with ⟨x, _, rfl, rfl, rfl⟩
    exact ⟨rfl, trivial, by simp [toBytes]⟩
  · simp only [takes_bind binary32, takes_readBinary32, takes_pure] at taken
    rcases taken with ⟨x, _, rfl, y, _, rfl, rfl, rfl⟩
    exact ⟨rfl, trivial, by simp [toBytes]⟩
  · simp only [takes_bind binary32, takes_readBinary32, takes_pure] at taken
    rcases taken with ⟨x, _, rfl, y, _, rfl, z, _, rfl, rfl, rfl⟩
    exact ⟨rfl, trivial, by simp [toBytes]⟩
  · simp only [takes_bind binary32, takes_readBinary32, takes_pure] at taken
    rcases taken with ⟨x, _, rfl, y, _, rfl, z, _, rfl, w, _, rfl, rfl, rfl⟩
    exact ⟨rfl, trivial, by simp [toBytes]⟩
  · simp only [takes_bind balanced_text, takes_text, takes_pure] at taken
    rcases taken with ⟨text, _, ⟨bound, rfl⟩, rfl, rfl⟩
    exact ⟨rfl, bound, by simp [toBytes]⟩
  · simp only [takes_bind balanced.list, takes_list balanced takes, takes_pure] at taken
    rcases taken with ⟨items, _, ⟨fit, rfl⟩, rfl, rfl⟩
    exact ⟨rfl, fit, by simp [toBytes, list_toBytes]⟩
  · simp only [takes_bind balanced_text, takes_text,
      takes_bind member.list, takes_list member (takes_memberReader balanced takes),
      takes_pure] at taken
    rcases taken with ⟨className, _, ⟨bound, rfl⟩, entries, _, ⟨fit, rfl⟩, rfl, rfl⟩
    exact ⟨rfl, ⟨bound, fit⟩, by simp [toBytes, list_bytesOfMember]⟩
  · exact absurd taken takes_fail

/-- What writing a value gives behind the tag is taken for that value. -/
theorem payloadReader_complete (balanced : inner.Balanced)
    (takes : ∀ input value rest, inner.Takes nesting input value rest ↔
      fits value ∧ input = value.toBytes ++ rest) {value : Value} (fit : value.FitsInside fits)
    (written : Bytes.word 4 value.tag ++ input = value.toBytes ++ rest) :
    (payloadReader inner value.tag).Takes nesting input value rest := by
  have binary32 := balanced_readBinary32
  have member := balanced_memberReader balanced
  cases value with
  | void =>
      simp only [tag, toBytes, List.append_cancel_left_eq] at written
      exact takes_pure.mpr ⟨rfl, written⟩
  | bool flag =>
      simp only [tag, toBytes, List.append_assoc, List.append_cancel_left_eq] at written
      subst written
      simp only [tag, payloadReader, Reader.flag, takes_bind (balanced_truth _), takes_truth,
        takes_pure]
      exact ⟨flag, rest, rfl, rfl, rfl⟩
  | int32 number =>
      simp only [tag, toBytes, List.append_assoc, List.append_cancel_left_eq] at written
      subst written
      simp only [tag, payloadReader, takes_bind (balanced_word 4), takes_word, takes_pure]
      exact ⟨_, rest, ⟨number.toUInt32.toNat_lt, rfl⟩, by simp, rfl⟩
  | int64 number =>
      simp only [tag, toBytes, List.append_assoc, List.append_cancel_left_eq] at written
      subst written
      simp only [tag, payloadReader, takes_bind (balanced_word 8), takes_word, takes_pure]
      exact ⟨_, rest, ⟨number.toUInt64.toNat_lt, rfl⟩, by simp, rfl⟩
  | float32 x =>
      simp only [tag, toBytes, List.append_assoc, List.append_cancel_left_eq] at written
      subst written
      simp only [tag, payloadReader, takes_bind binary32, takes_readBinary32, takes_pure]
      exact ⟨x, rest, rfl, rfl, rfl⟩
  | float64 x =>
      simp only [tag, toBytes, List.append_assoc, List.append_cancel_left_eq] at written
      subst written
      simp only [tag, payloadReader, takes_bind balanced_readBinary64, takes_readBinary64,
        takes_pure]
      exact ⟨x, rest, rfl, rfl, rfl⟩
  | vec2 x y =>
      simp only [tag, toBytes, List.append_assoc, List.append_cancel_left_eq] at written
      subst written
      simp only [tag, payloadReader, takes_bind binary32, takes_readBinary32, takes_pure]
      exact ⟨x, _, rfl, y, rest, rfl, rfl, rfl⟩
  | vec3 x y z =>
      simp only [tag, toBytes, List.append_assoc, List.append_cancel_left_eq] at written
      subst written
      simp only [tag, payloadReader, takes_bind binary32, takes_readBinary32, takes_pure]
      exact ⟨x, _, rfl, y, _, rfl, z, rest, rfl, rfl, rfl⟩
  | vec4 x y z w =>
      simp only [tag, toBytes, List.append_assoc, List.append_cancel_left_eq] at written
      subst written
      simp only [tag, payloadReader, takes_bind binary32, takes_readBinary32, takes_pure]
      exact ⟨x, _, rfl, y, _, rfl, z, _, rfl, w, rest, rfl, rfl, rfl⟩
  | string text =>
      simp only [tag, toBytes, List.append_assoc, List.append_cancel_left_eq] at written
      subst written
      simp only [tag, payloadReader, takes_bind balanced_text, takes_text, takes_pure]
      exact ⟨text, rest, ⟨fit, rfl⟩, rfl, rfl⟩
  | array items =>
      simp only [tag, toBytes, List.append_assoc, List.append_cancel_left_eq] at written
      rw [← List.append_assoc, ← list_toBytes] at written
      subst written
      simp only [tag, payloadReader, takes_bind balanced.list, takes_list balanced takes,
        takes_pure]
      exact ⟨items, rest, ⟨fit, rfl⟩, rfl, rfl⟩
  | object className members =>
      simp only [tag, toBytes, List.append_assoc, List.append_cancel_left_eq] at written
      rw [← List.append_assoc (Bytes.word 8 _), ← list_bytesOfMember] at written
      subst written
      simp only [tag, payloadReader, takes_bind balanced_text, takes_text,
        takes_bind member.list, takes_list member (takes_memberReader balanced takes),
        takes_pure]
      exact ⟨className, _, ⟨fit.1, rfl⟩, members, rest, ⟨fit.2, rfl⟩, rfl, rfl⟩

end

/-! ## Values -/

theorem balanced_reader (levels : Nat) : (reader levels).Balanced := by
  induction levels with
  | zero => exact (balanced_fail _).nested
  | succ levels induction =>
      exact ((balanced_word 4).bind (balanced_payloadReader induction)).nested

theorem tag_lt (value : Value) : value.tag < 256 ^ 4 := by
  cases value <;> simp [tag]

theorem exists_payload (value : Value) :
    ∃ payload, value.toBytes = Bytes.word 4 value.tag ++ payload := by
  cases value <;> exact ⟨_, by simp only [toBytes, tag, List.append_assoc]; rfl⟩

/-- A value goes one level deeper than what is inside it. -/
theorem fitsInside_iff {value : Value} {levels room : Nat} :
    value.FitsInside (fun inner => inner.Fits ∧ inner.depth ≤ levels ∧ inner.depth ≤ room) ↔
      value.Fits ∧ value.depth ≤ levels + 1 ∧ value.depth ≤ room + 1 := by
  cases value with
  | array items =>
      simp only [FitsInside, Fits, depth, Nat.add_le_add_iff_right, itemsFit_iff,
        depthOfItems_le_iff, forall_and, and_assoc]
  | object className members =>
      simp only [FitsInside, Fits, depth, Nat.add_le_add_iff_right, membersFit_iff,
        depthOfMembers_le_iff, forall_and, and_assoc]
  | _ => simp [FitsInside, Fits, depth]

/-- A value is taken exactly if its bytes are there and it is nested no deeper
than the thread may still go. -/
theorem takes_reader {levels : Nat} (input : List UInt8) (value : Value) (rest : List UInt8) :
    (reader levels).Takes nesting input value rest ↔
      (value.Fits ∧ value.depth ≤ levels ∧ value.depth ≤ maxNestingDepth - nesting) ∧
        input = value.toBytes ++ rest := by
  induction levels generalizing nesting input value rest with
  | zero =>
      have deep := value.depth_pos
      simp only [reader, takes_nested, takes_fail, and_false, false_iff]
      intro written
      rcases written with ⟨⟨-, shallow, -⟩, -⟩
      omega
  | succ levels induction =>
      have balanced := balanced_reader levels
      simp only [reader, takes_nested, takes_bind (balanced_word 4), takes_word]
      constructor
      · intro taken
        rcases taken with ⟨room, tag, _, ⟨-, rfl⟩, taken⟩
        rcases payloadReader_sound balanced (fun _ _ _ => induction _ _ _) taken with
          ⟨-, fit, written⟩
        rcases fitsInside_iff.mp fit with ⟨fits, levelsEnough, roomEnough⟩
        exact ⟨⟨fits, levelsEnough, by omega⟩, written⟩
      · intro written
        rcases written with ⟨⟨fits, levelsEnough, roomEnough⟩, rfl⟩
        have deep := value.depth_pos
        rcases value.exists_payload with ⟨payload, written⟩
        refine ⟨by omega, value.tag, payload ++ rest, ⟨value.tag_lt, by simp [written]⟩, ?_⟩
        refine payloadReader_complete balanced (fun _ _ _ => induction _ _ _)
          (fitsInside_iff.mpr ⟨fits, levelsEnough, ?_⟩) (by simp [written])
        omega

end Value

end NodeGraph
