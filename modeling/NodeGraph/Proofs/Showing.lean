import NodeGraph.Proofs.Permission
import NodeGraph.Standard

namespace NodeGraph

/-! What standard nodes show. Whatever a standard node reads, and whatever happens
to it, it writes to each of its outputs only values of the kind that its layout
gives to that output, and it never reads its outputs back. When it is initialized
it does nothing else. -/

/-! ## Kinds of payloads -/

/-- All payloads of the type are values of one kind. -/
def Scalar.OneKind (α : Type) [Scalar α] : Prop :=
  ∀ left right : α, (toValue left).kind = (toValue right).kind

theorem NumberType.oneKind (type : NumberType) : Scalar.OneKind type.Payload := by
  cases type <;> exact fun _ _ => rfl

theorem ScalarType.oneKind (type : ScalarType) : Scalar.OneKind type.Payload := by
  cases type with
  | number type => exact type.oneKind
  | bool => exact fun _ _ => rfl

/-! ## Permissions -/

namespace Layout

/-- Outputs may be written with values of the kinds of their defaults, and none is
read back. -/
def showing (layout : Layout) (emits : Emission → Prop) : Permission where
  reads _ := False
  writes plug value := ∀ endpoint, layout.outputs[plug]? = some endpoint →
    value.kind = endpoint.default.kind
  emits := emits
  reports _ := False

/-- Events may be fired. -/
abbrev lively (layout : Layout) : Permission :=
  layout.showing fun _ => True

variable {layout : Layout} {emits : Emission → Prop}

theorem showing_writes {plug : Nat} {endpoint : Endpoint} {value : Value}
    (listed : layout.outputs[plug]? = some endpoint) (kind : value.kind = endpoint.default.kind) :
    (layout.showing emits).writes plug value := by
  intro other alsoListed
  rw [listed, Option.some.injEq] at alsoListed
  rw [← alsoListed, kind]

/-- A payload may be written to an output whose default is one of its type. -/
theorem showing_writeAs [Scalar α] (oneKind : Scalar.OneKind α) {plug : Nat} {name : String}
    {default : α} (listed : layout.outputs[plug]? = some (.holding name default)) (payload : α) :
    (Program.writeAs plug payload).Heeds (layout.showing emits) :=
  Program.heeds_write.mpr (showing_writes listed (oneKind payload default))

end Layout

/-! ## Arithmetic -/

namespace Program

/-- Only what is done with the payload that was read has to be looked at. -/
theorem heeds_readAs_bind {permission : Permission} [Scalar α] {plug : Nat}
    {next : α → Program β} (heeds : ∀ payload, (next payload).Heeds permission) :
    (readAs α plug >>= next).Heeds permission :=
  (heeds_readAs plug).bind heeds

end Program

open Program

theorem ArithmeticOperation.process_heeds [Number α] (oneKind : Scalar.OneKind α)
    (operation : ArithmeticOperation) {emits : Emission → Prop} :
    (operation.process α).Heeds ((operation.layout α).showing emits) := by
  apply heeds_readAs_bind
  intro left
  apply heeds_readAs_bind
  intro right
  exact Layout.showing_writeAs oneKind rfl _

theorem Clamp.process_heeds [Scalar α] (oneKind : Scalar.OneKind α) {emits : Emission → Prop} :
    (Clamp.process α).Heeds ((Clamp.layout α).showing emits) := by
  apply heeds_readAs_bind
  intro payload
  apply heeds_readAs_bind
  intro low
  apply heeds_readAs_bind
  intro high
  exact Layout.showing_writeAs oneKind rfl _

theorem MapRange.process_heeds [Scalar α] (oneKind : Scalar.OneKind α)
    {emits : Emission → Prop} :
    (MapRange.process α).Heeds ((MapRange.layout α).showing emits) := by
  apply heeds_readAs_bind
  intro payload
  apply heeds_readAs_bind
  intro inMin
  apply heeds_readAs_bind
  intro inMax
  apply heeds_readAs_bind
  intro outMin
  apply heeds_readAs_bind
  intro outMax
  apply heeds_readAs_bind
  intro clamped
  exact Layout.showing_writeAs oneKind rfl _

theorem Power.process_heeds {emits : Emission → Prop} :
    Power.process.Heeds (Power.layout.showing emits) := by
  apply heeds_readAs_bind
  intro base
  apply heeds_readAs_bind
  intro exponent
  exact Layout.showing_writeAs (fun _ _ => rfl) rfl _

theorem Logarithm.process_heeds {emits : Emission → Prop} :
    Logarithm.process.Heeds (Logarithm.layout.showing emits) := by
  apply heeds_readAs_bind
  intro number
  apply heeds_readAs_bind
  intro base
  exact Layout.showing_writeAs (fun _ _ => rfl) rfl _

/-! ## Music -/

theorem NoteToFrequency.process_heeds [Scalar α] {emits : Emission → Prop} :
    (NoteToFrequency.process α).Heeds ((NoteToFrequency.layout α).showing emits) := by
  apply heeds_readAs_bind
  intro note
  exact Layout.showing_writeAs (fun _ _ => rfl) rfl _

theorem FrequencyToNote.process_heeds {emits : Emission → Prop} :
    FrequencyToNote.process.Heeds (FrequencyToNote.layout.showing emits) := by
  apply heeds_readAs_bind
  intro frequency
  exact Layout.showing_writeAs (fun _ _ => rfl) rfl _

theorem BeatLength.process_heeds {emits : Emission → Prop} :
    BeatLength.process.Heeds (BeatLength.layout.showing emits) := by
  apply heeds_readAs_bind
  intro tempo
  exact Layout.showing_writeAs (fun _ _ => rfl) rfl _

/-! ## Logic -/

theorem Comparison.process_heeds [Scalar α] (comparison : Comparison)
    {emits : Emission → Prop} :
    (comparison.process α).Heeds ((Comparison.layout α).showing emits) := by
  apply heeds_readAs_bind
  intro left
  apply heeds_readAs_bind
  intro right
  exact Layout.showing_writeAs (fun _ _ => rfl) rfl _

theorem Connective.process_heeds (connective : Connective) {emits : Emission → Prop} :
    connective.process.Heeds (connective.layout.showing emits) := by
  cases connective with
  | and | or =>
      apply heeds_readAs_bind
      intro left
      apply heeds_readAs_bind
      intro right
      exact Layout.showing_writeAs (fun _ _ => rfl) rfl _
  | not =>
      apply heeds_readAs_bind
      intro flag
      exact Layout.showing_writeAs (fun _ _ => rfl) rfl _

/-! ## Events -/

theorem BoolTrigger.process_heeds : BoolTrigger.process.Heeds BoolTrigger.layout.lively := by
  apply heeds_readAs_bind
  intro flag
  cases flag <;> exact heeds_fire.mpr trivial

namespace TriggerCounter

variable {emits : Emission → Prop}

theorem publish_heeds (counter : TriggerCounter) :
    counter.publish.Heeds (layout.showing emits) := by
  apply heeds_readAs_bind
  intro start
  apply heeds_readAs_bind
  intro step
  apply Heeds.bind
  · exact Layout.showing_writeAs (fun _ _ => rfl) rfl counter.count
  · exact fun _ => Layout.showing_writeAs (fun _ _ => rfl) rfl _

theorem init_heeds : init.Heeds (layout.showing emits) :=
  (publish_heeds {}).bind fun _ => heeds_pure _

theorem restart_heeds : restart.Heeds layout.lively := by
  apply init_heeds.bind
  intro counter
  exact (heeds_fire.mpr trivial).bind fun _ => heeds_pure counter

theorem onEvent_heeds (input : Nat) (counter : TriggerCounter) :
    (counter.onEvent input).Heeds layout.lively := by
  unfold onEvent
  split
  case h_1 =>
    apply (publish_heeds _).bind
    intro _
    apply (heeds_fire.mpr trivial).bind
    intro _
    apply heeds_readAs_bind
    intro resetCount
    split
    · exact restart_heeds
    · exact heeds_pure _
  case h_2 => exact restart_heeds
  case h_3 => exact heeds_pure counter

end TriggerCounter

/-! ## Elements -/

namespace Element

theorem update_heeds [Scalar α] (oneKind : Scalar.OneKind α) {emits : Emission → Prop} :
    (update α).Heeds ((layout α).showing emits) := by
  apply (heeds_read 0).bind
  intro array
  apply heeds_readAs_bind
  intro index
  exact Layout.showing_writeAs oneKind rfl _

theorem onEvent_heeds [Scalar α] (oneKind : Scalar.OneKind α) (event : Identifier) :
    (onEvent α event).Heeds (layout α).lively :=
  (update_heeds oneKind).bind fun _ => heeds_fire.mpr trivial

end Element

/-! ## Standard nodes -/

namespace StandardNode

/-- A standard node that is initialized shows values of the right kinds, and does
nothing else. -/
theorem init_heeds (node : StandardNode) (emits : Emission → Prop) :
    node.init.Heeds (node.layout.showing emits) := by
  cases node with
  | triggerCounter counter => exact TriggerCounter.init_heeds.map _
  | element type => exact (Element.update_heeds type.oneKind).bind fun _ => heeds_pure _
  | _ => exact heeds_pure _

theorem work_heeds (node : StandardNode) : node.work.Heeds node.layout.lively := by
  cases node with
  | arithmetic operation type => exact operation.process_heeds type.oneKind
  | clamp type => exact Clamp.process_heeds type.oneKind
  | mapRange type => exact MapRange.process_heeds type.oneKind
  | power => exact Power.process_heeds
  | logarithm => exact Logarithm.process_heeds
  | noteToFrequency type => exact NoteToFrequency.process_heeds
  | frequencyToNote => exact FrequencyToNote.process_heeds
  | beatLength => exact BeatLength.process_heeds
  | comparison comparison type => exact comparison.process_heeds
  | connective connective => exact connective.process_heeds
  | boolTrigger => exact BoolTrigger.process_heeds
  | triggerCounter counter => exact heeds_pure ()
  | element type => exact Element.update_heeds type.oneKind

theorem onEvent_heeds (input : Nat) (event : Identifier) (node : StandardNode) :
    (node.onEvent input event).Heeds node.layout.lively := by
  cases node with
  | triggerCounter counter => exact (counter.onEvent_heeds input).map _
  | element type => exact (Element.onEvent_heeds type.oneKind event).bind fun _ => heeds_pure _
  | _ => exact heeds_pure _

end StandardNode

end NodeGraph
