import Mathlib.Data.List.Forall2
import NodeGraph.Graph
import NodeGraph.Proofs.Schedule

namespace NodeGraph.Circuit

/-! Circuits in which values flow forward: every output plug of a node has a
slot to itself, and no node reads what a later one writes. And circuits that are
part of larger ones, whose nodes do there what they do on their own. -/

/-! ## The plugs of a node -/

/-- The slots that the node at a position reads. -/
def inputsAt (circuit : Circuit) (index : Nat) : List Slot :=
  match circuit.placements[index]? with
  | some placement => placement.inputs
  | none => []

/-- The slots that the node at a position writes. -/
def outputsAt (circuit : Circuit) (index : Nat) : List Slot :=
  match circuit.placements[index]? with
  | some placement => placement.outputs
  | none => []

variable {circuit : Circuit} {index : Nat} {placement : Placement}

theorem inputsAt_eq (placed : circuit.placements[index]? = some placement) :
    circuit.inputsAt index = placement.inputs := by
  simp [inputsAt, placed]

theorem outputsAt_eq (placed : circuit.placements[index]? = some placement) :
    circuit.outputsAt index = placement.outputs := by
  simp [outputsAt, placed]

theorem lt_size_of_mem_outputsAt {slot : Slot} (written : slot ∈ circuit.outputsAt index) :
    index < circuit.placements.size := by
  unfold outputsAt at written
  split at written
  next placement placed => exact (Array.getElem?_eq_some_iff.mp placed).1
  next => cases written

theorem lt_size_of_mem_inputsAt {slot : Slot} (read : slot ∈ circuit.inputsAt index) :
    index < circuit.placements.size := by
  unfold inputsAt at read
  split at read
  next placement placed => exact (Array.getElem?_eq_some_iff.mp placed).1
  next => cases read

/-- One node reads a slot that the other one writes. -/
def Feeds (circuit : Circuit) (writer reader : Nat) : Prop :=
  ∃ slot ∈ circuit.outputsAt writer, slot ∈ circuit.inputsAt reader

/-! ## Targets -/

/-- Events are led there, from a node or from outside. -/
def LeadsTo (circuit : Circuit) (target : Target) : Prop :=
  (∃ node output, target ∈ circuit.routes.targets node output) ∨
    ∃ id, target ∈ circuit.entrance id

/-! ## Forward flow -/

/-- Every node runs once, output slots have one owner each, and values flow
forward in the order in which the nodes run. -/
structure FlowsForward (circuit : Circuit) : Prop where
  order_perm : circuit.order.Perm (List.range circuit.placements.size)
  outputs_nodup : ∀ index, (circuit.outputsAt index).Nodup
  outputs_apart : ∀ first second, first ≠ second →
    ∀ slot ∈ circuit.outputsAt first, slot ∉ circuit.outputsAt second
  outputs_bounded : ∀ index, ∀ slot ∈ circuit.outputsAt index, slot < circuit.defaults.size
  forward : circuit.order.Pairwise fun earlier later => ¬ circuit.Feeds later earlier
  notSelf : ∀ index, ¬ circuit.Feeds index index

theorem FlowsForward.order_nodup (flows : circuit.FlowsForward) : circuit.order.Nodup :=
  flows.order_perm.nodup_iff.mpr List.nodup_range

theorem FlowsForward.mem_order_iff (flows : circuit.FlowsForward) :
    index ∈ circuit.order ↔ index < circuit.placements.size := by
  rw [flows.order_perm.mem_iff, List.mem_range]

/-- A node runs after the nodes that write what it reads. -/
theorem FlowsForward.idxOf_lt (flows : circuit.FlowsForward) {writer reader : Nat}
    (feeds : circuit.Feeds writer reader) :
    circuit.order.idxOf writer < circuit.order.idxOf reader := by
  refine (Schedule.idxOf_lt_iff_respects circuit.Feeds flows.order_nodup fun _ _ feeds => ?_).mpr
    ⟨flows.forward, fun index _ => flows.notSelf index⟩ writer reader feeds
  rcases feeds with ⟨slot, written, read⟩
  exact ⟨flows.mem_order_iff.mpr (lt_size_of_mem_outputsAt written),
    flows.mem_order_iff.mpr (lt_size_of_mem_inputsAt read)⟩

/-! ## Circuits within circuits -/

/-- The same names with slots that meet, in the same order. -/
abbrev NamesMeet (meets : Slot → Slot → Prop) (entries others : List (Identifier × Slot)) :
    Prop :=
  List.Forall₂ (fun entry other => entry.1 = other.1 ∧ meets entry.2 other.2) entries others

/-- Plug by plug, the nodes lie in slots that meet. -/
structure PlugsMeet (meets : Slot → Slot → Prop) (placement other : Placement) : Prop where
  inputs : List.Forall₂ meets placement.inputs other.inputs
  outputs : List.Forall₂ meets placement.outputs other.outputs

/-- A circuit is part of a larger one. The node at a position is found there at
the position that `node` says, wired to slots that meet those of the smaller
circuit. Whatever is added writes no slot that meets one. -/
structure Embeds (node : Nat → Nat) (meets : Slot → Slot → Prop) (small large : Circuit) :
    Prop where
  injective : Function.Injective node
  unique : ∀ {slot other next nextOther}, meets slot other → meets next nextOther →
    (slot = next ↔ other = nextOther)
  placements : ∀ index,
    Option.Rel (PlugsMeet meets) small.placements[index]? large.placements[node index]?
  written : ∀ {slot other writer}, meets slot other → other ∈ large.outputsAt writer →
    ∃ index, node index = writer ∧ slot ∈ small.outputsAt index
  defaults : ∀ {slot other}, meets slot other → large.defaults[other]? = small.defaults[slot]?
  inputs : NamesMeet meets small.inputs large.inputs
  locals : NamesMeet meets small.locals large.locals
  outputs : NamesMeet meets small.outputs large.outputs

/-- A node is there in the larger circuit exactly if it is in the smaller one. -/
theorem Embeds.lt_size_iff {node : Nat → Nat} {meets : Slot → Slot → Prop} {small large : Circuit}
    (embeds : small.Embeds node meets large) :
    node index < large.placements.size ↔ index < small.placements.size := by
  have plugs := embeds.placements index
  rw [← Nat.not_le, ← Nat.not_le, ← Array.getElem?_eq_none_iff, ← Array.getElem?_eq_none_iff]
  generalize small.placements[index]? = placement? at plugs ⊢
  generalize large.placements[node index]? = otherPlacement? at plugs ⊢
  cases plugs <;> simp

end NodeGraph.Circuit
