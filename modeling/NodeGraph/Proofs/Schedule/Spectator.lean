import NodeGraph.Proofs.Schedule

namespace NodeGraph.Schedule

/-! A node on which no other one depends. Wherever it is added, the other nodes are
placed in the same order as without it: none of them waits for it, so it never
decides which one is ready first. -/

/-- The same edges between nodes that stand elsewhere, with a node added from which
none of them leads. -/
structure AddsSpectator (node : Nat → Nat) (spectator : Nat) (edges largeEdges : List Edge) :
    Prop where
  injective : Function.Injective node
  apart : ∀ index, node index ≠ spectator
  leads : ∀ source index, (source, node index) ∈ largeEdges ↔
    ∃ start, node start = source ∧ (start, index) ∈ edges

theorem find?_filter_of_eq_some {items : List α} {wanted kept : α → Bool} {item : α}
    (found : items.find? wanted = some item) (isKept : kept item = true) :
    (items.filter kept).find? wanted = some item := by
  induction items with
  | nil => cases found
  | cons head tail induction =>
      rw [List.find?_cons] at found
      cases here : wanted head with
      | true =>
          simp only [here, Option.some.injEq] at found
          subst found
          simp [isKept, here]
      | false =>
          simp only [here] at found
          rw [List.filter_cons]
          split
          · rw [List.find?_cons, here]
            exact induction found
          · exact induction found

namespace AddsSpectator

variable {node : Nat → Nat} {spectator : Nat} {edges largeEdges : List Edge}
  (adds : AddsSpectator node spectator edges largeEdges)
include adds

theorem isReady_node {waiting largeWaiting : List Nat}
    (same : largeWaiting.filter (· != spectator) = waiting.map node) (index : Nat) :
    isReady largeEdges largeWaiting (node index) = isReady edges waiting index := by
  have waits (start : Nat) : node start ∈ largeWaiting ↔ start ∈ waiting := by
    rw [← List.mem_map_of_injective adds.injective (l := waiting), ← same, List.mem_filter]
    simp [adds.apart]
  rw [Bool.eq_iff_iff, isReady_iff, isReady_iff]
  constructor
  · intro ready start member edge
    exact ready (node start) ((waits start).mpr member) ((adds.leads _ _).mpr ⟨start, rfl, edge⟩)
  · intro ready source member edge
    rcases (adds.leads _ _).mp edge with ⟨start, rfl, edgeHere⟩
    exact ready start ((waits start).mp member) edgeHere

/-- Of the other nodes, the same one is ready first. -/
theorem find?_isReady {waiting largeWaiting : List Nat}
    (same : largeWaiting.filter (· != spectator) = waiting.map node) :
    (largeWaiting.filter (· != spectator)).find? (isReady largeEdges largeWaiting) =
      (waiting.find? (isReady edges waiting)).map node := by
  have ready : isReady largeEdges largeWaiting ∘ node = isReady edges waiting :=
    funext (adds.isReady_node same)
  rw [same, List.find?_map, ready]

/-- The nodes are placed in the same order. The induction is on the nodes still to
be placed with the one that is added. -/
theorem arrangeWaiting_filter {count largeCount : Nat} {waiting largeWaiting : List Nat}
    (same : largeWaiting.filter (· != spectator) = waiting.map node)
    (room : waiting.length ≤ count) (largeRoom : largeWaiting.length ≤ largeCount) :
    (arrangeWaiting largeEdges largeCount largeWaiting).placed.filter (· != spectator) =
      (arrangeWaiting edges count waiting).placed.map node := by
  induction largeCount generalizing count waiting largeWaiting with
  | zero =>
      have empty : largeWaiting = [] := List.length_eq_zero_iff.mp (by omega)
      subst empty
      have none : waiting = [] := List.map_eq_nil_iff.mp same.symm
      subst none
      cases count <;> rfl
  | succ largeCount induction =>
      have first := adds.find?_isReady same
      cases found : largeWaiting.find? (isReady largeEdges largeWaiting) with
      | none =>
          have nothing : waiting.find? (isReady edges waiting) = none := by
            rw [← Option.map_eq_none_iff (f := node), ← first, List.find?_eq_none]
            intro other member
            exact List.find?_eq_none.mp found other (List.mem_of_mem_filter member)
          have unplaced : (arrangeWaiting edges count waiting).placed = [] := by
            cases count <;> simp [arrangeWaiting, nothing]
          simp [arrangeWaiting, found, unplaced]
      | some next =>
          have shorter : (largeWaiting.erase next).length ≤ largeCount := by
            rw [List.length_erase_of_mem (List.mem_of_find?_eq_some found)]
            omega
          rw [arrangeWaiting, found]
          by_cases isSpectator : next = spectator
          · -- Nothing waits for it, so placing it leaves the others as they were.
            subst isSpectator
            rw [List.filter_cons_of_neg (by simp)]
            refine induction ?_ room shorter
            rw [← List.erase_filter, same, List.erase_of_not_mem]
            simp [adds.apart]
          · rw [find?_filter_of_eq_some found (by simpa using isSpectator), eq_comm,
              Option.map_eq_some_iff] at first
            rcases first with ⟨index, foundHere, rfl⟩
            have member := List.mem_of_find?_eq_some foundHere
            have positive := List.length_pos_of_mem member
            cases count with
            | zero => omega
            | succ count =>
                have fewer : (waiting.erase index).length ≤ count := by
                  rw [List.length_erase_of_mem member]
                  omega
                rw [arrangeWaiting, foundHere, List.filter_cons_of_pos (by simpa using isSpectator),
                  List.map_cons]
                refine congrArg (node index :: ·) (induction ?_ fewer shorter)
                rw [← List.erase_filter, same, List.map_erase adds.injective]

/-- The other nodes run in the same order. -/
theorem order_filter {count largeCount : Nat} {found largeFound : List Nat}
    (same : (List.range largeCount).filter (· != spectator) = (List.range count).map node)
    (ordered : order edges count = .ok found)
    (largeOrdered : order largeEdges largeCount = .ok largeFound) :
    largeFound.filter (· != spectator) = found.map node := by
  have placed := adds.arrangeWaiting_filter same (Nat.le_of_eq List.length_range)
    (Nat.le_of_eq List.length_range)
  rwa [← arrange, ← arrange, arrange_of_order ordered, arrange_of_order largeOrdered] at placed

end AddsSpectator

end NodeGraph.Schedule
