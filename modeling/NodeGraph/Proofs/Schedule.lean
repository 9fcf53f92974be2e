import Mathlib.Data.List.Nodup
import Mathlib.Data.Set.Finite.Basic
import Mathlib.Order.WellFounded
import NodeGraph.Schedule

namespace NodeGraph.Schedule

/-! What an arrangement guarantees. Every node that waits is either placed or
stuck; a node is placed after all that it depends on; and nothing is stuck
exactly if the edges form no cycle. -/

/-! ## Ready nodes -/

theorem isReady_iff (edges : List Edge) (waiting : List Nat) (node : Nat) :
    isReady edges waiting node = true ↔ ∀ source ∈ waiting, (source, node) ∉ edges := by
  simp only [isReady, List.all_eq_true, Bool.or_eq_true, bne_iff_ne, Bool.not_eq_true',
    List.contains_eq_mem, decide_eq_false_iff_not]
  constructor
  · intro ready source member edge
    rcases ready _ edge with different | absent
    · exact different rfl
    · exact absent member
  · intro ready edge listed
    rcases edge with ⟨source, dependent⟩
    by_cases equal : dependent = node
    · subst equal
      exact .inr fun member => ready source member listed
    · exact .inl equal

/-! ## Arrangements -/

/-- An arrangement splits the nodes that wait into those placed and those
stuck. -/
theorem arrangeWaiting_perm (edges : List Edge) (count : Nat) (waiting : List Nat) :
    ((arrangeWaiting edges count waiting).placed ++
      (arrangeWaiting edges count waiting).stuck).Perm waiting := by
  induction count generalizing waiting with
  | zero => simp [arrangeWaiting]
  | succ count induction =>
      unfold arrangeWaiting
      split
      · simp
      next node found =>
        have member : node ∈ waiting := List.mem_of_find?_eq_some found
        exact ((induction (waiting.erase node)).cons node).trans
          (List.perm_cons_erase member).symm

theorem mem_of_mem_placed {edges : List Edge} {count node : Nat} {waiting : List Nat}
    (placed : node ∈ (arrangeWaiting edges count waiting).placed) : node ∈ waiting :=
  (arrangeWaiting_perm edges count waiting).subset (List.mem_append_left _ placed)

/-- No node is placed before one that it depends on, nor does a placed node
depend on itself. -/
theorem arrangeWaiting_respects (edges : List Edge) (count : Nat) (waiting : List Nat) :
    (arrangeWaiting edges count waiting).placed.Pairwise
        (fun earlier later => (later, earlier) ∉ edges) ∧
      ∀ node ∈ (arrangeWaiting edges count waiting).placed, (node, node) ∉ edges := by
  induction count generalizing waiting with
  | zero => simp [arrangeWaiting]
  | succ count induction =>
      unfold arrangeWaiting
      split
      · simp
      next node found =>
        have ready := (isReady_iff edges waiting node).mp (List.find?_some found)
        have member : node ∈ waiting := List.mem_of_find?_eq_some found
        rcases induction (waiting.erase node) with ⟨pairwise, irreflexive⟩
        constructor
        · rw [List.pairwise_cons]
          refine ⟨fun later placed => ?_, pairwise⟩
          exact ready later (List.mem_of_mem_erase (mem_of_mem_placed placed))
        · intro other placed
          rcases List.mem_cons.mp placed with equal | placed
          · subst equal
            exact ready other member
          · exact irreflexive other placed

/-- Every stuck node depends on a stuck node, provided that there was room for
all nodes. -/
theorem exists_stuck_source {edges : List Edge} {count : Nat} {waiting : List Nat}
    (room : waiting.length ≤ count) {node : Nat}
    (stuck : node ∈ (arrangeWaiting edges count waiting).stuck) :
    ∃ source ∈ (arrangeWaiting edges count waiting).stuck, (source, node) ∈ edges := by
  induction count generalizing waiting with
  | zero =>
      have empty : waiting = [] := List.length_eq_zero_iff.mp (by omega)
      simp [arrangeWaiting, empty] at stuck
  | succ count induction =>
      unfold arrangeWaiting at stuck ⊢
      split at stuck
      next notFound =>
        have notReady := List.find?_eq_none.mp notFound node stuck
        rw [isReady_iff] at notReady
        push Not at notReady
        simpa [notFound] using notReady
      next first found =>
        have member : first ∈ waiting := List.mem_of_find?_eq_some found
        have shorter : (waiting.erase first).length ≤ count := by
          rw [List.length_erase_of_mem member]
          omega
        simpa [found] using induction shorter stuck

/-! ## Cycles -/

/-- One node depends on another. -/
def DependsOn (edges : List Edge) (source dependent : Nat) : Prop :=
  (source, dependent) ∈ edges

/-- No node can be reached from itself. -/
def Acyclic (edges : List Edge) : Prop :=
  ∀ node, ¬ Relation.TransGen (DependsOn edges) node node

/-- If each of finitely many nodes depends on one of them, they contain a
cycle. -/
theorem not_acyclic_of_sources {edges : List Edge} {nodes : List Nat} (nonempty : nodes ≠ [])
    (sources : ∀ node ∈ nodes, ∃ source ∈ nodes, (source, node) ∈ edges) :
    ¬ Acyclic edges := by
  intro acyclic
  let below (left right : { node // node ∈ nodes }) : Prop :=
    Relation.TransGen (DependsOn edges) left.1 right.1
  have finite : Finite { node // node ∈ nodes } := List.finite_toSet nodes
  have transitive : IsTrans { node // node ∈ nodes } below := ⟨fun _ _ _ => .trans⟩
  have irreflexive : Std.Irrefl below := ⟨fun node => acyclic node.1⟩
  have wellFounded : WellFounded below := Finite.wellFounded_of_trans_of_irrefl below
  rcases List.exists_mem_of_ne_nil nodes nonempty with ⟨first, member⟩
  rcases wellFounded.has_min Set.univ ⟨⟨first, member⟩, trivial⟩ with ⟨least, -, minimal⟩
  rcases sources least.1 least.2 with ⟨source, sourceMember, edge⟩
  exact minimal ⟨source, sourceMember⟩ trivial (.single edge)

/-- In a sequence without repetition in which nothing leads to what stands before
it, whatever leads somewhere stands before that. -/
theorem idxOf_lt_iff_respects [DecidableEq α] (leads : α → α → Prop) {order : List α}
    (nodup : order.Nodup)
    (closed : ∀ source dependent, leads source dependent → source ∈ order ∧ dependent ∈ order) :
    (∀ source dependent, leads source dependent →
        order.idxOf source < order.idxOf dependent) ↔
      order.Pairwise (fun earlier later => ¬ leads later earlier) ∧
        ∀ node ∈ order, ¬ leads node node := by
  constructor
  · intro forward
    refine ⟨?_, fun node _ edge => Nat.lt_irrefl _ (forward node node edge)⟩
    rw [List.pairwise_iff_getElem]
    intro first second firstBound secondBound before edge
    have after := forward _ _ edge
    rw [nodup.idxOf_getElem, nodup.idxOf_getElem] at after
    omega
  · intro settled source dependent edge
    rcases settled with ⟨respects, irreflexive⟩
    rcases closed source dependent edge with ⟨sourceMember, dependentMember⟩
    by_contra backward
    rcases Nat.lt_or_eq_of_le (Nat.not_lt.mp backward) with before | same
    · have notEdge := List.pairwise_iff_getElem.mp respects _ _
        (List.idxOf_lt_length_of_mem dependentMember)
        (List.idxOf_lt_length_of_mem sourceMember) before
      simp only [List.getElem_idxOf] at notEdge
      exact notEdge edge
    · have equal : dependent = source := (List.idxOf_inj dependentMember).mp same
      subst equal
      exact irreflexive dependent dependentMember edge

/-- In an order that respects the edges, what can be reached from a node comes
after it. -/
theorem acyclic_of_respects {edges : List Edge} {order : List Nat} (nodup : order.Nodup)
    (closed : ∀ edge ∈ edges, edge.1 ∈ order ∧ edge.2 ∈ order)
    (respects : order.Pairwise fun earlier later => (later, earlier) ∉ edges)
    (irreflexive : ∀ node ∈ order, (node, node) ∉ edges) : Acyclic edges := by
  have forward := (idxOf_lt_iff_respects (DependsOn edges) nodup
    fun source dependent edge => closed (source, dependent) edge).mpr ⟨respects, irreflexive⟩
  intro node cycle
  have increasing : Relation.TransGen (fun left right => left < right)
      (order.idxOf node) (order.idxOf node) := cycle.lift order.idxOf forward
  rw [Relation.transGen_eq_self] at increasing
  exact Nat.lt_irrefl _ increasing

/-! ## Orders -/

/-- A sequence in which nodes may run: every position below `count` once, and
each after those that it depends on. -/
structure IsOrder (edges : List Edge) (count : Nat) (order : List Nat) : Prop where
  perm : order.Perm (List.range count)
  respects : order.Pairwise fun earlier later => (later, earlier) ∉ edges
  irreflexive : ∀ node ∈ order, (node, node) ∉ edges

theorem IsOrder.nodup {edges : List Edge} {count : Nat} {order : List Nat}
    (isOrder : IsOrder edges count order) : order.Nodup :=
  isOrder.perm.nodup_iff.mpr List.nodup_range

/-- The order that is found places every node. -/
theorem arrange_of_order {edges : List Edge} {count : Nat} {result : List Nat}
    (ordered : order edges count = .ok result) : arrange edges count = ⟨result, []⟩ := by
  by_cases done : (arrange edges count).stuck = []
  · have placed : (arrange edges count).placed = result := by simpa [order, done] using ordered
    rw [← placed, ← done]
  · simp [order, done] at ordered

theorem isOrder_of_order {edges : List Edge} {count : Nat} {result : List Nat}
    (ordered : order edges count = .ok result) : IsOrder edges count result := by
  have arranged := arrange_of_order ordered
  have perm := arrangeWaiting_perm edges count (List.range count)
  have respects := arrangeWaiting_respects edges count (List.range count)
  rw [← arrange, arranged] at perm respects
  rw [List.append_nil] at perm
  exact ⟨perm, respects.1, respects.2⟩

/-- Nodes can be brought into order exactly if their edges form no cycle. -/
theorem order_isOk_iff {edges : List Edge} {count : Nat}
    (bounded : ∀ edge ∈ edges, edge.1 < count ∧ edge.2 < count) :
    (∃ result, order edges count = .ok result) ↔ Acyclic edges := by
  constructor
  · intro arranged
    rcases arranged with ⟨result, ordered⟩
    have isOrder := isOrder_of_order ordered
    have member (node : Nat) : node ∈ result ↔ node < count := by
      rw [isOrder.perm.mem_iff, List.mem_range]
    refine acyclic_of_respects isOrder.nodup (fun edge listed => ?_) isOrder.respects
      isOrder.irreflexive
    rw [member, member]
    exact bounded edge listed
  · intro acyclic
    have done : (arrange edges count).stuck = [] := by
      by_contra nonempty
      exact not_acyclic_of_sources nonempty
        (fun node stuck => exists_stuck_source (by simp) stuck) acyclic
    exact ⟨(arrange edges count).placed, by simp [order, done]⟩

end NodeGraph.Schedule
