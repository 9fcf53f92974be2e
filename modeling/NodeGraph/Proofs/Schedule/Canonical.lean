import Mathlib.Data.List.Perm.Subperm
import NodeGraph.Proofs.Schedule

namespace NodeGraph.Schedule

/-! Which order an arrangement finds, and what it reports if there is none. Among
all orders that respect the edges the order found is the first in lexicographic
order. If there is none, the nodes reported are those that lie on cycles. Both
depend on which edges there are and not on how they are listed. -/

/-! ## The least order -/

/-- The first ready node of an ascending list is the smallest one. -/
theorem find?_le {waiting : List Nat} {ready : Nat → Bool} {first node : Nat}
    (ascending : waiting.Pairwise (· < ·)) (found : waiting.find? ready = some first)
    (member : node ∈ waiting) (isReady : ready node = true) : first ≤ node := by
  rcases List.find?_eq_some_iff_append.mp found with ⟨-, before, after, rfl, notReady⟩
  rcases List.mem_append.mp member with earlier | later
  · have unready := notReady node earlier
    rw [isReady] at unready
    cases unready
  · rcases List.mem_cons.mp later with rfl | later
    · exact Nat.le_refl _
    · exact Nat.le_of_lt ((List.pairwise_cons.mp (List.pairwise_append.mp ascending).2.1).1 _ later)

/-- No order that respects the edges comes before the one that is arranged. The
induction is on the nodes still to be placed: an order starts with a node that is
ready, and the arrangement with the smallest of these. -/
theorem arrangeWaiting_least {edges : List Edge} {count : Nat} {waiting other : List Nat}
    (room : waiting.length ≤ count) (ascending : waiting.Pairwise (· < ·))
    (perm : other.Perm waiting)
    (respects : other.Pairwise fun earlier later => (later, earlier) ∉ edges)
    (irreflexive : ∀ node ∈ other, (node, node) ∉ edges) :
    (arrangeWaiting edges count waiting).placed = other ∨
      List.Lex (· < ·) (arrangeWaiting edges count waiting).placed other := by
  induction count generalizing waiting other with
  | zero =>
      have empty : waiting = [] := List.length_eq_zero_iff.mp (by omega)
      subst empty
      exact .inl perm.eq_nil.symm
  | succ count induction =>
      cases other with
      | nil =>
          have empty : waiting = [] := perm.nil_eq.symm
          subst empty
          exact .inl rfl
      | cons first rest =>
          rcases List.pairwise_cons.mp respects with ⟨noneLater, restRespects⟩
          have member : first ∈ waiting := perm.subset (.head _)
          have firstReady : isReady edges waiting first = true := by
            rw [isReady_iff]
            intro source waits
            rcases List.mem_cons.mp (perm.symm.subset waits) with rfl | later
            · exact irreflexive source (.head _)
            · exact noneLater source later
          unfold arrangeWaiting
          split
          next notFound => exact absurd firstReady (List.find?_eq_none.mp notFound first member)
          next node found =>
            rcases Nat.lt_or_eq_of_le (find?_le ascending found member firstReady) with
              smaller | rfl
            · exact .inr (.rel smaller)
            · have shorter : (waiting.erase node).length ≤ count := by
                rw [List.length_erase_of_mem member]
                omega
              have ordered := induction shorter (ascending.sublist List.erase_sublist)
                (List.cons_perm_iff_perm_erase.mp perm).2 restRespects
                fun other listed => irreflexive other (.tail _ listed)
              rcases ordered with same | before
              · exact .inl (congrArg (node :: ·) same)
              · exact .inr (.cons before)

/-- No order comes before the one that is found. -/
theorem order_least {edges : List Edge} {count : Nat} {found other : List Nat}
    (ordered : order edges count = .ok found) (isOrder : IsOrder edges count other) :
    found = other ∨ List.Lex (· < ·) found other := by
  have least := arrangeWaiting_least (Nat.le_of_eq List.length_range)
    List.pairwise_lt_range isOrder.perm isOrder.respects isOrder.irreflexive
  rwa [← arrange, arrange_of_order ordered] at least

/-! ## What can be reached -/

theorem mem_successors_iff {edges : List Edge} {nodes : List Nat} {node : Nat} :
    node ∈ successors edges nodes ↔ ∃ source ∈ nodes, (source, node) ∈ edges := by
  simp only [successors, List.mem_eraseDups, List.mem_map, List.mem_filter,
    List.contains_eq_mem, decide_eq_true_eq, Prod.exists]
  constructor
  · intro found
    rcases found with ⟨source, _, ⟨listed, member⟩, rfl⟩
    exact ⟨source, member, listed⟩
  · intro found
    rcases found with ⟨source, member, listed⟩
    exact ⟨source, node, ⟨listed, member⟩, rfl⟩

theorem nodup_eraseDups [BEq α] [LawfulBEq α] : (items : List α) → items.eraseDups.Nodup
  | [] => by simp
  | item :: items => by
      rw [List.eraseDups_cons, List.nodup_cons]
      exact ⟨by simp [List.mem_eraseDups], nodup_eraseDups _⟩
termination_by items => items.length
decreasing_by exact Nat.lt_succ_of_le (List.length_filter_le _ _)

/-- A search from `start` under way: `reached` can be reached, and whatever is not
at the frontier has been followed up. -/
structure Searches (edges : List Edge) (start : Nat) (reached frontier : List Nat) : Prop where
  nodup : reached.Nodup
  sound : ∀ node ∈ reached, Relation.TransGen (DependsOn edges) start node
  frontier_reached : ∀ node ∈ frontier, node = start ∨ node ∈ reached
  followed : ∀ node, node = start ∨ node ∈ reached → node ∉ frontier →
    ∀ next, (node, next) ∈ edges → next ∈ reached

theorem Searches.start (edges : List Edge) (start : Nat) : Searches edges start [] [start] where
  nodup := List.nodup_nil
  sound node member := absurd member List.not_mem_nil
  frontier_reached node member := .inl (List.mem_singleton.mp member)
  followed node reached inside := by
    rcases reached with rfl | member
    · exact absurd (List.mem_singleton_self node) inside
    · cases member

/-- The nodes that a round of a search adds. -/
abbrev fresh (edges : List Edge) (reached frontier : List Nat) : List Nat :=
  (successors edges frontier).filter fun node => !reached.contains node

theorem mem_fresh_iff {edges : List Edge} {reached frontier : List Nat} {node : Nat} :
    node ∈ fresh edges reached frontier ↔
      (∃ source ∈ frontier, (source, node) ∈ edges) ∧ node ∉ reached := by
  simp [fresh, mem_successors_iff]

theorem Searches.next {edges : List Edge} {start : Nat} {reached frontier : List Nat}
    (searches : Searches edges start reached frontier) :
    Searches edges start (reached ++ fresh edges reached frontier)
      (fresh edges reached frontier) where
  nodup := by
    refine List.nodup_append.mpr ⟨searches.nodup, (nodup_eraseDups _).filter _, ?_⟩
    intro node member other isFresh same
    exact (mem_fresh_iff.mp isFresh).2 (same ▸ member)
  sound node member := by
    rcases List.mem_append.mp member with reachedBefore | isFresh
    · exact searches.sound node reachedBefore
    · rcases (mem_fresh_iff.mp isFresh).1 with ⟨source, atFrontier, edge⟩
      rcases searches.frontier_reached source atFrontier with rfl | reachedBefore
      · exact .single edge
      · exact (searches.sound source reachedBefore).tail edge
  frontier_reached node isFresh := .inr (List.mem_append_right _ isFresh)
  followed node known notFresh following edge := by
    have knownBefore : node = start ∨ node ∈ reached := by
      rcases known with isStart | member
      · exact .inl isStart
      · exact .inr ((List.mem_append.mp member).resolve_right notFresh)
    by_cases reachedBefore : following ∈ reached
    · exact List.mem_append_left _ reachedBefore
    · by_cases atFrontier : node ∈ frontier
      · exact List.mem_append_right _ (mem_fresh_iff.mpr ⟨⟨node, atFrontier, edge⟩, reachedBefore⟩)
      · exact absurd (searches.followed node knownBefore atFrontier following edge) reachedBefore

/-- A search that has nothing more to follow up has reached all it can reach. -/
theorem Searches.complete {edges : List Edge} {start : Nat} {reached frontier : List Nat}
    (searches : Searches edges start reached frontier)
    (nothing : fresh edges reached frontier = []) {node : Nat}
    (reachable : Relation.TransGen (DependsOn edges) start node) : node ∈ reached := by
  have closed : ∀ source, source = start ∨ source ∈ reached →
      ∀ next, (source, next) ∈ edges → next ∈ reached := by
    intro source known next edge
    by_cases atFrontier : source ∈ frontier
    · by_contra notReached
      have isFresh := mem_fresh_iff.mpr ⟨⟨source, atFrontier, edge⟩, notReached⟩
      rw [nothing] at isFresh
      cases isFresh
    · exact searches.followed source known atFrontier next edge
  induction reachable with
  | single edge => exact closed start (.inl rfl) _ edge
  | tail _ edge induction => exact closed _ (.inr induction) _ edge

/-- Given enough rounds, a search reaches exactly what can be reached. Every round
but the last reaches a node that it has not reached before, of which there are
less than `count`. -/
theorem Searches.mem_spread_iff {edges : List Edge} {start count steps : Nat}
    {reached frontier : List Nat} (searches : Searches edges start reached frontier)
    (bounded : ∀ edge ∈ edges, edge.2 < count) (enough : count < reached.length + steps)
    {node : Nat} :
    node ∈ spread edges steps reached frontier ↔
      Relation.TransGen (DependsOn edges) start node := by
  induction steps generalizing reached frontier with
  | zero =>
      have below : reached ⊆ List.range count := by
        intro other member
        rw [List.mem_range]
        cases searches.sound other member with
        | single edge => exact bounded _ edge
        | tail _ edge => exact bounded _ edge
      have short := (searches.nodup.subperm below).length_le
      rw [List.length_range] at short
      omega
  | succ steps induction =>
      by_cases nothing : fresh edges reached frontier = []
      · have stops : spread edges (steps + 1) reached frontier = reached :=
          if_pos (List.isEmpty_iff.mpr nothing)
        rw [stops]
        exact ⟨searches.sound node, searches.complete nothing⟩
      · have continues : spread edges (steps + 1) reached frontier =
            spread edges steps (reached ++ fresh edges reached frontier)
              (fresh edges reached frontier) :=
          if_neg (by rwa [List.isEmpty_iff])
        rw [continues]
        apply induction searches.next
        have grown := List.length_pos_iff.mpr nothing
        rw [List.length_append]
        omega

theorem isOnCycle_iff {edges : List Edge} {count node : Nat}
    (bounded : ∀ edge ∈ edges, edge.2 < count) :
    isOnCycle edges count node = true ↔ Relation.TransGen (DependsOn edges) node node := by
  rw [isOnCycle, List.contains_iff_mem]
  exact (Searches.start edges node).mem_spread_iff bounded (by simp)

/-! ## Stuck nodes -/

theorem stuck_sublist (edges : List Edge) (count : Nat) (waiting : List Nat) :
    (arrangeWaiting edges count waiting).stuck.Sublist waiting := by
  induction count generalizing waiting with
  | zero => exact List.Sublist.refl _
  | succ count induction =>
      unfold arrangeWaiting
      split
      · exact List.Sublist.refl _
      next node found => exact (induction _).trans List.erase_sublist

/-- Nothing that is placed depends on what is stuck. -/
theorem not_mem_of_stuck {edges : List Edge} {count source node : Nat} {waiting : List Nat}
    (placed : node ∈ (arrangeWaiting edges count waiting).placed)
    (stuck : source ∈ (arrangeWaiting edges count waiting).stuck) : (source, node) ∉ edges := by
  induction count generalizing waiting with
  | zero => simp [arrangeWaiting] at placed
  | succ count induction =>
      unfold arrangeWaiting at placed stuck
      split at placed
      · cases placed
      next first found =>
        simp only [found] at stuck
        rcases List.mem_cons.mp placed with rfl | later
        · have ready := (isReady_iff edges waiting node).mp (List.find?_some found)
          exact ready source (List.mem_of_mem_erase ((stuck_sublist _ _ _).subset stuck))
        · exact induction later stuck

/-- A node on a cycle is stuck: a placed node is reached from nodes placed before
it only. -/
theorem stuck_of_cycle {edges : List Edge} {count node : Nat}
    (bounded : ∀ edge ∈ edges, edge.1 < count ∧ edge.2 < count)
    (cycle : Relation.TransGen (DependsOn edges) node node) :
    node ∈ (arrange edges count).stuck := by
  have perm := arrangeWaiting_perm edges count (List.range count)
  rcases arrangeWaiting_respects edges count (List.range count) with ⟨respects, irreflexive⟩
  have known : ∀ other < count,
      other ∈ (arrange edges count).placed ∨ other ∈ (arrange edges count).stuck := by
    intro other bound
    exact List.mem_append.mp (perm.symm.subset (List.mem_range.mpr bound))
  have nodup : (arrange edges count).placed.Nodup :=
    (List.nodup_append.mp (perm.nodup_iff.mpr List.nodup_range)).1
  have before : ∀ source dependent, DependsOn edges source dependent →
      dependent ∈ (arrange edges count).placed → source ∈ (arrange edges count).placed := by
    intro source dependent edge placed
    refine (known source (bounded _ edge).1).resolve_right fun stuck => ?_
    exact not_mem_of_stuck placed stuck edge
  -- Among placed nodes, edges lead forward.
  have forward := (idxOf_lt_iff_respects (fun source dependent => DependsOn edges source dependent ∧
      dependent ∈ (arrange edges count).placed) nodup
    fun source dependent edge => ⟨before _ _ edge.1 edge.2, edge.2⟩).mpr
      ⟨respects.imp fun apart edge => apart edge.1, fun other member edge =>
        irreflexive other member edge.1⟩
  refine (known node ?_).resolve_left fun placed => ?_
  · cases cycle with
    | single edge => exact (bounded _ edge).2
    | tail _ edge => exact (bounded _ edge).2
  · have earlier : ∀ source, Relation.TransGen (DependsOn edges) source node →
        source ∈ (arrange edges count).placed ∧
          (arrange edges count).placed.idxOf source < (arrange edges count).placed.idxOf node := by
      intro source path
      induction path using Relation.TransGen.head_induction_on with
      | single edge => exact ⟨before _ _ edge placed, forward _ _ ⟨edge, placed⟩⟩
      | head edge _ induction =>
          exact ⟨before _ _ edge induction.1,
            (forward _ _ ⟨edge, induction.1⟩).trans induction.2⟩
    exact Nat.lt_irrefl _ (earlier node cycle).2

/-- Leaving out items without a property makes no difference to those with it. -/
theorem filter_eq_of_sublist {some all : List α} {holds : α → Bool} (sublist : some.Sublist all)
    (nodup : all.Nodup) (kept : ∀ item ∈ all, holds item = true → item ∈ some) :
    some.filter holds = all.filter holds := by
  induction sublist with
  | slnil => rfl
  | @cons some all item sublist induction =>
      rcases List.nodup_cons.mp nodup with ⟨once, nodup⟩
      have lacks : ¬ holds item = true := fun has =>
        once (sublist.subset (kept item (.head _) has))
      rw [List.filter_cons_of_neg lacks]
      exact induction nodup fun other member => kept other (.tail _ member)
  | @cons_cons some all item sublist induction =>
      rcases List.nodup_cons.mp nodup with ⟨once, nodup⟩
      have rest := induction nodup fun other member has =>
        (List.mem_cons.mp (kept other (.tail _ member) has)).resolve_left
          fun equal => once (equal ▸ member)
      rw [List.filter_cons, List.filter_cons, rest]

/-- Items that are listed as in a list without repetition are known by which they
are. -/
theorem eq_of_sublists [DecidableEq α] {left right all : List α} (leftSublist : left.Sublist all)
    (rightSublist : right.Sublist all) (nodup : all.Nodup)
    (same : ∀ item, item ∈ left ↔ item ∈ right) : left = right :=
  calc left = left.filter fun item => item ∈ right :=
        (List.filter_eq_self.mpr fun item listed => by simpa using (same item).mp listed).symm
    _ = all.filter fun item => item ∈ right :=
        filter_eq_of_sublist leftSublist nodup fun item _ listed =>
          (same item).mpr (by simpa using listed)
    _ = right.filter fun item => item ∈ right :=
        (filter_eq_of_sublist rightSublist nodup fun item _ listed => by simpa using listed).symm
    _ = right := List.filter_eq_self.mpr fun item listed => by simpa using listed

/-- If there is no order, the nodes on cycles are reported, in ascending order. -/
theorem order_eq_error {edges : List Edge} {count : Nat}
    (bounded : ∀ edge ∈ edges, edge.1 < count ∧ edge.2 < count) (cyclic : ¬ Acyclic edges) :
    order edges count = .error ((List.range count).filter (isOnCycle edges count)) := by
  have stuck : (arrange edges count).stuck ≠ [] := by
    intro done
    exact cyclic ((order_isOk_iff bounded).mp
      ⟨(arrange edges count).placed, by simp [order, done]⟩)
  have onCycles : (arrange edges count).stuck.filter (isOnCycle edges count) =
      (List.range count).filter (isOnCycle edges count) := by
    apply filter_eq_of_sublist (stuck_sublist _ _ _) List.nodup_range
    intro node _ cycle
    exact stuck_of_cycle bounded
      ((isOnCycle_iff fun edge listed => (bounded edge listed).2).mp cycle)
  simp [order, stuck, onCycles]

end NodeGraph.Schedule
