import Mathlib.Algebra.GroupWithZero.Nat
import Mathlib.Data.List.Sort
import NodeGraph.Proofs.Schedule.Tables

namespace NodeGraph.Schedule

/-! Ordering by counts. A table says how many edges each node still waits for. Placing a
node lowers the counts of the nodes that depend on it, and a node whose count comes to zero
is ready. Main statement: no count is ever lowered below zero, no node becomes ready twice,
nothing is looked up in vain, and the outcome is that of an arrangement. -/

/-! ## Placing nodes -/

/-- Nodes on the way to an order. -/
structure Progress where
  /-- For every node, how many edges it waits for. -/
  counts : List Nat
  /-- The nodes that may be placed next, in ascending order. -/
  ready : List Nat
  /-- The nodes that have become ready so far, those placed since among them. -/
  entered : List Nat

namespace Progress

/-- A node becomes ready. -/
def enter (progress : Progress) (node : Nat) : Except Trap Progress :=
  if node ∈ progress.entered then .error .readyAgain
  else .ok { progress with
    ready := progress.ready.orderedInsert (· ≤ ·) node
    entered := node :: progress.entered }

/-- A node waits for one edge less. -/
def release (progress : Progress) (node : Nat) : Except Trap Progress :=
  match entry progress.counts node with
  | .error trap => .error trap
  | .ok 0 => .error .belowZero
  | .ok (waits + 1) =>
      let lowered := { progress with counts := progress.counts.set node waits }
      if waits = 0 then lowered.enter node else .ok lowered

def releaseAll (progress : Progress) (nodes : List Nat) : Except Trap Progress :=
  nodes.foldlM release progress

/-- How many edges are waited for and nodes may be placed. -/
def remaining (progress : Progress) : Nat :=
  progress.counts.sum + progress.ready.length

theorem sum_set {numbers : List Nat} {position number : Nat} (lower : Nat)
    (located : numbers[position]? = some number) :
    (numbers.set position lower).sum + number = numbers.sum + lower := by
  induction numbers generalizing position with
  | nil => simp at located
  | cons first numbers induction =>
      cases position with
      | zero =>
          obtain rfl : first = number := by simpa using located
          simp only [List.set_cons_zero, List.sum_cons]
          omega
      | succ position =>
          have rest := induction (by simpa using located)
          simp only [List.set_cons_succ, List.sum_cons]
          omega

theorem remaining_enter {progress later : Progress} {node : Nat}
    (entered : progress.enter node = .ok later) : later.remaining = progress.remaining + 1 := by
  unfold enter at entered
  split at entered
  · cases entered
  · cases entered
    rw [remaining, remaining, List.orderedInsert_length, Nat.add_assoc]

/-- Becoming ready takes an edge less to wait for. -/
theorem remaining_release {progress later : Progress} {node : Nat}
    (released : progress.release node = .ok later) : later.remaining ≤ progress.remaining := by
  unfold release at released
  split at released
  next => cases released
  next => cases released
  next waits located =>
    have sum := sum_set waits (entry_eq_ok_iff.mp located)
    split at released
    next =>
      rw [remaining_enter released]
      simp only [remaining]
      omega
    next =>
      cases released
      simp only [remaining]
      omega

theorem remaining_releaseAll {progress later : Progress} {nodes : List Nat}
    (released : progress.releaseAll nodes = .ok later) :
    later.remaining ≤ progress.remaining := by
  induction nodes generalizing progress with
  | nil =>
      cases released
      exact Nat.le_refl _
  | cons node nodes induction =>
      rw [releaseAll, List.foldlM_cons] at released
      cases first : progress.release node with
      | error trap =>
          rw [first] at released
          cases released
      | ok next =>
          rw [first] at released
          exact (induction released).trans (remaining_release first)

end Progress

/-- Places the nodes that may be placed, the smallest position first, until there is none.
Yields the nodes placed, in order, and what the others still wait for. -/
def place (dependents : List (List Nat)) (progress : Progress) :
    Except Trap (List Nat × List Nat) :=
  match _ : progress.ready with
  | [] => .ok ([], progress.counts)
  | node :: ready => do
      let nodes ← entry dependents node
      match _ : { progress with ready }.releaseAll nodes with
      | .error trap => .error trap
      | .ok later =>
          let (placed, counts) ← place dependents later
          pure (node :: placed, counts)
termination_by progress.remaining
decreasing_by
  have fewer := Progress.remaining_releaseAll ‹_›
  simp only [Progress.remaining] at fewer ⊢
  rw [‹progress.ready = _›, List.length_cons]
  omega

theorem place_nil {dependents : List (List Nat)} {progress : Progress}
    (nothing : progress.ready = []) : place dependents progress = .ok ([], progress.counts) := by
  rw [place]
  split
  next => rfl
  next node ready next => simp [nothing] at next

theorem place_cons {dependents : List (List Nat)} {progress later : Progress} {node : Nat}
    {ready nodes : List Nat} (next : progress.ready = node :: ready)
    (located : entry dependents node = .ok nodes)
    (released : { progress with ready }.releaseAll nodes = .ok later) :
    place dependents progress = (do
      let (placed, counts) ← place dependents later
      pure (node :: placed, counts)) := by
  rw [place]
  split
  next nothing => simp [nothing] at next
  next other others found =>
    obtain ⟨rfl, rfl⟩ : node = other ∧ ready = others := by simpa [found, eq_comm] using next
    rw [located]
    show (match _ : { progress with ready }.releaseAll nodes with
      | .error trap => _
      | .ok later => _) = _
    split
    next trap failed => simp [released] at failed
    next result succeeded =>
      obtain rfl : later = result := by simpa [released] using succeeded
      rfl

/-! ## Lowering counts -/

/-- The counts are those of a function, and what has entered are the nodes that wait for
nothing. -/
structure Progress.Tracks (count : Nat) (waits : Nat → Nat) (progress : Progress) : Prop where
  counts : progress.counts = tabulate count waits
  ascending : progress.ready.Pairwise (· < ·)
  readyEntered : ∀ node ∈ progress.ready, node ∈ progress.entered
  entered : ∀ node, node ∈ progress.entered ↔ node < count ∧ waits node = 0

theorem orderedInsert_ascending {numbers : List Nat} {number : Nat}
    (ascending : numbers.Pairwise (· < ·)) (absent : number ∉ numbers) :
    (numbers.orderedInsert (· ≤ ·) number).Pairwise (· < ·) := by
  have sorted : (numbers.orderedInsert (· ≤ ·) number).Pairwise (· ≤ ·) :=
    (ascending.imp Nat.le_of_lt).orderedInsert number numbers
  have nodup : (numbers.orderedInsert (· ≤ ·) number).Nodup :=
    (List.perm_orderedInsert (· ≤ ·) number numbers).nodup_iff.mpr
      (List.nodup_cons.mpr ⟨absent, ascending.imp Nat.ne_of_lt⟩)
  exact sorted.imp₂ (fun _ _ => Nat.lt_of_le_of_ne) nodup

namespace Progress.Tracks

variable {count : Nat} {waits : Nat → Nat} {progress : Progress}

/-- A node that waits for some edge can be released from one, and becomes ready if it was
the last. -/
theorem release (tracks : progress.Tracks count waits) {node : Nat} (bound : node < count)
    (waiting : 0 < waits node) :
    ∃ later, progress.release node = .ok later ∧
      later.Tracks count (Function.update waits node (waits node - 1)) ∧
      ∀ other, other ∈ later.ready ↔ other ∈ progress.ready ∨ (other = node ∧ waits node = 1) := by
  have notEntered : node ∉ progress.entered := by
    rw [tracks.entered]
    omega
  have located : entry progress.counts node = .ok (waits node - 1 + 1) := by
    rw [tracks.counts, entry_tabulate _ bound, Nat.sub_add_cancel waiting]
  have lowered : progress.counts.set node (waits node - 1) =
      tabulate count (Function.update waits node (waits node - 1)) := by
    rw [tracks.counts, tabulate_set]
  unfold Progress.release
  rw [located]
  by_cases last : waits node - 1 = 0
  · have once : waits node = 1 := by omega
    refine ⟨⟨progress.counts.set node (waits node - 1),
      progress.ready.orderedInsert (· ≤ ·) node, node :: progress.entered⟩,
      by simp only [if_pos last, enter, if_neg notEntered], ⟨lowered, ?_, ?_, ?_⟩, ?_⟩
    · exact orderedInsert_ascending tracks.ascending fun listed =>
        notEntered (tracks.readyEntered node listed)
    · intro other listed
      rcases List.mem_orderedInsert _ |>.mp listed with rfl | before
      · exact .head _
      · exact .tail _ (tracks.readyEntered other before)
    · intro other
      rw [List.mem_cons, tracks.entered]
      by_cases same : other = node
      · simp [same, bound, last]
      · simp [same]
    · intro other
      rw [List.mem_orderedInsert]
      simp [once, or_comm]
  · refine ⟨{ progress with counts := progress.counts.set node (waits node - 1) },
      by simp only [if_neg last], ⟨lowered, tracks.ascending, tracks.readyEntered, ?_⟩, ?_⟩
    · intro other
      rw [tracks.entered]
      by_cases same : other = node
      · subst same
        simp only [Function.update_self]
        omega
      · simp [Function.update_of_ne same]
    · intro other
      have several : waits node ≠ 1 := by omega
      simp [several]

/-- A node that waits for no edge cannot be released from one. -/
example : Progress.release ⟨[0], [], []⟩ 0 = .error .belowZero := rfl

/-- If every node waits for at least as many edges as it is released from, all can be
released. -/
theorem releaseAll (tracks : progress.Tracks count waits) {nodes : List Nat}
    (bounded : ∀ node ∈ nodes, node < count) (enough : ∀ node, nodes.count node ≤ waits node) :
    ∃ later, progress.releaseAll nodes = .ok later ∧
      later.Tracks count (fun node => waits node - nodes.count node) ∧
      ∀ other, other ∈ later.ready ↔
        other ∈ progress.ready ∨ (other ∈ nodes ∧ waits other = nodes.count other) := by
  -- A node may be listed several times, once for each edge; it becomes ready with the last.
  induction nodes generalizing progress waits with
  | nil => exact ⟨progress, rfl, tracks, by simp⟩
  | cons node nodes induction =>
      have waiting : nodes.count node < waits node := by
        have here := enough node
        rw [List.count_cons_self] at here
        exact here
      rcases tracks.release (bounded node (.head _)) (Nat.zero_lt_of_lt waiting) with
        ⟨next, released, nextTracks, nextReady⟩
      have enoughLeft : ∀ other,
          nodes.count other ≤ Function.update waits node (waits node - 1) other := by
        intro other
        by_cases same : other = node
        · subst same
          rw [Function.update_self]
          omega
        · rw [Function.update_of_ne same]
          have before := enough other
          rwa [List.count_cons_of_ne (Ne.symm same)] at before
      rcases induction nextTracks (fun other listed => bounded other (.tail _ listed))
        enoughLeft with ⟨later, rest, laterTracks, laterReady⟩
      refine ⟨later, ?_, ?_, ?_⟩
      · rw [Progress.releaseAll, List.foldlM_cons, released]
        exact rest
      · have same : (fun other => waits other - (node :: nodes).count other) = fun other =>
            Function.update waits node (waits node - 1) other - nodes.count other := by
          funext other
          by_cases same : other = node
          · subst same
            rw [Function.update_self, List.count_cons_self]
            omega
          · rw [Function.update_of_ne same, List.count_cons_of_ne (Ne.symm same)]
        rw [same]
        exact laterTracks
      · intro other
        rw [laterReady, nextReady]
        by_cases same : other = node
        · subst same
          rw [Function.update_self, List.count_cons_self]
          have listed : other ∈ nodes ↔ 0 < nodes.count other := List.count_pos_iff.symm
          have lastOfAll : waits other = 1 ∨
              (0 < nodes.count other ∧ waits other - 1 = nodes.count other) ↔
              waits other = nodes.count other + 1 := by
            omega
          simp only [listed, List.mem_cons, true_or, true_and, or_assoc, lastOfAll]
        · rw [Function.update_of_ne same, List.count_cons_of_ne (Ne.symm same)]
          simp [same]

end Progress.Tracks

/-! ## Arranging by counts -/

/-- How many edges end on a node from nodes that have not been placed. -/
def pending (edges : List Edge) (waiting : List Nat) (node : Nat) : Nat :=
  edges.countP fun edge => edge.2 = node ∧ edge.1 ∈ waiting

theorem pending_eq_zero_iff {edges : List Edge} {waiting : List Nat} {node : Nat} :
    pending edges waiting node = 0 ↔ isReady edges waiting node = true := by
  rw [pending, List.countP_eq_zero, isReady_iff]
  constructor
  · intro none source member listed
    exact none (source, node) listed (by simp [member])
  · intro ready edge listed holds
    rcases of_decide_eq_true holds with ⟨rfl, member⟩
    exact ready edge.1 member listed

/-- What waits for a node stops waiting for it when it is placed. -/
theorem pending_erase (edges : List Edge) {waiting : List Nat} {node : Nat}
    (nodup : waiting.Nodup) (member : node ∈ waiting) (other : Nat) :
    pending edges waiting other =
      pending edges (waiting.erase node) other + (dependentsOf edges node).count other := by
  induction edges with
  | nil => rfl
  | cons edge edges induction =>
      simp only [pending, dependentsOf] at induction ⊢
      rw [List.countP_cons, List.countP_cons, List.filterMap_cons, induction]
      by_cases here : edge.1 = node
      · have placed : edge.1 ∉ waiting.erase node := fun listed =>
          (nodup.mem_erase_iff.mp listed).1 here
        have waits : edge.1 ∈ waiting := here ▸ member
        rw [if_pos here, List.count_cons]
        by_cases same : edge.2 = other
        · simp only [same, waits, placed, and_self, and_false, decide_true, decide_false, if_true,
            Bool.false_eq_true, if_false, BEq.rfl]
          omega
        · simp [same]
      · have same : edge.1 ∈ waiting.erase node ↔ edge.1 ∈ waiting := by
          rw [nodup.mem_erase_iff, and_iff_right here]
        rw [if_neg here]
        simp only [same]
        omega

/-- The tables are those of nodes of which some have been placed: the counts say how many
edges from the others end on a node, and whatever could come next is ready. -/
structure Progress.Awaits (edges : List Edge) (count : Nat) (waiting : List Nat)
    (progress : Progress) : Prop where
  tracks : progress.Tracks count (pending edges waiting)
  ascending : waiting.Pairwise (· < ·)
  bounded : ∀ node ∈ waiting, node < count
  ready : ∀ node, node ∈ progress.ready ↔ node ∈ waiting ∧ pending edges waiting node = 0
  closed : ∀ edge ∈ edges, edge.1 ∈ waiting → edge.2 ∈ waiting

namespace Progress.Awaits

variable {edges : List Edge} {count : Nat} {waiting : List Nat} {progress : Progress}

/-- The next node to be placed is the first that is ready. -/
theorem find? (awaits : progress.Awaits edges count waiting) :
    waiting.find? (isReady edges waiting) = progress.ready.head? := by
  have same : progress.ready = waiting.filter (isReady edges waiting) := by
    apply awaits.tracks.ascending.eq_of_mem_iff (awaits.ascending.filter _)
    intro node
    rw [awaits.ready, List.mem_filter, pending_eq_zero_iff]
  rw [same, List.head?_filter]

/-- When a node has been placed, the nodes that depend on it can be released. -/
theorem place (awaits : progress.Awaits edges count waiting) {node : Nat} {ready : List Nat}
    (next : progress.ready = node :: ready) :
    ∃ later, { progress with ready }.releaseAll (dependentsOf edges node) = .ok later ∧
      later.Awaits edges count (waiting.erase node) := by
  rcases (awaits.ready node).mp (next ▸ .head _) with ⟨member, nodeReady⟩
  have nodup : waiting.Nodup := awaits.ascending.imp Nat.ne_of_lt
  have split := pending_erase edges nodup member
  have ascending := awaits.tracks.ascending
  rw [next, List.pairwise_cons] at ascending
  have tracks : { progress with ready }.Tracks count (pending edges waiting) :=
    ⟨awaits.tracks.counts, ascending.2,
      fun other listed => awaits.tracks.readyEntered other (next ▸ .tail _ listed),
      awaits.tracks.entered⟩
  have dependentsWait : ∀ other ∈ dependentsOf edges node, other ∈ waiting := fun other listed =>
    awaits.closed (node, other) (mem_dependentsOf_iff.mp listed) member
  rcases tracks.releaseAll (fun other listed => awaits.bounded other (dependentsWait other listed))
      fun other => by rw [split other]; exact Nat.le_add_left _ _ with
    ⟨later, released, laterTracks, laterReady⟩
  refine ⟨later, released, ?tracks, awaits.ascending.sublist List.erase_sublist,
    fun other listed => awaits.bounded other (List.mem_of_mem_erase listed), ?ready, ?closed⟩
  case tracks =>
    have same : (fun other => pending edges waiting other -
        (dependentsOf edges node).count other) = pending edges (waiting.erase node) := by
      funext other
      rw [split other, Nat.add_sub_cancel]
    rwa [same] at laterTracks
  case ready =>
    intro other
    rw [laterReady, nodup.mem_erase_iff]
    have counted := split other
    constructor
    · intro isReady
      rcases isReady with before | ⟨listed, last⟩
      · rcases (awaits.ready other).mp (next ▸ .tail _ before) with ⟨waits, noneLeft⟩
        exact ⟨⟨Nat.ne_of_gt (ascending.1 other before), waits⟩, by omega⟩
      · have positive : 0 < (dependentsOf edges node).count other := List.count_pos_iff.mpr listed
        refine ⟨⟨fun same => ?_, dependentsWait other listed⟩, by omega⟩
        subst same
        omega
    · intro awaited
      rcases awaited with ⟨⟨different, waits⟩, noneLeft⟩
      by_cases before : pending edges waiting other = 0
      · have listed := (awaits.ready other).mpr ⟨waits, before⟩
        rw [next] at listed
        exact .inl ((List.mem_cons.mp listed).resolve_left different)
      · exact .inr ⟨List.count_pos_iff.mp (by omega), by omega⟩
  case closed =>
    intro edge listed sourceWaits
    rw [nodup.mem_erase_iff] at sourceWaits ⊢
    refine ⟨fun same => ?_, awaits.closed edge listed sourceWaits.2⟩
    have nodeIsReady := (isReady_iff edges waiting node).mp (pending_eq_zero_iff.mp nodeReady)
    exact nodeIsReady edge.1 sourceWaits.2 (same ▸ listed)

end Progress.Awaits

/-- Placing nodes by counts never goes wrong, and places them as they are arranged. The
induction is on the nodes that wait. -/
theorem place_eq {edges : List Edge} {count steps : Nat} {waiting : List Nat}
    {progress : Progress} (awaits : progress.Awaits edges count waiting)
    (room : waiting.length ≤ steps) :
    place (tabulate count (dependentsOf edges)) progress =
      .ok ((arrangeWaiting edges steps waiting).placed,
        tabulate count (pending edges (arrangeWaiting edges steps waiting).stuck)) := by
  induction steps generalizing waiting progress with
  | zero =>
      have empty : waiting = [] := List.length_eq_zero_iff.mp (by omega)
      subst empty
      have nothing : progress.ready = [] := by
        rw [← List.head?_eq_none_iff, ← awaits.find?]
        rfl
      rw [place_nil nothing, awaits.tracks.counts]
      rfl
  | succ steps induction =>
      rw [arrangeWaiting, awaits.find?]
      cases next : progress.ready with
      | nil =>
        rw [place_nil next, awaits.tracks.counts]
        rfl
      | cons node ready =>
        rcases awaits.place next with ⟨later, released, laterAwaits⟩
        have member : node ∈ waiting := ((awaits.ready node).mp (next ▸ .head _)).1
        have shorter : (waiting.erase node).length ≤ steps := by
          rw [List.length_erase_of_mem member]
          omega
        rw [place_cons next (entry_tabulate _ (awaits.bounded node member)) released,
          induction laterAwaits shorter]
        rfl

/-! ## Orders -/

/-- The positions below `count` that still wait for an edge and can be reached from
themselves. -/
def cycleByTables (dependents : List (List Nat)) (counts : List Nat) (count : Nat) :
    Except Trap (List Nat) :=
  keep (fun node => do
    let waits ← entry counts node
    if 0 < waits then returns dependents node else pure false) (List.range count)

/-- The order of the positions below `count`, or the positions that lie on cycles, worked
out by tables. -/
def orderByTables (tables : EdgeTables) (count : Nat) :
    Except Trap (Except (List Nat) (List Nat)) := do
  let ready ← keep (fun node => (· == 0) <$> entry tables.counts node) (List.range count)
  let (placed, counts) ← place tables.dependents ⟨tables.counts, ready, ready⟩
  if placed.length < count then
    let cycle ← cycleByTables tables.dependents counts count
    pure (.error cycle)
  else
    pure (.ok placed)

theorem Progress.awaits_start {edges : List Edge} {count : Nat}
    (bounded : ∀ edge ∈ edges, edge.1 < count ∧ edge.2 < count) {ready : List Nat}
    (isReady : ready = (List.range count).filter fun node => endingOn edges node == 0) :
    Progress.Awaits edges count (List.range count)
      ⟨tabulate count (endingOn edges), ready, ready⟩ := by
  have same : pending edges (List.range count) = endingOn edges := by
    funext node
    apply List.countP_congr
    intro edge listed
    simp [(bounded edge listed).1]
  have readyIff : ∀ node, node ∈ ready ↔ node < count ∧ endingOn edges node = 0 := by
    intro node
    rw [isReady, List.mem_filter, List.mem_range, beq_iff_eq]
  refine ⟨⟨?_, ?_, fun node listed => listed, ?_⟩, List.pairwise_lt_range,
    fun node => List.mem_range.mp, ?_,
    fun edge listed _ => List.mem_range.mpr (bounded edge listed).2⟩
  · rw [same]
  · rw [isReady]
    exact List.pairwise_lt_range.filter _
  · rw [same]
    exact readyIff
  · intro node
    rw [same, List.mem_range]
    exact readyIff node

/-- What lies on a cycle still waits for an edge in the end. -/
theorem pending_pos_of_cycle {edges : List Edge} {count node : Nat}
    (bounded : ∀ edge ∈ edges, edge.1 < count ∧ edge.2 < count)
    (cycle : Relation.TransGen (DependsOn edges) node node) :
    0 < pending edges (arrange edges count).stuck node := by
  rcases exists_stuck_source (by simp) (stuck_of_cycle bounded cycle) with
    ⟨source, stuck, edge⟩
  exact List.countP_pos_iff.mpr ⟨(source, node), edge, decide_eq_true ⟨rfl, stuck⟩⟩

theorem cycleByTables_eq {edges : List Edge} {count : Nat}
    (bounded : ∀ edge ∈ edges, edge.1 < count ∧ edge.2 < count) :
    cycleByTables (tabulate count (dependentsOf edges))
        (tabulate count (pending edges (arrange edges count).stuck)) count =
      .ok ((List.range count).filter (isOnCycle edges count)) := by
  have dependentsBounded : ∀ edge ∈ edges, edge.2 < count := fun edge listed =>
    (bounded edge listed).2
  apply keep_eq
  intro node listed
  have bound := List.mem_range.mp listed
  rw [entry_tabulate _ bound, ok_bind]
  split
  next => exact returns_eq dependentsBounded bound
  next notWaiting =>
    have apart : isOnCycle edges count node = false := by
      rw [← Bool.not_eq_true, isOnCycle_iff dependentsBounded]
      exact fun cycle => notWaiting (pending_pos_of_cycle bounded cycle)
    rw [apart]
    rfl

theorem lt_of_mem_cycle {edges : List Edge} {count : Nat} {cycle : List Nat}
    (failed : order edges count = .error cycle) {position : Nat} (listed : position ∈ cycle) :
    position < count := by
  simp only [order] at failed
  split at failed
  · cases failed
  · cases failed
    exact List.mem_range.mp ((stuck_sublist _ _ _).subset (List.mem_of_mem_filter listed))

/-- Ordering by tables never goes wrong, and gives the order that is arranged or the same
nodes on cycles. -/
theorem orderByTables_eq {edges : List Edge} {count : Nat}
    (bounded : ∀ edge ∈ edges, edge.1 < count ∧ edge.2 < count) :
    orderByTables (.of count edges) count = .ok (order edges count) := by
  have ready : keep (fun node => (· == 0) <$> entry (tabulate count (endingOn edges)) node)
      (List.range count) =
      .ok ((List.range count).filter fun node => endingOn edges node == 0) := by
    apply keep_eq
    intro node listed
    rw [entry_tabulate _ (List.mem_range.mp listed)]
    rfl
  have placed := place_eq (Progress.awaits_start bounded rfl) (Nat.le_of_eq List.length_range)
  rw [← arrange] at placed
  simp only [orderByTables, EdgeTables.of_dependents, EdgeTables.of_counts, ok_bind, ready,
    placed, cycleByTables_eq bounded]
  have length : (arrange edges count).placed.length + (arrange edges count).stuck.length =
      count := by
    rw [← List.length_append, arrange, (arrangeWaiting_perm edges count _).length_eq,
      List.length_range]
  by_cases done : (arrange edges count).stuck = []
  · have all : ¬ (arrange edges count).placed.length < count := by
      rw [done, List.length_nil] at length
      omega
    rw [if_neg all, order, done]
    rfl
  · have some : (arrange edges count).placed.length < count := by
      have stuck := List.length_pos_iff.mpr done
      omega
    have cyclic : ¬ Acyclic edges := by
      rw [← order_isOk_iff bounded]
      intro ordered
      rcases ordered with ⟨result, ordered⟩
      exact done (congrArg Arrangement.stuck (arrange_of_order ordered))
    rw [if_pos some, order_eq_error bounded cyclic]
    rfl

end NodeGraph.Schedule
