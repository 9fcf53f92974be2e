import Mathlib.Logic.Function.Basic
import NodeGraph.Proofs.Schedule.Canonical

namespace NodeGraph

/-! Following edges by tables. Instead of looking through all edges for those that start on
a node, a table keeps for every node where they lead, and another one how many end on it.
Every look-up may go wrong and says so. Main statement: a search along the table for a way
back to where it starts ends, finds every entry that it looks for, and tells whether there
is such a way. -/

/-! ## Tables -/

/-- How work with tables goes wrong. -/
inductive Trap where
  /-- A table has no entry there. -/
  | missing
  /-- A count would fall below zero. -/
  | belowZero
  /-- A node becomes ready that has been ready before. -/
  | readyAgain
  /-- More room is asked for than there can be. -/
  | noRoom
  deriving DecidableEq, Repr

theorem ok_bind (value : α) (next : α → Except ε β) :
    (Except.ok value >>= next) = next value := rfl

/-- What must be there. -/
def present : Option α → Except Trap α
  | some found => .ok found
  | none => .error .missing

theorem present_eq_ok_iff {found : Option α} {value : α} :
    present found = .ok value ↔ found = some value := by
  cases found <;> simp [present]

/-- The entry of a table at a position. -/
def entry (table : List α) (position : Nat) : Except Trap α :=
  present table[position]?

theorem entry_eq_ok_iff {table : List α} {position : Nat} {found : α} :
    entry table position = .ok found ↔ table[position]? = some found :=
  present_eq_ok_iff

/-- The items that pass a check. -/
def keep (check : α → Except Trap Bool) : List α → Except Trap (List α)
  | [] => .ok []
  | item :: items => do
      let passes ← check item
      let others ← keep check items
      pure (if passes then item :: others else others)

theorem keep_eq {check : α → Except Trap Bool} {holds : α → Bool} {items : List α}
    (checked : ∀ item ∈ items, check item = .ok (holds item)) :
    keep check items = .ok (items.filter holds) := by
  induction items with
  | nil => rfl
  | cons item items induction =>
      rw [keep, checked item (.head _), ok_bind,
        induction fun other listed => checked other (.tail _ listed), List.filter_cons]
      rfl

/-! ## Tables of functions

A table of so many entries is a function on the positions below that. -/

/-- The table of what a function gives for the positions below `count`. -/
def tabulate (count : Nat) (value : Nat → α) : List α :=
  (List.range count).map value

@[simp] theorem tabulate_length (count : Nat) (value : Nat → α) :
    (tabulate count value).length = count := by
  simp [tabulate]

theorem entry_tabulate {count position : Nat} (value : Nat → α) (bound : position < count) :
    entry (tabulate count value) position = .ok (value position) := by
  rw [entry_eq_ok_iff, tabulate, List.getElem?_map, List.getElem?_range bound]
  rfl

/-- Changing one entry changes the function there. -/
theorem tabulate_set (count : Nat) (value : Nat → α) (position : Nat) (changed : α) :
    (tabulate count value).set position changed =
      tabulate count (Function.update value position changed) := by
  apply List.ext_getElem (by simp)
  intro other _ bound
  rw [tabulate_length] at bound
  rw [List.getElem_set]
  by_cases same : position = other
  · simp [tabulate, same]
  · simp [tabulate, same, Function.update_of_ne (Ne.symm same)]

theorem replicate_eq_tabulate (count : Nat) (value : α) :
    List.replicate count value = tabulate count fun _ => value := by
  simp [tabulate, List.map_const']

namespace Schedule

/-! ## Tables of edges -/

/-- Where the edges from every node lead, and how many edges end on it. -/
structure EdgeTables where
  dependents : List (List Nat)
  counts : List Nat

namespace EdgeTables

def empty (count : Nat) : EdgeTables :=
  ⟨List.replicate count [], List.replicate count 0⟩

def add (tables : EdgeTables) (edge : Edge) : Except Trap EdgeTables := do
  let dependents ← entry tables.dependents edge.1
  let ending ← entry tables.counts edge.2
  pure ⟨tables.dependents.set edge.1 (dependents ++ [edge.2]),
    tables.counts.set edge.2 (ending + 1)⟩

end EdgeTables

/-- The nodes to which edges lead from a node, in the order of the edges. -/
def dependentsOf (edges : List Edge) (node : Nat) : List Nat :=
  edges.filterMap fun edge => if edge.1 = node then some edge.2 else none

/-- How many edges end on a node. -/
def endingOn (edges : List Edge) (node : Nat) : Nat :=
  edges.countP fun edge => edge.2 = node

theorem mem_dependentsOf_iff {edges : List Edge} {node dependent : Nat} :
    dependent ∈ dependentsOf edges node ↔ (node, dependent) ∈ edges := by
  simp [dependentsOf]

/-- The tables of edges that join positions below `count`. -/
def EdgeTables.of (count : Nat) (edges : List Edge) : EdgeTables :=
  ⟨tabulate count (dependentsOf edges), tabulate count (endingOn edges)⟩

@[simp] theorem EdgeTables.of_dependents (count : Nat) (edges : List Edge) :
    (of count edges).dependents = tabulate count (dependentsOf edges) := rfl

@[simp] theorem EdgeTables.of_counts (count : Nat) (edges : List Edge) :
    (of count edges).counts = tabulate count (endingOn edges) := rfl

/-- An edge between positions that exist can be entered. -/
theorem EdgeTables.add_eq {count : Nat} {edges : List Edge} {edge : Edge}
    (source : edge.1 < count) (dependent : edge.2 < count) :
    (of count edges).add edge = .ok (of count (edges ++ [edge])) := by
  have dependents : Function.update (dependentsOf edges) edge.1
      (dependentsOf edges edge.1 ++ [edge.2]) = dependentsOf (edges ++ [edge]) := by
    funext node
    by_cases same : node = edge.1
    · simp [same, dependentsOf]
    · simp [Function.update_of_ne same, dependentsOf, Ne.symm same]
  have counts : Function.update (endingOn edges) edge.2 (endingOn edges edge.2 + 1) =
      endingOn (edges ++ [edge]) := by
    funext node
    by_cases same : node = edge.2
    · simp [same, endingOn]
    · simp [Function.update_of_ne same, endingOn, Ne.symm same]
  rw [of, of, ← dependents, ← counts, ← tabulate_set, ← tabulate_set, add,
    entry_tabulate _ source, ok_bind, entry_tabulate _ dependent]
  rfl

theorem EdgeTables.empty_eq (count : Nat) : empty count = of count [] := by
  rw [empty, replicate_eq_tabulate, replicate_eq_tabulate]
  rfl

/-! ## Searching for a way back -/

/-- Whether `start` comes up in a search. `stack` holds nodes to be looked at, the next one
first, `seen` says of every node whether it has been followed up. -/
def search (dependents : List (List Nat)) (start : Nat) (seen : List Bool) :
    (stack : List Nat) → Except Trap Bool
  | [] => .ok false
  | node :: stack =>
      if node = start then .ok true
      else
        match _ : entry seen node with
        | .error trap => .error trap
        | .ok true => search dependents start seen stack
        | .ok false => do
            let nodes ← entry dependents node
            search dependents start (seen.set node true) (nodes.reverse ++ stack)
termination_by stack => (seen.count false, stack.length)
decreasing_by
  · exact Prod.Lex.right _ (Nat.lt_succ_self _)
  -- The stack may grow, but one node less has not been seen.
  · apply Prod.Lex.left
    have located : seen[node]? = some false := entry_eq_ok_iff.mp ‹_›
    rcases List.getElem?_eq_some_iff.mp located with ⟨bound, unseen⟩
    have positive : 0 < seen.count false :=
      List.count_pos_iff.mpr (unseen ▸ List.getElem_mem bound)
    rw [List.count_set bound, unseen]
    change seen.count false - 1 + 0 < seen.count false
    omega

/-- A search under way: what is on the stack can be reached, and of what has been followed
up whatever comes next has been seen or is on the stack. The start itself is never followed
up a second time. -/
structure Explores (edges : List Edge) (count start : Nat) (seen : List Bool)
    (stack : List Nat) : Prop where
  width : seen.length = count
  reached : ∀ node ∈ stack, Relation.TransGen (DependsOn edges) start node
  startUnseen : seen[start]? ≠ some true
  followed : ∀ node, node = start ∨ seen[node]? = some true →
    ∀ next, (node, next) ∈ edges → seen[next]? = some true ∨ next ∈ stack

namespace Explores

variable {edges : List Edge} {count start node : Nat} {seen : List Bool} {stack : List Nat}

theorem lt_count (explores : Explores edges count start seen (node :: stack))
    (bounded : ∀ edge ∈ edges, edge.2 < count) : node < count := by
  cases explores.reached node (.head _) with
  | single edge => exact bounded _ edge
  | tail _ edge => exact bounded _ edge

/-- Once the stack is empty all that can be reached has been seen, and so the start cannot
be. -/
theorem not_cycle (explores : Explores edges count start seen []) :
    ¬ Relation.TransGen (DependsOn edges) start start := by
  have closed : ∀ node, node = start ∨ seen[node]? = some true →
      ∀ next, (node, next) ∈ edges → seen[next]? = some true := by
    intro node known next edge
    exact (explores.followed node known next edge).resolve_right List.not_mem_nil
  have allSeen : ∀ node, Relation.TransGen (DependsOn edges) start node →
      seen[node]? = some true := by
    intro node reachable
    induction reachable with
    | single edge => exact closed start (.inl rfl) _ edge
    | tail _ edge induction => exact closed _ (.inr induction) _ edge
  exact fun cycle => explores.startUnseen (allSeen start cycle)

/-- A node that has been followed up is not followed up again. -/
theorem skip (explores : Explores edges count start seen (node :: stack))
    (alreadySeen : seen[node]? = some true) : Explores edges count start seen stack where
  width := explores.width
  reached other listed := explores.reached other (.tail _ listed)
  startUnseen := explores.startUnseen
  followed other known next edge := by
    rcases explores.followed other known next edge with nextSeen | listed
    · exact .inl nextSeen
    · rcases List.mem_cons.mp listed with rfl | later
      · exact .inl alreadySeen
      · exact .inr later

theorem follow (explores : Explores edges count start seen (node :: stack))
    (elsewhere : node ≠ start) (bound : node < count) :
    Explores edges count start (seen.set node true)
      ((dependentsOf edges node).reverse ++ stack) where
  width := by rw [List.length_set, explores.width]
  reached other listed := by
    rcases List.mem_append.mp listed with fresh | waiting
    · exact (explores.reached node (.head _)).tail
        (mem_dependentsOf_iff.mp (List.mem_reverse.mp fresh))
    · exact explores.reached other (.tail _ waiting)
  startUnseen := by
    rw [List.getElem?_set_ne elsewhere]
    exact explores.startUnseen
  followed other known next edge := by
    have here : (seen.set node true)[node]? = some true :=
      List.getElem?_set_self (explores.width ▸ bound)
    by_cases same : other = node
    · subst same
      exact .inr (List.mem_append_left _ (List.mem_reverse.mpr (mem_dependentsOf_iff.mpr edge)))
    · rw [List.getElem?_set_ne (Ne.symm same)] at known
      by_cases nextSame : next = node
      · exact .inl (nextSame ▸ here)
      · rw [List.getElem?_set_ne (Ne.symm nextSame)]
        rcases explores.followed other known next edge with nextSeen | listed
        · exact .inl nextSeen
        · exact .inr (List.mem_append_right _ ((List.mem_cons.mp listed).resolve_left nextSame))

end Explores

/-- A search finds all entries that it looks for, and finds the start exactly if it can be
reached. -/
theorem search_eq {edges : List Edge} {count start : Nat} {seen : List Bool} {stack : List Nat}
    (bounded : ∀ edge ∈ edges, edge.2 < count)
    (explores : Explores edges count start seen stack) :
    ∃ found, search (tabulate count (dependentsOf edges)) start seen stack = .ok found ∧
      (found = true ↔ Relation.TransGen (DependsOn edges) start start) := by
  fun_induction search (tabulate count (dependentsOf edges)) start seen stack with
  | case1 seen => exact ⟨false, rfl, by simpa using explores.not_cycle⟩
  | case2 seen stack => exact ⟨true, rfl, by simpa using explores.reached start (.head _)⟩
  | case3 seen node stack elsewhere trap missing =>
      have bound := explores.lt_count bounded
      rw [← explores.width] at bound
      have located := entry_eq_ok_iff.mpr (List.getElem?_eq_getElem bound)
      rw [missing] at located
      cases located
  | case4 seen node stack elsewhere alreadySeen induction =>
      exact induction (explores.skip (entry_eq_ok_iff.mp alreadySeen))
  | case5 seen node stack elsewhere unseen induction =>
      have bound := explores.lt_count bounded
      rw [entry_tabulate _ bound]
      exact induction _ (explores.follow elsewhere bound)

/-- Whether a node can be reached from itself. -/
def returns (dependents : List (List Nat)) (start : Nat) : Except Trap Bool := do
  let nodes ← entry dependents start
  search dependents start (List.replicate dependents.length false) nodes.reverse

theorem returns_eq {edges : List Edge} {count start : Nat}
    (bounded : ∀ edge ∈ edges, edge.2 < count) (bound : start < count) :
    returns (tabulate count (dependentsOf edges)) start = .ok (isOnCycle edges count start) := by
  have explores : Explores edges count start (List.replicate count false)
      (dependentsOf edges start).reverse := {
    width := List.length_replicate
    reached := fun node listed =>
      .single (mem_dependentsOf_iff.mp (List.mem_reverse.mp listed))
    startUnseen := by simp [List.getElem?_replicate]
    followed := by
      intro node known next edge
      rcases known with rfl | seen
      · exact .inr (List.mem_reverse.mpr (mem_dependentsOf_iff.mpr edge))
      · simp [List.getElem?_replicate] at seen }
  rcases search_eq bounded explores with ⟨found, searched, meaning⟩
  have same : found = isOnCycle edges count start := by
    rw [Bool.eq_iff_iff, meaning, isOnCycle_iff bounded]
  rw [returns, entry_tabulate _ bound, tabulate_length, ← same]
  exact searched

end Schedule

end NodeGraph
