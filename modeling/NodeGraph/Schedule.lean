namespace NodeGraph.Schedule

/-! The order in which nodes run. Nodes are positions below some count, and an
edge `(source, dependent)` asks for the source to run first. Among the nodes
that may run, the one with the smallest position runs next. -/

/-- A wire from one position to another. Wires may be repeated and may lead from
a position to itself. -/
abbrev Edge := Nat × Nat

/-- Whether every node on which `node` depends has been placed, `waiting` being
those that have not. -/
def isReady (edges : List Edge) (waiting : List Nat) (node : Nat) : Bool :=
  edges.all fun edge => edge.2 != node || !waiting.contains edge.1

/-- How far an arrangement got: the nodes placed, in order, and those left
waiting because each depends on another one left. -/
structure Arrangement where
  placed : List Nat
  stuck : List Nat
  deriving DecidableEq, Repr

/-- Places up to `count` of the waiting nodes, each time the first that is
ready. -/
def arrangeWaiting (edges : List Edge) : (count : Nat) → (waiting : List Nat) → Arrangement
  | 0, waiting => ⟨[], waiting⟩
  | count + 1, waiting =>
      match waiting.find? (isReady edges waiting) with
      | none => ⟨[], waiting⟩
      | some node =>
          let later := arrangeWaiting edges count (waiting.erase node)
          { later with placed := node :: later.placed }

def arrange (edges : List Edge) (count : Nat) : Arrangement :=
  arrangeWaiting edges count (List.range count)

/-- Of the nodes that are ready, the one with the smallest position comes first. -/
example : arrange [(3, 1), (3, 1)] 4 = ⟨[0, 2, 3, 1], []⟩ := by decide

/-- A node that waits for a cycle is stuck as well. -/
example : arrange [(0, 1), (1, 0), (1, 2)] 4 = ⟨[3], [0, 1, 2]⟩ := by decide

/-! ## Cycles -/

/-- The nodes one wire away from any of `nodes`, without repetition. -/
def successors (edges : List Edge) (nodes : List Nat) : List Nat :=
  ((edges.filter fun edge => nodes.contains edge.1).map Prod.snd).eraseDups

/-- Adds to `reached` whatever can be reached from `frontier` in at most `steps`
rounds. -/
def spread (edges : List Edge) : (steps : Nat) → (reached frontier : List Nat) → List Nat
  | 0, reached, _ => reached
  | steps + 1, reached, frontier =>
      let fresh := (successors edges frontier).filter fun node => !reached.contains node
      if fresh.isEmpty then reached else spread edges steps (reached ++ fresh) fresh

/-- Whether one of the positions below `count` can be reached from itself along
at least one wire. -/
def isOnCycle (edges : List Edge) (count node : Nat) : Bool :=
  (spread edges (count + 1) [] [node]).contains node

example : isOnCycle [(0, 1), (1, 0), (1, 2)] 4 1 = true := by decide

example : isOnCycle [(0, 1), (1, 0), (1, 2)] 4 2 = false := by decide

/-- The order in which the positions below `count` run, or the positions that
lie on cycles, in ascending order. -/
def order (edges : List Edge) (count : Nat) : Except (List Nat) (List Nat) :=
  let arrangement := arrange edges count
  if arrangement.stuck.isEmpty then
    .ok arrangement.placed
  else
    .error (arrangement.stuck.filter (isOnCycle edges count))

end NodeGraph.Schedule
