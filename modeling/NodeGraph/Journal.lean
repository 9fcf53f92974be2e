import NodeGraph.Identifier

namespace NodeGraph

/-! A record of what happens while a graph runs. Every call into a graph returns
the journal of that call; the log of a host is read off it. -/

/-! ## Events -/

inductive Target where
  /-- Input event `input` of the node at position `node`. -/
  | node (node input : Nat)
  /-- An output event of the graph, for the host to pick up. -/
  | graphOutput (id : Identifier)
  deriving BEq, Repr

/-- An event that a node fires on one of its output events. -/
structure Emission where
  output : Nat
  event : Identifier
  deriving BEq, Repr

/-! ## Journals -/

/-- One thing that happened in a graph. Nodes are named by position. -/
inductive Entry where
  | emitted (node : Nat) (emission : Emission)
  | delivered (target : Target) (event : Identifier)
  /-- A delivered output event found the outgoing queue full. -/
  | queueFull (event : Identifier)
  /-- The call used up its deliveries; `dropped` emissions were given up. -/
  | exhausted (graph : String) (limit dropped : Nat)
  | unknownInput (graph : String) (id : Identifier)
  | unknownLocal (graph : String) (id : Identifier)
  /-- The host posted an event that leads nowhere. -/
  | unknownEvent (graph : String) (id : Identifier)
  /-- Something happened in the graph inside a node. -/
  | inside (node : Nat) (entry : Entry)
  deriving Repr

namespace Entry

/-- The delivery that an entry records for the graph itself. -/
def delivery? : Entry → Option (Target × Identifier)
  | .delivered target event => some (target, event)
  | _ => none

/-- The emission that an entry records for the graph itself. -/
def emission? : Entry → Option (Nat × Emission)
  | .emitted node emission => some (node, emission)
  | _ => none

end Entry

/-! ## Logs -/

/-- How much a log record matters. -/
inductive Severity where
  | warn
  | info
  | debug
  deriving DecidableEq, Repr

namespace Severity

def name : Severity → String
  | .warn => "warn"
  | .info => "info"
  | .debug => "debug"

def ofName? : String → Option Severity
  | "warn" => some .warn
  | "info" => some .info
  | "debug" => some .debug
  | _ => none

/-- Warnings come first. -/
def rank : Severity → Nat
  | .warn => 0
  | .info => 1
  | .debug => 2

/-- Whether a log of severity `threshold` shows a record. -/
def shownAt (severity threshold : Severity) : Bool :=
  severity.rank ≤ threshold.rank

end Severity

structure LogRecord where
  severity : Severity
  text : String
  deriving DecidableEq, Repr

/-- The log record of an entry. Emissions and deliveries are not logged; what
happens inside a node is logged as if it happened on its own. -/
def Entry.logRecord? : Entry → Option LogRecord
  | .emitted .. => none
  | .delivered .. => none
  | .queueFull event =>
      some ⟨.warn, "Outgoing event queue full, dropping " ++ event.display⟩
  | .exhausted graph limit dropped =>
      some ⟨.warn, "Graph '" ++ graph ++ "' exceeded " ++ toString limit ++
        " event deliveries, dropping " ++ toString dropped ++ " pending"⟩
  | .unknownInput graph id =>
      some ⟨.warn, "Graph '" ++ graph ++ "' has no input " ++ id.display⟩
  | .unknownLocal graph id =>
      some ⟨.warn, "Graph '" ++ graph ++ "' has no local variable " ++ id.display⟩
  | .unknownEvent graph id =>
      some ⟨.warn, "Graph '" ++ graph ++ "' has no input event " ++ id.display⟩
  | .inside _ entry => entry.logRecord?

def logOf (journal : Array Entry) : List LogRecord :=
  journal.toList.filterMap Entry.logRecord?

/-- The records that a log of severity `threshold` shows. -/
def logShownAt (threshold : Severity) (log : List LogRecord) : List LogRecord :=
  log.filter fun record => record.severity.shownAt threshold

end NodeGraph
