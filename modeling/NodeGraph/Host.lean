import NodeGraph.Graph

namespace NodeGraph

/-! What a host does with a graph: a small vocabulary of calls, each with an
answer and a journal. -/

/-- A call from the host that may change a graph. -/
inductive Call where
  | setInput (id : Identifier) (value : Value)
  | setLocal (id : Identifier) (value : Value)
  | process (timeStep : Binary32)
  | post (id : Identifier)
  | drain
  | reset
  | init (context : Context)

inductive Answer where
  | accepted (yes : Bool)
  | consumed (amount : Binary32)
  | events (ids : List Identifier)
  | done

namespace Graph

variable [Processor ν]

/-- A call that the graph may refuse. A refusal leaves the graph alone and is put
on record. -/
def settled (graph : Graph ν) (refusal : Entry) :
    Option (Graph ν × Array Entry) → Graph ν × Answer × Array Entry
  | some (after, journal) => (after, .accepted true, journal)
  | none => (graph, .accepted false, #[refusal])

def perform (graph : Graph ν) : Call → Graph ν × Answer × Array Entry
  | .setInput id value =>
      graph.settled (.unknownInput graph.circuit.name id)
        ((graph.setInput? id value).map fun after => (after, #[]))
  | .setLocal id value =>
      graph.settled (.unknownLocal graph.circuit.name id)
        ((graph.setLocal? id value).map fun after => (after, #[]))
  | .process timeStep =>
      let (after, consumed, journal) := graph.process timeStep
      (after, .consumed consumed, journal)
  | .post id => graph.settled (.unknownEvent graph.circuit.name id) (graph.post? id)
  | .drain =>
      let (events, after) := graph.drain
      (after, .events events, #[])
  | .reset => (graph.reset, .done, #[])
  | .init context =>
      let (after, journal) := graph.init context
      (after, .done, journal)

def afterCalls (graph : Graph ν) (calls : List Call) : Graph ν :=
  calls.foldl (fun graph call => (graph.perform call).1) graph

end Graph

end NodeGraph
