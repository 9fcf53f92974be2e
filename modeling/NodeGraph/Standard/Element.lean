import NodeGraph.Program
import NodeGraph.Standard.Plug

namespace NodeGraph

/-! Elements of arrays. Array nodes use up none of the time step. -/

namespace Element

/-- The element at an index, which counts around the ends of the list in both
directions. An empty list has none. -/
def wrapped? (items : List α) (index : Int32) : Option α :=
  items[(index.toInt % items.length).toNat]?

example : wrapped? ["a", "b", "c"] (-1) = some "c" ∧ wrapped? ["a", "b", "c"] 3 = some "a" := by
  decide

def layout (α : Type) [Scalar α] : Layout where
  inputs := [.named "Array" (.array []), .zero Int32 "Index"]
  outputs := [.zero α "Element"]
  inputEvents := [.named "Trigger"]
  outputEvents := [.named "OnTrigger"]

/-- Shows the element, or zero if there is none. -/
def update (α : Type) [Scalar α] : Program Unit := do
  let array ← Program.read 0
  let index ← Program.readAs Int32 1
  let element := (wrapped? (array.asArray?.getD []) index).map (Scalar.ofValue : Value → α)
  Program.writeAs 0 (element.getD Scalar.zero)

/-- Shows the element and passes the event on. -/
def onEvent (α : Type) [Scalar α] (event : Identifier) : Program Unit := do
  update α
  Program.fire 0 event

end Element

end NodeGraph
