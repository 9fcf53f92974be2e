import NodeGraph.Context
import NodeGraph.Layout
import NodeGraph.Program

namespace NodeGraph

/-! The behaviour of nodes. A node is a value of some type with a processor: it
says which plugs the node has and gives a program for everything that can happen
to it. Programs end with the node as it is afterwards. Nodes know nothing of
other nodes and never fail. -/

class Processor (ν : Type) where
  /-- The plugs, asked for once when a graph is compiled. -/
  layout : ν → Layout
  /-- The node is wired, or its context has changed. -/
  init : Context → ν → Program ν
  /-- One tick of the given length. The program also ends with the part of the
  time step that the node used up. -/
  process : (timeStep : Binary32) → ν → Program (ν × Binary32)
  /-- An event arrives on an input event. -/
  onEvent : (input : Nat) → (event : Identifier) → ν → Program ν
  /-- The node as it was before anything happened to it. -/
  reset : ν → ν

/-- Nodes of two types, each with its own behaviour. -/
instance [Processor ν] [Processor μ] : Processor (ν ⊕ μ) where
  layout
    | .inl node => Processor.layout node
    | .inr node => Processor.layout node
  init context
    | .inl node => Sum.inl <$> Processor.init context node
    | .inr node => Sum.inr <$> Processor.init context node
  process timeStep
    | .inl node => Prod.map Sum.inl id <$> Processor.process timeStep node
    | .inr node => Prod.map Sum.inr id <$> Processor.process timeStep node
  onEvent input event
    | .inl node => Sum.inl <$> Processor.onEvent input event node
    | .inr node => Sum.inr <$> Processor.onEvent input event node
  reset
    | .inl node => .inl (Processor.reset node)
    | .inr node => .inr (Processor.reset node)

/-- The behaviour that `processor` stands for. It is looked up each time a node
needs it and not before, so a behaviour may refer to a long row of others. -/
@[reducible] def Processor.delay (processor : Unit → Processor ν) : Processor ν where
  layout node := (processor ()).layout node
  init context node := (processor ()).init context node
  process timeStep node := (processor ()).process timeStep node
  onEvent input event node := (processor ()).onEvent input event node
  reset node := (processor ()).reset node

theorem Processor.delay_eq (processor : Unit → Processor ν) :
    Processor.delay processor = processor () := rfl

end NodeGraph
