import NodeGraph.Processor
import NodeGraph.Registry
import NodeGraph.Standard.Arithmetic
import NodeGraph.Standard.Element
import NodeGraph.Standard.Logic
import NodeGraph.Standard.Music
import NodeGraph.Standard.PayloadType
import NodeGraph.Standard.Trigger

namespace NodeGraph

/-! The standard nodes. -/

/-- A node of one of the standard types. Only counters have state. -/
inductive StandardNode where
  | arithmetic (operation : ArithmeticOperation) (type : NumberType)
  | clamp (type : NumberType)
  | mapRange (type : NumberType)
  | power
  | logarithm
  | noteToFrequency (type : NumberType)
  | frequencyToNote
  | beatLength
  | comparison (operation : Comparison) (type : ScalarType)
  | connective (operation : Connective)
  | boolTrigger
  | triggerCounter (counter : TriggerCounter)
  | element (type : ScalarType)
  deriving DecidableEq, Repr

namespace StandardNode

def layout : StandardNode → Layout
  | .arithmetic operation type => operation.layout type.Payload
  | .clamp type => Clamp.layout type.Payload
  | .mapRange type => MapRange.layout type.Payload
  | .power => Power.layout
  | .logarithm => Logarithm.layout
  | .noteToFrequency type => NoteToFrequency.layout type.Payload
  | .frequencyToNote => FrequencyToNote.layout
  | .beatLength => BeatLength.layout
  | .comparison _ type => Comparison.layout type.Payload
  | .connective operation => operation.layout
  | .boolTrigger => BoolTrigger.layout
  | .triggerCounter _ => TriggerCounter.layout
  | .element type => Element.layout type.Payload

/-- Counters start over, array nodes show their element, the others wait for the
first tick. -/
def init (node : StandardNode) : Program StandardNode :=
  match node with
  | .triggerCounter _ => StandardNode.triggerCounter <$> TriggerCounter.init
  | .element type => do
      Element.update type.Payload
      pure node
  | _ => pure node

def work : StandardNode → Program Unit
  | .arithmetic operation type => operation.process type.Payload
  | .clamp type => Clamp.process type.Payload
  | .mapRange type => MapRange.process type.Payload
  | .power => Power.process
  | .logarithm => Logarithm.process
  | .noteToFrequency type => NoteToFrequency.process type.Payload
  | .frequencyToNote => FrequencyToNote.process
  | .beatLength => BeatLength.process
  | .comparison operation type => operation.process type.Payload
  | .connective operation => operation.process
  | .boolTrigger => BoolTrigger.process
  | .triggerCounter _ => pure ()
  | .element type => Element.update type.Payload

/-- How much of a time step a node uses up: all of it or nothing. -/
def consumption (timeStep : Binary32) : StandardNode → Binary32
  | .comparison .. | .connective _ | .boolTrigger | .triggerCounter _ => timeStep
  | _ => .zero

def onEvent (input : Nat) (event : Identifier) (node : StandardNode) : Program StandardNode :=
  match node with
  | .triggerCounter counter => StandardNode.triggerCounter <$> counter.onEvent input
  | .element type => do
      Element.onEvent type.Payload event
      pure node
  | _ => pure node

def reset : StandardNode → StandardNode
  | .triggerCounter _ => .triggerCounter {}
  | node => node

instance : Processor StandardNode where
  layout := layout
  init _ := init
  process timeStep node := do
    node.work
    pure (node, node.consumption timeStep)
  onEvent := onEvent
  reset := reset

/-! ## Names -/

/-- The standard node types by name. -/
def types : List (String × StandardNode) := [
  ("Add (Float)", .arithmetic .add .float),
  ("Add (Int)", .arithmetic .add .int),
  ("Subtract (Float)", .arithmetic .subtract .float),
  ("Subtract (Int)", .arithmetic .subtract .int),
  ("Multiply (Float)", .arithmetic .multiply .float),
  ("Multiply (Int)", .arithmetic .multiply .int),
  ("Divide (Float)", .arithmetic .divide .float),
  ("Divide (Int)", .arithmetic .divide .int),
  ("Modulo (Int)", .arithmetic .modulo .int),
  ("Min (Float)", .arithmetic .min .float),
  ("Min (Int)", .arithmetic .min .int),
  ("Max (Float)", .arithmetic .max .float),
  ("Max (Int)", .arithmetic .max .int),
  ("Clamp (Float)", .clamp .float),
  ("Clamp (Int)", .clamp .int),
  ("Map Range (Float)", .mapRange .float),
  ("Map Range (Int)", .mapRange .int),
  ("Power (Float)", .power),
  ("Log (Float)", .logarithm),
  ("Note To Frequency (Float)", .noteToFrequency .float),
  ("Note To Frequency (Int)", .noteToFrequency .int),
  ("Frequency To Note", .frequencyToNote),
  ("BPM to Seconds", .beatLength),
  ("Check Equal (Float)", .comparison .equal (.number .float)),
  ("Check Equal (Int)", .comparison .equal (.number .int)),
  ("Check Not Equal (Float)", .comparison .notEqual (.number .float)),
  ("Check Not Equal (Int)", .comparison .notEqual (.number .int)),
  ("Check Less (Float)", .comparison .less (.number .float)),
  ("Check Less (Int)", .comparison .less (.number .int)),
  ("Check Less Equal (Float)", .comparison .lessEqual (.number .float)),
  ("Check Less Equal (Int)", .comparison .lessEqual (.number .int)),
  ("Check Greater (Float)", .comparison .greater (.number .float)),
  ("Check Greater (Int)", .comparison .greater (.number .int)),
  ("Check Greater Equal (Float)", .comparison .greaterEqual (.number .float)),
  ("Check Greater Equal (Int)", .comparison .greaterEqual (.number .int)),
  ("And", .connective .and),
  ("Or", .connective .or),
  ("Not", .connective .not),
  ("Bool Trigger", .boolTrigger),
  ("Trigger Counter", .triggerCounter {}),
  ("Get (Float)", .element (.number .float)),
  ("Get (Int)", .element (.number .int)),
  ("Get (Int64)", .element (.number .int64))]

def registry : Registry StandardNode :=
  .ofList (types.map fun (name, node) => (.named name, fun _ => node))

example : registry.size = 43 := by decide +kernel

end StandardNode

end NodeGraph
