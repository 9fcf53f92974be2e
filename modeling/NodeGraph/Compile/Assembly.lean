import NodeGraph.Compile.Wire
import NodeGraph.Config
import NodeGraph.Graph

namespace NodeGraph

/-! Assembling a circuit from wires. Slots are laid out in one row: the graph's
inputs, its local variables, the outputs of the nodes, then one slot for each
node input that no wire ends on, and one for each such output of the graph. -/

namespace Assembly

/-! ## Slots of sources -/

/-- Endpoints with consecutive slots, from `first` on. -/
def number (first : Slot) : List Endpoint → List (Identifier × Slot)
  | [] => []
  | endpoint :: endpoints => (endpoint.id, first) :: number (first + 1) endpoints

def inputSlots (prototype : Prototype) : List (Identifier × Slot) :=
  number 0 prototype.inputs

def localSlots (prototype : Prototype) : List (Identifier × Slot) :=
  number prototype.inputs.length prototype.locals

def firstNodeSlot (prototype : Prototype) : Slot :=
  prototype.inputs.length + prototype.locals.length

/-- The slots of the output plugs of nodes, from `first` on. -/
def outputSlots (first : Slot) : List Layout → List (List Slot)
  | [] => []
  | layout :: layouts =>
      List.range' first layout.outputs.length ::
        outputSlots (first + layout.outputs.length) layouts

/-- What the slots hold that exist whatever the wires are. -/
def ownedValues (endpoints : Endpoints) : List Value :=
  endpoints.prototype.inputs.map Endpoint.default ++
    endpoints.prototype.locals.map Endpoint.default ++
    endpoints.layouts.flatMap fun layout => layout.outputs.map Endpoint.default

def slotOf? (endpoints : Endpoints) : ValueSource → Option Slot
  | .nodeOutput node plug =>
      ((outputSlots (firstNodeSlot endpoints.prototype) endpoints.layouts)[node]?).bind
        fun slots => slots[plug]?
  | .graphInput id => Circuit.lastSlot? (inputSlots endpoints.prototype) id
  | .localVariable id => Circuit.lastSlot? (localSlots endpoints.prototype) id

/-! ## Slots of sinks

A sink that a wire ends on shares the slot of the wire's source. Any other sink
gets a slot of its own behind those that exist. -/

/-- The slots of some sinks, and the row of values with the slots added for
them. -/
structure Allocation (α : Type) where
  slots : α
  values : Array Value

/-- The value of an input plug that no wire ends on: the first override of that
name, or else the default of the plug. -/
def restingValue (overrides : List Endpoint) (plug : Endpoint) : Value :=
  match overrides.find? fun override => override.id == plug.id with
  | some override => override.default
  | none => plug.default

/-- The slot that `source?` gives, or else a new slot that holds `value`. -/
def slotOrNew (source? : Option Slot) (value : Value) (values : Array Value) :
    Allocation Slot :=
  match source? with
  | some slot => ⟨slot, values⟩
  | none => ⟨values.size, values.push value⟩

/-- The slots of the input plugs of one node, from position `plug` on. -/
def plugSlots (source? : Nat → Option Slot) (overrides : List Endpoint) (plug : Nat) :
    List Endpoint → Array Value → Allocation (List Slot)
  | [], values => ⟨[], values⟩
  | endpoint :: plugs, values =>
      let first := slotOrNew (source? plug) (restingValue overrides endpoint) values
      let others := plugSlots source? overrides (plug + 1) plugs first.values
      ⟨first.slots :: others.slots, others.values⟩

/-- The slots of the input plugs of nodes, from position `node` on. -/
def nodeSlots (source? : ValueSink → Option Slot) (node : Nat) :
    List (PrototypeNode × Layout) → Array Value → Allocation (List (List Slot))
  | [], values => ⟨[], values⟩
  | (placed, layout) :: nodes, values =>
      let first := plugSlots (fun plug => source? (.nodeInput node plug)) placed.overrides 0
        layout.inputs values
      let others := nodeSlots source? (node + 1) nodes first.values
      ⟨first.slots :: others.slots, others.values⟩

def shownSlots (source? : ValueSink → Option Slot) :
    List Endpoint → Array Value → Allocation (List (Identifier × Slot))
  | [], values => ⟨[], values⟩
  | endpoint :: outputs, values =>
      let first := slotOrNew (source? (.graphOutput endpoint.id)) endpoint.default values
      let others := shownSlots source? outputs first.values
      ⟨(endpoint.id, first.slots) :: others.slots, others.values⟩

/-! ## Event routes -/

def emptyRoutes (layouts : List Layout) : EventRoutes :=
  layouts.foldl (fun routes layout => routes.addNode layout.outputEvents.length) {}

/-- Adds the event wires that start on nodes, in order. -/
def connectEvents (routes : EventRoutes) : List Wire → EventRoutes
  | [] => routes
  | .event (.nodeEvent node output) target :: wires =>
      connectEvents ((routes.connect? node output target).getD routes) wires
  | _ :: wires => connectEvents routes wires

/-- The event wires that start on inputs of the graph, in order. -/
def entrances (wires : List Wire) : List (Identifier × Target) :=
  wires.filterMap fun wire =>
    match wire with
    | .event (.graphInput id) target => some (id, target)
    | _ => none

/-! ## The circuit -/

def circuit (config : Config) (endpoints : Endpoints) (wires : List Wire) (order : List Nat) :
    Circuit :=
  let prototype := endpoints.prototype
  let source? (sink : ValueSink) : Option Slot :=
    (Wire.sourceOf? wires sink).bind (slotOf? endpoints)
  let inputs := nodeSlots source? 0 (prototype.nodes.zip endpoints.layouts)
    (ownedValues endpoints).toArray
  let outputs := shownSlots source? prototype.outputs inputs.values
  let nodes := prototype.nodes.zip
    (inputs.slots.zip (outputSlots (firstNodeSlot prototype) endpoints.layouts))
  { name := prototype.name
    placements :=
      (nodes.map fun (node, inputs, outputs) => { id := node.id, inputs, outputs }).toArray
    order
    defaults := outputs.values
    inputs := inputSlots prototype
    locals := localSlots prototype
    outputs := outputs.slots
    routes := connectEvents (emptyRoutes endpoints.layouts) wires
    entrances := entrances wires
    hopLimit := config.maxEventHops.toNat }

end Assembly

end NodeGraph
