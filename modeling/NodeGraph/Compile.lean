import NodeGraph.Compile.Assembly
import NodeGraph.Registry
import NodeGraph.Schedule
import NodeGraph.Subroutine

namespace NodeGraph

/-! From a prototype to a running graph. Compiling is all or nothing and stops
at the first fault: the ids of the nodes are checked, the nodes created, the
overrides checked, the connections wired, the nodes brought into order. Only
then is the circuit assembled, which cannot fail. Room for the outgoing queue is
set aside before the first connection is wired. -/

namespace Compile

/-! ## Node ids -/

/-- Node ids are not zero and each is used once. `seen` are the ids of the nodes
before. -/
def checkIds (seen : List NodeId) : List PrototypeNode → Except CompileError Unit
  | [] => .ok ()
  | node :: nodes =>
      if node.id = graphNodeId then .error .reservedNode
      else if node.id ∈ seen then .error (.duplicateNode node.id)
      else checkIds (node.id :: seen) nodes

/-! ## Overrides -/

/-- An override names an input plug and has the kind of its default; a void
default takes a value of any kind. -/
def checkOverride (node : NodeId) (layout : Layout) (override : Endpoint) :
    Except CompileError Unit :=
  match layout.inputs.find? fun plug => plug.id == override.id with
  | none => .error (.unknownOverride node override.id)
  | some plug =>
      let expected := plug.default.kind
      let found := override.default.kind
      if expected = .void ∨ expected = found then .ok ()
      else .error (.overrideKind node override.id expected found)

def checkOverrides : List (PrototypeNode × Layout) → Except CompileError Unit
  | [] => .ok ()
  | (node, layout) :: nodes => do
      node.overrides.forM (checkOverride node.id layout)
      checkOverrides nodes

/-! ## Order -/

def positionOf (prototype : Prototype) (terminus : Terminus) : Except CompileError Nat :=
  Endpoints.node ⟨prototype, []⟩ terminus

/-- The value wires between nodes, as positions. -/
def edges (prototype : Prototype) : List Connection → Except CompileError (List Schedule.Edge)
  | [] => .ok []
  | connection :: connections =>
      if connection.kind = .nodeValueToNode then do
        let source ← positionOf prototype connection.source
        let destination ← positionOf prototype connection.destination
        let others ← edges prototype connections
        pure ((source, destination) :: others)
      else
        edges prototype connections

def order (prototype : Prototype) : Except CompileError (List Nat) := do
  let edges ← edges prototype prototype.connections
  match Schedule.order edges prototype.nodes.length with
  | .ok order => pure order
  | .error cycle =>
      throw (.valueCycle
        (cycle.filterMap fun index => prototype.nodes[index]?.map PrototypeNode.id))

/-! ## Compiling -/

def createdRecord (node : PrototypeNode) : LogRecord :=
  ⟨.debug, "Created node " ++ toString node.id.toNat ++ " (" ++ node.type.display ++ ")"⟩

def withNodes [Processor ν] (config : Config) (create : PrototypeNode → Compilation ν)
    (prototype : Prototype) : Compilation (Graph ν) := do
  Compilation.ofExcept (checkIds [] prototype.nodes)
  let nodes ← Compilation.each
    (fun placed => do
      let node ← create placed
      Compilation.note (createdRecord placed)
      pure node)
    prototype.nodes
  let layouts := nodes.map Processor.layout
  let endpoints : Endpoints := ⟨prototype, layouts⟩
  Compilation.ofExcept (checkOverrides (prototype.nodes.zip layouts))
  Compilation.reserve config.eventQueueCapacity.toNat
  let wires ← endpoints.wireAll [] prototype.connections
  let order ← Compilation.ofExcept (order prototype)
  pure (Graph.pristine (Assembly.circuit config endpoints wires order)
    config.eventQueueCapacity.toNat nodes)

def fromRegistry (registry : Registry κ) (placed : PrototypeNode) : Compilation κ :=
  match registry.create? placed.type placed.id with
  | some node => pure node
  | none => Compilation.fail (.unknownType placed.id placed.type)

/-- A fresh node where no subroutine may be. -/
def createPlain (registry : Registry κ) (config : Config) (placed : PrototypeNode) :
    Compilation κ :=
  match placed.subroutine with
  | none => fromRegistry registry placed
  | some _ =>
      Compilation.fail (.subroutineTooDeep placed.id (config.maxSubroutineDepth.toNat + 1))

/-- A fresh node where a subroutine may be, which `compile` compiles. -/
def createNested (registry : Registry κ) (compile : Prototype → Compilation (Graph ν))
    (placed : PrototypeNode) : Compilation (κ ⊕ Subroutine ν) :=
  match placed.subroutine with
  | none => Sum.inl <$> fromRegistry registry placed
  | some prototype => do
      let graph ← (compile prototype).mapError (.inSubroutine placed.id)
      pure (.inr (Subroutine.ofPrototype prototype graph))

/-- Compiles a prototype with room for that many levels of subroutines. -/
def build [Processor κ] (registry : Registry κ) (config : Config) :
    (room : Nat) → Prototype → Compilation (Graph (Nested κ room))
  | 0 => withNodes config (createPlain registry config)
  | room + 1 => withNodes config (createNested registry (build registry config room))

end Compile

/-! ## Entry points -/

/-- A graph compiled by a host: its nodes may nest as deeply as the
configuration allows. -/
abbrev Instance (κ : Type) (config : Config) : Type :=
  Graph (Nested κ config.maxSubroutineDepth.toNat)

namespace Instance

/-- What the log says of a graph that has been compiled and initialized. -/
def compiledRecord (prototype : Prototype) : LogRecord :=
  ⟨.info, "Compiled graph '" ++ prototype.name ++ "': " ++
    toString prototype.nodes.length ++ " nodes, " ++
    toString prototype.connections.length ++ " connections"⟩

def create [Processor κ] (registry : Registry κ) (config : Config) (context : Context)
    (prototype : Prototype) : Compilation (Instance κ config) := do
  let graph ← Compile.build registry config config.maxSubroutineDepth.toNat prototype
  let (graph, journal) := graph.init context
  Compilation.noteAll (journal.toList.filterMap Entry.logRecord?)
  Compilation.note (compiledRecord prototype)
  pure graph

end Instance

/-- Ids of a prototype's nodes in the order in which they would run. -/
def dependencyOrder (prototype : Prototype) : Except CompileError (List NodeId) := do
  Compile.checkIds [] prototype.nodes
  let order ← Compile.order prototype
  pure (order.filterMap fun index => prototype.nodes[index]?.map PrototypeNode.id)

end NodeGraph
