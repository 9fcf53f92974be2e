import NodeGraph.Proofs.Compile.Places
import NodeGraph.Proofs.Run.Coherence
import NodeGraph.Proofs.Run.Rewind
import NodeGraph.Proofs.Showing

namespace NodeGraph

/-! Kinds of outputs. Connections join plugs of any kinds, and the host may set
inputs and local variables to anything. Still every output of a standard node holds
a value of the kind that the node's layout gives to it, at any depth and after any
calls: nobody but the node writes there, and the node writes nothing else. -/

/-! ## Standard nodes in graphs -/

/-- What a standard node does, whatever happens to it, keeps to the kinds of its
outputs. -/
theorem StandardNode.program_heeds (happening : Happening) (cell : Cell StandardNode) :
    (happening.program cell).Heeds cell.node.layout.lively := by
  cases happening with
  | init context => exact (cell.node.init_heeds _).bind fun _ => Program.heeds_pure _
  | process timeStep =>
      apply Program.Heeds.bind
      · exact cell.node.work_heeds.bind fun _ => Program.heeds_pure _
      · exact fun _ => Program.heeds_pure _
  | onEvent input event =>
      exact (cell.node.onEvent_heeds input event).bind fun _ => Program.heeds_pure _

namespace Nested

variable {layout : Layout}

/-- The node is a standard node with that layout. -/
def Standard (layout : Layout) : {room : Nat} → Nested StandardNode room → Prop
  | 0, node => StandardNode.layout node = layout
  | _ + 1, node => Sum.elim (fun plain => StandardNode.layout plain = layout) (fun _ => False) node

theorem Standard.program_heeds {room : Nat} {cell : Cell (Nested StandardNode room)}
    (standard : cell.node.Standard layout) (happening : Happening) :
    (happening.program cell).Heeds layout.lively := by
  obtain ⟨node, consumed⟩ := cell
  cases room with
  | zero =>
      cases standard
      exact StandardNode.program_heeds happening ⟨node, consumed⟩
  | succ room =>
      cases node with
      | inr subroutine => cases standard
      | inl plain =>
          cases standard
          cases happening with
          | init context =>
              exact ((plain.init_heeds _).map Sum.inl).bind fun _ => Program.heeds_pure _
          | process timeStep =>
              apply Program.Heeds.bind
              · exact (plain.work_heeds.bind fun _ => Program.heeds_pure _).map _
              · exact fun _ => Program.heeds_pure _
          | onEvent input event =>
              exact ((plain.onEvent_heeds input event).map Sum.inl).bind fun _ =>
                Program.heeds_pure _

end Nested

/-- Whatever happens to a standard node, its layout stays the same. -/
theorem StandardNode.layout_keeps (layout : Layout) :
    Processor.Keeps fun node : StandardNode => node.layout = layout := by
  have rewound : (fun node : StandardNode => (Processor.reset node).layout = layout) =
      fun node => node.layout = layout := by
    funext node
    cases node <;> rfl
  exact rewound ▸ rewinds.keeps fun node => node.layout = layout

theorem Nested.standard_keeps (layout : Layout) (room : Nat) :
    Processor.Keeps (ν := Nested StandardNode room) (Nested.Standard layout) := by
  cases room with
  | zero => exact StandardNode.layout_keeps layout
  | succ room =>
      exact (StandardNode.layout_keeps layout).sum
        ⟨fun _ _ _ => id, fun _ _ _ => id, fun _ _ _ _ => id, fun _ => id⟩

/-! ## States -/

theorem Panel.output_eq {panel : Panel} {plug : Nat} {slot : Slot} {value : Value}
    (owned : panel.outputs[plug]? = some slot) (held : panel.values[slot]? = some value) :
    panel.output plug = value := by
  simp [output, valueAt, owned, held]

namespace State

/-- Each output of the node holds a value of the kind that the layout gives to it. -/
def ShowsKinds (circuit : Circuit) (index : Nat) (layout : Layout) (state : State ν) : Prop :=
  ∀ (plug : Nat) (endpoint : Endpoint), layout.outputs[plug]? = some endpoint →
    ∃ (slot : Slot) (value : Value), (circuit.outputsAt index)[plug]? = some slot ∧
      state.values[slot]? = some value ∧ value.kind = endpoint.default.kind

variable {circuit : Circuit} {index : Nat} {layout : Layout} {state : State ν}

theorem ShowsKinds.of_same {after : State ν} (shows : state.ShowsKinds circuit index layout)
    (same : ∀ slot ∈ circuit.outputsAt index, after.values[slot]? = state.values[slot]?) :
    after.ShowsKinds circuit index layout := by
  intro plug endpoint listed
  obtain ⟨slot, value, owned, held, kind⟩ := shows plug endpoint listed
  exact ⟨slot, value, owned, (same slot (List.mem_of_getElem? owned)).trans held, kind⟩

/-- The node itself writes only values of those kinds. -/
theorem ShowsKinds.runCell {program : Cell ν → Program (Cell ν)}
    (shows : state.ShowsKinds circuit index layout) (flows : circuit.FlowsForward)
    (fits : state.Fits circuit)
    (heeds : ∀ cell, state.cells[index]? = some cell → (program cell).Heeds layout.lively) :
    (state.runCell circuit index program).1.ShowsKinds circuit index layout := by
  obtain ⟨placement, cell, placed, present⟩ | unchanged :=
    state.runCell_cases circuit index program
  · have outputs := Circuit.outputsAt_eq placed
    have owns : (placement.window state.values).OwnsOutputs :=
      flows.ownsOutputs placed fits.values
    have before : ∀ plug < placement.outputs.length,
        layout.lively.writes plug ((placement.window state.values).output plug) := by
      intro plug _ endpoint listed
      obtain ⟨slot, value, owned, held, kind⟩ := shows plug endpoint listed
      rw [outputs] at owned
      rw [Panel.output_eq owned held]
      exact kind
    have after := (heeds cell present).run_outputs owns before
    have ranOutputs := Program.run_outputs (program cell) (placement.window state.values)
    have ranSize := Program.run_size (program cell) (placement.window state.values)
    rw [runCell_window placed present]
    generalize (program cell).run (placement.window state.values) = ran at *
    intro plug endpoint listed
    obtain ⟨slot, value, owned, held, -⟩ := shows plug endpoint listed
    have bound : slot < ran.2.values.size := by
      rw [ranSize]
      exact (Array.getElem?_eq_some_iff.mp held).1
    have now := Array.getElem?_eq_getElem bound
    refine ⟨slot, _, owned, now, ?_⟩
    rw [outputs] at owned
    have width := (List.getElem?_eq_some_iff.mp owned).1
    have ranOwned : ran.2.outputs[plug]? = some slot := by rwa [ranOutputs]
    rw [← Panel.output_eq ranOwned now]
    exact after plug width endpoint listed
  · rw [unchanged]
    exact shows

end State

/-! ## Compiled graphs -/

/-- The prototype lists a node of that registered type at the position. -/
def Prototype.Lists (registry : Registry StandardNode) (prototype : Prototype) (index : Nat)
    (standard : StandardNode) : Prop :=
  ∃ placed, prototype.nodes[index]? = some placed ∧ placed.subroutine = none ∧
    registry.create? placed.type placed.id = some standard

namespace Compile

variable {registry : Registry StandardNode} {config : Config} {prototype : Prototype}
  {room : Nat} {graph : Graph (Nested StandardNode room)}

/-- Before anything has happened, outputs hold the defaults of their plugs. -/
theorem Reachable.showsKinds_resting (reachable : Reachable registry config prototype graph)
    {index : Nat} {standard : StandardNode} (lists : prototype.Lists registry index standard)
    {state : State ν} (resting : state.values = graph.circuit.defaults) :
    state.ShowsKinds graph.circuit index standard.layout := by
  obtain ⟨placed, listed, plain, created⟩ := lists
  obtain ⟨wires, order, -, equal⟩ := reachable.circuit_eq
  have complete := endpointsOf_complete registry prototype
  have located : (endpointsOf registry prototype).layouts[index]? = some standard.layout := by
    simp only [endpointsOf, List.getElem?_map, listed, Option.map_some, layout?, plain, created,
      Option.getD_some]
    rfl
  intro plug endpoint found
  have rests : Assembly.atRest (endpointsOf registry prototype) (.nodeOutput index plug) =
      some endpoint.default := by
    simp [Assembly.atRest, located, found]
  obtain ⟨slot, owned⟩ := Assembly.exists_slotAt? complete rests
  have held := (Assembly.defaults_nodeOutput complete owned).trans rests
  rw [← equal] at owned held
  rw [← resting] at held
  exact ⟨slot, endpoint.default, owned, held, rfl⟩

theorem standard_of_createNode {placed : PrototypeNode} {standard : StandardNode}
    {node : Nested StandardNode room} (plain : placed.subroutine = none)
    (registered : registry.create? placed.type placed.id = some standard)
    (created : (createNode registry config room placed).outcome = .ok node) :
    node.Standard standard.layout := by
  cases room with
  | zero =>
      have alsoRegistered : registry.create? placed.type placed.id = some (node : StandardNode) :=
        (createPlain_eq_ok_iff.mp created).2
      exact congrArg StandardNode.layout
        (Option.some.inj (alsoRegistered.symm.trans registered))
  | succ room =>
      obtain ⟨-, made, alsoRegistered, rfl⟩ | ⟨nested, -, composite, -⟩ :=
        createNested_eq_ok_iff.mp created
      · rw [registered, Option.some.injEq] at alsoRegistered
        cases alsoRegistered
        exact rfl
      · rw [plain] at composite
        cases composite

/-- Standard nodes are in their places, and show values of the right kinds. -/
structure ShowsStandard (registry : Registry StandardNode) (prototype : Prototype)
    (circuit : Circuit) (state : State (Nested StandardNode room)) : Prop where
  fits : state.Fits circuit
  every : state.Every fun index node => ∀ standard, prototype.Lists registry index standard →
    node.Standard standard.layout
  kinds : ∀ index standard, prototype.Lists registry index standard →
    state.ShowsKinds circuit index standard.layout

theorem standards_keep (registry : Registry StandardNode) (prototype : Prototype) (room : Nat)
    (circuit : Circuit) :
    circuit.Keeps (State.Every fun index (node : Nested StandardNode room) =>
      ∀ standard, prototype.Lists registry index standard → node.Standard standard.layout) :=
  circuit.keeps_every fun _ => .all fun standard => Nested.standard_keeps standard.layout room

/-- Whatever a graph does in a turn, its standard nodes keep to their kinds. -/
theorem turns_showStandard {circuit : Circuit} (flows : circuit.FlowsForward) :
    circuit.Turns
      (ShowsStandard registry prototype circuit : State (Nested StandardNode room) → Prop) where
  runs running happening state before := by
    refine ⟨before.fits.runCell running happening.program,
      (standards_keep registry prototype room circuit).runs running happening state before.every,
      ?_⟩
    intro index standard lists
    have shows := before.kinds index standard lists
    by_cases here : index = running
    · subst here
      apply shows.runCell flows before.fits
      intro cell present
      exact (before.every index cell present standard lists).program_heeds happening
    · apply shows.of_same
      intro slot owned
      exact state.runCell_unwritten (flows.outputs_apart index running here slot owned)
  queues state id outgoing _ _ before :=
    ⟨⟨before.fits.cells, before.fits.values⟩, before.every, before.kinds⟩

/-- In every reachable graph the standard nodes show values of the right kinds. -/
theorem Reachable.showStandard (reachable : Reachable registry config prototype graph) :
    ShowsStandard registry prototype graph.circuit graph.state := by
  obtain ⟨built, calls, compiled, rfl⟩ := reachable
  have fresh : Reachable registry config prototype built := ⟨built, [], compiled, rfl⟩
  have keeps := standards_keep registry prototype room built.circuit
  rw [Graph.afterCalls_circuit]
  refine Graph.afterCalls_keeps_of_turns (turns_showStandard fresh.flowsForward) ?sets ?drains
    ?resets ?begins calls
  case sets =>
    intro state id slot value located before
    refine ⟨built.circuit.keeps_fits.sets state slot value before.fits, before.every, ?_⟩
    intro index standard lists
    apply (before.kinds index standard lists).of_same
    intro owned written
    have different : slot ≠ owned := fun same =>
      fresh.settable_unwritten located index (same ▸ written)
    exact Array.getElem?_setIfInBounds_ne different
  case drains =>
    intro state before
    exact ⟨⟨before.fits.cells, before.fits.values⟩, before.every, before.kinds⟩
  case resets =>
    intro state before
    refine ⟨built.circuit.keeps_fits.resets state before.fits, keeps.resets state before.every, ?_⟩
    intro index standard lists
    exact fresh.showsKinds_resting lists rfl
  case begins =>
    refine ⟨fresh.fits, ?_, ?_⟩
    · intro index cell present standard lists
      obtain ⟨placed, listed, plain, created⟩ := lists
      obtain ⟨nodes, wires, order, createdAll, -, rfl⟩ := build_eq_ok_iff.mp compiled
      obtain ⟨node, made, rfl⟩ := Graph.pristine_cell.mp present
      exact standard_of_createNode plain created (forall₂_getElem? createdAll listed made)
    · intro index standard lists
      exact fresh.showsKinds_resting lists (build_values compiled)

/-- Standard nodes keep the kinds of their outputs for ever. Whatever has been done
to a graph, at every place inside of it and for each output plug of each standard
node there, the slot of the plug holds a value of the kind of the plug's default:
whatever values the host has set, and whatever plugs are connected. -/
theorem Reachable.outputs_keep_kinds {inner : Nat} {part : Graph (Nested StandardNode inner)}
    {path : List Nat} (reachable : Reachable registry config prototype graph)
    (contains : graph.Contains path part) :
    ∃ nested, prototype.inside? path = some nested ∧
      ∀ index standard, nested.Lists registry index standard →
        ∀ (plug : Nat) (endpoint : Endpoint), standard.layout.outputs[plug]? = some endpoint →
          ∃ (slot : Slot) (value : Value), (part.circuit.outputsAt index)[plug]? = some slot ∧
            part.state.values[slot]? = some value ∧ value.kind = endpoint.default.kind := by
  obtain ⟨nested, place, inside⟩ := reachable.part contains
  exact ⟨nested, place, inside.showStandard.kinds⟩

/-- Whatever comes in is added up as a whole number, and the sum taken for a flag. -/
def mismatched : Prototype where
  name := "Inner"
  id := 2
  inputs := [⟨.named "In", .void⟩]
  outputs := []
  locals := []
  nodes := [⟨.named "Add (Int)", 1, [], none⟩, ⟨.named "And", 2, [], none⟩]
  connections := [
    ⟨⟨graphNodeId, .named "In"⟩, ⟨1, .named "Value1"⟩, .graphValueToNode⟩,
    ⟨⟨1, .named "Out"⟩, ⟨2, .named "Value1"⟩, .nodeValueToNode⟩]

def mismatchedInside : Prototype where
  name := "Outer"
  id := 1
  inputs := [⟨.named "In", .void⟩]
  outputs := []
  locals := []
  nodes := [⟨.named "Mismatched", 7, [], some mismatched⟩]
  connections := [⟨⟨graphNodeId, .named "In"⟩, ⟨7, .named "In"⟩, .graphValueToNode⟩]

/-- With a list of lists coming in, the sum is a whole number and the flag a flag. -/
theorem mismatchedInside_outputs_keep_kinds :
    ∃ (graph : Graph (Nested StandardNode 1)) (part : Graph (Nested StandardNode 0))
      (sum flag : Slot) (total truth : Value),
      Reachable StandardNode.registry Config.default mismatchedInside graph ∧
      graph.Contains [0] part ∧
      (part.circuit.outputsAt 0)[0]? = some sum ∧ part.state.values[sum]? = some total ∧
      total.kind = .int32 ∧
      (part.circuit.outputsAt 1)[0]? = some flag ∧ part.state.values[flag]? = some truth ∧
      truth.kind = .bool := by
  have nests : ((build StandardNode.registry Config.default 1
      mismatchedInside).outcome.toOption.any fun built =>
        ((built.afterCalls [.setInput (.named "In") (.array [.array []]),
          .process .one]).state.subroutine? 0).any fun _ => true) = true := by
    decide +kernel
  have registered : StandardNode.registry.create? (.named "Add (Int)") 1 =
        some (.arithmetic .add .int) ∧
      StandardNode.registry.create? (.named "And") 2 = some (.connective .and) := by
    decide +kernel
  obtain ⟨built, compiled, nests⟩ := exists_of_any nests
  obtain ⟨subroutine, present, -⟩ := Option.any_eq_true _ _ |>.mp nests
  have fresh : Reachable StandardNode.registry Config.default mismatchedInside built :=
    ⟨built, [], compiled, rfl⟩
  have reachable := fresh.afterCalls [.setInput (.named "In") (.array [.array []]), .process .one]
  have contains := Graph.Contains.inside present (.itself subroutine.graph)
  obtain ⟨nested, place, kinds⟩ := reachable.outputs_keep_kinds contains
  obtain rfl : mismatched = nested := Option.some.inj place
  have adds : mismatched.Lists StandardNode.registry 0 (.arithmetic .add .int) :=
    ⟨_, rfl, rfl, registered.1⟩
  have joins : mismatched.Lists StandardNode.registry 1 (.connective .and) :=
    ⟨_, rfl, rfl, registered.2⟩
  obtain ⟨sum, total, sumOwned, sumHeld, whole⟩ := kinds 0 _ adds 0 _ rfl
  obtain ⟨flag, truth, flagOwned, flagHeld, isFlag⟩ := kinds 1 _ joins 0 _ rfl
  exact ⟨_, _, sum, flag, total, truth, reachable, contains, sumOwned, sumHeld, whole, flagOwned,
    flagHeld, isFlag⟩

end Compile

end NodeGraph
