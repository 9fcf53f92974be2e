import NodeGraph.Proofs.Compile.Success
import NodeGraph.Standard

namespace NodeGraph

/-! Room for outgoing queues. Each graph that is compiled has the room for its queue set
aside, and to ask for more than there can be ends the whole process. Main statement: an
instance comes of compiling exactly if compiling succeeds and the room that the
configuration calls for can be asked for. If it can, the process never ends. -/

namespace Compilation

variable {first : Compilation α} {next : α → Compilation β}

theorem result?_eq_some_iff {compilation : Compilation α} {outcome : Except CompileError α} :
    compilation.result? = some outcome ↔
      compilation.overflows = false ∧ compilation.outcome = outcome := by
  unfold result?
  cases compilation.overflows <;> simp

/-- Two compilations yield something if the first one does and the second one then does. -/
theorem result?_bind_eq_ok_iff {result : β} :
    (first >>= next).result? = some (.ok result) ↔
      ∃ value, first.result? = some (.ok value) ∧ (next value).result? = some (.ok result) := by
  rw [result?_bind]
  rcases first.result? with _ | _ | value <;> simp

theorem overflows_bind (fits : first.overflows = false)
    (fitsLater : ∀ value, first.outcome = .ok value → (next value).overflows = false) :
    (first >>= next).overflows = false := by
  obtain ⟨log, overflows, outcome⟩ := first
  obtain rfl : overflows = false := fits
  cases outcome with
  | error error => rfl
  | ok value => exact fitsLater value rfl

theorem overflows_map (change : α → β) (fits : first.overflows = false) :
    (change <$> first).overflows = false :=
  overflows_bind fits fun _ _ => rfl

theorem overflows_each {step : α → Compilation β} {items : List α}
    (fits : ∀ item ∈ items, (step item).overflows = false) :
    (each step items).overflows = false := by
  induction items with
  | nil => rfl
  | cons item items induction =>
      rcases List.forall_mem_cons.mp fits with ⟨first, others⟩
      exact overflows_bind first fun _ _ => overflows_bind (induction others) fun _ _ => rfl

theorem result?_reserve {capacity : Nat} {outcome : Except CompileError Unit} :
    (reserve capacity).result? = some outcome ↔
      OutgoingQueue.CanReserve capacity ∧ .ok () = outcome := by
  rw [result?_eq_some_iff]
  simp [reserve]

end Compilation

/-- Wiring asks for no room. -/
theorem Endpoints.wireAll_overflows (endpoints : Endpoints) (wires : List Wire)
    (connections : List Connection) : (endpoints.wireAll wires connections).overflows = false := by
  induction connections generalizing wires with
  | nil => rfl
  | cons connection connections induction =>
      exact Compilation.overflows_bind rfl fun _ _ => Compilation.overflows_bind rfl fun _ _ =>
        Compilation.overflows_bind rfl fun _ _ => induction _

namespace Compile

theorem fromRegistry_overflows (registry : Registry κ) (placed : PrototypeNode) :
    (fromRegistry registry placed).overflows = false := by
  unfold fromRegistry
  split <;> rfl

theorem createPlain_overflows (registry : Registry κ) (config : Config)
    (placed : PrototypeNode) : (createPlain registry config placed).overflows = false := by
  unfold createPlain
  split
  · exact fromRegistry_overflows registry placed
  · rfl

theorem createNested_overflows (registry : Registry κ)
    {compile : Prototype → Compilation (Graph ν)}
    (fits : ∀ prototype, (compile prototype).overflows = false) (placed : PrototypeNode) :
    (createNested registry compile placed).overflows = false := by
  unfold createNested
  split
  · exact Compilation.overflows_map _ (fromRegistry_overflows registry placed)
  next prototype _ => exact Compilation.overflows_bind (fits prototype) fun _ _ => rfl

section
variable {config : Config}

theorem withNodes_overflows [Processor ν]
    (room : OutgoingQueue.CanReserve config.eventQueueCapacity.toNat)
    {create : PrototypeNode → Compilation ν} (fits : ∀ placed, (create placed).overflows = false)
    (prototype : Prototype) : (withNodes config create prototype).overflows = false := by
  have reserved : (Compilation.reserve config.eventQueueCapacity.toNat).overflows = false := by
    simp [Compilation.reserve, room]
  have created : (Compilation.each (fun placed => do
      let node ← create placed
      Compilation.note (createdRecord placed)
      pure node) prototype.nodes).overflows = false :=
    Compilation.overflows_each fun placed _ =>
      Compilation.overflows_bind (fits placed) fun _ _ => rfl
  exact Compilation.overflows_bind rfl fun _ _ => Compilation.overflows_bind created fun _ _ =>
    Compilation.overflows_bind rfl fun _ _ => Compilation.overflows_bind reserved fun _ _ =>
      Compilation.overflows_bind (Endpoints.wireAll_overflows _ _ _) fun _ _ =>
        Compilation.overflows_bind rfl fun _ _ => rfl

/-- Nothing comes of a prototype unless the room can be asked for. -/
theorem canReserve_of_withNodes [Processor ν] {create : PrototypeNode → Compilation ν}
    {prototype : Prototype} {graph : Graph ν}
    (compiled : (withNodes config create prototype).result? = some (.ok graph)) :
    OutgoingQueue.CanReserve config.eventQueueCapacity.toNat := by
  simp only [withNodes, Compilation.result?_bind_eq_ok_iff] at compiled
  rcases compiled with ⟨_, -, _, -, _, -, _, reserved, -⟩
  exact (Compilation.result?_reserve.mp reserved).1

variable [Processor κ] {registry : Registry κ}

/-- If there can be the room that is asked for, compiling never ends the process. -/
theorem build_overflows (fits : OutgoingQueue.CanReserve config.eventQueueCapacity.toNat)
    (room : Nat) (prototype : Prototype) :
    (build registry config room prototype).overflows = false := by
  induction room generalizing prototype with
  | zero => exact withNodes_overflows fits (createPlain_overflows registry config) prototype
  | succ room induction =>
      exact withNodes_overflows fits (createNested_overflows registry induction) prototype

theorem build_result?_eq_ok_iff {room : Nat} {prototype : Prototype}
    {graph : Graph (Nested κ room)} :
    (build registry config room prototype).result? = some (.ok graph) ↔
      OutgoingQueue.CanReserve config.eventQueueCapacity.toNat ∧
        (build registry config room prototype).outcome = .ok graph := by
  constructor
  · intro compiled
    refine ⟨?_, (Compilation.result?_eq_some_iff.mp compiled).2⟩
    rw [build_eq_withNodes] at compiled
    exact canReserve_of_withNodes compiled
  · intro compiled
    rcases compiled with ⟨fits, compiled⟩
    exact Compilation.result?_eq_some_iff.mpr ⟨build_overflows fits room prototype, compiled⟩

end

end Compile

/-! ## Instances -/

theorem Instance.create_overflows [Processor κ] {registry : Registry κ} {config : Config}
    {context : Context} {prototype : Prototype}
    (fits : OutgoingQueue.CanReserve config.eventQueueCapacity.toNat) :
    (Instance.create registry config context prototype).overflows = false :=
  Compilation.overflows_bind (Compile.build_overflows fits _ prototype) fun _ _ => rfl

/-- Whoever creates an instance gets one exactly if compiling succeeds and there can be the
room that is asked for. -/
theorem Instance.create_result?_eq_ok_iff [Processor κ] {registry : Registry κ}
    {config : Config} {context : Context} {prototype : Prototype} {graph : Instance κ config} :
    (Instance.create registry config context prototype).result? = some (.ok graph) ↔
      OutgoingQueue.CanReserve config.eventQueueCapacity.toNat ∧
        (Instance.create registry config context prototype).outcome = .ok graph := by
  constructor
  · intro created
    refine ⟨?_, (Compilation.result?_eq_some_iff.mp created).2⟩
    rcases Compilation.result?_bind_eq_ok_iff.mp created with ⟨built, compiled, -⟩
    exact (Compile.build_result?_eq_ok_iff.mp compiled).1
  · intro created
    rcases created with ⟨fits, created⟩
    exact Compilation.result?_eq_some_iff.mpr ⟨Instance.create_overflows fits, created⟩

/-- The limits with the largest queue that can be named. -/
def boundless : Config :=
  { Config.default with eventQueueCapacity := 0xffffffffffffffff }

/-- A prototype with nothing in it. -/
def blank : Prototype where
  name := "G"
  id := 1
  inputs := []
  outputs := []
  locals := []
  nodes := []
  connections := []

end NodeGraph
