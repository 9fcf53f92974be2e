import NodeGraph.Proofs.Stored.Unnamed

namespace NodeGraph

/-! Stored prototypes. A prototype is read exactly if the input starts with its
bytes and it goes no deeper than the thread may still go; what is read has no
names. -/

open Reader

variable {nesting : Nat} {input rest : List UInt8}

/-! ## Wires -/

@[simp] theorem Identifier.balanced_reader : Identifier.reader.Balanced :=
  (balanced_word 4).bind fun _ => balanced_pure _

@[simp] theorem Identifier.takes_reader {identifier : Identifier} :
    Identifier.reader.Takes nesting input identifier rest ↔
      identifier.unnamed = identifier ∧ input = identifier.toBytes ++ rest := by
  simp only [Identifier.reader, takes_bind (balanced_word 4), takes_word, takes_pure]
  constructor
  · intro taken
    rcases taken with ⟨code, _, ⟨bound, rfl⟩, rfl, rfl⟩
    have same : (UInt32.ofNat code).toNat = code := UInt32.toNat_ofNat_of_lt' bound
    exact ⟨rfl, by simp [toBytes, ofHash, same]⟩
  · intro written
    rcases written with ⟨nameless, rfl⟩
    refine ⟨_, rest, ⟨identifier.hash.toNat_lt, rfl⟩, ?_, rfl⟩
    rw [UInt32.ofNat_toNat]
    exact nameless.symm

@[simp] theorem ConnectionKind.balanced_reader : ConnectionKind.reader.Balanced := by
  apply (balanced_byte _).bind
  intro tag
  split
  · exact balanced_pure _
  · exact balanced_fail _

theorem ConnectionKind.ofTag?_eq_some_iff {tag : UInt8} {kind : ConnectionKind} :
    ofTag? tag = some kind ↔ kind.tag = tag := by
  constructor
  · intro found
    simpa using List.find?_some found
  · intro equal
    subst equal
    exact ofTag?_tag kind

@[simp] theorem ConnectionKind.takes_reader {kind : ConnectionKind} :
    ConnectionKind.reader.Takes nesting input kind rest ↔ input = kind.toBytes ++ rest := by
  simp only [ConnectionKind.reader, takes_bind (balanced_byte _), takes_byte]
  constructor
  · intro taken
    rcases taken with ⟨tag, _, rfl, taken⟩
    split at taken
    next found =>
      rcases takes_pure.mp taken with ⟨rfl, rfl⟩
      rw [← ofTag?_eq_some_iff.mp found]
      rfl
    next => exact absurd taken takes_fail
  · intro written
    subst written
    refine ⟨kind.tag, rest, rfl, ?_⟩
    rw [ofTag?_tag]
    exact takes_pure.mpr ⟨rfl, rfl⟩

@[simp] theorem Terminus.balanced_reader : Terminus.reader.Balanced :=
  (balanced_word 8).bind fun _ => Identifier.balanced_reader.bind fun _ => balanced_pure _

@[simp] theorem Terminus.takes_reader {terminus : Terminus} :
    Terminus.reader.Takes nesting input terminus rest ↔
      terminus.unnamed = terminus ∧ input = terminus.toBytes ++ rest := by
  simp only [Terminus.reader, takes_bind (balanced_word 8), takes_word,
    takes_bind Identifier.balanced_reader, Identifier.takes_reader, takes_pure]
  constructor
  · intro taken
    rcases taken with ⟨node, _, ⟨bound, rfl⟩, endpoint, _, ⟨nameless, rfl⟩, rfl, rfl⟩
    have same : (UInt64.ofNat node).toNat = node := UInt64.toNat_ofNat_of_lt' bound
    exact ⟨by rw [unnamed, nameless], by simp [toBytes, same]⟩
  · intro written
    rcases written with ⟨nameless, rfl⟩
    exact ⟨_, _, ⟨terminus.node.toNat_lt, by rw [toBytes, List.append_assoc]⟩, _, rest,
      ⟨congrArg Terminus.endpoint nameless, rfl⟩, by simp, rfl⟩

@[simp] theorem Connection.balanced_reader : Connection.reader.Balanced :=
  Terminus.balanced_reader.bind fun _ => Terminus.balanced_reader.bind fun _ =>
    ConnectionKind.balanced_reader.bind fun _ => balanced_pure _

theorem Connection.takes_reader (input : List UInt8) (connection : Connection)
    (rest : List UInt8) :
    Connection.reader.Takes nesting input connection rest ↔
      connection.unnamed = connection ∧ input = connection.toBytes ++ rest := by
  simp only [Connection.reader, takes_bind Terminus.balanced_reader, Terminus.takes_reader,
    takes_bind ConnectionKind.balanced_reader, ConnectionKind.takes_reader, takes_pure]
  constructor
  · intro taken
    rcases taken with
      ⟨source, _, ⟨sourceNameless, rfl⟩, destination, _, ⟨destinationNameless, rfl⟩, kind, _, rfl,
        rfl, rfl⟩
    exact ⟨by rw [unnamed, sourceNameless, destinationNameless], by simp [toBytes]⟩
  · intro written
    rcases written with ⟨nameless, rfl⟩
    exact ⟨_, _, ⟨congrArg Connection.source nameless, by simp only [toBytes, List.append_assoc]⟩,
      _, _, ⟨congrArg Connection.destination nameless, rfl⟩, _, rest, rfl, rfl, rfl⟩

/-! ## Endpoints -/

/-- What reading an endpoint gives back as it was written: it has no name, its
lengths fit, and its default has at most `room` levels. -/
def Endpoint.Storable (room : Nat) (endpoint : Endpoint) : Prop :=
  endpoint.unnamed = endpoint ∧ endpoint.default.Fits ∧ endpoint.default.depth ≤ room

theorem Endpoint.balanced_reader (levels : Nat) : (Endpoint.reader levels).Balanced :=
  Identifier.balanced_reader.bind fun _ => (Value.balanced_reader levels).bind fun _ =>
    balanced_pure _

theorem Endpoint.takes_reader {levels : Nat} (input : List UInt8) (endpoint : Endpoint)
    (rest : List UInt8) :
    (Endpoint.reader levels).Takes nesting input endpoint rest ↔
      endpoint.Storable (min levels (maxNestingDepth - nesting)) ∧
        input = endpoint.toBytes ++ rest := by
  simp only [Endpoint.reader, takes_bind Identifier.balanced_reader, Identifier.takes_reader,
    takes_bind (Value.balanced_reader levels), Value.takes_reader, takes_pure, Storable,
    Nat.le_min]
  constructor
  · intro taken
    rcases taken with ⟨id, _, ⟨nameless, rfl⟩, default, _, ⟨storable, rfl⟩, rfl, rfl⟩
    exact ⟨⟨by rw [unnamed, nameless], storable⟩, by simp [toBytes]⟩
  · intro written
    rcases written with ⟨⟨nameless, storable⟩, rfl⟩
    exact ⟨_, _, ⟨congrArg Endpoint.id nameless, by rw [toBytes, List.append_assoc]⟩, _, rest,
      ⟨storable, rfl⟩, rfl, rfl⟩

namespace Prototype

/-! ## Sizes -/

def EndpointsFit (endpoints : List Endpoint) : Prop :=
  endpoints.length < 2 ^ 64 ∧ ∀ endpoint ∈ endpoints, endpoint.default.Fits

mutual
/-- The lengths of all texts and lists in a prototype fit into their prefixes. -/
def Fits (prototype : Prototype) : Prop :=
  match prototype with
  | ⟨name, _, inputs, outputs, locals, nodes, connections⟩ =>
      (Utf8.bytes name).length < 2 ^ 64 ∧ EndpointsFit inputs ∧ EndpointsFit outputs ∧
        EndpointsFit locals ∧ (nodes.length < 2 ^ 64 ∧ NodesFit nodes) ∧
        connections.length < 2 ^ 64

def NodesFit : List PrototypeNode → Prop
  | [] => True
  | ⟨_, _, overrides, subroutine⟩ :: nodes =>
      EndpointsFit overrides ∧ SubroutineFits subroutine ∧ NodesFit nodes

def SubroutineFits : Option Prototype → Prop
  | none => True
  | some subroutine => subroutine.Fits
end

theorem endpointsFit_unnamed (endpoints : List Endpoint) :
    EndpointsFit (endpoints.map Endpoint.unnamed) ↔ EndpointsFit endpoints := by
  simp [EndpointsFit]

mutual
theorem fits_unnamed : ∀ prototype : Prototype, prototype.unnamed.Fits ↔ prototype.Fits
  | ⟨_, _, _, _, _, nodes, _⟩ => by
      simp only [unnamed, Fits, endpointsFit_unnamed, length_unnamedNodes, List.length_map,
        nodesFit_unnamed nodes]

theorem nodesFit_unnamed : ∀ nodes : List PrototypeNode,
    NodesFit (unnamedNodes nodes) ↔ NodesFit nodes
  | [] => Iff.rfl
  | ⟨_, _, _, subroutine⟩ :: nodes => by
      simp only [unnamedNodes, NodesFit, endpointsFit_unnamed,
        subroutineFits_unnamed subroutine, nodesFit_unnamed nodes]

theorem subroutineFits_unnamed : ∀ subroutine : Option Prototype,
    SubroutineFits (unnamedSubroutine subroutine) ↔ SubroutineFits subroutine
  | none => Iff.rfl
  | some subroutine => fits_unnamed subroutine
end

theorem nodesFit_iff {nodes : List PrototypeNode} :
    NodesFit nodes ↔
      ∀ node ∈ nodes, EndpointsFit node.overrides ∧ SubroutineFits node.subroutine := by
  induction nodes with
  | nil => simp [NodesFit]
  | cons node nodes induction =>
      cases node
      simp [NodesFit, induction, and_assoc]

theorem endpointDepth_le_iff {endpoints : List Endpoint} {bound : Nat} :
    endpointDepth endpoints ≤ bound ↔ ∀ endpoint ∈ endpoints, endpoint.default.depth ≤ bound := by
  induction endpoints with
  | nil => simp [endpointDepth]
  | cons endpoint endpoints induction =>
      have rest : endpointDepth (endpoint :: endpoints) =
          max endpoint.default.depth (endpointDepth endpoints) := rfl
      rw [rest, Nat.max_le, induction, List.forall_mem_cons]

theorem depthOfNodes_le_iff {nodes : List PrototypeNode} {bound : Nat} :
    depthOfNodes nodes ≤ bound ↔
      ∀ node ∈ nodes, endpointDepth node.overrides ≤ bound ∧
        1 + depthOfSubroutine node.subroutine ≤ bound := by
  induction nodes with
  | nil => simp [depthOfNodes]
  | cons node nodes induction =>
      cases node
      rw [depthOfNodes, Nat.max_le, Nat.max_le, induction, List.forall_mem_cons, and_assoc]

/-! ## Storable prototypes -/

/-- What reading gives back as it was written. -/
def Storable (room : Nat) (prototype : Prototype) : Prop :=
  prototype.unnamed = prototype ∧ prototype.Fits ∧ prototype.depth ≤ room

/-- A subroutine that is a level of its own, even where there is none. -/
def SubroutineStorable (room : Nat) (subroutine : Option Prototype) : Prop :=
  unnamedSubroutine subroutine = subroutine ∧ SubroutineFits subroutine ∧
    1 + depthOfSubroutine subroutine ≤ room

def EndpointsStorable (room : Nat) (endpoints : List Endpoint) : Prop :=
  endpoints.length < 2 ^ 64 ∧ ∀ endpoint ∈ endpoints, endpoint.Storable room

def NodeStorable (room : Nat) (node : PrototypeNode) : Prop :=
  node.type.unnamed = node.type ∧ EndpointsStorable room node.overrides ∧
    SubroutineStorable room node.subroutine

theorem endpointsStorable_iff {room : Nat} {endpoints : List Endpoint} :
    EndpointsStorable room endpoints ↔
      endpoints.map Endpoint.unnamed = endpoints ∧ EndpointsFit endpoints ∧
        endpointDepth endpoints ≤ room := by
  simp only [EndpointsStorable, Endpoint.Storable, EndpointsFit, list_map_eq_self_iff,
    endpointDepth_le_iff, forall_and]
  constructor
  · intro storable
    rcases storable with ⟨length, nameless, fit, shallow⟩
    exact ⟨nameless, ⟨length, fit⟩, shallow⟩
  · intro parts
    rcases parts with ⟨nameless, ⟨length, fit⟩, shallow⟩
    exact ⟨length, nameless, fit, shallow⟩

theorem nodesStorable_iff {room : Nat} {nodes : List PrototypeNode} :
    (∀ node ∈ nodes, NodeStorable room node) ↔
      unnamedNodes nodes = nodes ∧ NodesFit nodes ∧ depthOfNodes nodes ≤ room := by
  simp only [NodeStorable, endpointsStorable_iff, SubroutineStorable, unnamedNodes_eq_map,
    list_map_eq_self_iff, PrototypeNode.unnamed_eq_self_iff, nodesFit_iff, depthOfNodes_le_iff,
    forall_and]
  constructor
  · intro storable
    rcases storable with
      ⟨types, ⟨overrides, fit, shallow⟩, subroutines, subroutinesFit, subroutinesShallow⟩
    exact ⟨⟨types, overrides, subroutines⟩, ⟨fit, subroutinesFit⟩, shallow, subroutinesShallow⟩
  · intro parts
    rcases parts with
      ⟨⟨types, overrides, subroutines⟩, ⟨fit, subroutinesFit⟩, shallow, subroutinesShallow⟩
    exact ⟨types, ⟨overrides, fit, shallow⟩, subroutines, subroutinesFit, subroutinesShallow⟩

theorem storable_iff {room : Nat} {prototype : Prototype} :
    prototype.Storable room ↔
      (Utf8.bytes prototype.name).length < 2 ^ 64 ∧ EndpointsStorable room prototype.inputs ∧
        EndpointsStorable room prototype.outputs ∧ EndpointsStorable room prototype.locals ∧
        (prototype.nodes.length < 2 ^ 64 ∧ ∀ node ∈ prototype.nodes, NodeStorable room node) ∧
        (prototype.connections.length < 2 ^ 64 ∧
          ∀ connection ∈ prototype.connections, connection.unnamed = connection) := by
  cases prototype
  simp only [Storable, unnamed, Fits, depth, Prototype.mk.injEq, true_and, endpointsStorable_iff,
    nodesStorable_iff, Nat.max_le, list_map_eq_self_iff]
  constructor
  · intro storable
    rcases storable with
      ⟨⟨inputs, outputs, locals, nodes, connections⟩, ⟨name, inputsFit, outputsFit, localsFit,
        ⟨nodeCount, nodesFit⟩, connectionCount⟩, inputsShallow, outputsShallow, localsShallow,
        nodesShallow⟩
    exact ⟨name, ⟨inputs, inputsFit, inputsShallow⟩, ⟨outputs, outputsFit, outputsShallow⟩,
      ⟨locals, localsFit, localsShallow⟩, ⟨nodeCount, nodes, nodesFit, nodesShallow⟩,
      connectionCount, connections⟩
  · intro parts
    rcases parts with
      ⟨name, ⟨inputs, inputsFit, inputsShallow⟩, ⟨outputs, outputsFit, outputsShallow⟩, ⟨locals,
        localsFit, localsShallow⟩, ⟨nodeCount, nodes, nodesFit, nodesShallow⟩, connectionCount,
        connections⟩
    exact ⟨⟨inputs, outputs, locals, nodes, connections⟩,
      ⟨name, inputsFit, outputsFit, localsFit, ⟨nodeCount, nodesFit⟩, connectionCount⟩,
      inputsShallow, outputsShallow, localsShallow, nodesShallow⟩

theorem not_subroutineStorable_zero {subroutine : Option Prototype} :
    ¬ SubroutineStorable 0 subroutine := by
  intro storable
  have shallow := storable.2.2
  omega

theorem subroutineStorable_none {room : Nat} : SubroutineStorable (room + 1) none := by
  simp [SubroutineStorable, unnamedSubroutine, SubroutineFits, depthOfSubroutine]

theorem subroutineStorable_some {room : Nat} {subroutine : Prototype} :
    SubroutineStorable (room + 1) (some subroutine) ↔ subroutine.Storable room := by
  simp [SubroutineStorable, Storable, unnamedSubroutine, SubroutineFits, depthOfSubroutine,
    Nat.add_comm 1]

/-! ## Nodes and bodies -/

/-- The bytes of a node: type and id, the overrides, the subroutine. -/
def bytesOfNode (node : PrototypeNode) : List UInt8 :=
  node.type.toBytes ++ Bytes.word 8 node.id.toNat ++ Bytes.list Endpoint.toBytes node.overrides ++
    subroutineBytes node.subroutine

theorem list_bytesOfNode (nodes : List PrototypeNode) :
    Bytes.list bytesOfNode nodes = Bytes.word 8 nodes.length ++ nodeBytes nodes := by
  have flattened : nodeBytes nodes = nodes.flatMap bytesOfNode := by
    induction nodes with
    | nil => rfl
    | cons node nodes induction =>
        cases node
        simp [nodeBytes, bytesOfNode, induction]
  rw [Bytes.list, flattened]

theorem toBytes_eq (prototype : Prototype) :
    prototype.toBytes =
      Bytes.text prototype.name ++ Bytes.word 8 prototype.id.toNat ++
        Bytes.list Endpoint.toBytes prototype.inputs ++
        Bytes.list Endpoint.toBytes prototype.outputs ++
        Bytes.list Endpoint.toBytes prototype.locals ++
        Bytes.list bytesOfNode prototype.nodes ++
        Bytes.list Connection.toBytes prototype.connections := by
  cases prototype
  simp only [toBytes, list_bytesOfNode, List.append_assoc]

theorem balanced_endpoints (levels : Nat) : (Reader.list (Endpoint.reader levels)).Balanced :=
  (Endpoint.balanced_reader levels).list

theorem takes_endpoints {levels : Nat} {endpoints : List Endpoint} :
    (Reader.list (Endpoint.reader levels)).Takes nesting input endpoints rest ↔
      EndpointsStorable (min levels (maxNestingDepth - nesting)) endpoints ∧
        input = Bytes.list Endpoint.toBytes endpoints ++ rest :=
  takes_list (Endpoint.balanced_reader levels) Endpoint.takes_reader

section
variable {levels : Nat} {inner : Reader (Option Prototype)}

theorem balanced_nodeReader (balanced : inner.Balanced) : (nodeReader levels inner).Balanced :=
  Identifier.balanced_reader.bind fun _ => (balanced_word 8).bind fun _ =>
    (balanced_endpoints levels).bind fun _ => balanced.bind fun _ => balanced_pure _

theorem balanced_bodyReader (balanced : inner.Balanced) : (bodyReader levels inner).Balanced :=
  balanced_text.bind fun _ => (balanced_word 8).bind fun _ =>
    (balanced_endpoints levels).bind fun _ => (balanced_endpoints levels).bind fun _ =>
      (balanced_endpoints levels).bind fun _ => (balanced_nodeReader balanced).list.bind fun _ =>
        Connection.balanced_reader.list.bind fun _ => balanced_pure _

theorem takes_nodeReader (balanced : inner.Balanced)
    (takes : ∀ input subroutine rest, inner.Takes nesting input subroutine rest ↔
      SubroutineStorable (min levels (maxNestingDepth - nesting)) subroutine ∧
        input = subroutineBytes subroutine ++ rest)
    (input : List UInt8) (node : PrototypeNode) (rest : List UInt8) :
    (nodeReader levels inner).Takes nesting input node rest ↔
      NodeStorable (min levels (maxNestingDepth - nesting)) node ∧
        input = bytesOfNode node ++ rest := by
  simp only [nodeReader, takes_bind Identifier.balanced_reader, Identifier.takes_reader,
    takes_bind (balanced_word 8), takes_word, takes_bind (balanced_endpoints levels),
    takes_endpoints, takes_bind balanced, takes, takes_pure]
  constructor
  · intro taken
    rcases taken with
      ⟨type, _, ⟨nameless, rfl⟩, id, _, ⟨bound, rfl⟩, overrides, _, ⟨storable, rfl⟩, subroutine, _,
        ⟨subroutineStorable, rfl⟩, rfl, rfl⟩
    have same : (UInt64.ofNat id).toNat = id := UInt64.toNat_ofNat_of_lt' bound
    exact ⟨⟨nameless, storable, subroutineStorable⟩, by simp [bytesOfNode, same]⟩
  · intro written
    rcases written with ⟨⟨nameless, storable, subroutineStorable⟩, rfl⟩
    cases node with
    | mk type id overrides subroutine =>
        exact ⟨_, _, ⟨nameless, by simp only [bytesOfNode, List.append_assoc]⟩, _, _,
          ⟨id.toNat_lt, rfl⟩, _, _, ⟨storable, rfl⟩, _, rest, ⟨subroutineStorable, rfl⟩,
          by simp, rfl⟩

theorem takes_bodyReader (balanced : inner.Balanced)
    (takes : ∀ input subroutine rest, inner.Takes nesting input subroutine rest ↔
      SubroutineStorable (min levels (maxNestingDepth - nesting)) subroutine ∧
        input = subroutineBytes subroutine ++ rest)
    {input : List UInt8} {prototype : Prototype} {rest : List UInt8} :
    (bodyReader levels inner).Takes nesting input prototype rest ↔
      prototype.Storable (min levels (maxNestingDepth - nesting)) ∧
        input = prototype.toBytes ++ rest := by
  have node : (nodeReader levels inner).Balanced := balanced_nodeReader balanced
  simp only [bodyReader, takes_bind balanced_text, takes_text, takes_bind (balanced_word 8),
    takes_word, takes_bind (balanced_endpoints levels), takes_endpoints, takes_bind node.list,
    takes_list node (takes_nodeReader balanced takes),
    takes_bind Connection.balanced_reader.list,
    takes_list Connection.balanced_reader Connection.takes_reader, takes_pure, storable_iff]
  constructor
  · intro taken
    rcases taken with
      ⟨name, _, ⟨nameFits, rfl⟩, id, _, ⟨bound, rfl⟩, inputs, _, ⟨inputsHold, rfl⟩, outputs, _,
        ⟨outputsHold, rfl⟩, locals, _, ⟨localsHold, rfl⟩, nodes, _, ⟨nodesHold, rfl⟩, connections,
        _, ⟨connectionsHold, rfl⟩, rfl, rfl⟩
    have same : (UInt64.ofNat id).toNat = id := UInt64.toNat_ofNat_of_lt' bound
    exact ⟨⟨nameFits, inputsHold, outputsHold, localsHold, nodesHold, connectionsHold⟩,
      by simp [toBytes_eq, same]⟩
  · intro written
    rcases written with
      ⟨⟨nameFits, inputsHold, outputsHold, localsHold, nodesHold, connectionsHold⟩, rfl⟩
    cases prototype with
    | mk name id inputs outputs locals nodes connections =>
        exact ⟨_, _, ⟨nameFits, by simp only [toBytes_eq, List.append_assoc]⟩, _, _,
          ⟨id.toNat_lt, rfl⟩, _, _, ⟨inputsHold, rfl⟩, _, _, ⟨outputsHold, rfl⟩, _, _,
          ⟨localsHold, rfl⟩, _, _, ⟨nodesHold, rfl⟩, _, rest, ⟨connectionsHold, rfl⟩,
          by simp, rfl⟩

end

/-! ## Subroutines -/

theorem balanced_subroutineReader (levels : Nat) : (subroutineReader levels).Balanced := by
  induction levels with
  | zero => exact (balanced_fail _).nested
  | succ levels induction =>
      refine ((balanced_truth _).bind fun present => ?_).nested
      split
      · exact (balanced_bodyReader induction).bind fun _ => balanced_pure _
      · exact balanced_pure _

/-- A subroutine takes a level before it is known whether there is one. -/
theorem takes_subroutineReader {levels : Nat} (input : List UInt8)
    (subroutine : Option Prototype) (rest : List UInt8) :
    (subroutineReader levels).Takes nesting input subroutine rest ↔
      SubroutineStorable (min levels (maxNestingDepth - nesting)) subroutine ∧
        input = subroutineBytes subroutine ++ rest := by
  induction levels generalizing nesting input subroutine rest with
  | zero =>
      simp only [subroutineReader, takes_nested, takes_fail, and_false, Nat.zero_min,
        not_subroutineStorable_zero, false_and]
  | succ levels induction =>
      have balanced : (bodyReader levels (subroutineReader levels)).Balanced :=
        balanced_bodyReader (balanced_subroutineReader levels)
      simp only [subroutineReader, presence, takes_nested, takes_bind (balanced_truth _),
        takes_truth]
      by_cases full : maxNestingDepth ≤ nesting
      · have noRoom : maxNestingDepth - nesting = 0 := Nat.sub_eq_zero_of_le full
        simp only [Nat.not_lt.mpr full, noRoom, Nat.min_zero, not_subroutineStorable_zero,
          false_and]
      have room : min (levels + 1) (maxNestingDepth - nesting) =
          min levels (maxNestingDepth - (nesting + 1)) + 1 := by omega
      rw [room]
      constructor
      · intro taken
        rcases taken with ⟨-, present, middle, rfl, taken⟩
        cases present with
        | false =>
            rcases takes_pure.mp taken with ⟨rfl, rfl⟩
            exact ⟨subroutineStorable_none, rfl⟩
        | true =>
            simp only [if_true, takes_bind balanced, takes_pure,
              takes_bodyReader (balanced_subroutineReader levels)
                fun _ _ _ => induction _ _ _] at taken
            rcases taken with ⟨inner, _, ⟨storable, rfl⟩, rfl, rfl⟩
            exact ⟨subroutineStorable_some.mpr storable, by simp [subroutineBytes]⟩
      · intro written
        rcases written with ⟨storable, rfl⟩
        refine ⟨Nat.lt_of_not_le full, ?_⟩
        cases subroutine with
        | none => exact ⟨false, rest, rfl, takes_pure.mpr ⟨rfl, rfl⟩⟩
        | some inner =>
            refine ⟨true, inner.toBytes ++ rest, by simp [subroutineBytes], ?_⟩
            simp only [if_true, takes_bind balanced, takes_pure,
              takes_bodyReader (balanced_subroutineReader levels)
                fun _ _ _ => induction _ _ _]
            exact ⟨inner, rest, ⟨subroutineStorable_some.mp storable, rfl⟩, rfl, rfl⟩

/-! ## Prototypes -/

theorem balanced_reader (levels : Nat) : (reader levels).Balanced :=
  balanced_bodyReader (balanced_subroutineReader levels)

/-- A prototype is taken exactly if its bytes are there and it goes no deeper
than the thread may still go. -/
theorem takes_reader {levels : Nat} {prototype : Prototype} :
    (reader levels).Takes nesting input prototype rest ↔
      prototype.Storable (min levels (maxNestingDepth - nesting)) ∧
        input = prototype.toBytes ++ rest :=
  takes_bodyReader (balanced_subroutineReader levels) takes_subroutineReader

theorem ofBytes_eq_ok_iff {prototype : Prototype} {bytes : List UInt8} :
    ofBytes bytes = .ok prototype ↔
      prototype.Storable maxNestingDepth ∧ prototype.toBytes <+: bytes := by
  simp only [ofBytes, read_eq_ok_iff, takes_reader, Nat.sub_zero, Nat.min_self]
  constructor
  · intro taken
    rcases taken with ⟨rest, storable, rfl⟩
    exact ⟨storable, List.prefix_append _ _⟩
  · intro front
    rcases front with ⟨storable, rest, rfl⟩
    exact ⟨rest, storable, rfl⟩

theorem storable_unnamed_iff {room : Nat} {prototype : Prototype} :
    prototype.unnamed.Storable room ↔ prototype.Fits ∧ prototype.depth ≤ room := by
  simp [Storable, unnamed_unnamed, fits_unnamed, depth_unnamed]

/-- What has been stored is read without its names. -/
theorem ofBytes_eq_ok_unnamed_iff {prototype : Prototype} {bytes : List UInt8} :
    ofBytes bytes = .ok prototype.unnamed ↔
      (prototype.Fits ∧ prototype.depth ≤ maxNestingDepth) ∧ prototype.toBytes <+: bytes := by
  rw [ofBytes_eq_ok_iff, storable_unnamed_iff, toBytes_unnamed]

/-- What is read equals a prototype exactly if it is that prototype without
names. -/
theorem exists_ofBytes_beq_iff {prototype : Prototype} {bytes : List UInt8} :
    (∃ decoded, ofBytes bytes = .ok decoded ∧ (decoded == prototype) = true) ↔
      ofBytes bytes = .ok prototype.unnamed := by
  constructor
  · intro found
    rcases found with ⟨decoded, read, equal⟩
    have nameless := (ofBytes_eq_ok_iff.mp read).1.1
    rw [beq_iff_unnamed, nameless] at equal
    rw [read, equal]
  · intro read
    refine ⟨prototype.unnamed, read, ?_⟩
    rw [beq_iff_unnamed, unnamed_unnamed]

/-! ## Threads -/

theorem nestingAfter_eq (nesting : Nat) (decoding : Decoding) :
    decoding.nestingAfter nesting = nesting := by
  cases decoding with
  | value bytes => exact Value.balanced_reader _ nesting bytes
  | prototype bytes => exact balanced_reader _ nesting bytes

/-- Whatever a thread has decoded, it is in no level. -/
theorem foldl_nestingAfter (nesting : Nat) (earlier : List Decoding) :
    earlier.foldl Decoding.nestingAfter nesting = nesting := by
  induction earlier generalizing nesting with
  | nil => rfl
  | cons decoding earlier induction =>
      rw [List.foldl_cons, nestingAfter_eq, induction]

theorem ofBytesAfter_eq (earlier : List Decoding) (bytes : List UInt8) :
    ofBytesAfter earlier bytes = ofBytes bytes := by
  rw [ofBytesAfter, foldl_nestingAfter]
  rfl

/-- Bytes are read as a prototype equal to a given one exactly if they start
with its bytes and it has at most 64 levels. Written again, what was read gives
the bytes that were taken for it; what follows them does not matter, and neither
does what the thread has decoded before, which leaves it in no level. -/
theorem ofBytesAfter_exact {prototype : Prototype} (fits : prototype.Fits)
    (earlier : List Decoding) (bytes : List UInt8) :
    ((∃ decoded, ofBytesAfter earlier bytes = .ok decoded ∧ (decoded == prototype) = true) ↔
        prototype.depth ≤ 64 ∧ prototype.toBytes <+: bytes) ∧
      ((∃ decoded, ofBytesAfter earlier prototype.toBytes = .ok decoded ∧
          (decoded == prototype) = true) ↔
        prototype.depth ≤ 64) ∧
      (∀ decoded rest,
        ((reader maxNestingDepth).run (earlier.foldl Decoding.nestingAfter 0) bytes).outcome =
            .ok (decoded, rest) →
          decoded.toBytes ++ rest = bytes) ∧
      (∀ decoded trailing, ofBytesAfter earlier bytes = .ok decoded →
        ofBytesAfter earlier (bytes ++ trailing) = .ok decoded) ∧
      ofBytesAfter earlier bytes = ofBytes bytes ∧
      earlier.foldl Decoding.nestingAfter 0 = 0 := by
  have exact (input : List UInt8) :
      (∃ decoded, ofBytes input = .ok decoded ∧ (decoded == prototype) = true) ↔
        prototype.depth ≤ 64 ∧ prototype.toBytes <+: input := by
    rw [exists_ofBytes_beq_iff, ofBytes_eq_ok_unnamed_iff]
    simp only [fits, true_and, maxNestingDepth]
  simp only [ofBytesAfter_eq, foldl_nestingAfter]
  refine ⟨exact bytes, ?_, ?_, ?_, trivial, trivial⟩
  · rw [exact]
    exact and_iff_left (List.prefix_refl _)
  · intro decoded rest read
    exact (takes_reader.mp read).2.symm
  · intro decoded trailing read
    rcases ofBytes_eq_ok_iff.mp read with ⟨storable, front⟩
    exact ofBytes_eq_ok_iff.mpr ⟨storable, front.trans (List.prefix_append _ _)⟩

/-- A graph with named endpoints and a node that has a subroutine. -/
def composite : Prototype where
  name := "outer"
  id := 7
  inputs := [⟨.named "in", .array [.bool true, .array []]⟩]
  outputs := []
  locals := []
  nodes := [⟨.named "graph", 1, [], some ⟨"inner", 8, [⟨.named "value", .void⟩], [], [], [], []⟩⟩]
  connections := [⟨⟨graphNodeId, .named "in"⟩, ⟨1, .named "value"⟩, .graphValueToNode⟩]

theorem composite_fits : composite.Fits := by
  simp only [composite, Fits, EndpointsFit, NodesFit, SubroutineFits, List.forall_mem_cons,
    List.not_mem_nil, false_imp_iff, implies_true, Value.Fits, Value.ItemsFit, and_true]
  decide

theorem composite_ofBytesAfter_exact :
    composite.Fits ∧
      ∃ decoded, ofBytesAfter [.value [10, 0, 0, 0], .prototype [1]] (composite.toBytes ++ [7]) =
          .ok decoded ∧ (decoded == composite) = true :=
  ⟨composite_fits,
    (ofBytesAfter_exact composite_fits _ _).1.mpr ⟨by decide, List.prefix_append _ _⟩⟩

end Prototype

end NodeGraph
