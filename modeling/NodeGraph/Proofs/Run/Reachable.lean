import NodeGraph.Proofs.Compile.Ownership
import NodeGraph.Proofs.Run.Invariant

namespace NodeGraph

/-! The graphs that a host or a surrounding graph can come to hold: those that
have been compiled and then called, in any order and any number of times. -/

namespace Compile

variable [Processor κ] {registry : Registry κ} {config : Config} {prototype : Prototype}
  {room : Nat}

/-- The graph was compiled from a prototype, with room for that many levels of
subroutines, and some calls have been made since. -/
def Reachable (registry : Registry κ) (config : Config) (prototype : Prototype)
    (graph : Graph (Nested κ room)) : Prop :=
  ∃ built calls, (build registry config room prototype).outcome = .ok built ∧
    graph = built.afterCalls calls

theorem Reachable.afterCalls {graph : Graph (Nested κ room)}
    (reachable : Reachable registry config prototype graph) (calls : List Call) :
    Reachable registry config prototype (graph.afterCalls calls) := by
  rcases reachable with ⟨built, earlier, compiled, rfl⟩
  exact ⟨built, earlier ++ calls, compiled, by simp [Graph.afterCalls]⟩

/-- Creating an instance is compiling it and initializing it. -/
theorem Reachable.of_create {context : Context} {graph : Instance κ config}
    (created : (Instance.create registry config context prototype).outcome = .ok graph) :
    Reachable registry config prototype graph := by
  rcases Instance.create_eq_ok_iff.mp created with ⟨built, compiled, rfl⟩
  exact ⟨built, [.init context], compiled, rfl⟩

theorem endpointsOf_complete (registry : Registry κ) (prototype : Prototype) :
    (endpointsOf registry prototype).layouts.length =
      (endpointsOf registry prototype).prototype.nodes.length := by
  simp [endpointsOf]

/-- A fresh graph holds its defaults. -/
theorem build_values {graph : Graph (Nested κ room)}
    (built : (build registry config room prototype).outcome = .ok graph) :
    graph.state.values = graph.circuit.defaults := by
  rcases build_eq_ok built with ⟨nodes, wires, order, -, -, rfl⟩
  rfl

/-! ## What is known of a reachable graph -/

theorem Reachable.circuit_eq {graph : Graph (Nested κ room)}
    (reachable : Reachable registry config prototype graph) :
    ∃ wires order, Wired (endpointsOf registry prototype) wires order ∧
      graph.circuit = Assembly.circuit config (endpointsOf registry prototype) wires order := by
  rcases reachable with ⟨built, calls, compiled, rfl⟩
  rcases build_eq_ok compiled with ⟨nodes, wires, order, -, wired, rfl⟩
  exact ⟨wires, order, wired, by rw [Graph.afterCalls_circuit]; rfl⟩

theorem Reachable.hopLimit_eq {graph : Graph (Nested κ room)}
    (reachable : Reachable registry config prototype graph) :
    graph.circuit.hopLimit = config.maxEventHops.toNat := by
  rcases reachable.circuit_eq with ⟨wires, order, -, equal⟩
  rw [equal]
  rfl

theorem Reachable.targets_eq {graph : Graph (Nested κ room)}
    (reachable : Reachable registry config prototype graph) (node output : Nat) :
    graph.circuit.routes.targets node output =
      (endpointsOf registry prototype).targetsFrom (.nodeEvent node output) := by
  rcases reachable.circuit_eq with ⟨wires, order, wired, equal⟩
  rw [equal, Assembly.targets_circuit wired.looked]

theorem Reachable.entrance_eq {graph : Graph (Nested κ room)}
    (reachable : Reachable registry config prototype graph) (id : Identifier) :
    graph.circuit.entrance id = (endpointsOf registry prototype).targetsFrom (.graphInput id) := by
  rcases reachable.circuit_eq with ⟨wires, order, wired, equal⟩
  rw [equal, Assembly.entrance_circuit wired.looked]

/-- Events are led only where event connections end. -/
theorem Reachable.exists_of_leadsTo {graph : Graph (Nested κ room)}
    (reachable : Reachable registry config prototype graph) {target : Target}
    (leads : graph.circuit.LeadsTo target) :
    ∃ connection ∈ prototype.connections, connection.kind.isEvent = true ∧
      (endpointsOf registry prototype).eventTarget connection.kind.destinationScope
        connection.destination = .ok target := by
  rcases leads with ⟨node, output, listed⟩ | ⟨id, listed⟩
  · rw [reachable.targets_eq] at listed
    rcases Endpoints.exists_of_mem_targetsFrom listed with ⟨connection, member, isEvent, -, ends⟩
    exact ⟨connection, member, isEvent, ends⟩
  · rw [reachable.entrance_eq] at listed
    rcases Endpoints.exists_of_mem_targetsFrom listed with ⟨connection, member, isEvent, -, ends⟩
    exact ⟨connection, member, isEvent, ends⟩

theorem Reachable.flowsForward {graph : Graph (Nested κ room)}
    (reachable : Reachable registry config prototype graph) : graph.circuit.FlowsForward := by
  rcases reachable.circuit_eq with ⟨wires, order, wired, equal⟩
  rw [equal]
  exact Assembly.circuit_flowsForward (endpointsOf_complete registry prototype) wired.isOrder

theorem Reachable.circuit_sound {graph : Graph (Nested κ room)}
    (reachable : Reachable registry config prototype graph) :
    graph.circuit.Sound (endpointsOf registry prototype) := by
  rcases reachable.circuit_eq with ⟨wires, order, wired, equal⟩
  rw [equal]
  exact Assembly.circuit_sound (endpointsOf_complete registry prototype) wired.looked wired.isOrder

theorem Reachable.placements_size {graph : Graph (Nested κ room)}
    (reachable : Reachable registry config prototype graph) :
    graph.circuit.placements.size = prototype.nodes.length := by
  rcases reachable.circuit_eq with ⟨wires, order, -, equal⟩
  rw [equal, Assembly.circuit_size (endpointsOf_complete registry prototype)]
  rfl

theorem Reachable.fits {graph : Graph (Nested κ room)}
    (reachable : Reachable registry config prototype graph) :
    graph.state.Fits graph.circuit := by
  rcases reachable with ⟨built, calls, compiled, rfl⟩
  rw [Graph.afterCalls_circuit]
  refine Graph.afterCalls_keeps built.circuit.keeps_fits ?_ calls
  rcases build_eq_ok compiled with ⟨nodes, wires, order, complete, -, rfl⟩
  have size : (Assembly.circuit config (endpointsOf registry prototype) wires
      order).placements.size = prototype.nodes.length :=
    Assembly.circuit_size (endpointsOf_complete registry prototype)
  exact Graph.pristine_fits (complete.trans size.symm)

/-- No more events wait for the host than the configuration allows. -/
theorem Reachable.within {graph : Graph (Nested κ room)}
    (reachable : Reachable registry config prototype graph) :
    graph.state.outgoing.Within config.eventQueueCapacity.toNat := by
  rcases reachable with ⟨built, calls, compiled, rfl⟩
  refine Graph.afterCalls_keeps (built.circuit.keeps_within _) ?_ calls
  rcases build_eq_ok compiled with ⟨nodes, wires, order, -, -, rfl⟩
  exact ⟨rfl, Nat.zero_le _⟩

end Compile

end NodeGraph
