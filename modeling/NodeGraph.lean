import NodeGraph.Compile
import NodeGraph.Host
import NodeGraph.Prototype.Stored
import NodeGraph.Standard
import NodeGraph.Proofs.Compile.Success
import NodeGraph.Proofs.Run.Broadcast
import NodeGraph.Proofs.Schedule
import NodeGraph.Proofs.Compile.Order
import NodeGraph.Proofs.Circuit
import NodeGraph.Proofs.Compile.Slots
import NodeGraph.Proofs.Compile.Routes
import NodeGraph.Proofs.Panel
import NodeGraph.Proofs.Run.Invariant
import NodeGraph.Proofs.Run.Delivery
import NodeGraph.Proofs.Run.OnePass
import NodeGraph.Proofs.Compile.WellFormed
import NodeGraph.Proofs.Compile.Acceptance
import NodeGraph.Proofs.Stored.Reading
import NodeGraph.Proofs.Stored.Value
import NodeGraph.Proofs.Stored.Unnamed
import NodeGraph.Proofs.Stored.Prototype
import NodeGraph.Proofs.Stored.Determined
import NodeGraph.Proofs.Run.Nodes
import NodeGraph.Proofs.Run.Parts
import NodeGraph.Proofs.Compile.Ownership
import NodeGraph.Proofs.Run.Sound
import NodeGraph.Proofs.Run.Rewind
import NodeGraph.Proofs.Run.Boundary
import NodeGraph.Proofs.Run.Coherence
import NodeGraph.Proofs.Run.Crossing
import NodeGraph.Proofs.Run.Unnamed
import NodeGraph.Proofs.Run.UnnamedNodes
import NodeGraph.Proofs.Compile.Unnamed
import NodeGraph.Proofs.Run.Persistence
import NodeGraph.Proofs.Run.Budget
import NodeGraph.Proofs.Run.Outgoing
import NodeGraph.Proofs.Run.Forwarding
import NodeGraph.Proofs.Run.Alike
import NodeGraph.Proofs.Run.Room
import NodeGraph.Proofs.Compile.Wrapping
import NodeGraph.Proofs.Run.Wrapping
import NodeGraph.Proofs.Schedule.Canonical
import NodeGraph.Proofs.Compile.Canonical
import NodeGraph.Proofs.Compile.Fault
import NodeGraph.Proofs.Compile.FirstFault
import NodeGraph.Proofs.Compile.Allocation
import NodeGraph.Proofs.Compile.Places
import NodeGraph.Proofs.Run.Wiring
import NodeGraph.Proofs.Compile.Relocation
import NodeGraph.Proofs.Run.Embedding
import NodeGraph.Proofs.Run.Reordering
import NodeGraph.Proofs.Schedule.Spectator
import NodeGraph.Proofs.Compile.Spectator
import NodeGraph.Proofs.Run.Spectator
import NodeGraph.Proofs.Stored.Shallow
import NodeGraph.Proofs.Permission
import NodeGraph.Proofs.Showing
import NodeGraph.Proofs.Run.Settling
import NodeGraph.Proofs.Run.Reinitialization
import NodeGraph.Proofs.Run.Kinds
import NodeGraph.Proofs.Run.Frame
import NodeGraph.Proofs.Stored.Equality
import NodeGraph.Proofs.Stored.Verdict
import NodeGraph.Proofs.Run.Handover
import NodeGraph.Proofs.Counting
import NodeGraph.Proofs.Division
import NodeGraph.Proofs.NameHash
import NodeGraph.Proofs.Schedule.Tables
import NodeGraph.Proofs.Schedule.Counts
import NodeGraph.Proofs.Compile.Tables
import NodeGraph.Proofs.Compile.ByTables
import NodeGraph.Proofs.Compile.WiringTables
