import PacketFilter.Dispatcher
import PacketFilter.FloodGuard.Basic
import PacketFilter.LoadBalancer.Basic
import PacketFilter.Packet.Frame
import PacketFilter.Proofs.Bounds
import PacketFilter.Proofs.Branching
import PacketFilter.Proofs.Maps
import PacketFilter.Proofs.Address
import PacketFilter.Proofs.Checked
import PacketFilter.Proofs.Passing
import PacketFilter.Proofs.Representation
import PacketFilter.Proofs.Region
import PacketFilter.Proofs.Following
import PacketFilter.Proofs.Frame
import PacketFilter.Proofs.FrameContents
import PacketFilter.Proofs.Placement
import PacketFilter.Proofs.Access
import PacketFilter.Proofs.Changing
import PacketFilter.Proofs.Loading
import PacketFilter.Proofs.Storing
import PacketFilter.Proofs.Updating
import PacketFilter.Proofs.Identities
import PacketFilter.Proofs.Computing
import PacketFilter.Proofs.Arguments
import PacketFilter.Proofs.Calling
import PacketFilter.Proofs.Stepping
import PacketFilter.Proofs.Renaming
import PacketFilter.Proofs.Survey
import PacketFilter.Proofs.Running
import PacketFilter.Proofs.Entering
import PacketFilter.Proofs.Outcomes
import PacketFilter.Proofs.Safety
import PacketFilter.Proofs.Isolation
import PacketFilter.Proofs.Termination
import PacketFilter.Proofs.Reservations
import PacketFilter.Proofs.Confinement
import PacketFilter.Proofs.Series
import PacketFilter.Proofs.BoundedQueue
import PacketFilter.Proofs.Delivery
import PacketFilter.Proofs.RecencyOrder
import PacketFilter.Proofs.Recency
import PacketFilter.Proofs.Transparency
import PacketFilter.Proofs.FiniteMap
import PacketFilter.Proofs.Refusals
import PacketFilter.Proofs.Lines
import PacketFilter.Proofs.Stages
import PacketFilter.Proofs.Headers
import PacketFilter.Proofs.Lookups
import PacketFilter.Proofs.FloodState
import PacketFilter.Proofs.Views
import PacketFilter.Proofs.Setup
import PacketFilter.Proofs.FloodProgram
import PacketFilter.Proofs.FloodControl
import PacketFilter.Proofs.FloodService
import PacketFilter.Proofs.FlowTables
import PacketFilter.Proofs.BalancerState
import PacketFilter.Proofs.BalancerProgram
import PacketFilter.Proofs.BalancerControl
import PacketFilter.Proofs.BalancerService
import PacketFilter.Proofs.SlotOwners
import PacketFilter.Proofs.Affinity
import PacketFilter.Proofs.FailedSetup
import PacketFilter.Proofs.RecordAccounts
import PacketFilter.Proofs.CoherentWalk
import PacketFilter.Proofs.ControlSafety
import PacketFilter.Proofs.Evaluation
import PacketFilter.Proofs.Reachable
import PacketFilter.Proofs.WellFormedCode
import PacketFilter.Proofs.PacketLedger
import PacketFilter.Proofs.Narrowing
import PacketFilter.Proofs.ScalarBranches
import PacketFilter.Proofs.SettledWalk
import PacketFilter.Proofs.NullChecks
import PacketFilter.Proofs.RegionAccesses
import PacketFilter.Proofs.CheckedRuns
import PacketFilter.Proofs.ContextAccesses
import PacketFilter.Proofs.FrameDeeds
import PacketFilter.Proofs.HelperCalls
import PacketFilter.Proofs.ConnectionOrder
import PacketFilter.Proofs.DerivedBounds
import PacketFilter.Proofs.Descriptions
import PacketFilter.Proofs.Synchronization
import PacketFilter.Proofs.Examination
import PacketFilter.Proofs.TripCounts
import PacketFilter.Proofs.BackEdges
import PacketFilter.Proofs.BasicBlocks
import PacketFilter.Proofs.CountedLoops
import PacketFilter.Proofs.Budgets
import PacketFilter.Proofs.Labels
import PacketFilter.Proofs.MemoryFrames
import PacketFilter.Proofs.Digests
import PacketFilter.Proofs.Checksums
import PacketFilter.Proofs.WorkerValues
import PacketFilter.Proofs.PermutedStates
import PacketFilter.Proofs.LogTails
