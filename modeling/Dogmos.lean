import Dogmos.Lib.BackIndex
import Dogmos.Lib.Bytes
import Dogmos.Lib.Exec
import Dogmos.Lib.System
import Dogmos.Lib.FloatFormat
import Dogmos.Lib.FloatOrder
import Dogmos.Lib.Exact
import Dogmos.Lib.Mixing
import Dogmos.Lib.Extended
import Dogmos.Lib.FloatBits
import Dogmos.Lib.SetIndex
import Dogmos.Lib.SlotPool
import Dogmos.Lib.Worklist
import Dogmos.Core.Handles
import Dogmos.Core.Metadata
import Dogmos.Core.SlotIndex
import Dogmos.Core.Transaction
import Dogmos.Core.Topology
import Dogmos.Core.Frontier
import Dogmos.Core.Versioned
import Dogmos.Core.Record
import Dogmos.Core.Reactions
import Dogmos.Core.Graph
import Dogmos.Core.State
import Dogmos.Core.Continuations
import Dogmos.Core.Lifecycle
import Dogmos.Core.TurfOps
import Dogmos.Core.React
import Dogmos.Core.Commands
import Dogmos.Core.Component
import Dogmos.Stage.Scratch
import Dogmos.Stage.Diffusion
import Dogmos.Stage.Heat
import Dogmos.Stage.Reaction
import Dogmos.Stage.Components
import Dogmos.Stage.Chunk
import Dogmos.Stage.Driver
import Dogmos.Core.World
import Dogmos.Topology.Row
import Dogmos.Topology.Wellformed
import Dogmos.Topology.Edges
import Dogmos.Topology.Removal
import Dogmos.Topology.Handshake
import Dogmos.Runs.Requests
import Dogmos.Runs.Continuations
import Dogmos.Runs.Units
import Dogmos.Runs.Chunks
import Dogmos.Runs.Records
import Dogmos.Runs.Shapes
import Dogmos.Runs.Operations
import Dogmos.Runs.Adjacency
import Dogmos.Runs.Batches
import Dogmos.Runs.Ledger
import Dogmos.Runs.Tokens
import Dogmos.Runs.Phases
import Dogmos.Runs.Stages
import Dogmos.Runs.ReactChunk
import Dogmos.Runs.Registries
import Dogmos.Runs.ReactionOrder
import Dogmos.Runs.HeatIndex
import Dogmos.Runs.SingleUse
import Dogmos.Runs.Live
import Dogmos.Runs.HeatStage
import Dogmos.Runs.Targets
import Dogmos.Runs.Waiting
import Dogmos.Runs.Rounds
import Dogmos.Runs.Overlap
import Dogmos.Runs.FrontierSize
import Dogmos.Runs.FrontierCalls
import Dogmos.Runs.FrontierRefinement
import Dogmos.Runs.Ownership
import Dogmos.Runs.ReverseIndexes
import Dogmos.Runs.Writes
import Dogmos.Runs.Effects
import Dogmos.Runs.Atomic
import Dogmos.Runs.Coverage
import Dogmos.Runs.Pauses
import Dogmos.Runs.SlotIndexes
import Dogmos.Lib.Channel
import Dogmos.Lib.PackedRows
import Dogmos.Lib.Spread
import Dogmos.Wire.Format
import Dogmos.Wire.Commands
import Dogmos.Wire.Batches
import Dogmos.Wire.States
import Dogmos.Wire.Uploads
import Dogmos.Wire.Snapshots
import Dogmos.Wire.Frontiers
import Dogmos.Wire.Canonical
import Dogmos.Wire.Metadata
import Dogmos.Wire.Tokens
import Dogmos.Wire.Events
import Dogmos.Wire.Telemetry
import Dogmos.Wire.Header
import Dogmos.Wire.Frames
import Dogmos.Wire.Requests
import Dogmos.Wire.Handshake
import Dogmos.Wire.ReactionMetadata
import Dogmos.Wire.Robust
import Dogmos.Exact.Amounts
import Dogmos.Exact.Registry
import Dogmos.Exact.Transfers
import Dogmos.Exact.GasTransfers
import Dogmos.Exact.Temperatures
import Dogmos.Exact.Convexity
import Dogmos.Exact.Matter
import Dogmos.Exact.Thermal
import Dogmos.Exact.HeatExchange
import Dogmos.Lib.Relaxation
import Dogmos.Exact.Conductance
import Dogmos.Exact.HeatWalk
import Dogmos.Exact.Conduction
import Dogmos.Numerics.Conduction
import Dogmos.Exact.ConductionStep
import Dogmos.Numerics.Graph
import Dogmos.Numerics.Diffusion
import Dogmos.Exact.DiffusionStep
import Dogmos.Components.Candidates
import Dogmos.Components.Kernels
import Dogmos.Components.Groups
import Dogmos.Components.Means
import Dogmos.Components.Touches
import Dogmos.Components.Scratch
import Dogmos.Runs.Transactions
import Dogmos.Runs.Capacity
import Dogmos.Legacy.Mixture
import Dogmos.Legacy.Amounts
import Dogmos.Legacy.Removal
import Dogmos.Legacy.Cache
import Dogmos.Legacy.Reactions
import Dogmos.Legacy.Selection
import Dogmos.Legacy.Fires
import Dogmos.Legacy.Mirrors
import Dogmos.Legacy.Agreement
import Dogmos.Legacy.Callbacks
import Dogmos.Legacy.CallbackRuns
import Dogmos.Legacy.Arena
import Dogmos.Legacy.Ownership
import Dogmos.Legacy.Diffusion
import Dogmos.Legacy.Balance
import Dogmos.Lib.Flow
import Dogmos.Legacy.Zones
import Dogmos.Legacy.Routing
import Dogmos.Legacy.FloodFill
import Dogmos.Legacy.Settling
import Dogmos.Legacy.Finalize
import Dogmos.Legacy.Applied
import Dogmos.Legacy.FlowTotals
import Dogmos.Components.Excited
import Dogmos.Exact.NativeReactions
import Dogmos.Exact.Pipenet
import Dogmos.Lib.Tally
import Dogmos.Service.Conversions
import Dogmos.Service.State
import Dogmos.Service.Requests
import Dogmos.Lib.Delivery
import Dogmos.Service.Changes
import Dogmos.Service.Accounting
import Dogmos.Service.Ledger
