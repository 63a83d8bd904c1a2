import ContinuousBatching.Registry
import ContinuousBatching.Count
import ContinuousBatching.Json.Text
import ContinuousBatching.Json.Record
import ContinuousBatching.Request.Chunk
import ContinuousBatching.Request.ChunkJson
import ContinuousBatching.SequenceIds
import ContinuousBatching.Cache.BlockTable
import ContinuousBatching.Request.Settings
import ContinuousBatching.Request.Sample
import ContinuousBatching.Request.Delta
import ContinuousBatching.Cache.Replica
import ContinuousBatching.Scheduler.Audit
import ContinuousBatching.Scheduler.Admission
import ContinuousBatching.Scheduler.Preemption
import ContinuousBatching.Scheduler.Completion
import ContinuousBatching.Engine.Step
import ContinuousBatching.Simulation.Run
import ContinuousBatching.Main
import ContinuousBatching.Proofs.Outcome
import ContinuousBatching.Proofs.Sums
import ContinuousBatching.Proofs.Registry
import ContinuousBatching.Proofs.Repetitions
import ContinuousBatching.Proofs.SequenceIds
import ContinuousBatching.Proofs.SequenceIds.Reuse
import ContinuousBatching.Proofs.Cache.Blocks
import ContinuousBatching.Proofs.Cache.Rotation
import ContinuousBatching.Proofs.Cache.Paged
import ContinuousBatching.Proofs.Request.Ticket
import ContinuousBatching.Proofs.Cache.Replicas
import ContinuousBatching.Proofs.Scheduler.Ownership
import ContinuousBatching.Proofs.Scheduler.Actions
import ContinuousBatching.Proofs.Scheduler.Owned
import ContinuousBatching.Proofs.Request.InPlace
import ContinuousBatching.Proofs.Request.Report
import ContinuousBatching.Proofs.Scheduler.Moves
import ContinuousBatching.Proofs.Scheduler.Operations
import ContinuousBatching.Proofs.Scheduler.Line
import ContinuousBatching.Proofs.Scheduler.LineMoves
import ContinuousBatching.Proofs.Scheduler.Histories
import ContinuousBatching.Proofs.Scheduler.Retention
import ContinuousBatching.Proofs.Request.Rendering
import ContinuousBatching.Proofs.Request.Stream
import ContinuousBatching.Proofs.Request.Attempts
import ContinuousBatching.Proofs.Request.Limits
import ContinuousBatching.Proofs.Scheduler.Precedence
import ContinuousBatching.Proofs.Scheduler.Preparation
import ContinuousBatching.Proofs.Scheduler.Delivery
import ContinuousBatching.Proofs.Scheduler.Answers
import ContinuousBatching.Proofs.Scheduler.Rounds
import ContinuousBatching.Proofs.Scheduler.Seats
import ContinuousBatching.Proofs.Scheduler.Refusals
import ContinuousBatching.Proofs.Request.Solo
import ContinuousBatching.Proofs.Request.Reasons
import ContinuousBatching.Proofs.Request.Reference
import ContinuousBatching.Proofs.Request.Lifecycle
import ContinuousBatching.Proofs.Engine.Live
import ContinuousBatching.Proofs.Cache.Capacity
import ContinuousBatching.Proofs.Cache.Histories
import ContinuousBatching.Proofs.Cache.Promises
import ContinuousBatching.Proofs.Engine.Rest
import ContinuousBatching.Proofs.Engine.Feeding
import ContinuousBatching.Proofs.Engine.Admission
import ContinuousBatching.Proofs.Engine.Room
import ContinuousBatching.Proofs.Engine.Batch
import ContinuousBatching.Proofs.Engine.Reporting
import ContinuousBatching.Proofs.Engine.Completion
import ContinuousBatching.Proofs.Engine.Calls
import ContinuousBatching.Proofs.Request.Tolerance
import ContinuousBatching.Proofs.Engine.Interruption
import ContinuousBatching.Proofs.Scheduler.Audit
import ContinuousBatching.Proofs.Engine.Precedence
import ContinuousBatching.Proofs.Engine.Naming
import ContinuousBatching.Proofs.Engine.Journal
import ContinuousBatching.Proofs.Engine.Preemption
import ContinuousBatching.Proofs.Engine.Receptive
import ContinuousBatching.Proofs.Engine.Intake
import ContinuousBatching.Proofs.Engine.Deliveries
import ContinuousBatching.Proofs.Engine.Lifecycle
import ContinuousBatching.Proofs.Engine.Safety
import ContinuousBatching.Proofs.Engine.Bounds
import ContinuousBatching.Proofs.Engine.Occupancy
import ContinuousBatching.Proofs.Engine.Replay
import ContinuousBatching.Proofs.Engine.Stalls
import ContinuousBatching.Proofs.Engine.Independence
import ContinuousBatching.Proofs.Engine.Limits
import ContinuousBatching.Proofs.Engine.Ledger
import ContinuousBatching.Proofs.Engine.Termination
import ContinuousBatching.Proofs.Engine.Course
import ContinuousBatching.Proofs.Json.Reader
import ContinuousBatching.Proofs.Json.Values
import ContinuousBatching.Proofs.Json.Numeral
import ContinuousBatching.Proofs.Json.Members
import ContinuousBatching.Proofs.Json.Record
import ContinuousBatching.Proofs.Json.Settings
import ContinuousBatching.Proofs.Simulation.Requests
import ContinuousBatching.Proofs.Simulation.Service
import ContinuousBatching.Proofs.Simulation.Printing
import ContinuousBatching.Proofs.Simulation.Run
