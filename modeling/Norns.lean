import Norns.Lib.Run
import Norns.Lib.Edit
import Norns.Lib.OrdMap
import Norns.Lib.Cycle
import Norns.Lib.Json
import Norns.Lib.JsonText
import Norns.Lib.Utf8
import Norns.Lib.JsonPretty
import Norns.Contracts.Plan
import Norns.Contracts.Lifecycle
import Norns.Contracts.Reducer
import Norns.Engine.Budget
import Norns.Engine.BudgetCap
import Norns.Engine.Workflow
import Norns.Engine.Accounting
import Norns.Graph.Assignment
import Norns.Graph.Workflow
import Norns.Graph.Structure
import Norns.Graph.Cycles
import Norns.Graph.Atomicity
import Norns.Execution.TaskContext
import Norns.Execution.Briefing
import Norns.Execution.InputFiles
import Norns.Lib.Shell
import Norns.Execution.Verification
import Norns.Graph.Allocation
import Norns.Graph.PmAllocation
import Norns.Graph.Session
import Norns.Graph.Removal
import Norns.Contracts.Protocol
import Norns.Server.Stores
import Norns.Server.Watermark
import Norns.Server.Snapshot
import Norns.Runner.State
import Norns.Runner.Callbacks
import Norns.Runner.Once
import Norns.Relay.Replay
import Norns.Relay.Log
import Norns.Server.Outbox
import Norns.Relay.Settlement
import Norns.Relay.Window
import Norns.Server.Gateway
import Norns.Relay.Delivery
import Norns.Server.Ingress
import Norns.Lib.Transaction
import Norns.Contracts.V2Lifecycle
import Norns.Contracts.V2Reduction
import Norns.Coordinator.Tables
import Norns.Coordinator.Budget
import Norns.Coordinator.EventProcessor
import Norns.Coordinator.Dispatcher
import Norns.Coordinator.Scheduler
import Norns.Coordinator.System
import Norns.Coordinator.Effects
import Norns.Coordinator.Commands
import Norns.Coordinator.Scopes
import Norns.Coordinator.Attempts
import Norns.Coordinator.Books
import Norns.Coordinator.Limits
import Norns.Engine.Outcomes
import Norns.Engine.Resume
import Norns.Engine.ErrorAtomicity
import Norns.Engine.Conflict
import Norns.Engine.Dispatch
import Norns.Lib.Calendar
import Norns.Conversations.FileContext
import Norns.Conversations.InferenceBudget
import Norns.Conversations.Context
import Norns.Conversations.Reservations
import Norns.Conversations.SpendCap
import Norns.Conversations.TurnOutcome
import Norns.Debates.Prompt
import Norns.Debates.Packing
import Norns.Debates.PromptBudget
import Norns.Debates.Invariant
import Norns.Debates.Drivable
import Norns.Debates.Money
import Norns.Inference.Pricing
import Norns.Inference.Proxy
import Norns.Inference.Streaming
import Norns.Inference.RunReservation
import Norns.Inference.Charge
import Norns.Inference.UsageTap
import Norns.Knowledge.Versions
import Norns.Lib.Saturate
import Norns.Knowledge.Manifest
import Norns.Planning.Session
import Norns.Users.LoginThrottle
import Norns.Attachments.ImageMeta
import Norns.Runner.Journal
import Norns.Lib.Replace
import Norns.Lib.Sort
import Norns.Lib.Delivery
import Norns.UsageIntelligence.Telemetry
import Norns.UsageIntelligence.Delivery
import Norns.Runner.Inspection
import Norns.Runner.Report
import Norns.Migration.ImportPlan
import Norns.Migration.Accounting
import Norns.Persistence.CanonicalJson
import Norns.Persistence.Commands
import Norns.Persistence.Decisions
import Norns.Persistence.Lifecycles
import Norns.Persistence.Reservations
import Norns.Lib.Remote
import Norns.Devices.PublicationPermits
import Norns.Runner.Publication
import Norns.Runner.PublicationRuns
import Norns.Devices.Cancellation
import Norns.Runner.LiveRuns
import Norns.Devices.CancellationRuns
import Norns.Devices.IdentityRuns
import Norns.Devices.IdentityWrites
