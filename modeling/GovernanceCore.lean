import GovernanceCore.Framework.Table
import GovernanceCore.Framework.Interleaving
import GovernanceCore.Domain.Task
import GovernanceCore.Domain.Workflow
import GovernanceCore.Domain.Execution
import GovernanceCore.Domain.Approval
import GovernanceCore.Domain.Policy
import GovernanceCore.Domain.Routing
import GovernanceCore.Domain.Audit
import GovernanceCore.Resilience.Breaker
import GovernanceCore.Concurrency.References
import GovernanceCore.Services.Intake
import GovernanceCore.Concurrency.Budget
import GovernanceCore.Concurrency.Attempts
import GovernanceCore.Concurrency.Approvals
import GovernanceCore.Lifecycle.View
import GovernanceCore.Lifecycle.Machine
import GovernanceCore.Lifecycle.Simulation
import GovernanceCore.Lifecycle.Consistency
import GovernanceCore.Lifecycle.Quarantine
import GovernanceCore.Lifecycle.Trail
import GovernanceCore.Lifecycle.Notifications
import GovernanceCore.Lifecycle.Verdict
import GovernanceCore.Framework.History
import GovernanceCore.Resilience.Trip
import GovernanceCore.Resilience.Recovery
import GovernanceCore.Domain.TransitionLog
import GovernanceCore.Sequential.Steady
import GovernanceCore.Sequential.Pipeline
import GovernanceCore.Sequential.Decomposition
import GovernanceCore.Framework.Tally
import GovernanceCore.Services.Footprint
import GovernanceCore.Adaptive.Collector
import GovernanceCore.Adaptive.FailureRate
import GovernanceCore.Framework.LostWrite
import GovernanceCore.Sequential.Retry
import GovernanceCore.Framework.Discipline
import GovernanceCore.Concurrency.Creation
import GovernanceCore.Concurrency.Resume
import GovernanceCore.Resilience.Registry
import GovernanceCore.Resilience.Transitions
import GovernanceCore.Adaptive.Selection
import GovernanceCore.Domain.Aggregation
import GovernanceCore.Framework.Commit
import GovernanceCore.Sequential.Rejection
import GovernanceCore.Sequential.Leftover
import GovernanceCore.Sequential.StoredOutcome
import GovernanceCore.Framework.ByteString
import GovernanceCore.Framework.Hex
import GovernanceCore.Framework.Drawing
import GovernanceCore.Trace.Traceparent
import GovernanceCore.Trace.Middleware
import GovernanceCore.Framework.Cursor
import GovernanceCore.Framework.Paging
import GovernanceCore.Store.Readers
import GovernanceCore.Store.Listing
import GovernanceCore.Lifecycle.Family
import GovernanceCore.Lifecycle.Subtasks
import GovernanceCore.Concurrency.StoredHistory
import GovernanceCore.Framework.Timeline
import GovernanceCore.Resilience.Concurrent
import GovernanceCore.Framework.Positional
import GovernanceCore.Framework.Composition
import GovernanceCore.Domain.Constructors
import GovernanceCore.Http.Handlers
import GovernanceCore.Http.Server
import GovernanceCore.Framework.Statement
import GovernanceCore.Store.Statements
import GovernanceCore.Http.Listing
import GovernanceCore.Framework.Calendar
import GovernanceCore.Framework.Rfc3339
import GovernanceCore.Store.Encoding
import GovernanceCore.Decisions.Facade
import GovernanceCore.Decisions.Seam
import GovernanceCore.Concurrency.Permanence
import GovernanceCore.Framework.Beside
import GovernanceCore.Adaptive.Refresh
import GovernanceCore.Domain.Escalation
import GovernanceCore.Http.Escalation
import GovernanceCore.Services.Measured
