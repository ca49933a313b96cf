import Centaeris.Base.Json
import Centaeris.Base.Machine
import Centaeris.Relational.Table

/-!
# Runtime jobs: rows and tables

The rows of the `runtime` schema that the job store reads and writes: `runtime_jobs`,
`runtime_job_outbox`, `dead_letters`, `runtime_events`, `execution_job_tenants` and the two
external-context tables, and `JobStore`, the tables together.

A payload that the store keeps as JSON text is kept as the JSON value: the store only writes it
and compares it with one it has built in the same way. Texts that the store passes through
unchanged (`backoff_policy_json`, `replay_policy_json`, `metadata_json`) stay texts.
-/

namespace Centaeris.Jobs

/-- `RuntimeJobStatus`. -/
inductive RuntimeJobStatus
  | queued | leased | running | succeeded | failed | deadLettered | cancelled
  deriving DecidableEq, Repr

namespace RuntimeJobStatus

/-- `job_status`: the text stored in the `status` column. -/
def jobStatus : RuntimeJobStatus → String
  | queued => "queued"
  | leased => "leased"
  | running => "running"
  | succeeded => "succeeded"
  | failed => "failed"
  | deadLettered => "dead_lettered"
  | cancelled => "cancelled"

/-- `status IN ('leased','running')`. -/
def isActive : RuntimeJobStatus → Bool
  | leased | running => true
  | _ => false

/-- `status IN ('succeeded','failed','dead_lettered','cancelled')`. -/
def isTerminal : RuntimeJobStatus → Bool
  | succeeded | failed | deadLettered | cancelled => true
  | _ => false

theorem isTerminal_of_isActive {status : RuntimeJobStatus} (h : status.isActive) :
    status.isTerminal = false := by
  cases status <;> first | rfl | cases h

end RuntimeJobStatus

/-- A row of `runtime_jobs`; the same fields as `RuntimeJobRecord`. -/
structure RuntimeJobRecord where
  jobId : String
  jobKind : String
  status : RuntimeJobStatus
  runAtMs : Int
  leaseOwner : Option String
  leaseExpiresAtMs : Option Int
  retryCount : Nat
  maxRetries : Nat
  backoffPolicy : String
  idempotencyKey : String
  sessionId : Option String
  branchId : Option String
  checkpointId : Option String
  payloadRef : Option String
  outputRefs : List String
  lastError : Option String
  createdAtMs : Int
  updatedAtMs : Int
  heartbeatAtMs : Option Int
  deriving DecidableEq

/-- A row of `runtime_job_outbox`. -/
structure RuntimeJobOutboxRecord where
  jobId : String
  eventType : String
  publishedAtMs : Option Int
  generation : Nat
  deriving DecidableEq

/-- `DeadLetterStatus`. -/
inductive DeadLetterStatus
  | open | replaying | replayed | dismissed
  deriving DecidableEq, Repr

/-- A row of `dead_letters`. -/
structure DeadLetterRecord where
  deadLetterId : String
  originalJobId : String
  jobKind : String
  status : DeadLetterStatus
  sessionId : Option String
  branchId : Option String
  checkpointId : Option String
  payloadRef : Option String
  idempotencyKey : String
  failureReason : String
  lastError : String
  attempts : Nat
  firstFailedAtMs : Int
  lastFailedAtMs : Int
  replayPolicy : String
  replayedJobId : Option String
  dismissedBy : Option String
  dismissedReason : Option String
  updatedAtMs : Int
  deriving DecidableEq

/-- A row of `runtime_events`. -/
structure RuntimeEvent where
  eventId : String
  sessionId : String
  taskId : Option String
  eventType : String
  atMs : Int
  visibility : String
  payload : Json
  deriving DecidableEq

/-- A row of `execution_job_tenants`. -/
structure ExecutionJobTenant where
  jobId : String
  workspaceId : String
  deriving DecidableEq

/-- A row of `external_context_objects`. -/
structure ExternalContextObject where
  schemaVersion : String
  objectId : String
  objectKind : String
  sourceProviderId : String
  sourceToolName : String
  title : String
  content : String
  metadata : String
  updatedAtMs : Int
  insertedAtMs : Int
  deriving DecidableEq

/-- A row of `external_context_links`; a missing turn or tool call is stored as the empty text. -/
structure ExternalContextObjectLink where
  sessionId : String
  turnId : String
  toolCallId : String
  objectId : String
  sourceProviderId : String
  sourceToolName : String
  linkedAtMs : Int
  deriving DecidableEq

/-- `RUNTIME_JOB_TERMINAL_EVENT`. -/
def runtimeJobTerminalEvent : String := "runtime_job.terminal"

/-- `AGENT_RUN_LIFECYCLE_JOB_KIND`. -/
def agentRunLifecycleJobKind : String := "agent_run.lifecycle"

/-- The tables of the job store. -/
structure JobStore where
  /-- `runtime_jobs`, by job id. -/
  runtimeJobs : Table RuntimeJobRecord.jobId
  /-- `runtime_job_outbox`, by job id and event type. -/
  runtimeJobOutbox : Table fun o : RuntimeJobOutboxRecord ↦ (o.jobId, o.eventType)
  /-- `dead_letters`, by dead-letter id. -/
  deadLetters : Table DeadLetterRecord.deadLetterId
  /-- `runtime_events`, by event id. -/
  runtimeEvents : Table RuntimeEvent.eventId
  /-- `execution_job_tenants`, by job id. -/
  executionJobTenants : Table ExecutionJobTenant.jobId
  /-- `external_context_objects`, by object id. -/
  externalContextObjects : Table ExternalContextObject.objectId
  /-- `external_context_links`, by session, object, turn and tool call. -/
  externalContextLinks : Table fun l : ExternalContextObjectLink ↦
    (l.sessionId, l.objectId, l.turnId, l.toolCallId)
  deriving DecidableEq

namespace JobStore

/-- The store with no rows. -/
def empty : JobStore where
  runtimeJobs := .empty
  runtimeJobOutbox := .empty
  deadLetters := .empty
  runtimeEvents := .empty
  executionJobTenants := .empty
  externalContextObjects := .empty
  externalContextLinks := .empty

/-- The job stored under an id. -/
def job? (s : JobStore) (id : String) : Option RuntimeJobRecord := s.runtimeJobs.get? id

/-- The outbox row of a job's terminal event. -/
def terminalOutbox? (s : JobStore) (id : String) : Option RuntimeJobOutboxRecord :=
  s.runtimeJobOutbox.get? (id, runtimeJobTerminalEvent)

/-- The event stored under an id. -/
def event? (s : JobStore) (id : String) : Option RuntimeEvent := s.runtimeEvents.get? id

end JobStore

end Centaeris.Jobs
