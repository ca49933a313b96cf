import Centaeris.Session.Record

/-!
# The turn supplement queue

While an AgentRun executes, its user may add messages. They wait in a queue, one row for each run:
the entries, a map from every accepted id to the digest of its message, and whether the queue
accepts more. The worker that holds the lease of the run's lifecycle job claims entries and
acknowledges them.

Every call locks the row of the lifecycle job and works under that lock to its commit. One statement
comes before the lock: the test whether a cancellation was requested. The definitions are cut there:
`enqueueLocked`, `claimLocked` and `acknowledgeLocked` are the calls after that test. Closing the
queue and requesting a cancellation start with the lock.

What the calls use of the library is `SupplementCore`.
-/

namespace Centaeris.Supplement

open Machine Except
open Jobs (JobStore RuntimeJobRecord RuntimeEvent)
open Session (CheckpointRecord)

/-- `AGENT_RUN_CANCEL_REQUESTED_EVENT_SCHEMA`. -/
def agentRunCancelRequestedEventSchema : String := "runtime.agent_run.cancel_requested.v1"

/-- `TurnSupplementStoreError`. -/
inductive TurnSupplementStoreError
  | identityRequired | jobIdMismatch | agentRunNotActive | identityMismatch | leaseFenceRejected
  | queueIdentityMismatch | idempotencyConflict | admissionClosed | queueFull | queueCasConflict
  | claimIdentityInvalid | claimInProgress | acknowledgeIdentityInvalid | queueMissing
  | acknowledgeIdentityMismatch | closeReasonRequired
  /-- What the library refuses, and errors of the store. -/
  | other (message : String)
  deriving DecidableEq

/-- What the queue uses of the library. -/
structure SupplementCore where
  validateTurnSupplementMessage : String → Except TurnSupplementStoreError String
  validateTurnSupplementId : String → Except TurnSupplementStoreError Unit
  turnSupplementMessageDigest : String → String
  /-- `MAX_PENDING_TURN_SUPPLEMENTS`. -/
  maxPending : Nat
  agentRunLifecycleJobId : String → Except TurnSupplementStoreError String

/-! ### Rows -/

/-- `DurableTurnSupplement`. -/
structure DurableTurnSupplement where
  supplementId : String
  sequence : Nat
  message : String
  createdAtMs : Int
  claimToken : Option String
  claimLeaseOwner : Option String
  deriving DecidableEq

/-- The fields that every request names. -/
structure SupplementIdentity where
  agentRunId : String
  lifecycleJobId : String
  sessionId : String
  authorizationDigest : String
  deriving DecidableEq

/-- A row of `runtime_turn_supplement_queues`. -/
structure StoredQueue extends SupplementIdentity where
  revision : Nat
  nextSequence : Nat
  accepting : Bool
  entries : List DurableTurnSupplement
  /-- The accepted ids, with the digests of their messages. -/
  dedupe : List (String × String)
  closedReason : Option String
  updatedAtMs : Int
  deriving DecidableEq

/-- The primary key `agent_run_id`. -/
def StoredQueue.runId (q : StoredQueue) : String := q.agentRunId

/-- The tables that the calls read and write. -/
structure SupplementStore where
  /-- The tables of the job store, `runtime_events` among them. -/
  jobs : JobStore
  /-- `checkpoints`. -/
  checkpoints : Table CheckpointRecord.checkpointId
  /-- `runtime_turn_supplement_queues`. -/
  queues : Table StoredQueue.runId
  deriving DecidableEq

/-- `load_queue`. -/
def SupplementStore.queue? (s : SupplementStore) (runId : String) : Option StoredQueue :=
  s.queues.get? runId

/-! ### Checks -/

/-- `validate_common_identity`. -/
def validateCommonIdentity (core : SupplementCore) (id : SupplementIdentity) :
    Except TurnSupplementStoreError Unit := do
  require (¬[id.agentRunId, id.lifecycleJobId, id.sessionId, id.authorizationDigest].any isBlank)
    .identityRequired
  let jobId ← core.agentRunLifecycleJobId id.agentRunId
  require (id.lifecycleJobId = jobId) .jobIdMismatch

/-- The test of `validate_active_job` that comes before the lock. -/
def SupplementStore.cancelRequested (s : SupplementStore) (runId : String) : Bool :=
  (s.jobs.event? ("agent_run_cancel_requested:" ++ runId)).any fun event ↦
    decide (event.eventType = agentRunCancelRequestedEventSchema)

/-- The lifecycle job is that of the run and of the request. -/
def bindsJob (id : SupplementIdentity) (job : RuntimeJobRecord) : Prop :=
  job.jobKind = Jobs.agentRunLifecycleJobKind ∧ job.sessionId = some id.sessionId ∧
    job.payloadRef = some ("record:agent_run:" ++ id.agentRunId) ∧
    job.idempotencyKey = "agent_run.lifecycle:" ++ id.agentRunId ++ ":" ++ id.authorizationDigest

instance (id : SupplementIdentity) (job : RuntimeJobRecord) : Decidable (bindsJob id job) := by
  unfold bindsJob; infer_instance

/-- `status IN ('queued','leased','running')`. -/
def isOpen (job : RuntimeJobRecord) : Prop := job.status = .queued ∨ job.status.isActive

instance (job : RuntimeJobRecord) : Decidable (isOpen job) := by unfold isOpen; infer_instance

/-- The lease of a running job is held by the owner. -/
def leasedTo (owner : String) (nowMs : Int) (job : RuntimeJobRecord) : Prop :=
  job.status = .running ∧ job.leaseOwner = some owner ∧
    job.leaseExpiresAtMs.any fun expires ↦ decide (nowMs < expires)

instance (owner : String) (nowMs : Int) (job : RuntimeJobRecord) :
    Decidable (leasedTo owner nowMs job) := by unfold leasedTo; infer_instance

/-- `validate_active_job` from the lock on the job row on. -/
def validateActiveJob (s : SupplementStore) (id : SupplementIdentity)
    (lease : Option (String × Int)) : Except TurnSupplementStoreError Unit := do
  let job ← okOr (s.jobs.job? id.lifecycleJobId) .agentRunNotActive
  require (bindsJob id job ∧ isOpen job) .identityMismatch
  require (lease.all fun l ↦ decide (leasedTo l.1 l.2 job)) .leaseFenceRejected

/-- `validate_queue_identity`. -/
def validateQueueIdentity (q : StoredQueue) (id : SupplementIdentity) :
    Except TurnSupplementStoreError Unit :=
  require (q.lifecycleJobId = id.lifecycleJobId ∧ q.sessionId = id.sessionId ∧
    q.authorizationDigest = id.authorizationDigest) .queueIdentityMismatch

/-- `to_i64`. -/
def toI64 (n : Nat) : Except TurnSupplementStoreError Unit :=
  require ((n : Int) ≤ i64Max) (.other "turn supplement counter overflow")

/-! ### Statements -/

/-- `INSERT INTO runtime_turn_supplement_queues`. Neither the run nor the job may have a queue. -/
def insertQueue (s : SupplementStore) (q : StoredQueue) :
    Except TurnSupplementStoreError SupplementStore := do
  require (∀ other ∈ s.queues.rows, other.lifecycleJobId ≠ q.lifecycleJobId)
    (.other "insert Postgres turn supplement queue failed")
  let queues ← okOr (s.queues.insert? q) (.other "insert Postgres turn supplement queue failed")
  return { s with queues }

/-- `UPDATE runtime_turn_supplement_queues SET … WHERE agent_run_id AND revision`. -/
def casQueue (s : SupplementStore) (runId : String) (revision : Nat)
    (set : StoredQueue → StoredQueue) (hset : ∀ q, (set q).runId = q.runId) :
    Except TurnSupplementStoreError SupplementStore := do
  toI64 (revision + 1)
  require ((s.queue? runId).any fun q ↦ decide (q.revision = revision)) .queueCasConflict
  return { s with
    queues := s.queues.update (fun q ↦ decide (q.runId = runId) && decide (q.revision = revision))
      set hset }

/-- The assignments of `update_queue`. -/
def assignQueue (q : StoredQueue) (updatedAtMs : Int) (row : StoredQueue) : StoredQueue :=
  { row with
    revision := q.revision + 1, accepting := q.accepting, entries := q.entries, dedupe := q.dedupe,
    closedReason := q.closedReason, updatedAtMs }

theorem assignQueue_runId (q : StoredQueue) (updatedAtMs : Int) (row : StoredQueue) :
    (assignQueue q updatedAtMs row).runId = row.runId := rfl

/-- `update_queue`. -/
def updateQueue (s : SupplementStore) (q : StoredQueue) (updatedAtMs : Int) :
    Except TurnSupplementStoreError SupplementStore :=
  casQueue s q.agentRunId q.revision (assignQueue q updatedAtMs) (assignQueue_runId q updatedAtMs)

/-- A queue that is closed from the start. -/
def closedQueue (id : SupplementIdentity) (reason : String) (updatedAtMs : Int) : StoredQueue :=
  ⟨id, 1, 1, false, [], [], some reason, updatedAtMs⟩

/-- The update that makes a queued job due. -/
def dueBy (atMs : Int) (job : RuntimeJobRecord) : RuntimeJobRecord :=
  { job with runAtMs := min job.runAtMs atMs, updatedAtMs := atMs }

theorem dueBy_jobId (atMs : Int) (job : RuntimeJobRecord) : (dueBy atMs job).jobId = job.jobId := rfl

/-- `UPDATE runtime_jobs SET run_at_ms=LEAST(run_at_ms,$1),updated_at_ms=$1 WHERE job_id=$2 AND
status='queued'`. -/
def makeDue (jobs : JobStore) (jobId : String) (atMs : Int) : JobStore :=
  { jobs with
    runtimeJobs := jobs.runtimeJobs.update
      (fun job ↦ decide (job.jobId = jobId) && decide (job.status = .queued)) (dueBy atMs)
      (dueBy_jobId atMs) }

/-- The session waits for an approval, an answer or a job. -/
def SupplementStore.waits (s : SupplementStore) (sessionId : String) : Bool :=
  s.checkpoints.rows.any fun c ↦ decide (c.sessionId = sessionId) &&
    c.doneReason.any fun reason ↦ decide (reason ∈ ["approval", "question", "runtime_job"])

/-! ### Enqueue -/

/-- `EnqueueTurnSupplementRequest`. -/
structure EnqueueTurnSupplementRequest extends SupplementIdentity where
  supplementId : String
  message : String
  createdAtMs : Int
  deriving DecidableEq

/-- `EnqueueTurnSupplementDisposition`. -/
inductive EnqueueTurnSupplementDisposition
  | accepted | duplicate
  deriving DecidableEq

/-- `EnqueueTurnSupplementResult`. -/
structure EnqueueTurnSupplementResult where
  disposition : EnqueueTurnSupplementDisposition
  queuedCount : Nat
  revision : Nat
  deriving DecidableEq

/-- What an enqueue works on when the run has no queue: `(0, 1, true, Vec::new(), BTreeMap::new())`
and what its `INSERT` fills in. -/
def unopenedQueue (req : EnqueueTurnSupplementRequest) : StoredQueue :=
  ⟨req.toSupplementIdentity, 0, 1, true, [], [], none, req.createdAtMs⟩

/-- The new entry. -/
def EnqueueTurnSupplementRequest.entry (req : EnqueueTurnSupplementRequest) (sequence : Nat) :
    DurableTurnSupplement :=
  ⟨req.supplementId, sequence, req.message, req.createdAtMs, none, none⟩

/-- The queue with the new entry. -/
def pushEntry (core : SupplementCore) (req : EnqueueTurnSupplementRequest) (q : StoredQueue) :
    StoredQueue :=
  { q with
    revision := q.revision + 1, nextSequence := q.nextSequence + 1,
    entries := q.entries ++ [req.entry q.nextSequence],
    dedupe := q.dedupe ++ [(req.supplementId, core.turnSupplementMessageDigest req.message)],
    updatedAtMs := req.createdAtMs }

/-- The assignments of the `UPDATE` of an enqueue. -/
def assignPushed (q row : StoredQueue) : StoredQueue :=
  { row with
    revision := q.revision, nextSequence := q.nextSequence, entries := q.entries,
    dedupe := q.dedupe, updatedAtMs := q.updatedAtMs }

theorem assignPushed_runId (q row : StoredQueue) : (assignPushed q row).runId = row.runId := rfl

/-- The queue of the run is that of the request. -/
def admitsQueue (s : SupplementStore) (id : SupplementIdentity) :
    Except TurnSupplementStoreError Unit :=
  (s.queue? id.agentRunId).elim (.ok ()) fun q ↦ validateQueueIdentity q id

/-- The `INSERT` or the `UPDATE` of an enqueue; `q` is the queue with the new entry. -/
def writePushed (s : SupplementStore) (revision : Nat) (q : StoredQueue) :
    Except TurnSupplementStoreError SupplementStore :=
  if revision = 0 then insertQueue s q
  else casQueue s q.agentRunId revision (assignPushed q) (assignPushed_runId q)

/-- The writes of an accepted supplement. The job is made due unless the session waits. -/
def storePushed (core : SupplementCore) (s : SupplementStore) (req : EnqueueTurnSupplementRequest)
    (q : StoredQueue) : Except TurnSupplementStoreError SupplementStore := do
  toI64 (q.revision + 1)
  toI64 (q.nextSequence + 1)
  let s ← writePushed s q.revision (pushEntry core req q)
  return { s with
    jobs := if s.waits req.sessionId then s.jobs
      else makeDue s.jobs req.lifecycleJobId req.createdAtMs }

/-- An enqueue once the queue is loaded. -/
def enqueueInto (core : SupplementCore) (s : SupplementStore) (req : EnqueueTurnSupplementRequest)
    (q : StoredQueue) :
    Except TurnSupplementStoreError (SupplementStore × EnqueueTurnSupplementResult) :=
  match q.dedupe.lookup req.supplementId with
  | some existing => do
    require (existing = core.turnSupplementMessageDigest req.message) .idempotencyConflict
    return (s, ⟨.duplicate, q.entries.length, q.revision⟩)
  | none => do
    require q.accepting .admissionClosed
    require (q.entries.length < core.maxPending) .queueFull
    let s ← storePushed core s req q
    return (s, ⟨.accepted, q.entries.length + 1, q.revision + 1⟩)

/-- `enqueue_turn_supplement` from the lock on. -/
def enqueueLocked (core : SupplementCore) (s : SupplementStore)
    (req : EnqueueTurnSupplementRequest) :
    Except TurnSupplementStoreError (SupplementStore × EnqueueTurnSupplementResult) := do
  validateActiveJob s req.toSupplementIdentity none
  admitsQueue s req.toSupplementIdentity
  enqueueInto core s req ((s.queue? req.agentRunId).getD (unopenedQueue req))

/-- The checks of an enqueue that need no database, and the request with the message they return. -/
def checkEnqueue (core : SupplementCore) (req : EnqueueTurnSupplementRequest) :
    Except TurnSupplementStoreError EnqueueTurnSupplementRequest := do
  let message ← core.validateTurnSupplementMessage req.message
  core.validateTurnSupplementId req.supplementId
  validateCommonIdentity core req.toSupplementIdentity
  return { req with message }

/-- `enqueue_turn_supplement`, when nothing comes between its statements. -/
def enqueueTurnSupplement (core : SupplementCore) (s : SupplementStore)
    (req : EnqueueTurnSupplementRequest) :
    Except TurnSupplementStoreError (SupplementStore × EnqueueTurnSupplementResult) := do
  let req ← checkEnqueue core req
  require (¬s.cancelRequested req.agentRunId) .admissionClosed
  enqueueLocked core s req

/-! ### Claim -/

/-- `ClaimTurnSupplementsRequest`. -/
structure ClaimTurnSupplementsRequest extends SupplementIdentity where
  leaseOwner : String
  claimToken : String
  limit : Nat
  closeIfEmpty : Bool
  nowMs : Int
  deriving DecidableEq

/-- The entry as the claim marks it. -/
def ClaimTurnSupplementsRequest.mark (req : ClaimTurnSupplementsRequest)
    (e : DurableTurnSupplement) : DurableTurnSupplement :=
  { e with claimToken := some req.claimToken, claimLeaseOwner := some req.leaseOwner }

/-- The loop of a claim over the entries of the queue: the entries as it leaves them, and those that
it claims. `claimed` entries were claimed before. -/
def claimEntries (req : ClaimTurnSupplementsRequest) (claimed : Nat) :
    List DurableTurnSupplement →
      Except TurnSupplementStoreError (List DurableTurnSupplement × List DurableTurnSupplement)
  | [] => .ok ([], [])
  | e :: rest =>
    if e.claimToken = some req.claimToken then
      (fun r ↦ (e :: r.1, r.2)) <$> claimEntries req claimed rest
    else if e.claimLeaseOwner = some req.leaseOwner then .error .claimInProgress
    else if claimed + 1 = req.limit then .ok (req.mark e :: rest, [req.mark e])
    else (fun r ↦ (req.mark e :: r.1, req.mark e :: r.2)) <$> claimEntries req (claimed + 1) rest

/-- The write of a claim that leaves `entries` and has `claimed` some of them. -/
def storeClaimed (s : SupplementStore) (req : ClaimTurnSupplementsRequest) (q : StoredQueue)
    (entries claimed : List DurableTurnSupplement) :
    Except TurnSupplementStoreError SupplementStore :=
  let close := req.closeIfEmpty && entries.isEmpty
  if claimed ≠ [] ∨ close then
    updateQueue s
      { q with entries, accepting := !close && q.accepting,
               closedReason := if close then some "safe_point_closed" else none } req.nowMs
  else .ok s

/-- A claim once the queue is loaded. -/
def claimFrom (s : SupplementStore) (req : ClaimTurnSupplementsRequest) (q : StoredQueue) :
    Except TurnSupplementStoreError (SupplementStore × List DurableTurnSupplement) := do
  validateQueueIdentity q req.toSupplementIdentity
  let (entries, claimed) ← claimEntries req 0 q.entries
  let s ← storeClaimed s req q entries claimed
  return (s, claimed)

/-- `claim_turn_supplements` from the lock on. -/
def claimLocked (s : SupplementStore) (req : ClaimTurnSupplementsRequest) :
    Except TurnSupplementStoreError (SupplementStore × List DurableTurnSupplement) := do
  validateActiveJob s req.toSupplementIdentity (some (req.leaseOwner, req.nowMs))
  match s.queue? req.agentRunId with
  | none =>
    if req.closeIfEmpty then
      -- `insert_closed_queue`
      let s ← insertQueue s (closedQueue req.toSupplementIdentity "safe_point_closed" req.nowMs)
      return (s, [])
    else return (s, [])
  | some q => claimFrom s req q

/-- The checks of a claim that need no database. -/
def checkClaim (core : SupplementCore) (req : ClaimTurnSupplementsRequest) :
    Except TurnSupplementStoreError Unit := do
  validateCommonIdentity core req.toSupplementIdentity
  require (¬isBlank req.leaseOwner ∧ ¬isBlank req.claimToken ∧ req.limit ≠ 0 ∧
    req.limit ≤ core.maxPending) .claimIdentityInvalid

/-- `claim_turn_supplements`, when nothing comes between its statements. -/
def claimTurnSupplements (core : SupplementCore) (s : SupplementStore)
    (req : ClaimTurnSupplementsRequest) :
    Except TurnSupplementStoreError (SupplementStore × List DurableTurnSupplement) := do
  checkClaim core req
  require (¬s.cancelRequested req.agentRunId) .admissionClosed
  claimLocked s req

/-! ### Acknowledge and close -/

/-- `AcknowledgeTurnSupplementsRequest`. -/
structure AcknowledgeTurnSupplementsRequest extends SupplementIdentity where
  leaseOwner : String
  claimToken : String
  supplementIds : List String
  acknowledgedAtMs : Int
  deriving DecidableEq

/-- The entry carries the token and the owner of the request. -/
def AcknowledgeTurnSupplementsRequest.holds (req : AcknowledgeTurnSupplementsRequest)
    (e : DurableTurnSupplement) : Prop :=
  e.claimToken = some req.claimToken ∧ e.claimLeaseOwner = some req.leaseOwner

instance (req : AcknowledgeTurnSupplementsRequest) (e : DurableTurnSupplement) :
    Decidable (req.holds e) := by
  unfold AcknowledgeTurnSupplementsRequest.holds; infer_instance

/-- `acknowledge_turn_supplements` from the lock on. -/
def acknowledgeLocked (s : SupplementStore) (req : AcknowledgeTurnSupplementsRequest) :
    Except TurnSupplementStoreError SupplementStore := do
  validateActiveJob s req.toSupplementIdentity (some (req.leaseOwner, req.acknowledgedAtMs))
  let q ← okOr (s.queue? req.agentRunId) .queueMissing
  let matched := q.entries.filter fun e ↦ decide (e.supplementId ∈ req.supplementIds)
  if matched = [] then return s
  else
    require (matched.length = req.supplementIds.dedup.length ∧ ∀ e ∈ matched, req.holds e)
      .acknowledgeIdentityMismatch
    updateQueue s
      { q with entries := q.entries.filter fun e ↦ decide (e.supplementId ∉ req.supplementIds) }
      req.acknowledgedAtMs

/-- The checks of an acknowledge that need no database. -/
def checkAcknowledge (core : SupplementCore) (req : AcknowledgeTurnSupplementsRequest) :
    Except TurnSupplementStoreError Unit := do
  validateCommonIdentity core req.toSupplementIdentity
  require (¬isBlank req.leaseOwner ∧ ¬isBlank req.claimToken ∧ req.supplementIds ≠ [])
    .acknowledgeIdentityInvalid

/-- `CloseTurnSupplementQueueRequest`. -/
structure CloseTurnSupplementQueueRequest extends SupplementIdentity where
  leaseOwner : Option String
  reason : String
  closedAtMs : Int
  deriving DecidableEq

/-- `close_turn_supplement_queue`. -/
def closeTurnSupplementQueue (core : SupplementCore) (s : SupplementStore)
    (req : CloseTurnSupplementQueueRequest) : Except TurnSupplementStoreError SupplementStore := do
  validateCommonIdentity core req.toSupplementIdentity
  require (¬isBlank req.reason) .closeReasonRequired
  validateActiveJob s req.toSupplementIdentity (req.leaseOwner.map fun owner ↦ (owner, req.closedAtMs))
  match s.queue? req.agentRunId with
  | some q => do
    validateQueueIdentity q req.toSupplementIdentity
    updateQueue s { q with accepting := false, entries := [], closedReason := some req.reason }
      req.closedAtMs
  | none => insertQueue s (closedQueue req.toSupplementIdentity req.reason req.closedAtMs)

/-! ### Cancellation -/

/-- The arguments of `request_agent_run_cancellation`. -/
structure CancellationRequest where
  agentRunId : String
  sessionId : String
  authorizationDigest : String
  requestedAtMs : Int
  deriving DecidableEq

/-- The event of the request. -/
def CancellationRequest.event (req : CancellationRequest) : RuntimeEvent where
  eventId := "agent_run_cancel_requested:" ++ req.agentRunId
  sessionId := req.sessionId
  taskId := some req.agentRunId
  eventType := agentRunCancelRequestedEventSchema
  atMs := req.requestedAtMs
  visibility := "internal"
  payload := .obj [("schema", .str agentRunCancelRequestedEventSchema),
    ("agentRunId", .str req.agentRunId), ("authorizationDigest", .str req.authorizationDigest),
    ("transitionReason", .str "agent_run_cancel_requested")]

/-- The stored event is that of the request; its time may differ. -/
def CancellationRequest.matches (req : CancellationRequest) (stored : RuntimeEvent) : Prop :=
  stored.sessionId = req.event.sessionId ∧ stored.taskId = req.event.taskId ∧
    stored.eventType = req.event.eventType ∧ stored.payload = req.event.payload

instance (req : CancellationRequest) (stored : RuntimeEvent) : Decidable (req.matches stored) := by
  unfold CancellationRequest.matches; infer_instance

/-- The assignments of the `UPDATE` that closes the queue of a cancelled run. -/
def cancelQueue (atMs : Int) (q : StoredQueue) : StoredQueue :=
  { q with
    revision := q.revision + 1, accepting := false, entries := [],
    closedReason := some "agent_run_cancel_requested", updatedAtMs := atMs }

theorem cancelQueue_runId (atMs : Int) (q : StoredQueue) :
    (cancelQueue atMs q).runId = q.runId := rfl

/-- `request_agent_run_cancellation`. The answer is whether the request is new. -/
def requestAgentRunCancellation (core : SupplementCore) (s : SupplementStore)
    (req : CancellationRequest) :
    Except TurnSupplementStoreError (SupplementStore × Bool) := do
  let jobId ← core.agentRunLifecycleJobId req.agentRunId
  let job ← okOr (s.jobs.job? jobId) (.other "AgentRun cancellation job not found")
  require (bindsJob ⟨req.agentRunId, jobId, req.sessionId, req.authorizationDigest⟩ job)
    (.other "AgentRun cancellation job binding mismatch")
  require (isOpen job)
    (.other ("AgentRun cancellation job is terminal: " ++ job.status.jobStatus))
  let events := s.jobs.runtimeEvents.insertIgnore req.event
  let stored ← okOr (events.get? req.event.eventId)
    (.other "load AgentRun cancellation request failed")
  require (req.matches stored) (.other "AgentRun cancellation request idempotency conflict")
  return ({ s with
    jobs := makeDue { s.jobs with runtimeEvents := events } jobId req.requestedAtMs
    queues := s.queues.update (fun q ↦ decide (q.runId = req.agentRunId) && q.accepting)
      (cancelQueue req.requestedAtMs) (cancelQueue_runId req.requestedAtMs) },
    (s.jobs.event? req.event.eventId).isNone)

end Centaeris.Supplement
