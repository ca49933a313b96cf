import Centaeris.Jobs.Operation

/-!
# The job protocol

The worker-facing handlers of the job store. A handler decodes a request, checks its fields and
makes one call of the store; its error is an HTTP status with a reason. Four handlers matter for
what is proved and are modelled in full:

* a claim request always names a job kind (`ClaimRequest.due`);
* `scheduledJob` is the record a schedule request becomes: queued, free, with a retry bound of at
  most ten;
* a fail request reads the job (`failRead`), decides from what it read whether to retry, to fail or
  to dead-letter (`failJobRequest`), and then writes in a *second* transaction (`failOp`);
* `wakeLifecycleWaiter` wakes the lifecycle job of a run that waits for a job which has ended.

`ProtocolStep` runs the handlers interleaved with any other calls of the store; a fail request
that has read and not yet written is part of the state.
-/

namespace Centaeris.Jobs

open Machine

/-- A handler's error: HTTP status and reason. -/
abbrev ProtocolError := Nat × String

/-- What the runtime core contributes to the job protocol. -/
structure JobCore where
  /-- `RuntimeBackoffPolicy::default()`. -/
  defaultBackoffPolicy : String
  /-- `DeadLetterReplayPolicy::default()`. -/
  defaultReplayPolicy : String
  /-- `runtime_job_retry_delay_ms(policy, attempt, job_id, failed_at_ms)`. -/
  retryDelayMs : String → Nat → String → Int → Int
  /-- `agent_run_lifecycle_job_id`. -/
  agentRunLifecycleJobId : String → Except String String

/-! ### Field checks -/

/-- `bounded`: a length in bytes between two bounds, no control character. -/
def bounded (value : String) (min max : Nat) : Bool :=
  decide (min ≤ value.utf8ByteSize) && decide (value.utf8ByteSize ≤ max) &&
    !value.toList.any isControl

/-- Letters, digits, `_`, `-`, `:` and `.`. -/
def isIdentifierChar (c : Char) : Bool := c.isAlphanum || c ∈ ['_', '-', ':', '.']

/-- `SESSION_ID_PREFIX`. -/
def sessionIdPrefix : String := "session_"

/-- `identifier`. -/
def identifier (value pre : String) : Bool :=
  bounded value (pre.utf8ByteSize + 1) 160 && startsWith value pre &&
    value.toList.all isIdentifierChar

/-- `runtime_job_id`. -/
def runtimeJobId (value : String) : Bool := bounded value 1 160 && value.toList.all isIdentifierChar

/-- `kind`. -/
def kind (value : String) : Bool :=
  bounded value 1 120 && value.toList.all fun c ↦ c.isLower || c.isDigit || c ∈ ['.', '_', '-']

/-- `safe_ref`: one of four schemes, and no `..`. -/
def safeRef (value : String) : Bool :=
  bounded value 3 512 &&
    ["storage:", "external_context:", "artifact:", "record:"].any (startsWith value ·) &&
    !value.toList.tails.any (['.', '.'].isPrefixOf ·)

/-- `reason`. -/
def reason (value : String) : Bool :=
  bounded value 1 160 && value.toList.all fun c ↦ c.isLower || c.isDigit || c ∈ ['_', '-', '.', ':']

/-! ### Scheduling -/

/-- `ScheduleRequest`. -/
structure ScheduleRequest where
  schema : String
  jobId : String
  jobKind : String
  runAtMs : Int
  maxRetries : Nat
  idempotencyKey : String
  sessionId : Option String
  payloadRef : Option String
  workspaceId : Option String

/-- `valid_schedule_request`. -/
def validScheduleRequest (r : ScheduleRequest) : Bool :=
  decide (r.schema = "runtime.job.schedule.v1") &&
    (if r.jobKind = agentRunLifecycleJobKind then r.workspaceId.any (bounded · 1 64)
      else r.workspaceId.isNone) &&
    runtimeJobId r.jobId && kind r.jobKind && decide (r.maxRetries ≤ 10) &&
    bounded r.idempotencyKey 1 160 && r.sessionId.all (identifier · sessionIdPrefix) &&
    r.payloadRef.all safeRef

/-- The record of a scheduled job. -/
def scheduledJob (core : JobCore) (r : ScheduleRequest) (now : Int) : RuntimeJobRecord where
  jobId := r.jobId
  jobKind := r.jobKind
  status := .queued
  runAtMs := r.runAtMs
  leaseOwner := none
  leaseExpiresAtMs := none
  retryCount := 0
  maxRetries := r.maxRetries
  backoffPolicy := core.defaultBackoffPolicy
  idempotencyKey := r.idempotencyKey
  sessionId := r.sessionId
  branchId := none
  checkpointId := none
  payloadRef := r.payloadRef
  outputRefs := []
  lastError := none
  createdAtMs := now
  updatedAtMs := now
  heartbeatAtMs := none

/-- The call `schedule` makes for a valid request. -/
def scheduleOp (core : JobCore) (r : ScheduleRequest) (now : Int) : JobOp :=
  .scheduleWorker (scheduledJob core r now) r.workspaceId ⟨rfl, rfl⟩

/-- `schedule`: the store afterwards. -/
def schedule (core : JobCore) (s : JobStore) (r : ScheduleRequest) (now : Int) :
    Except ProtocolError JobStore :=
  if !validScheduleRequest r then .error (400, "job_schedule_invalid")
  else ((scheduleOp core r now).run s).mapError fun _ ↦ (409, "job_schedule_conflict")

/-! ### Claiming -/

/-- `ClaimRequest`. -/
structure ClaimRequest where
  schema : String
  workerId : String
  jobId : Option String
  jobKind : String
  nowMs : Int
  leaseMs : Nat
  limit : Nat

/-- `PYTHON_WORKER_JOB_KINDS`. -/
def pythonWorkerJobKinds : List String := ["agent_run.lifecycle", "worker.noop"]

/-- The checks of `claim`. -/
def validClaimRequest (r : ClaimRequest) : Bool :=
  decide (r.schema = "runtime.job.claim.v1") && bounded r.workerId 16 160 &&
    startsWith r.workerId "worker:" && r.jobId.all runtimeJobId &&
    decide (r.jobKind ∈ pythonWorkerJobKinds) && decide (1000 ≤ r.leaseMs ∧ r.leaseMs ≤ 300000) &&
    decide (1 ≤ r.limit ∧ r.limit ≤ 32)

/-- The store request of `claim`; it always names a job kind. -/
def ClaimRequest.due (r : ClaimRequest) : ClaimDueRuntimeJobsRequest :=
  ⟨r.nowMs, r.workerId, r.jobId, some r.jobKind, none, r.limit, r.leaseMs⟩

/-! ### Failing -/

/-- `get_runtime_job` with the handlers' errors. -/
def getRuntimeJob (s : JobStore) (id : String) (missing : ProtocolError) :
    Except ProtocolError RuntimeJobRecord :=
  match loadJob s id with
  | .error _ => .error (500, "job_store_failed")
  | .ok none => .error missing
  | .ok (some job) => .ok job

theorem getRuntimeJob_ok {s : JobStore} {id : String} {missing : ProtocolError}
    {job : RuntimeJobRecord} (h : getRuntimeJob s id missing = .ok job) : s.job? id = some job := by
  unfold getRuntimeJob at h
  split at h
  · cases h
  · cases h
  · rename_i hload
    cases h
    exact loadJob_ok hload

/-- `FailRequest`. -/
structure FailRequest where
  schema : String
  jobId : String
  leaseOwner : String
  failedAtMs : Int
  error : String
  retryable : Bool
  deriving DecidableEq

/-- The first half of `fail`: the request is checked and the job is read. -/
def failRead (s : JobStore) (r : FailRequest) : Except ProtocolError RuntimeJobRecord :=
  if r.schema ≠ "runtime.job.fail.v1" ∨ !runtimeJobId r.jobId ∨ !bounded r.leaseOwner 16 160 ∨
      !reason r.error then
    .error (400, "job_fail_invalid")
  else getRuntimeJob s r.jobId (404, "job_not_found")

/-- The number of the attempt that has failed, as read. -/
def attemptOf (job : RuntimeJobRecord) : Nat := u32SaturatingAdd job.retryCount 1

/-- The disposition of a failure, decided from the job as it was read. -/
def failJobRequest (core : JobCore) (r : FailRequest) (job : RuntimeJobRecord) :
    FailRuntimeJobRequest where
  jobId := r.jobId
  leaseOwner := r.leaseOwner
  failedAtMs := r.failedAtMs
  lastError := r.error
  nextRunAtMs :=
    if r.retryable ∧ attemptOf job ≤ job.maxRetries then
      some (saturatingAdd r.failedAtMs
        (core.retryDelayMs job.backoffPolicy (attemptOf job) job.jobId r.failedAtMs))
    else none
  disposition :=
    if !r.retryable then .failed
    else if attemptOf job ≤ job.maxRetries then .retryScheduled
    else .deadLettered

/-- The id of the dead letter of a job. -/
def deadLetterIdOf (jobId : String) : String := "dead_letter:" ++ jobId

/-- The dead letter of a job whose retries are exhausted. -/
def deadLetterOf (core : JobCore) (r : FailRequest) (job : RuntimeJobRecord) :
    DeadLetterRecord where
  deadLetterId := deadLetterIdOf job.jobId
  originalJobId := job.jobId
  jobKind := job.jobKind
  status := .open
  sessionId := job.sessionId
  branchId := job.branchId
  checkpointId := job.checkpointId
  payloadRef := job.payloadRef
  idempotencyKey := job.idempotencyKey
  failureReason := "retry_exhausted"
  lastError := r.error
  attempts := attemptOf job
  firstFailedAtMs := r.failedAtMs
  lastFailedAtMs := r.failedAtMs
  replayPolicy := core.defaultReplayPolicy
  replayedJobId := none
  dismissedBy := none
  dismissedReason := none
  updatedAtMs := r.failedAtMs

/-- The second half of `fail`: the call it makes, for the job as it was read. -/
def failOp (core : JobCore) (r : FailRequest) (job : RuntimeJobRecord) : JobOp :=
  if (failJobRequest core r job).disposition = .deadLettered then
    .deadLetterFail ⟨deadLetterOf core r job, failJobRequest core r job⟩
  else .fail (failJobRequest core r job)

/-! ### Waking the waiter of a finished job -/

/-- The fields of `RuntimeJobWaiter` that the wake reads. -/
structure RuntimeJobWaiter where
  sessionId : String
  agentRunId : String

/-- The request by which a finished job wakes a lifecycle job. -/
def waiterWake (lifecycleJobId : String) (source : RuntimeJobRecord) : WakeRuntimeJobRequest :=
  ⟨lifecycleJobId, source.jobId, source.updatedAtMs, "runtime_job_terminal"⟩

/-- `wake_lifecycle_waiter`: the store and the scan's seen set afterwards, with `none` for a pair of
lifecycle job and source that this scan has already woken. -/
def wakeLifecycleWaiter (core : JobCore) (s : JobStore) (checkpointSessionId : String)
    (wait : RuntimeJobWaiter) (source : RuntimeJobRecord) (seen : List String) :
    Except ProtocolError (JobStore × List String × Option WakeRuntimeJobDisposition) :=
  if source.sessionId.any fun session ↦ decide (session ≠ checkpointSessionId) then
    .error (409, "job_waiter_binding_mismatch")
  else
    match core.agentRunLifecycleJobId wait.agentRunId with
    | .error _ => .error (409, "job_waiter_binding_mismatch")
    | .ok lifecycleJobId =>
      let pair := lifecycleJobId ++ ":" ++ source.jobId
      if pair ∈ seen then .ok (s, seen, none)
      else do
        let lifecycle ← getRuntimeJob s lifecycleJobId (409, "agent_run_lifecycle_job_missing")
        if lifecycle.jobKind ≠ agentRunLifecycleJobKind ∨
            lifecycle.sessionId ≠ some checkpointSessionId then
          throw (409, "agent_run_lifecycle_job_binding_mismatch")
        let (s', disposition) ← (wakeRuntimeJob s (waiterWake lifecycleJobId source)).mapError
          fun _ ↦ (409, "agent_run_lifecycle_wake_rejected")
        return (s', pair :: seen, some disposition)

/-! ### Interleavings -/

/-- A fail request that has read its job and not yet written. -/
structure PendingFail where
  request : FailRequest
  job : RuntimeJobRecord
  deriving DecidableEq

/-- The job store with the fail requests in flight. -/
structure ProtocolState where
  store : JobStore
  /-- Fail requests between their read and their write. -/
  failing : List PendingFail
  /-- The accepted fail requests, oldest first: the job and whether the failure was retryable. -/
  accepted : List (String × Bool)

/-- Nothing scheduled, nothing in flight. -/
def ProtocolState.init : ProtocolState := ⟨.empty, [], []⟩

/-- A store call of another handler: no scheduling, no failure. -/
def JobOp.isPlain : JobOp → Bool
  | .schedule _ _ | .scheduleWorker _ _ _ | .fail _ | .deadLetterFail _ => false
  | _ => true

/-- What can happen next. -/
inductive ProtocolOp
  | schedule (request : ScheduleRequest) (now : Int)
  | call (op : JobOp)
  | failRead (request : FailRequest)
  | failWrite (pending : PendingFail)
  | failAbandon (pending : PendingFail)

/-- One step of the job protocol. A random identifier handed out by a claim differs from every
owner that a request in flight carries. -/
inductive ProtocolStep (core : JobCore) : ProtocolState → ProtocolOp → ProtocolState → Prop
  | schedule {st : ProtocolState} {r : ScheduleRequest} {now : Int} {s' : JobStore}
      (h : Jobs.schedule core st.store r now = .ok s') :
      ProtocolStep core st (.schedule r now) { st with store := s' }
  | scheduleRejected {st : ProtocolState} {r : ScheduleRequest} {now : Int} {e : ProtocolError}
      (h : Jobs.schedule core st.store r now = .error e) :
      ProtocolStep core st (.schedule r now) st
  | call {st : ProtocolState} {op : JobOp} (hplain : op.isPlain)
      (hfresh : ∀ uuid, op.uuid? = some uuid → ∀ id, ∀ p ∈ st.failing,
        p.request.leaseOwner ≠ uuid id) :
      ProtocolStep core st (.call op) { st with store := exec st.store op }
  | failRead {st : ProtocolState} {r : FailRequest} {job : RuntimeJobRecord}
      (h : Jobs.failRead st.store r = .ok job) :
      ProtocolStep core st (.failRead r) { st with failing := st.failing ++ [⟨r, job⟩] }
  | failReadRejected {st : ProtocolState} {r : FailRequest} {e : ProtocolError}
      (h : Jobs.failRead st.store r = .error e) : ProtocolStep core st (.failRead r) st
  | failWrite {st : ProtocolState} {p : PendingFail} {s' : JobStore} (hp : p ∈ st.failing)
      (h : (failOp core p.request p.job).run st.store = .ok s') :
      ProtocolStep core st (.failWrite p)
        ⟨s', st.failing.erase p, st.accepted ++ [(p.request.jobId, p.request.retryable)]⟩
  | failWriteRejected {st : ProtocolState} {p : PendingFail} {e : String} (hp : p ∈ st.failing)
      (h : (failOp core p.request p.job).run st.store = .error e) :
      ProtocolStep core st (.failWrite p) { st with failing := st.failing.erase p }
  | failAbandon {st : ProtocolState} {p : PendingFail} (hp : p ∈ st.failing) :
      ProtocolStep core st (.failAbandon p) { st with failing := st.failing.erase p }

end Centaeris.Jobs
