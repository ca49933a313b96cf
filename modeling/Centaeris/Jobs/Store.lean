import Centaeris.Jobs.Record

/-!
# The runtime job store

The operations of the job store, statement by statement. Every operation is one transaction: it
takes the store and returns the new store with its result, or an error, in which case the
transaction is rolled back and the store stays as it was.

What the database decides is an argument. `ClaimEnv` gives the rows that other transactions hold
locked at a claim and the identifiers `gen_random_uuid()` returns; clocks are part of the requests,
as in the source, since the callers supply them.

**Shape.** Almost every operation is a guarded update of one row, `updateJob`; the guard most of
them share is `holdsLease`.
-/

namespace Centaeris.Jobs

open Machine

/-- An error of the job store is its message. -/
abbrev StoreResult := Except String

/-! ### Statements -/

/-- The error of `updated`, for a statement that updated no row. -/
def stateMismatch (label : String) : String := label ++ " state mismatch or not found"

/-- `UPDATE runtime_jobs SET … WHERE job_id=id AND …`; no updated row is an error. -/
def updateJob (s : JobStore) (mismatch id : String) (guard : RuntimeJobRecord → Bool)
    (set : RuntimeJobRecord → RuntimeJobRecord) (hset : ∀ j, (set j).jobId = j.jobId) :
    StoreResult JobStore :=
  if (s.job? id).any guard then
    .ok { s with
      runtimeJobs := s.runtimeJobs.update (fun j ↦ decide (j.jobId = id) && guard j) set hset }
  else
    .error mismatch

/-- `status IN('leased','running') AND lease_owner=owner AND lease_expires_at_ms>atMs`. -/
def holdsLease (owner : String) (atMs : Int) (j : RuntimeJobRecord) : Bool :=
  j.status.isActive && decide (j.leaseOwner = some owner) &&
    j.leaseExpiresAtMs.any fun expires ↦ decide (atMs < expires)

/-- `INSERT INTO runtime_jobs … ON CONFLICT DO NOTHING`: neither the job id nor the pair of job
kind and idempotency key may be taken. The flag says whether the row was inserted. -/
def insertJob (s : JobStore) (j : RuntimeJobRecord) : JobStore × Bool :=
  if s.runtimeJobs.rows.any
      (fun x ↦ decide (x.jobKind = j.jobKind ∧ x.idempotencyKey = j.idempotencyKey)) then
    (s, false)
  else
    match s.runtimeJobs.insert? j with
    | none => (s, false)
    | some jobs => ({ s with runtimeJobs := jobs }, true)

/-- `row_job`: the retry counters must fit `u32`. -/
def rowJob (j : RuntimeJobRecord) : StoreResult RuntimeJobRecord :=
  if u32Max < j.retryCount then .error "retry overflow"
  else if u32Max < j.maxRetries then .error "max retries overflow"
  else .ok j

/-- `load_job`. -/
def loadJob (s : JobStore) (id : String) : StoreResult (Option RuntimeJobRecord) :=
  match s.job? id with
  | none => .ok none
  | some j => some <$> rowJob j

/-- `load_job_by_key`. -/
def loadJobByKey (s : JobStore) (kind key : String) : StoreResult (Option RuntimeJobRecord) :=
  match s.runtimeJobs.rows.find? fun j ↦ decide (j.jobKind = kind ∧ j.idempotencyKey = key) with
  | none => .ok none
  | some j => some <$> rowJob j

/-- `ORDER BY run_at_ms,created_at_ms,job_id`. -/
def claimOrder (a b : RuntimeJobRecord) : Prop :=
  a.runAtMs < b.runAtMs ∨ a.runAtMs = b.runAtMs ∧
    (a.createdAtMs < b.createdAtMs ∨ a.createdAtMs = b.createdAtMs ∧ a.jobId ≤ b.jobId)

instance : DecidableRel claimOrder := fun a b ↦ by unfold claimOrder; infer_instance

/-- `load_jobs`. -/
def loadJobs (s : JobStore) (ids : List String) : StoreResult (List RuntimeJobRecord) :=
  ((s.runtimeJobs.rows.filter fun j ↦ decide (j.jobId ∈ ids)).insertionSort claimOrder).mapM rowJob

/-- `upsert_job_outbox`. -/
def upsertJobOutbox (s : JobStore) (id eventType : String) : JobStore :=
  { s with
    runtimeJobOutbox := s.runtimeJobOutbox.upsert ⟨id, eventType, none, 0⟩
      (fun o ↦ { o with publishedAtMs := none, generation := o.generation + 1 }) fun _ ↦ rfl }

/-- `insert_dead_letter`: neither the id nor the original job may be taken. -/
def insertDeadLetter (s : JobStore) (d : DeadLetterRecord) : JobStore × Bool :=
  if s.deadLetters.rows.any (fun x ↦ decide (x.originalJobId = d.originalJobId)) then
    (s, false)
  else
    match s.deadLetters.insert? d with
    | none => (s, false)
    | some letters => ({ s with deadLetters := letters }, true)

/-- `INSERT INTO runtime_events`; a taken event id is an error. -/
def insertEvent (s : JobStore) (label : String) (e : RuntimeEvent) : StoreResult JobStore :=
  match s.runtimeEvents.insert? e with
  | none => .error (label ++ " failed: duplicate key value violates unique constraint")
  | some events => .ok { s with runtimeEvents := events }

/-! ### Scheduling -/

/-- Whether `insert_job` inserted. -/
inductive ScheduleRuntimeJobDisposition
  | inserted | existing
  deriving DecidableEq

/-- `schedule_runtime_job`. -/
def scheduleRuntimeJob (s : JobStore) (job : RuntimeJobRecord) :
    StoreResult (JobStore × ScheduleRuntimeJobDisposition × RuntimeJobRecord) := do
  let (s', inserted) := insertJob s job
  if inserted then
    return (s', .inserted, job)
  match ← loadJobByKey s' job.jobKind job.idempotencyKey with
  | none => throw "existing Postgres runtime job missing"
  | some existing => return (s', .existing, existing)

/-- `schedule_worker_job`: a lifecycle job is bound to the workspace that pays for its execution. -/
def scheduleWorkerJob (s : JobStore) (job : RuntimeJobRecord) (workspaceId : Option String) :
    StoreResult (JobStore × ScheduleRuntimeJobDisposition × RuntimeJobRecord) :=
  if job.jobKind ≠ agentRunLifecycleJobKind then
    if workspaceId.isSome then .error "unexpected execution tenant" else scheduleRuntimeJob s job
  else
    match workspaceId.filter fun w ↦ !isBlank w with
    | none => .error "execution tenant is required"
    | some workspace => do
      let (s', inserted) := insertJob s job
      match ← loadJobByKey s' job.jobKind job.idempotencyKey with
      | none => throw "scheduled execution job missing"
      | some stored =>
        if stored.jobId ≠ job.jobId ∨ stored.sessionId ≠ job.sessionId ∨
            stored.payloadRef ≠ job.payloadRef then
          throw "execution job identity conflict"
        if inserted then
          match s'.executionJobTenants.insert? ⟨stored.jobId, workspace⟩ with
          | none => throw "duplicate key value violates unique constraint"
          | some tenants => return ({ s' with executionJobTenants := tenants }, .inserted, stored)
        match s'.executionJobTenants.get? stored.jobId with
        | none => throw "execution tenant identity conflict"
        | some binding =>
          if binding.workspaceId ≠ workspace then throw "execution tenant identity conflict"
          return (s', .existing, stored)

/-! ### Claiming -/

/-- What the database contributes to a claim. -/
structure ClaimEnv where
  /-- Rows that other transactions hold locked; `SKIP LOCKED` passes over them. -/
  locked : List String
  /-- The value of `gen_random_uuid()` for each updated row. -/
  genRandomUuid : String → String

/-- `ClaimDueRuntimeJobsRequest`. -/
structure ClaimDueRuntimeJobsRequest where
  nowMs : Int
  workerId : String
  jobId : Option String
  jobKind : Option String
  sessionId : Option String
  limit : Nat
  leaseMs : Nat

/-- The update of a claimed row. -/
def claimedJob (env : ClaimEnv) (untilMs nowMs : Int) (j : RuntimeJobRecord) : RuntimeJobRecord :=
  { j with
    status := .leased, leaseOwner := some (env.genRandomUuid j.jobId),
    leaseExpiresAtMs := some untilMs, updatedAtMs := nowMs, heartbeatAtMs := some nowMs }

@[simp] theorem claimedJob_jobId (env : ClaimEnv) (untilMs nowMs : Int) (j : RuntimeJobRecord) :
    (claimedJob env untilMs nowMs j).jobId = j.jobId := rfl

/-- `UPDATE runtime_jobs SET status='leased',… WHERE job_id=ANY(ids) AND status='queued'`. -/
def claimRows (s : JobStore) (env : ClaimEnv) (untilMs nowMs : Int) (ids : List String) :
    JobStore :=
  { s with
    runtimeJobs := s.runtimeJobs.update
      (fun j ↦ decide (j.jobId ∈ ids) && decide (j.status = .queued)) (claimedJob env untilMs nowMs)
      (claimedJob_jobId env untilMs nowMs) }

/-- The `WHERE` clause of the due-job query. -/
def isDue (req : ClaimDueRuntimeJobsRequest) (j : RuntimeJobRecord) : Bool :=
  decide (j.status = .queued) && decide (j.runAtMs ≤ req.nowMs) &&
    req.jobId.all (fun id ↦ decide (j.jobId = id)) &&
    req.jobKind.all (fun kind ↦ decide (j.jobKind = kind)) &&
    req.sessionId.all fun session ↦ decide (j.sessionId = some session)

/-- `claim_due_runtime_jobs`. -/
def claimDueRuntimeJobs (s : JobStore) (req : ClaimDueRuntimeJobsRequest) (env : ClaimEnv) :
    StoreResult (JobStore × List RuntimeJobRecord) :=
  match i64TryFrom req.leaseMs, i64TryFrom req.limit with
  | none, _ => .error "lease overflow"
  | _, none => .error "pagination value exceeds i64"
  | some lease, some _ => do
    let untilMs := saturatingAdd req.nowMs lease
    let due := s.runtimeJobs.rows.filter fun j ↦ isDue req j && !decide (j.jobId ∈ env.locked)
    let ids := ((due.insertionSort claimOrder).take req.limit).map (·.jobId)
    let s' := claimRows s env untilMs req.nowMs ids
    let jobs ← loadJobs s' ids
    return (s', jobs)

/-! ### Holding and giving up a lease -/

/-- `StartRuntimeJobRequest`. -/
structure StartRuntimeJobRequest where
  jobId : String
  leaseOwner : String
  startedAtMs : Int

/-- The row of a started job. -/
def startedJob (r : StartRuntimeJobRequest) (j : RuntimeJobRecord) : RuntimeJobRecord :=
  { j with status := .running, updatedAtMs := r.startedAtMs, heartbeatAtMs := some r.startedAtMs }

@[simp] theorem startedJob_jobId (r : StartRuntimeJobRequest) (j : RuntimeJobRecord) :
    (startedJob r j).jobId = j.jobId := rfl

/-- `start_runtime_job`. -/
def startRuntimeJob (s : JobStore) (r : StartRuntimeJobRequest) : StoreResult JobStore :=
  updateJob s (stateMismatch "start runtime job") r.jobId
    (fun j ↦ decide (j.status = .leased) && holdsLease r.leaseOwner r.startedAtMs j)
    (startedJob r) (startedJob_jobId r)

/-- `RenewRuntimeJobLeaseRequest`. -/
structure RenewRuntimeJobLeaseRequest where
  jobId : String
  leaseOwner : String
  heartbeatAtMs : Int
  leaseMs : Nat

/-- The row of a job whose lease is renewed. -/
def renewedJob (r : RenewRuntimeJobLeaseRequest) (untilMs : Int) (j : RuntimeJobRecord) :
    RuntimeJobRecord :=
  { j with
    heartbeatAtMs := some r.heartbeatAtMs, leaseExpiresAtMs := some untilMs,
    updatedAtMs := r.heartbeatAtMs }

@[simp] theorem renewedJob_jobId (r : RenewRuntimeJobLeaseRequest) (untilMs : Int) (j : RuntimeJobRecord) :
    (renewedJob r untilMs j).jobId = j.jobId := rfl

/-- `renew_runtime_job_lease`. -/
def renewRuntimeJobLease (s : JobStore) (r : RenewRuntimeJobLeaseRequest) : StoreResult JobStore :=
  match i64TryFrom r.leaseMs with
  | none => .error "lease overflow"
  | some lease =>
    updateJob s (stateMismatch "renew runtime job lease") r.jobId
      (holdsLease r.leaseOwner r.heartbeatAtMs)
      (renewedJob r (saturatingAdd r.heartbeatAtMs lease)) (renewedJob_jobId r _)

/-! ### Yielding and waking -/

/-- The three event types of the yield and wake protocol. -/
def yieldedEventType : String := "runtime_job_yielded"

@[inherit_doc yieldedEventType]
def wakeRequestedEventType : String := "runtime_job_wake_requested"

@[inherit_doc yieldedEventType]
def wakeConsumedEventType : String := "runtime_job_wake_consumed"

/-- The text before job and source in the id of a wake event. -/
def wakeIdPrefix : String := "runtime_job_wake:"

/-- The text before job and source in the id of the event that consumes a wake. -/
def wakeConsumedIdPrefix : String := "runtime_job_wake_consumed:"

/-- `str::replacen(pat, sub, 1)`: the first occurrence of a non-empty pattern is replaced. -/
def replaceFirst (pat sub : List Char) : List Char → List Char
  | [] => []
  | c :: cs =>
    if pat.isPrefixOf (c :: cs) then sub ++ (c :: cs).drop pat.length
    else c :: replaceFirst pat sub cs

/-- The id a yield gives to the event that consumes a wake: the wake's id with its first
`runtime_job_wake:` replaced. -/
def consumedEventId (wakeEventId : String) : String :=
  .ofList (replaceFirst wakeIdPrefix.toList wakeConsumedIdPrefix.toList wakeEventId.toList)

/-- The id under which the pending-wake query looks for a consuming event:
`'runtime_job_wake_consumed:' || substring(event_id FROM char_length('runtime_job_wake:')+1)`. -/
def queriedConsumedId (wakeEventId : String) : String :=
  wakeConsumedIdPrefix ++ .ofList (wakeEventId.toList.drop wakeIdPrefix.length)

/-- `ORDER BY at_ms,event_id`. -/
def eventOrder (a b : RuntimeEvent) : Prop :=
  a.atMs < b.atMs ∨ a.atMs = b.atMs ∧ a.eventId ≤ b.eventId

instance : DecidableRel eventOrder := fun a b ↦ by unfold eventOrder; infer_instance

/-- The wakes of a job that no event has consumed. -/
def pendingWakes (s : JobStore) (jobId : String) : List RuntimeEvent :=
  (s.runtimeEvents.rows.filter fun e ↦
    decide (e.taskId = some jobId) && decide (e.eventType = wakeRequestedEventType) &&
      (s.event? (queriedConsumedId e.eventId)).isNone).insertionSort eventOrder

/-- `YieldRuntimeJobRequest`. -/
structure YieldRuntimeJobRequest where
  jobId : String
  leaseOwner : String
  yieldedAtMs : Int
  runAtMs : Int
  transitionReason : String

namespace YieldRuntimeJobRequest

/-- The id of the event that records a yield. -/
def eventId (r : YieldRuntimeJobRequest) : String :=
  "runtime_job_yield:" ++ r.jobId ++ ":" ++ r.leaseOwner ++ ":" ++ toString r.yieldedAtMs

/-- The payload of the event that records a yield. -/
def payload (r : YieldRuntimeJobRequest) : Json :=
  .obj [("schema", .str "runtime.job.yielded.v1"), ("jobId", .str r.jobId),
    ("leaseOwner", .str r.leaseOwner), ("yieldedAtMs", .ofInt r.yieldedAtMs),
    ("runAtMs", .ofInt r.runAtMs), ("transitionReason", .str r.transitionReason)]

/-- The payload of an event by which a yield consumes a wake. -/
def consumedPayload (r : YieldRuntimeJobRequest) (wakeEventId : String) : Json :=
  .obj [("schema", .str "runtime.job.wake_consumed.v1"), ("jobId", .str r.jobId),
    ("wakeEventId", .str wakeEventId), ("consumedAtMs", .ofInt r.yieldedAtMs),
    ("transitionReason", .str "yield_observed_pending_wake")]

/-- The error of a caller that does not hold the lease. -/
def leaseError (r : YieldRuntimeJobRequest) : String :=
  "yield runtime job lease mismatch or expired: " ++ r.jobId

end YieldRuntimeJobRequest

/-- The session a job's internal events are filed under. -/
def eventSession (j : RuntimeJobRecord) : String := j.sessionId.getD ("runtime_job:" ++ j.jobId)

/-- The row a yield leaves behind. -/
def yieldedJob (runAtMs yieldedAtMs : Int) (j : RuntimeJobRecord) : RuntimeJobRecord :=
  { j with
    status := .queued, runAtMs := runAtMs, updatedAtMs := yieldedAtMs, leaseOwner := none,
    leaseExpiresAtMs := none, heartbeatAtMs := none }

@[simp] theorem yieldedJob_jobId (runAtMs yieldedAtMs : Int) (j : RuntimeJobRecord) :
    (yieldedJob runAtMs yieldedAtMs j).jobId = j.jobId := rfl

/-- The event by which a yield consumes a wake. -/
def consumedEvent (session : String) (r : YieldRuntimeJobRequest) (wakeId : String) :
    RuntimeEvent :=
  ⟨consumedEventId wakeId, session, some r.jobId, wakeConsumedEventType, r.yieldedAtMs, "internal",
    r.consumedPayload wakeId⟩

/-- The given wakes are consumed one by one. -/
def consumeWakes (session : String) (r : YieldRuntimeJobRequest) (s : JobStore)
    (wakeIds : List String) : StoreResult JobStore :=
  wakeIds.foldlM (fun s wakeId ↦
    insertEvent s "consume pending Postgres runtime job wake" (consumedEvent session r wakeId)) s

/-- A yield of a job that is already queued and free: `Ok` exactly for the repetition of the yield
that queued it. -/
def repeatedYield (s : JobStore) (r : YieldRuntimeJobRequest) : StoreResult JobStore :=
  match s.runtimeEvents.rows.filter fun e ↦
    decide (e.taskId = some r.jobId) && decide (e.eventType = yieldedEventType) &&
      decide (e.atMs = r.yieldedAtMs) with
  | [] => .error r.leaseError
  | [e] =>
    if e.eventId = r.eventId ∧ e.payload = r.payload then .ok s
    else .error ("yield runtime job idempotency conflict: " ++ r.jobId)
  | _ => .error "load yielded runtime event failed: query returned an unexpected number of rows"

/-- The run time a yield leaves: at once when a wake is pending, as requested otherwise. -/
def yieldRunAt (s : JobStore) (r : YieldRuntimeJobRequest) : Int :=
  if (pendingWakes s r.jobId).isEmpty then r.runAtMs else r.yieldedAtMs

/-- The event a yield records. -/
def yieldEvent (r : YieldRuntimeJobRequest) (j : RuntimeJobRecord) : RuntimeEvent :=
  ⟨r.eventId, eventSession j, some r.jobId, yieldedEventType, r.yieldedAtMs, "internal", r.payload⟩

/-- `yield_runtime_job`. -/
def yieldRuntimeJob (s : JobStore) (r : YieldRuntimeJobRequest) : StoreResult JobStore :=
  if r.runAtMs < r.yieldedAtMs ∨ isBlank r.transitionReason then
    .error "invalid runtime job yield"
  else
    match s.job? r.jobId with
    | none => .error ("yield runtime job not found: " ++ r.jobId)
    | some j =>
      if j.status = .queued ∧ j.leaseOwner = none then repeatedYield s r
      else if !holdsLease r.leaseOwner r.yieldedAtMs j then .error r.leaseError
      else do
        let s₁ ← updateJob s (stateMismatch "yield runtime job") r.jobId
          (holdsLease r.leaseOwner r.yieldedAtMs) (yieldedJob (yieldRunAt s r) r.yieldedAtMs)
          (yieldedJob_jobId _ _)
        let s₂ ← insertEvent s₁ "append Postgres runtime job yield event" (yieldEvent r j)
        consumeWakes (eventSession j) r s₂ ((pendingWakes s r.jobId).map (·.eventId))

/-- `WakeRuntimeJobRequest`. -/
structure WakeRuntimeJobRequest where
  jobId : String
  sourceJobId : String
  wokenAtMs : Int
  transitionReason : String

namespace WakeRuntimeJobRequest

/-- The id of a wake event names the job and the source. -/
def eventId (r : WakeRuntimeJobRequest) : String :=
  wakeIdPrefix ++ r.jobId ++ ":" ++ r.sourceJobId

/-- The payload of a wake event. -/
def payload (r : WakeRuntimeJobRequest) : Json :=
  .obj [("schema", .str "runtime.job.wake.v1"), ("jobId", .str r.jobId),
    ("sourceJobId", .str r.sourceJobId), ("wokenAtMs", .ofInt r.wokenAtMs),
    ("transitionReason", .str r.transitionReason)]

/-- The wake event of a request, for the job it wakes. -/
def event (r : WakeRuntimeJobRequest) (j : RuntimeJobRecord) : RuntimeEvent :=
  ⟨r.eventId, eventSession j, some r.jobId, wakeRequestedEventType, r.wokenAtMs, "internal",
    r.payload⟩

end WakeRuntimeJobRequest

/-- The wake event is inserted once; a stored one must have the same payload. -/
def recordWake (s : JobStore) (r : WakeRuntimeJobRequest) (j : RuntimeJobRecord) :
    StoreResult JobStore :=
  match s.event? r.eventId with
  | some existing =>
    if existing.payload ≠ r.payload then
      .error ("wake runtime job idempotency conflict: " ++ r.jobId)
    else .ok s
  | none => insertEvent s "append Postgres runtime job wake event" (r.event j)

/-- `WakeRuntimeJobDisposition`. -/
inductive WakeRuntimeJobDisposition
  | woken | alreadyRunnable | active | terminal
  deriving DecidableEq

/-- The row of a job that a wake makes runnable. -/
def wokenJob (r : WakeRuntimeJobRequest) (j : RuntimeJobRecord) : RuntimeJobRecord :=
  { j with runAtMs := r.wokenAtMs, updatedAtMs := r.wokenAtMs }

@[simp] theorem wokenJob_jobId (r : WakeRuntimeJobRequest) (j : RuntimeJobRecord) :
    (wokenJob r j).jobId = j.jobId := rfl

/-- `wake_runtime_job`. -/
def wakeRuntimeJob (s : JobStore) (r : WakeRuntimeJobRequest) :
    StoreResult (JobStore × WakeRuntimeJobDisposition) :=
  if isBlank r.jobId ∨ isBlank r.sourceJobId ∨ isBlank r.transitionReason then
    .error "invalid runtime job wake"
  else
    match s.job? r.jobId with
    | none => .error ("wake runtime job not found: " ++ r.jobId)
    | some j => do
      let s₁ ← recordWake s r j
      match j.status with
      | .queued =>
        if r.wokenAtMs < j.runAtMs then
          let s₂ ← updateJob s₁ (stateMismatch "wake Postgres runtime job") r.jobId
            (fun j ↦ decide (j.status = .queued) && decide (r.wokenAtMs < j.runAtMs))
            (wokenJob r) (wokenJob_jobId r)
          return (s₂, .woken)
        return (s₁, .alreadyRunnable)
      | .leased | .running => return (s₁, .active)
      | .succeeded | .failed | .deadLettered | .cancelled => return (s₁, .terminal)

/-! ### Ending a job -/

/-- `CompleteRuntimeJobRequest`. -/
structure CompleteRuntimeJobRequest where
  jobId : String
  leaseOwner : String
  outputRefs : List String
  completedAtMs : Int

/-- The row of a completed job. -/
def completedJob (r : CompleteRuntimeJobRequest) (j : RuntimeJobRecord) : RuntimeJobRecord :=
  { j with
    status := .succeeded, outputRefs := r.outputRefs, updatedAtMs := r.completedAtMs,
    leaseOwner := none, leaseExpiresAtMs := none, lastError := none }

@[simp] theorem completedJob_jobId (r : CompleteRuntimeJobRequest) (j : RuntimeJobRecord) :
    (completedJob r j).jobId = j.jobId := rfl

/-- `complete_runtime_job`. -/
def completeRuntimeJob (s : JobStore) (r : CompleteRuntimeJobRequest) : StoreResult JobStore := do
  let s₁ ← updateJob s (stateMismatch "complete runtime job") r.jobId (holdsLease r.leaseOwner r.completedAtMs)
    (completedJob r) (completedJob_jobId r)
  return upsertJobOutbox s₁ r.jobId runtimeJobTerminalEvent

/-- `RuntimeJobFailureDisposition`. -/
inductive RuntimeJobFailureDisposition
  | retryScheduled | failed | deadLettered
  deriving DecidableEq

/-- `FailRuntimeJobRequest`. -/
structure FailRuntimeJobRequest where
  jobId : String
  leaseOwner : String
  failedAtMs : Int
  lastError : String
  nextRunAtMs : Option Int
  disposition : RuntimeJobFailureDisposition

/-- The status and run time a failed job gets; a retry needs its next run time. -/
def FailRuntimeJobRequest.outcome (r : FailRuntimeJobRequest) (missing : String) :
    StoreResult (RuntimeJobStatus × Int) :=
  match r.disposition with
  | .retryScheduled => match r.nextRunAtMs with
    | some next => .ok (.queued, next)
    | none => .error missing
  | .failed => .ok (.failed, r.failedAtMs)
  | .deadLettered => .ok (.deadLettered, r.failedAtMs)

/-- The row of a failed job. -/
def failedJob (r : FailRuntimeJobRequest) (outcome : RuntimeJobStatus × Int)
    (j : RuntimeJobRecord) : RuntimeJobRecord :=
  { j with
    status := outcome.1, runAtMs := outcome.2, retryCount := j.retryCount + 1,
    updatedAtMs := r.failedAtMs, leaseOwner := none, leaseExpiresAtMs := none,
    lastError := some r.lastError }

@[simp] theorem failedJob_jobId (r : FailRuntimeJobRequest) (outcome : RuntimeJobStatus × Int) (j : RuntimeJobRecord) :
    (failedJob r outcome j).jobId = j.jobId := rfl

/-- The fenced update of a failed job; an end of the job is announced in the outbox. -/
def applyFailure (s : JobStore) (mismatch : String) (r : FailRuntimeJobRequest)
    (outcome : RuntimeJobStatus × Int) : StoreResult JobStore := do
  let s₁ ← updateJob s mismatch r.jobId (holdsLease r.leaseOwner r.failedAtMs)
    (failedJob r outcome) (failedJob_jobId r outcome)
  if r.disposition = .retryScheduled then return s₁
  return upsertJobOutbox s₁ r.jobId runtimeJobTerminalEvent

/-- `fail_runtime_job`. -/
def failRuntimeJob (s : JobStore) (r : FailRuntimeJobRequest) : StoreResult JobStore := do
  let outcome ← r.outcome "retry requires next_run_at_ms"
  applyFailure s (stateMismatch "fail runtime job") r outcome

/-- `CancelRuntimeJobRequest`. -/
structure CancelRuntimeJobRequest where
  jobId : String
  expectedStatus : Option RuntimeJobStatus
  expectedLeaseOwner : Option String
  reason : String
  cancelledAtMs : Int

/-- The `WHERE` clause of a cancellation. -/
def cancellable (r : CancelRuntimeJobRequest) (j : RuntimeJobRecord) : Bool :=
  !j.status.isTerminal && r.expectedStatus.all (fun status ↦ decide (j.status = status)) &&
    r.expectedLeaseOwner.all fun owner ↦ holdsLease owner r.cancelledAtMs j

/-- `COALESCE(NULLIF(last_error,''),reason)`. -/
def keptError (lastError : Option String) (reason : String) : String :=
  (lastError.filter fun e ↦ decide (e ≠ "")).getD reason

/-- The row of a cancelled job. -/
def cancelledJob (r : CancelRuntimeJobRequest) (j : RuntimeJobRecord) : RuntimeJobRecord :=
  { j with
    status := .cancelled, updatedAtMs := r.cancelledAtMs, leaseOwner := none,
    leaseExpiresAtMs := none, lastError := some (keptError j.lastError r.reason) }

@[simp] theorem cancelledJob_jobId (r : CancelRuntimeJobRequest) (j : RuntimeJobRecord) :
    (cancelledJob r j).jobId = j.jobId := rfl

/-- `cancel_runtime_job`. -/
def cancelRuntimeJob (s : JobStore) (r : CancelRuntimeJobRequest) : StoreResult JobStore := do
  let s₁ ← updateJob s (stateMismatch "cancel runtime job") r.jobId (cancellable r) (cancelledJob r)
    (cancelledJob_jobId r)
  return upsertJobOutbox s₁ r.jobId runtimeJobTerminalEvent

/-! ### Reclaiming expired leases -/

/-- `status IN('leased','running') AND lease_expires_at_ms<=now`. -/
def leaseExpired (now : Int) (j : RuntimeJobRecord) : Bool :=
  j.status.isActive && j.leaseExpiresAtMs.any fun expires ↦ decide (expires ≤ now)

/-- The row of a reclaimed job. -/
def reclaimedJob (now : Int) (j : RuntimeJobRecord) : RuntimeJobRecord :=
  { j with
    status := .queued, runAtMs := now, updatedAtMs := now, leaseOwner := none,
    leaseExpiresAtMs := none,
    lastError :=
      if j.lastError.getD "" ≠ "" then j.lastError
      else if j.status = .running then some "worker_crashed_reclaimed"
      else some "lease_expired_reclaimed" }

@[simp] theorem reclaimedJob_jobId (now : Int) (j : RuntimeJobRecord) :
    (reclaimedJob now j).jobId = j.jobId := rfl

/-- `reclaim_expired_runtime_job_leases`. -/
def reclaimExpiredRuntimeJobLeases (s : JobStore) (now : Int) : JobStore × Nat :=
  ({ s with
      runtimeJobs :=
        s.runtimeJobs.update (leaseExpired now) (reclaimedJob now) (reclaimedJob_jobId now) },
    s.runtimeJobs.count (leaseExpired now))

/-! ### Compound transactions -/

/-- `upsert_object`. -/
def upsertObject (s : JobStore) (object : ExternalContextObject) : JobStore :=
  { s with
    externalContextObjects := s.externalContextObjects.upsert object
      (fun old ↦ { object with objectId := old.objectId, insertedAtMs := old.insertedAtMs })
      fun _ ↦ rfl }

/-- `link_object`. -/
def linkObject (s : JobStore) (link : ExternalContextObjectLink) : StoreResult JobStore :=
  if isBlank link.sessionId ∨ isBlank link.objectId then
    .error "external context link session/object is required"
  else if (s.externalContextObjects.get? link.objectId).isNone then
    .error ("external context object not found for link: " ++ link.objectId)
  else
    .ok { s with
      externalContextLinks := s.externalContextLinks.upsert link
        (fun old ↦ { old with
          sourceProviderId := link.sourceProviderId, sourceToolName := link.sourceToolName,
          linkedAtMs := link.linkedAtMs })
        fun _ ↦ rfl }

/-- `UpsertExternalContextLinkAndCompleteJobRequest`. -/
structure UpsertExternalContextLinkAndCompleteJobRequest where
  object : Option ExternalContextObject
  link : Option ExternalContextObjectLink
  completeJob : CompleteRuntimeJobRequest

/-- `upsert_external_context_link_and_complete_job`. -/
def upsertExternalContextLinkAndCompleteJob (s : JobStore)
    (req : UpsertExternalContextLinkAndCompleteJobRequest) : StoreResult JobStore := do
  let s₁ := req.object.elim s (upsertObject s)
  let s₂ ← req.link.elim (pure s₁) (linkObject s₁)
  let s₃ ← updateJob s₂ "complete external job state mismatch" req.completeJob.jobId
    (holdsLease req.completeJob.leaseOwner req.completeJob.completedAtMs)
    (completedJob req.completeJob) (completedJob_jobId _)
  return upsertJobOutbox s₃ req.completeJob.jobId runtimeJobTerminalEvent

/-- `CreateDeadLetterAndFailJobRequest`. -/
structure CreateDeadLetterAndFailJobRequest where
  deadLetter : DeadLetterRecord
  failJob : FailRuntimeJobRequest

/-- The dead letter the transaction reports: the inserted one, or the one that was there
(`load_dead_letter_by_original`). -/
def reportedDeadLetter (s : JobStore) (inserted : Bool) (d : DeadLetterRecord) :
    StoreResult DeadLetterRecord :=
  if inserted then .ok d
  else match s.deadLetters.rows.find? fun x ↦ decide (x.originalJobId = d.originalJobId) with
    | some x => if u32Max < x.attempts then .error "attempt overflow" else .ok x
    | none => .error "existing DLQ row missing"

/-- `create_dead_letter_and_fail_job`: the dead letter is inserted first and rolled back with the
transaction when the caller does not hold the lease. -/
def createDeadLetterAndFailJob (s : JobStore) (req : CreateDeadLetterAndFailJobRequest) :
    StoreResult (JobStore × DeadLetterRecord) := do
  let (s₁, inserted) := insertDeadLetter s req.deadLetter
  let deadLetter ← reportedDeadLetter s₁ inserted req.deadLetter
  let outcome ← req.failJob.outcome "retry requires next run"
  let s₂ ← applyFailure s₁ "fail job in DLQ transaction state mismatch" req.failJob outcome
  return (s₂, deadLetter)

end Centaeris.Jobs
