import Centaeris.Jobs.Inversion

/-!
# Calls of the job store and what they do to one row

`JobOp` lists the calls any client may make, with the answers the database gives during the call,
and `exec` is their effect: the transaction's store, or the old store when it failed.

**One row at a time.** Nearly all that is proved about the store is proved about one job row. The
relation `RowStep` says what a call can do to a row, guards included, one constructor for each way
a row changes; `exec_rowStep` shows that `exec` does nothing else. Every invariant of the
following modules is derived from `RowStep`, so that the statements are unfolded once, here.
-/

namespace Centaeris.Jobs

open Machine

/-- A call of the job store. A scheduled record is queued and free, as every scheduler of the
server builds it. -/
inductive JobOp
  | schedule (job : RuntimeJobRecord) (h : Unclaimed job)
  | scheduleWorker (job : RuntimeJobRecord) (workspaceId : Option String) (h : Unclaimed job)
  | claimDue (req : ClaimDueRuntimeJobsRequest) (env : ClaimEnv)
  | claimWorker (req : ClaimDueRuntimeJobsRequest) (limits : ExecutionCapacity)
      (env : ExecutionClaimEnv)
  | start (r : StartRuntimeJobRequest)
  | renew (r : RenewRuntimeJobLeaseRequest)
  | yield (r : YieldRuntimeJobRequest)
  | wake (r : WakeRuntimeJobRequest)
  | complete (r : CompleteRuntimeJobRequest)
  | fail (r : FailRuntimeJobRequest)
  | cancel (r : CancelRuntimeJobRequest)
  | reclaim (now : Int)
  | externalComplete (r : UpsertExternalContextLinkAndCompleteJobRequest)
  | deadLetterFail (r : CreateDeadLetterAndFailJobRequest)

/-- The store a call leaves behind when its transaction commits. -/
def JobOp.run (s : JobStore) : JobOp → StoreResult JobStore
  | .schedule job _ => Prod.fst <$> scheduleRuntimeJob s job
  | .scheduleWorker job workspaceId _ => Prod.fst <$> scheduleWorkerJob s job workspaceId
  | .claimDue req env => Prod.fst <$> claimDueRuntimeJobs s req env
  | .claimWorker req limits env => Prod.fst <$> claimWorkerJobs s req limits env
  | .start r => startRuntimeJob s r
  | .renew r => renewRuntimeJobLease s r
  | .yield r => yieldRuntimeJob s r
  | .wake r => Prod.fst <$> wakeRuntimeJob s r
  | .complete r => completeRuntimeJob s r
  | .fail r => failRuntimeJob s r
  | .cancel r => cancelRuntimeJob s r
  | .reclaim now => .ok (reclaimExpiredRuntimeJobLeases s now).1
  | .externalComplete r => upsertExternalContextLinkAndCompleteJob s r
  | .deadLetterFail r => Prod.fst <$> createDeadLetterAndFailJob s r

/-- The store after a call: a failed transaction is rolled back. -/
def exec (s : JobStore) (op : JobOp) : JobStore :=
  match op.run s with
  | .ok s' => s'
  | .error _ => s

namespace JobOp

/-- The record a call schedules. -/
def scheduled? : JobOp → Option RuntimeJobRecord
  | .schedule job _ | .scheduleWorker job _ _ => some job
  | _ => none

/-- The identifiers a claim hands out. -/
def uuid? : JobOp → Option (String → String)
  | .claimDue _ env => some env.genRandomUuid
  | .claimWorker _ _ env => some env.genRandomUuid
  | _ => none

/-- The completion a call asks for, directly or with an external-context link. -/
def completion? : JobOp → Option CompleteRuntimeJobRequest
  | .complete r => some r
  | .externalComplete r => some r.completeJob
  | _ => none

/-- The failure a call reports, directly or with a dead letter. -/
def failure? : JobOp → Option FailRuntimeJobRequest
  | .fail r => some r
  | .deadLetterFail r => some r.failJob
  | _ => none

end JobOp

/-! ### What a call can do to one row -/

/-- What the store holds about one job id: its row, and whether its end is announced. -/
structure Row where
  /-- The row of `runtime_jobs`. -/
  job : Option RuntimeJobRecord
  /-- Whether `runtime_job_outbox` has a row for its terminal event. -/
  announced : Bool

/-- The row of an id. -/
def JobStore.row (s : JobStore) (id : String) : Row := ⟨s.job? id, (s.terminalOutbox? id).isSome⟩

/-- The ways in which a call changes the row of `id`. -/
inductive RowStep (op : JobOp) (id : String) : Row → Row → Prop
  | same (row : Row) : RowStep op id row row
  | inserted {job : RuntimeJobRecord} {b : Bool} (hop : op.scheduled? = some job)
      (hid : job.jobId = id) (hfree : Unclaimed job) : RowStep op id ⟨none, b⟩ ⟨some job, b⟩
  | claimed {j : RuntimeJobRecord} {b : Bool} {env : ClaimEnv} {untilMs now : Int}
      (hop : op.uuid? = some env.genRandomUuid) (hid : j.jobId = id) (hq : j.status = .queued) :
      RowStep op id ⟨some j, b⟩ ⟨some (claimedJob env untilMs now j), b⟩
  | started {j : RuntimeJobRecord} {b : Bool} {r : StartRuntimeJobRequest} (hop : op = .start r)
      (hid : r.jobId = id) (hl : holdsLease r.leaseOwner r.startedAtMs j) :
      RowStep op id ⟨some j, b⟩ ⟨some (startedJob r j), b⟩
  | renewed {j : RuntimeJobRecord} {b : Bool} {r : RenewRuntimeJobLeaseRequest} {untilMs : Int}
      (hop : op = .renew r) (hid : r.jobId = id) (hl : holdsLease r.leaseOwner r.heartbeatAtMs j) :
      RowStep op id ⟨some j, b⟩ ⟨some (renewedJob r untilMs j), b⟩
  | yielded {j : RuntimeJobRecord} {b : Bool} {r : YieldRuntimeJobRequest} {runAtMs : Int}
      (hop : op = .yield r) (hid : r.jobId = id) (hl : holdsLease r.leaseOwner r.yieldedAtMs j) :
      RowStep op id ⟨some j, b⟩ ⟨some (yieldedJob runAtMs r.yieldedAtMs j), b⟩
  | woken {j : RuntimeJobRecord} {b : Bool} {r : WakeRuntimeJobRequest} (hop : op = .wake r)
      (hid : r.jobId = id) (hq : j.status = .queued) :
      RowStep op id ⟨some j, b⟩ ⟨some (wokenJob r j), b⟩
  | completed {j : RuntimeJobRecord} {b : Bool} {r : CompleteRuntimeJobRequest}
      (hop : op.completion? = some r) (hid : r.jobId = id)
      (hl : holdsLease r.leaseOwner r.completedAtMs j) :
      RowStep op id ⟨some j, b⟩ ⟨some (completedJob r j), true⟩
  | retried {j : RuntimeJobRecord} {b : Bool} {r : FailRuntimeJobRequest} {next : Int}
      (hop : op.failure? = some r) (hid : r.jobId = id)
      (hl : holdsLease r.leaseOwner r.failedAtMs j) (hd : r.disposition = .retryScheduled) :
      RowStep op id ⟨some j, b⟩ ⟨some (failedJob r (.queued, next) j), b⟩
  | failed {j : RuntimeJobRecord} {b : Bool} {r : FailRuntimeJobRequest}
      (hop : op.failure? = some r) (hid : r.jobId = id)
      (hl : holdsLease r.leaseOwner r.failedAtMs j) (hd : r.disposition = .failed) :
      RowStep op id ⟨some j, b⟩ ⟨some (failedJob r (.failed, r.failedAtMs) j), true⟩
  | deadLettered {j : RuntimeJobRecord} {b : Bool} {r : FailRuntimeJobRequest}
      (hop : op.failure? = some r) (hid : r.jobId = id)
      (hl : holdsLease r.leaseOwner r.failedAtMs j) (hd : r.disposition = .deadLettered) :
      RowStep op id ⟨some j, b⟩ ⟨some (failedJob r (.deadLettered, r.failedAtMs) j), true⟩
  | cancelled {j : RuntimeJobRecord} {b : Bool} {r : CancelRuntimeJobRequest}
      (hop : op = .cancel r) (hid : r.jobId = id) (hc : cancellable r j) :
      RowStep op id ⟨some j, b⟩ ⟨some (cancelledJob r j), true⟩
  | reclaimed {j : RuntimeJobRecord} {b : Bool} {now : Int} (hop : op = .reclaim now)
      (he : leaseExpired now j) : RowStep op id ⟨some j, b⟩ ⟨some (reclaimedJob now j), b⟩

/-! ### Rows under single statements -/

namespace UpdatesJob

variable {s s' : JobStore} {id : String} {j j' : RuntimeJobRecord} {op : JobOp}

theorem row (h : UpdatesJob s s' id j j') (k : String) :
    s'.row k = if k = id then ⟨some j', (s.row id).announced⟩ else s.row k := by
  have hout : s'.terminalOutbox? k = s.terminalOutbox? k := by rw [h.rest]; rfl
  by_cases hk : k = id
  · subst hk
    simp [JobStore.row, h.after, hout]
  · simp [JobStore.row, h.after, hout, hk]

/-- An update of one row is a step of that row and of no other. -/
theorem rowStep (h : UpdatesJob s s' id j j')
    (hstep : ∀ b, RowStep op id ⟨some j, b⟩ ⟨some j', b⟩) (k : String) :
    RowStep op k (s.row k) (s'.row k) := by
  rw [h.row]
  by_cases hk : k = id
  · subst hk
    simpa [JobStore.row, h.before] using hstep (s.terminalOutbox? k).isSome
  · simpa [hk] using RowStep.same _

end UpdatesJob

theorem row_upsertJobOutbox (s : JobStore) (id k : String) :
    (upsertJobOutbox s id runtimeJobTerminalEvent).row k =
      ⟨s.job? k, if k = id then true else (s.row k).announced⟩ := by
  by_cases hk : k = id
  · subst hk
    simp [JobStore.row, JobStore.job?, JobStore.terminalOutbox?, upsertJobOutbox,
      Table.get?_upsert]
  · simp [JobStore.row, JobStore.job?, JobStore.terminalOutbox?, upsertJobOutbox,
      Table.get?_upsert, hk, Ne.symm hk]

/-- An update of one row that also announces the end of its job. -/
theorem UpdatesJob.rowStep_announce {s s' : JobStore} {id : String} {j j' : RuntimeJobRecord}
    {op : JobOp} (h : UpdatesJob s s' id j j')
    (hstep : ∀ b, RowStep op id ⟨some j, b⟩ ⟨some j', true⟩) (k : String) :
    RowStep op k (s.row k) ((upsertJobOutbox s' id runtimeJobTerminalEvent).row k) := by
  rw [row_upsertJobOutbox, h.row, h.after]
  by_cases hk : k = id
  · subst hk
    simpa [JobStore.row, h.before] using hstep (s.terminalOutbox? k).isSome
  · simp only [hk, if_false]
    exact RowStep.same _

theorem rowStep_insertJob {s : JobStore} {job : RuntimeJobRecord} {op : JobOp}
    (hop : op.scheduled? = some job) (hfree : Unclaimed job) (k : String) :
    RowStep op k (s.row k) ((insertJob s job).1.row k) := by
  obtain h | ⟨jobs, h, hins⟩ := insertJob_spec s job
  · rw [h]
    exact .same _
  · rw [h]
    have hget := Table.get?_of_insert? hins k
    simp only [JobStore.row, JobStore.job?, hget]
    by_cases hk : job.jobId = k
    · subst hk
      have hnone := (Table.insert?_eq_some_iff.1 hins).1
      simp only [if_true, hnone]
      exact .inserted hop rfl hfree
    · simp only [hk, if_false]
      exact .same _

theorem row_insertDeadLetter (s : JobStore) (d : DeadLetterRecord) (k : String) :
    (insertDeadLetter s d).1.row k = s.row k := by
  unfold insertDeadLetter
  split
  · rfl
  · split <;> rfl

/-! ### Rows under claims -/

/-- A row is left alone or, being queued, leased under the identifier of its claim. -/
inductive ClaimStep (uuid : String → String) (id : String) : Row → Row → Prop
  | same (row : Row) : ClaimStep uuid id row row
  | claimed {j : RuntimeJobRecord} {b : Bool} {env : ClaimEnv} {untilMs now : Int}
      (henv : env.genRandomUuid = uuid) (hid : j.jobId = id) (hq : j.status = .queued) :
      ClaimStep uuid id ⟨some j, b⟩ ⟨some (claimedJob env untilMs now j), b⟩

theorem ClaimStep.rowStep {uuid : String → String} {id : String} {r r' : Row} {op : JobOp}
    (hop : op.uuid? = some uuid) (h : ClaimStep uuid id r r') : RowStep op id r r' := by
  cases h with
  | same => exact .same _
  | claimed henv hid hq => exact .claimed (by rw [hop, henv]) hid hq

/-- A leased row is not claimed again by the same call. -/
theorem ClaimStep.trans {uuid : String → String} {id : String} {r r' r'' : Row}
    (h : ClaimStep uuid id r r') (h' : ClaimStep uuid id r' r'') : ClaimStep uuid id r r'' := by
  cases h with
  | same => exact h'
  | claimed henv hid hq =>
    cases h' with
    | same => exact .claimed henv hid hq
    | claimed _ _ hq' => cases hq'

theorem claimStep_claimRows (s : JobStore) (env : ClaimEnv) (untilMs now : Int)
    (ids : List String) (k : String) :
    ClaimStep env.genRandomUuid k (s.row k) ((claimRows s env untilMs now ids).row k) := by
  have hjob := job?_claimRows s env untilMs now ids k
  have hout : (claimRows s env untilMs now ids).terminalOutbox? k = s.terminalOutbox? k := rfl
  simp only [JobStore.row, hjob, hout]
  cases hj : s.job? k with
  | none => exact .same _
  | some j =>
    by_cases hc : k ∈ ids ∧ j.status = .queued
    · simp only [Option.map_some, hc, and_self, if_true]
      exact .claimed rfl (Table.key_of_get? hj) hc.2
    · simp only [Option.map_some, hc, if_false]
      exact .same _

theorem claimStep_claimDue {s s' : JobStore} {req : ClaimDueRuntimeJobsRequest} {env : ClaimEnv}
    {jobs : List RuntimeJobRecord} (h : claimDueRuntimeJobs s req env = .ok (s', jobs))
    (k : String) : ClaimStep env.genRandomUuid k (s.row k) (s'.row k) := by
  obtain ⟨untilMs, ids, rfl, -⟩ := claimDueRuntimeJobs_ok h
  exact claimStep_claimRows _ _ _ _ _ k

theorem claimStep_claimCandidate {limits : ExecutionCapacity} {env : ClaimEnv} {untilMs now : Int}
    {st st' : ClaimLoop} {c : String × String}
    (h : claimCandidate limits env untilMs now st c = .ok st') (k : String) :
    ClaimStep env.genRandomUuid k (st.store.row k) (st'.store.row k) := by
  obtain ⟨-, rfl⟩ | ⟨-, hst, -⟩ := claimCandidate_ok h
  · exact .same _
  · rw [hst]
    exact claimStep_claimRows _ _ _ _ _ k

theorem claimStep_claimWorker {s s' : JobStore} {req : ClaimDueRuntimeJobsRequest}
    {limits : ExecutionCapacity} {env : ExecutionClaimEnv} {jobs : List RuntimeJobRecord}
    (h : claimWorkerJobs s req limits env = .ok (s', jobs)) (k : String) :
    ClaimStep env.genRandomUuid k (s.row k) (s'.row k) := by
  obtain ⟨-, h⟩ | rfl | ⟨untilMs, st, rfl, hloop⟩ := claimWorkerJobs_ok h
  · exact claimStep_claimDue h k
  · exact .same _
  · exact Except.foldlM_invariant
      (I := fun st : ClaimLoop ↦ ClaimStep env.genRandomUuid k (s.row k) (st.store.row k))
      (fun _ _ _ _ hi hc ↦ hi.trans (claimStep_claimCandidate hc k)) (.same _) hloop

/-! ### Every call steps every row -/

/-- The fenced update of a failure, for each of its outcomes. -/
theorem rowStep_applyFailure {s s' : JobStore} {mismatch missing : String}
    {r : FailRuntimeJobRequest} {outcome : RuntimeJobStatus × Int} {op : JobOp}
    (hop : op.failure? = some r) (hout : r.outcome missing = .ok outcome)
    (h : applyFailure s mismatch r outcome = .ok s') (k : String) :
    RowStep op k (s.row k) (s'.row k) := by
  obtain ⟨s₁, h₁, h₂⟩ := Except.bind_eq_ok.1 h
  obtain ⟨j, hl, hupd⟩ := updateJob_ok h₁
  unfold FailRuntimeJobRequest.outcome at hout
  split at hout
  · rename_i hd
    split at hout
    · cases hout
      simp only [hd, if_true] at h₂
      cases h₂
      exact hupd.rowStep (fun _ ↦ .retried hop rfl hl hd) k
    · cases hout
  · rename_i hd
    cases hout
    simp only [hd, reduceCtorEq, if_false] at h₂
    cases h₂
    exact hupd.rowStep_announce (fun _ ↦ .failed hop rfl hl hd) k
  · rename_i hd
    cases hout
    simp only [hd, reduceCtorEq, if_false] at h₂
    cases h₂
    exact hupd.rowStep_announce (fun _ ↦ .deadLettered hop rfl hl hd) k

theorem rowStep_complete {s s₁ : JobStore} {mismatch : String} {r : CompleteRuntimeJobRequest}
    {op : JobOp} (hop : op.completion? = some r)
    (h : updateJob s mismatch r.jobId (holdsLease r.leaseOwner r.completedAtMs) (completedJob r)
      (completedJob_jobId r) = .ok s₁) (k : String) :
    RowStep op k (s.row k) ((upsertJobOutbox s₁ r.jobId runtimeJobTerminalEvent).row k) := by
  obtain ⟨j, hl, hupd⟩ := updateJob_ok h
  exact hupd.rowStep_announce (fun _ ↦ .completed hop rfl hl) k

/-- **Every committed call steps every row.** -/
theorem run_rowStep {s s' : JobStore} {op : JobOp} (h : op.run s = .ok s') (k : String) :
    RowStep op k (s.row k) (s'.row k) := by
  cases op with
  | schedule job hfree =>
    obtain ⟨⟨t, d⟩, hok, rfl⟩ := Except.map_eq_ok.1 h
    obtain rfl := scheduleRuntimeJob_ok hok
    exact rowStep_insertJob rfl hfree k
  | scheduleWorker job workspaceId hfree =>
    obtain ⟨⟨t, d⟩, hok, rfl⟩ := Except.map_eq_ok.1 h
    obtain rfl | ⟨workspace, tenants, -, -, rfl⟩ := scheduleWorkerJob_ok hok
    · exact rowStep_insertJob rfl hfree k
    · exact rowStep_insertJob rfl hfree k
  | claimDue req env =>
    obtain ⟨⟨t, jobs⟩, hok, rfl⟩ := Except.map_eq_ok.1 h
    exact (claimStep_claimDue hok k).rowStep rfl
  | claimWorker req limits env =>
    obtain ⟨⟨t, jobs⟩, hok, rfl⟩ := Except.map_eq_ok.1 h
    exact (claimStep_claimWorker hok k).rowStep rfl
  | start r =>
    obtain ⟨j, hl, hupd⟩ := updateJob_ok h
    exact hupd.rowStep (fun _ ↦ .started rfl rfl (Bool.and_eq_true_iff.1 hl).2) k
  | renew r =>
    obtain ⟨untilMs, j, hl, hupd⟩ := renewRuntimeJobLease_ok h
    exact hupd.rowStep (fun _ ↦ .renewed rfl rfl hl) k
  | yield r =>
    obtain ⟨rfl, -⟩ | ⟨j, hl, s₁, s₂, hupd, h₂, h₃⟩ := yieldRuntimeJob_ok h
    · exact .same _
    · obtain ⟨events, -, rfl⟩ := insertEvent_ok h₂
      obtain ⟨events', rfl⟩ := consumeWakes_ok h₃
      exact hupd.rowStep (fun _ ↦ .yielded rfl rfl hl) k
  | wake r =>
    obtain ⟨⟨t, d⟩, hok, rfl⟩ := Except.map_eq_ok.1 h
    obtain ⟨j, s₁, -, h₁, hupd⟩ := wakeRuntimeJob_ok hok
    obtain ⟨events, rfl⟩ := recordWake_ok h₁
    obtain ⟨hq, -, hupd⟩ | ⟨rfl, -⟩ := hupd
    · exact hupd.rowStep (fun _ ↦ .woken rfl rfl hq) k
    · exact .same _
  | complete r =>
    obtain ⟨s₁, h₁, h⟩ := Except.bind_eq_ok.1 h
    cases h
    exact rowStep_complete rfl h₁ k
  | fail r =>
    obtain ⟨outcome, hout, h⟩ := Except.bind_eq_ok.1 h
    exact rowStep_applyFailure rfl hout h k
  | cancel r =>
    obtain ⟨s₁, h₁, h⟩ := Except.bind_eq_ok.1 h
    obtain ⟨j, hc, hupd⟩ := updateJob_ok h₁
    cases h
    exact hupd.rowStep_announce (fun _ ↦ .cancelled rfl rfl hc) k
  | reclaim now =>
    cases h
    have hjob : (reclaimExpiredRuntimeJobLeases s now).1.job? k =
        (s.job? k).map fun j ↦ if leaseExpired now j then reclaimedJob now j else j :=
      Table.get?_update _ _ _ (reclaimedJob_jobId now) k
    have hout : (reclaimExpiredRuntimeJobLeases s now).1.terminalOutbox? k =
        s.terminalOutbox? k := rfl
    simp only [JobStore.row, hjob, hout]
    cases s.job? k with
    | none => exact .same _
    | some j =>
      by_cases he : leaseExpired now j
      · simp only [Option.map_some, he, if_true]
        exact .reclaimed rfl he
      · simp only [Option.map_some, he]
        exact .same _
  | externalComplete r =>
    obtain ⟨objects, links, s₃, h₃, rfl⟩ := externalComplete_ok h
    exact rowStep_complete rfl h₃ k
  | deadLetterFail r =>
    obtain ⟨⟨t, d⟩, hok, rfl⟩ := Except.map_eq_ok.1 h
    obtain ⟨outcome, hout, hfail⟩ := createDeadLetterAndFailJob_ok hok
    rw [← row_insertDeadLetter s r.deadLetter k]
    exact rowStep_applyFailure rfl hout hfail k

/-- **Every call steps every row.** -/
theorem exec_rowStep (s : JobStore) (op : JobOp) (k : String) :
    RowStep op k (s.row k) ((exec s op).row k) := by
  unfold exec
  split
  · rename_i s' h
    exact run_rowStep h k
  · exact .same _

/-! ### What a call leaves alone -/

/-- Which calls can change which of these tables. -/
structure Frame (op : JobOp) (s s' : JobStore) : Prop where
  deadLetters : (∀ r, op ≠ .deadLetterFail r) → s'.deadLetters = s.deadLetters
  runtimeEvents : (∀ r, op ≠ .yield r) → (∀ r, op ≠ .wake r) → s'.runtimeEvents = s.runtimeEvents
  executionJobTenants : (∀ job w hfree, op ≠ .scheduleWorker job w hfree) →
    s'.executionJobTenants = s.executionJobTenants

theorem SameTables.frame {s s' : JobStore} (h : SameTables s s') (op : JobOp) : Frame op s s' :=
  ⟨fun _ ↦ h.1, fun _ _ ↦ h.2, fun _ ↦ h.3⟩

/-- **Frame of a committed call.** -/
theorem run_frame {s s' : JobStore} {op : JobOp} (h : op.run s = .ok s') : Frame op s s' := by
  cases op with
  | schedule job hfree =>
    obtain ⟨⟨t, d⟩, hok, rfl⟩ := Except.map_eq_ok.1 h
    obtain rfl := scheduleRuntimeJob_ok hok
    exact (sameTables_insertJob s job).frame _
  | scheduleWorker job workspaceId hfree =>
    obtain ⟨⟨t, d⟩, hok, rfl⟩ := Except.map_eq_ok.1 h
    have hsame := sameTables_insertJob s job
    obtain rfl | ⟨workspace, tenants, -, -, rfl⟩ := scheduleWorkerJob_ok hok
    · exact hsame.frame _
    · exact ⟨fun _ ↦ hsame.1, fun _ _ ↦ hsame.2, fun hne ↦ absurd rfl (hne _ _ _)⟩
  | claimDue req env =>
    obtain ⟨⟨t, jobs⟩, hok, rfl⟩ := Except.map_eq_ok.1 h
    exact (sameTables_claimDue hok).frame _
  | claimWorker req limits env =>
    obtain ⟨⟨t, jobs⟩, hok, rfl⟩ := Except.map_eq_ok.1 h
    exact (sameTables_claimWorker hok).frame _
  | start r =>
    obtain ⟨j, -, hupd⟩ := updateJob_ok h
    exact hupd.sameTables.frame _
  | renew r =>
    obtain ⟨untilMs, j, -, hupd⟩ := renewRuntimeJobLease_ok h
    exact hupd.sameTables.frame _
  | yield r =>
    obtain ⟨rfl, -⟩ | ⟨j, -, s₁, s₂, hupd, h₂, h₃⟩ := yieldRuntimeJob_ok h
    · exact (SameTables.refl _).frame _
    · obtain ⟨events, -, rfl⟩ := insertEvent_ok h₂
      obtain ⟨events', rfl⟩ := consumeWakes_ok h₃
      exact ⟨fun _ ↦ hupd.sameTables.1, fun hne ↦ absurd rfl (hne r), fun _ ↦ hupd.sameTables.3⟩
  | wake r =>
    obtain ⟨⟨t, d⟩, hok, rfl⟩ := Except.map_eq_ok.1 h
    obtain ⟨j, s₁, -, h₁, hupd⟩ := wakeRuntimeJob_ok hok
    obtain ⟨events, rfl⟩ := recordWake_ok h₁
    refine ⟨fun _ ↦ ?_, fun _ hne ↦ absurd rfl (hne r), fun _ ↦ ?_⟩ <;>
      obtain ⟨-, -, hupd⟩ | ⟨rfl, -⟩ := hupd
    · exact hupd.sameTables.1
    · rfl
    · exact hupd.sameTables.3
    · rfl
  | complete r =>
    obtain ⟨s₁, h₁, h⟩ := Except.bind_eq_ok.1 h
    obtain ⟨j, -, hupd⟩ := updateJob_ok h₁
    cases h
    exact (hupd.sameTables.trans (sameTables_upsertJobOutbox _ _ _)).frame _
  | fail r =>
    obtain ⟨outcome, -, h⟩ := Except.bind_eq_ok.1 h
    exact (sameTables_applyFailure h).frame _
  | cancel r =>
    obtain ⟨s₁, h₁, h⟩ := Except.bind_eq_ok.1 h
    obtain ⟨j, -, hupd⟩ := updateJob_ok h₁
    cases h
    exact (hupd.sameTables.trans (sameTables_upsertJobOutbox _ _ _)).frame _
  | reclaim now =>
    cases h
    exact ⟨fun _ ↦ rfl, fun _ _ ↦ rfl, fun _ ↦ rfl⟩
  | externalComplete r =>
    obtain ⟨objects, links, s₃, h₃, rfl⟩ := externalComplete_ok h
    obtain ⟨j, -, hupd⟩ := updateJob_ok h₃
    have hsame := hupd.sameTables.trans (sameTables_upsertJobOutbox s₃ r.completeJob.jobId
      runtimeJobTerminalEvent)
    exact ⟨fun _ ↦ hsame.1, fun _ _ ↦ hsame.2, fun _ ↦ hsame.3⟩
  | deadLetterFail r =>
    obtain ⟨⟨t, d⟩, hok, rfl⟩ := Except.map_eq_ok.1 h
    obtain ⟨outcome, -, hfail⟩ := createDeadLetterAndFailJob_ok hok
    have hdead := sameTables_applyFailure hfail
    obtain ⟨hins, -⟩ | ⟨letters, hins, -⟩ := insertDeadLetter_spec s r.deadLetter <;>
      rw [hins] at hdead <;>
      exact ⟨fun hne ↦ absurd rfl (hne r), fun _ _ ↦ hdead.2, fun _ ↦ hdead.3⟩

end Centaeris.Jobs
