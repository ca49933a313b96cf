import Centaeris.Base.Except
import Centaeris.Jobs.ExecutionCapacity

/-!
# Inversion of the job-store transactions

For every transaction of the job store, what its success says: which row it found under which
guard, which row it left, and what became of the other tables. Later modules use these lemmas and
never unfold a transaction.

`UpdatesJob` is the common shape, "one row changed and nothing else"; `SameTables` collects the
tables besides `runtime_jobs` and the outbox that most transactions leave alone.
-/

namespace Centaeris.Jobs

open Machine

/-! ### Statements on one row -/

/-- The record of a newly scheduled job: queued and free. -/
structure Unclaimed (j : RuntimeJobRecord) : Prop where
  queued : j.status = .queued
  noOwner : j.leaseOwner = none

/-- `s'` is `s` with the row of `id` changed from `j` to `j'`. -/
structure UpdatesJob (s s' : JobStore) (id : String) (j j' : RuntimeJobRecord) : Prop where
  /-- The row before. -/
  before : s.job? id = some j
  /-- The rows after. -/
  after : ∀ k, s'.job? k = if k = id then some j' else s.job? k
  /-- The other tables. -/
  rest : s' = { s with runtimeJobs := s'.runtimeJobs }

theorem updateJob_ok {s s' : JobStore} {mismatch id : String} {guard : RuntimeJobRecord → Bool}
    {set : RuntimeJobRecord → RuntimeJobRecord} {hset : ∀ j, (set j).jobId = j.jobId}
    (h : updateJob s mismatch id guard set hset = .ok s') :
    ∃ j, guard j ∧ UpdatesJob s s' id j (set j) := by
  unfold updateJob at h
  split at h
  case isFalse => cases h
  case isTrue hany =>
    cases hj : s.job? id with
    | none => simp [hj] at hany
    | some j =>
      have hguard : guard j := by simpa [hj] using hany
      refine ⟨j, hguard, hj, fun k ↦ ?_, by cases h; rfl⟩
      cases h
      simp only [JobStore.job?, Table.get?_update] at hj ⊢
      by_cases hk : k = id
      · subst hk
        simp [hj, hguard, Table.key_of_get? hj]
      · cases hq : s.runtimeJobs.get? k with
        | none => simp [hk]
        | some q => simp [hk, Table.key_of_get? hq]

theorem renewRuntimeJobLease_ok {s s' : JobStore} {r : RenewRuntimeJobLeaseRequest}
    (h : renewRuntimeJobLease s r = .ok s') :
    ∃ untilMs j, holdsLease r.leaseOwner r.heartbeatAtMs j ∧
      UpdatesJob s s' r.jobId j (renewedJob r untilMs j) := by
  unfold renewRuntimeJobLease at h
  split at h
  · cases h
  · obtain ⟨j, hl, hupd⟩ := updateJob_ok h
    exact ⟨_, j, hl, hupd⟩

/-- What `insert_job` does: it inserts a row under a free id, or nothing happens. -/
theorem insertJob_spec (s : JobStore) (job : RuntimeJobRecord) :
    insertJob s job = (s, false) ∨
      ∃ jobs, insertJob s job = ({ s with runtimeJobs := jobs }, true) ∧
        s.runtimeJobs.insert? job = some jobs := by
  unfold insertJob
  split
  · exact .inl rfl
  · cases h : s.runtimeJobs.insert? job with
    | none => exact .inl rfl
    | some jobs => exact .inr ⟨jobs, rfl, rfl⟩

theorem rowJob_ok {j j' : RuntimeJobRecord} (h : rowJob j = .ok j') : j' = j := by
  unfold rowJob at h
  split at h
  · cases h
  · split at h
    · cases h
    · cases h
      rfl

theorem loadJob_ok {s : JobStore} {id : String} {j : RuntimeJobRecord}
    (h : loadJob s id = .ok (some j)) : s.job? id = some j := by
  unfold loadJob at h
  split at h
  · cases h
  · rename_i j' hj
    obtain ⟨j'', hrow, hsome⟩ := Except.map_eq_ok.1 h
    cases hsome
    rw [hj, rowJob_ok hrow]

/-! ### Tables that stay the same -/

/-- The tables besides `runtime_jobs` and the outbox that later modules reason about. -/
structure SameTables (s s' : JobStore) : Prop where
  deadLetters : s'.deadLetters = s.deadLetters
  runtimeEvents : s'.runtimeEvents = s.runtimeEvents
  executionJobTenants : s'.executionJobTenants = s.executionJobTenants

theorem SameTables.trans {s s' s'' : JobStore} (h : SameTables s s') (h' : SameTables s' s'') :
    SameTables s s'' :=
  ⟨h'.1.trans h.1, h'.2.trans h.2, h'.3.trans h.3⟩

theorem SameTables.refl (s : JobStore) : SameTables s s := ⟨rfl, rfl, rfl⟩

theorem UpdatesJob.sameTables {s s' : JobStore} {id : String} {j j' : RuntimeJobRecord}
    (h : UpdatesJob s s' id j j') : SameTables s s' := by
  rw [h.rest]
  exact ⟨rfl, rfl, rfl⟩

theorem sameTables_insertJob (s : JobStore) (job : RuntimeJobRecord) :
    SameTables s (insertJob s job).1 := by
  obtain h | ⟨jobs, h, -⟩ := insertJob_spec s job <;> rw [h] <;> exact ⟨rfl, rfl, rfl⟩

theorem sameTables_upsertJobOutbox (s : JobStore) (id eventType : String) :
    SameTables s (upsertJobOutbox s id eventType) := ⟨rfl, rfl, rfl⟩

theorem sameTables_applyFailure {s s' : JobStore} {mismatch : String} {r : FailRuntimeJobRequest}
    {outcome : RuntimeJobStatus × Int} (h : applyFailure s mismatch r outcome = .ok s') :
    SameTables s s' := by
  obtain ⟨s₁, h₁, h₂⟩ := Except.bind_eq_ok.1 h
  obtain ⟨j, -, hupd⟩ := updateJob_ok h₁
  split at h₂
  · cases h₂
    exact hupd.sameTables
  · cases h₂
    exact hupd.sameTables.trans (sameTables_upsertJobOutbox _ _ _)

/-- A failure is applied to a row whose lease the caller holds, and to no other row. -/
theorem applyFailure_ok {s s' : JobStore} {mismatch : String} {r : FailRuntimeJobRequest}
    {outcome : RuntimeJobStatus × Int} (h : applyFailure s mismatch r outcome = .ok s') :
    ∃ j, holdsLease r.leaseOwner r.failedAtMs j ∧ s.job? r.jobId = some j ∧
      ∀ k, s'.job? k = if k = r.jobId then some (failedJob r outcome j) else s.job? k := by
  obtain ⟨s₁, h₁, h₂⟩ := Except.bind_eq_ok.1 h
  obtain ⟨j, hl, hupd⟩ := updateJob_ok h₁
  refine ⟨j, hl, hupd.before, ?_⟩
  split at h₂
  · cases h₂
    exact hupd.after
  · cases h₂
    exact hupd.after

/-! ### Events -/

theorem insertEvent_ok {s s' : JobStore} {label : String} {e : RuntimeEvent}
    (h : insertEvent s label e = .ok s') :
    ∃ events, s.runtimeEvents.insert? e = some events ∧ s' = { s with runtimeEvents := events } := by
  unfold insertEvent at h
  split at h
  · cases h
  · rename_i events hins
    exact ⟨events, hins, by cases h; rfl⟩

/-- Inserting events changes no other table. -/
theorem consumeWakes_ok {s s' : JobStore} {session : String} {r : YieldRuntimeJobRequest}
    {wakeIds : List String} (h : consumeWakes session r s wakeIds = .ok s') :
    ∃ events, s' = { s with runtimeEvents := events } :=
  Except.foldlM_invariant (I := fun t : JobStore ↦ ∃ events, t = { s with runtimeEvents := events })
    (fun _ _ _ _ ⟨_, hi⟩ hins ↦ by
      obtain ⟨events, -, rfl⟩ := insertEvent_ok hins
      exact ⟨events, by rw [hi]⟩) ⟨_, rfl⟩ h

theorem recordWake_ok {s s' : JobStore} {r : WakeRuntimeJobRequest} {j : RuntimeJobRecord}
    (h : recordWake s r j = .ok s') : ∃ events, s' = { s with runtimeEvents := events } := by
  unfold recordWake at h
  split at h
  · split at h
    · cases h
    · cases h
      exact ⟨_, rfl⟩
  · obtain ⟨events, -, rfl⟩ := insertEvent_ok h
    exact ⟨events, rfl⟩

/-! ### Yielding and waking -/

/-- A yield that takes effect, statement by statement. -/
structure YieldEffect (s s' : JobStore) (r : YieldRuntimeJobRequest) (j : RuntimeJobRecord) :
    Prop where
  /-- The caller holds the lease. -/
  holds : holdsLease r.leaseOwner r.yieldedAtMs j
  /-- The row is queued, the yield recorded, and every pending wake consumed. -/
  steps : ∃ s₁ s₂, UpdatesJob s s₁ r.jobId j (yieldedJob (yieldRunAt s r) r.yieldedAtMs j) ∧
    insertEvent s₁ "append Postgres runtime job yield event" (yieldEvent r j) = .ok s₂ ∧
    consumeWakes (eventSession j) r s₂ ((pendingWakes s r.jobId).map (·.eventId)) = .ok s'

/-- A yield that returns `Ok` repeats an earlier one, or takes effect. -/
theorem yieldRuntimeJob_ok {s s' : JobStore} {r : YieldRuntimeJobRequest}
    (h : yieldRuntimeJob s r = .ok s') :
    (s' = s ∧ ∃ j, s.job? r.jobId = some j ∧ Unclaimed j) ∨ ∃ j, YieldEffect s s' r j := by
  unfold yieldRuntimeJob at h
  split at h
  · cases h
  cases hj : s.job? r.jobId with
  | none => simp [hj] at h
  | some j =>
    simp only [hj] at h
    split at h
    · rename_i hfree
      refine .inl ⟨?_, j, rfl, hfree.1, hfree.2⟩
      unfold repeatedYield at h
      split at h
      · cases h
      · split at h
        · cases h; rfl
        · cases h
      · cases h
    · split at h
      · cases h
      · rename_i hl
        obtain ⟨s₁, h₁, h⟩ := Except.bind_eq_ok.1 h
        obtain ⟨s₂, h₂, h₃⟩ := Except.bind_eq_ok.1 h
        obtain ⟨j', hl', hupd⟩ := updateJob_ok h₁
        obtain rfl : j' = j := Option.some.inj (hupd.before.symm.trans hj)
        exact .inr ⟨j', hl', s₁, s₂, hupd, h₂, h₃⟩

/-- A wake that returns `Ok` records its event, then makes a job that is queued for later
runnable. -/
theorem wakeRuntimeJob_ok {s s' : JobStore} {r : WakeRuntimeJobRequest}
    {d : WakeRuntimeJobDisposition} (h : wakeRuntimeJob s r = .ok (s', d)) :
    ∃ j s₁, s.job? r.jobId = some j ∧ recordWake s r j = .ok s₁ ∧
      ((j.status = .queued ∧ r.wokenAtMs < j.runAtMs ∧ UpdatesJob s₁ s' r.jobId j (wokenJob r j)) ∨
        (s' = s₁ ∧ (j.status = .queued → j.runAtMs ≤ r.wokenAtMs))) := by
  unfold wakeRuntimeJob at h
  split at h
  · cases h
  cases hj : s.job? r.jobId with
  | none => simp [hj] at h
  | some j =>
    simp only [hj] at h
    obtain ⟨s₁, h₁, h⟩ := Except.bind_eq_ok.1 h
    refine ⟨j, s₁, rfl, h₁, ?_⟩
    have hrow : s₁.job? r.jobId = some j := by
      obtain ⟨events, rfl⟩ := recordWake_ok h₁
      exact hj
    cases hst : j.status with
    | queued =>
      simp only [hst] at h
      by_cases hlt : r.wokenAtMs < j.runAtMs
      · simp only [hlt, if_true] at h
        obtain ⟨s₂, h₂, h₃⟩ := Except.bind_eq_ok.1 h
        obtain ⟨j', -, hupd⟩ := updateJob_ok h₂
        obtain rfl : j' = j := Option.some.inj (hupd.before.symm.trans hrow)
        cases h₃
        exact .inl ⟨rfl, hlt, hupd⟩
      · simp only [hlt, if_false] at h
        cases h
        exact .inr ⟨rfl, fun _ ↦ not_lt.1 hlt⟩
    | leased | running | succeeded | failed | deadLettered | cancelled =>
      simp only [hst] at h
      cases h
      exact .inr ⟨rfl, fun hq ↦ by cases hq⟩

/-! ### Claims -/

theorem job?_claimRows (s : JobStore) (env : ClaimEnv) (untilMs now : Int) (ids : List String)
    (k : String) :
    (claimRows s env untilMs now ids).job? k = (s.job? k).map fun j ↦
      if k ∈ ids ∧ j.status = .queued then claimedJob env untilMs now j else j := by
  rw [JobStore.job?, claimRows, Table.get?_update, ← JobStore.job?]
  cases hj : s.job? k with
  | none => rfl
  | some j => simp [Table.key_of_get? hj]

/-- A claim of due jobs leases the selected rows. -/
theorem claimDueRuntimeJobs_ok {s s' : JobStore} {req : ClaimDueRuntimeJobsRequest}
    {env : ClaimEnv} {jobs : List RuntimeJobRecord}
    (h : claimDueRuntimeJobs s req env = .ok (s', jobs)) :
    ∃ untilMs ids, s' = claimRows s env untilMs req.nowMs ids ∧
      ∀ j ∈ s.runtimeJobs.rows, j.jobId ∈ ids → isDue req j := by
  unfold claimDueRuntimeJobs at h
  split at h
  · cases h
  · cases h
  · obtain ⟨_, -, h⟩ := Except.bind_eq_ok.1 h
    cases h
    refine ⟨_, _, rfl, fun j hj hid ↦ ?_⟩
    obtain ⟨j', hj', hid'⟩ := List.mem_map.1 hid
    have hdue := List.mem_filter.1 ((List.mem_insertionSort _).1 (List.mem_of_mem_take hj'))
    have heq : j' = j :=
      List.inj_on_of_nodup_map s.runtimeJobs.nodup_keys hdue.1 hj hid'
    exact heq ▸ (Bool.and_eq_true_iff.1 hdue.2).1

/-- One iteration of the capacity-bound claim skips its candidate or leases it. -/
theorem claimCandidate_ok {limits : ExecutionCapacity} {env : ClaimEnv} {untilMs now : Int}
    {st st' : ClaimLoop} {c : String × String}
    (h : claimCandidate limits env untilMs now st c = .ok st') :
    (limits.tenant ≤ st.tenants c.2 ∧ st' = st) ∨
      (st.tenants c.2 < limits.tenant ∧ st'.store = claimRows st.store env untilMs now [c.1] ∧
        st'.tenants = Function.update st.tenants c.2 (st.tenants c.2 + 1)) := by
  unfold claimCandidate at h
  split at h
  · rename_i hfull
    exact .inl ⟨hfull, by cases h; rfl⟩
  · rename_i hfree
    simp only at h
    split at h
    · cases h
    · cases h
    · cases h
      exact .inr ⟨not_le.1 hfree, rfl, rfl⟩

/-- A capacity-bound claim is a plain claim for another job kind, does nothing, or loops over its
candidates. -/
theorem claimWorkerJobs_ok {s s' : JobStore} {req : ClaimDueRuntimeJobsRequest}
    {limits : ExecutionCapacity} {env : ExecutionClaimEnv} {jobs : List RuntimeJobRecord}
    (h : claimWorkerJobs s req limits env = .ok (s', jobs)) :
    (req.jobKind ≠ some agentRunLifecycleJobKind ∧
      claimDueRuntimeJobs s req env.toClaimEnv = .ok (s', jobs)) ∨
    s' = s ∨
    ∃ untilMs st, s' = st.store ∧
      (executionCandidates s req limits (tenantUsage s) env.now env.locked).foldlM
        (claimCandidate limits env.toClaimEnv untilMs env.now)
        ⟨s, (tenantUsage s).tenants, []⟩ = .ok st := by
  unfold claimWorkerJobs at h
  split at h
  · rename_i hkind
    exact .inl ⟨hkind, h⟩
  split at h
  · cases h
  simp only at h
  split at h
  · cases h
    exact .inr (.inl rfl)
  split at h
  · cases h
  · obtain ⟨st, hloop, h⟩ := Except.bind_eq_ok.1 h
    cases h
    exact .inr (.inr ⟨_, st, rfl, hloop⟩)

theorem sameTables_claimDue {s s' : JobStore} {req : ClaimDueRuntimeJobsRequest} {env : ClaimEnv}
    {jobs : List RuntimeJobRecord} (h : claimDueRuntimeJobs s req env = .ok (s', jobs)) :
    SameTables s s' := by
  obtain ⟨untilMs, ids, rfl, -⟩ := claimDueRuntimeJobs_ok h
  exact ⟨rfl, rfl, rfl⟩

theorem sameTables_claimCandidate {limits : ExecutionCapacity} {env : ClaimEnv}
    {untilMs now : Int} {st st' : ClaimLoop} {c : String × String}
    (h : claimCandidate limits env untilMs now st c = .ok st') :
    SameTables st.store st'.store := by
  obtain ⟨-, rfl⟩ | ⟨-, hst, -⟩ := claimCandidate_ok h
  · exact .refl _
  · rw [hst]
    exact ⟨rfl, rfl, rfl⟩

theorem sameTables_claimWorker {s s' : JobStore} {req : ClaimDueRuntimeJobsRequest}
    {limits : ExecutionCapacity} {env : ExecutionClaimEnv} {jobs : List RuntimeJobRecord}
    (h : claimWorkerJobs s req limits env = .ok (s', jobs)) : SameTables s s' := by
  obtain ⟨-, h⟩ | rfl | ⟨untilMs, st, rfl, hloop⟩ := claimWorkerJobs_ok h
  · exact sameTables_claimDue h
  · exact .refl _
  · exact Except.foldlM_invariant (I := fun st : ClaimLoop ↦ SameTables s st.store)
      (fun _ _ _ _ hi hc ↦ hi.trans (sameTables_claimCandidate hc)) (.refl _) hloop

/-! ### Scheduling -/

theorem scheduleRuntimeJob_ok {s s' : JobStore} {job : RuntimeJobRecord}
    {d : ScheduleRuntimeJobDisposition × RuntimeJobRecord}
    (h : scheduleRuntimeJob s job = .ok (s', d)) : s' = (insertJob s job).1 := by
  unfold scheduleRuntimeJob at h
  simp only at h
  split at h
  · cases h; rfl
  · obtain ⟨existing, -, h⟩ := Except.bind_eq_ok.1 h
    cases existing with
    | none => cases h
    | some _ => cases h; rfl

/-- A job of another kind is scheduled without a workspace; a lifecycle job is inserted together
with its binding, or was there with the same binding. -/
theorem scheduleWorkerJob_ok {s s' : JobStore} {job : RuntimeJobRecord}
    {workspaceId : Option String} {d : ScheduleRuntimeJobDisposition × RuntimeJobRecord}
    (h : scheduleWorkerJob s job workspaceId = .ok (s', d)) :
    s' = (insertJob s job).1 ∨
    ∃ workspace tenants, (insertJob s job).2 = true ∧
      s.executionJobTenants.insert? ⟨job.jobId, workspace⟩ = some tenants ∧
      s' = { (insertJob s job).1 with executionJobTenants := tenants } := by
  unfold scheduleWorkerJob at h
  split at h
  · split at h
    · cases h
    · exact .inl (scheduleRuntimeJob_ok h)
  split at h
  · cases h
  rename_i workspace _
  simp only at h
  obtain ⟨stored, -, h⟩ := Except.bind_eq_ok.1 h
  cases stored with
  | none => cases h
  | some stored =>
    simp only at h
    split at h
    · cases h
    rename_i hident
    split at h
    · rename_i hins
      split at h
      · cases h
      · rename_i tenants htenants
        cases h
        refine .inr ⟨workspace, tenants, hins, ?_, rfl⟩
        rw [(sameTables_insertJob s job).3] at htenants
        simp only [not_or, not_not] at hident
        rwa [hident.1] at htenants
    · split at h
      · cases h
      · split at h
        · cases h
        · cases h
          exact .inl rfl

/-! ### Compound transactions -/

theorem externalComplete_ok {s s' : JobStore}
    {r : UpsertExternalContextLinkAndCompleteJobRequest}
    (h : upsertExternalContextLinkAndCompleteJob s r = .ok s') :
    ∃ objects links s₃, updateJob
        { s with externalContextObjects := objects, externalContextLinks := links }
        "complete external job state mismatch" r.completeJob.jobId
        (holdsLease r.completeJob.leaseOwner r.completeJob.completedAtMs)
        (completedJob r.completeJob) (completedJob_jobId _) = .ok s₃ ∧
      s' = upsertJobOutbox s₃ r.completeJob.jobId runtimeJobTerminalEvent := by
  obtain ⟨s₂, h₂, h⟩ := Except.bind_eq_ok.1 h
  obtain ⟨s₃, h₃, h⟩ := Except.bind_eq_ok.1 h
  cases h
  have hobj : ∃ objects, r.object.elim s (upsertObject s) =
      { s with externalContextObjects := objects } := by
    cases r.object with
    | none => exact ⟨_, rfl⟩
    | some object => exact ⟨_, rfl⟩
  obtain ⟨objects, hobj⟩ := hobj
  have hlink : ∃ links, s₂ =
      { s with externalContextObjects := objects, externalContextLinks := links } := by
    rw [hobj] at h₂
    cases hl : r.link with
    | none => rw [hl] at h₂; cases h₂; exact ⟨_, rfl⟩
    | some link =>
      rw [hl] at h₂
      simp only [Option.elim_some] at h₂
      unfold linkObject at h₂
      split at h₂
      · cases h₂
      · split at h₂
        · cases h₂
        · cases h₂
          exact ⟨_, rfl⟩
  obtain ⟨links, rfl⟩ := hlink
  exact ⟨objects, links, s₃, h₃, rfl⟩

/-- What `insert_dead_letter` does. -/
theorem insertDeadLetter_spec (s : JobStore) (d : DeadLetterRecord) :
    (insertDeadLetter s d = (s, false) ∧
      ((s.deadLetters.get? d.deadLetterId).isSome ∨
        ∃ x ∈ s.deadLetters.rows, x.originalJobId = d.originalJobId)) ∨
      ∃ letters, insertDeadLetter s d = ({ s with deadLetters := letters }, true) ∧
        s.deadLetters.insert? d = some letters := by
  unfold insertDeadLetter
  split
  · rename_i hany
    exact .inl ⟨rfl, .inr (by simpa using hany)⟩
  · cases h : s.deadLetters.insert? d with
    | none => exact .inl ⟨rfl, .inl (Table.insert?_eq_none_iff.1 h)⟩
    | some letters => exact .inr ⟨letters, rfl, rfl⟩

theorem createDeadLetterAndFailJob_ok {s s' : JobStore} {r : CreateDeadLetterAndFailJobRequest}
    {d : DeadLetterRecord} (h : createDeadLetterAndFailJob s r = .ok (s', d)) :
    ∃ outcome, r.failJob.outcome "retry requires next run" = .ok outcome ∧
      applyFailure (insertDeadLetter s r.deadLetter).1
        "fail job in DLQ transaction state mismatch" r.failJob outcome = .ok s' := by
  obtain ⟨_, -, h⟩ := Except.bind_eq_ok.1 h
  obtain ⟨outcome, hout, h⟩ := Except.bind_eq_ok.1 h
  obtain ⟨s₂, h₂, h⟩ := Except.bind_eq_ok.1 h
  cases h
  exact ⟨outcome, hout, h₂⟩

end Centaeris.Jobs
