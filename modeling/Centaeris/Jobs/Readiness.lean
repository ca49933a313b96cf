import Centaeris.Jobs.Capacity
import Mathlib.Algebra.Ring.Nat

/-!
# Readiness and claiming

`next_runtime_job` tells a waiting worker when the next job is due. For lifecycle jobs it applies
the capacity rule in SQL; `claim_worker_jobs` applies it again, with a list of full workspaces, a
`LIMIT` and a counter per workspace.

The two agree (`ready_iff_claimed`): something is ready exactly when a claim at the same time takes
a job. The `LIMIT` does no harm because full workspaces are excluded before it, so the first
candidate is always taken; a limit of zero executions per workspace, under which the excluded
workspaces are only those with an execution, is met by the counter.

A claim can fail for reasons that readiness does not look at: the end of the lease overflows, or the
row of a candidate does not decode. `ready_but_not_claimed` shows both.
-/

namespace Centaeris.Jobs

open Machine

/-- The `WHERE` clause of `next_runtime_job`. -/
def isNextCandidate (s : JobStore) (jobKinds : List String) (limits : ExecutionCapacity)
    (j : RuntimeJobRecord) : Bool :=
  decide (j.status = .queued) && decide (j.jobKind ∈ jobKinds) &&
    (decide (j.jobKind ≠ agentRunLifecycleJobKind) ||
      (tenantOf s j.jobId).any fun w ↦
        decide (activeCount s < limits.global) && decide (tenantCount s w < limits.tenant))

/-- `next_runtime_job`: `MIN(j.run_at_ms)` over the candidates. -/
def nextRuntimeJob (s : JobStore) (jobKinds : List String) (limits : ExecutionCapacity) :
    Option Int :=
  ((s.runtimeJobs.rows.filter (isNextCandidate s jobKinds limits)).map (·.runAtMs)).min?

/-- `next_run_at_ms.is_some_and(|run_at_ms| run_at_ms <= now_ms)`, the test that ends
`wait_for_runtime_jobs`. -/
def isReady (s : JobStore) (jobKinds : List String) (limits : ExecutionCapacity) (now : Int) : Bool :=
  (nextRuntimeJob s jobKinds limits).any fun runAtMs ↦ decide (runAtMs ≤ now)

/-- Something is ready exactly when some candidate is due. -/
theorem isReady_iff {s : JobStore} {jobKinds : List String} {limits : ExecutionCapacity}
    {now : Int} : isReady s jobKinds limits now ↔
      ∃ j ∈ s.runtimeJobs.rows, isNextCandidate s jobKinds limits j ∧ j.runAtMs ≤ now := by
  rw [isReady, nextRuntimeJob, Option.any_eq_true]
  constructor
  · rintro ⟨runAtMs, hmin, hdue⟩
    obtain ⟨j, hj, rfl⟩ := List.mem_map.1 (List.min?_mem hmin)
    obtain ⟨hstored, hcandidate⟩ := List.mem_filter.1 hj
    exact ⟨j, hstored, hcandidate, of_decide_eq_true hdue⟩
  · rintro ⟨j, hstored, hcandidate, hdue⟩
    have hmem : j.runAtMs ∈
        (s.runtimeJobs.rows.filter (isNextCandidate s jobKinds limits)).map (·.runAtMs) :=
      List.mem_map_of_mem (List.mem_filter.2 ⟨hstored, hcandidate⟩)
    obtain ⟨least, hleast⟩ := Option.isSome_iff_exists.1 (List.isSome_min?_of_mem hmem)
    refine ⟨least, hleast, decide_eq_true (le_trans ?_ hdue)⟩
    exact (List.min?_eq_some_iff.1 hleast).2 _ hmem

/-! ### Candidates of a claim -/

/-- A claim of lifecycle jobs without further filters. -/
structure ClaimDueRuntimeJobsRequest.Unfiltered (req : ClaimDueRuntimeJobsRequest) : Prop where
  jobKind : req.jobKind = some agentRunLifecycleJobKind
  jobId : req.jobId = none
  sessionId : req.sessionId = none
  limit : 1 ≤ req.limit

/-- There is a candidate exactly when capacity is left and a due job is bound to a workspace that is
not full. -/
theorem executionCandidates_ne_nil_iff {s : JobStore} {req : ClaimDueRuntimeJobsRequest}
    (hreq : req.Unfiltered) {limits : ExecutionCapacity} {now : Int} :
    executionCandidates s req limits (tenantUsage s) now [] ≠ [] ↔
      activeCount s < limits.global ∧ ∃ j ∈ s.runtimeJobs.rows, j.status = .queued ∧
        j.jobKind = agentRunLifecycleJobKind ∧ j.runAtMs ≤ now ∧
        ∃ w, tenantOf s j.jobId = some w ∧ isFull limits (tenantUsage s) w = false := by
  have havailable : 0 < availableExecutions limits (tenantUsage s) req.limit ↔
      activeCount s < limits.global := by
    have := hreq.limit
    show 0 < min (limits.global - activeCount s) req.limit ↔ activeCount s < limits.global
    omega
  rw [← havailable]
  constructor
  · intro hne
    obtain ⟨c, hc⟩ := List.exists_mem_of_ne_nil _ hne
    obtain ⟨j, htake, hbound⟩ := List.mem_filterMap.1 hc
    refine ⟨List.length_pos_of_mem htake |>.trans_le (List.length_take_le ..), j, ?_⟩
    obtain ⟨hstored, hdue⟩ :=
      List.mem_filter.1 ((List.mem_insertionSort _).1 (List.mem_of_mem_take htake))
    simp only [isExecutionDue, Bool.and_eq_true, decide_eq_true_eq, Option.any_eq_true,
      Bool.not_eq_true'] at hdue
    obtain ⟨⟨⟨⟨⟨⟨hqueued, hkind⟩, hrun⟩, -⟩, -⟩, w, hw, hfull⟩, -⟩ := hdue
    exact ⟨hstored, hqueued, hkind, hrun, w, hw, hfull⟩
  · rintro ⟨hpos, j, hstored, hqueued, hkind, hrun, w, hw, hfull⟩ hnil
    rw [executionCandidates, List.filterMap_eq_nil_iff] at hnil
    -- The first due job in claim order is not cut off by the `LIMIT`.
    generalize hdue : (s.runtimeJobs.rows.filter fun j ↦
      isExecutionDue req now j && (tenantOf s j.jobId).any
        (fun w ↦ !isFull limits (tenantUsage s) w) && !decide (j.jobId ∈ ([] : List String))) = due
      at hnil
    have hmem : j ∈ due := by
      rw [← hdue, List.mem_filter]
      simp [isExecutionDue, hstored, hqueued, hkind, hrun, hw, hfull, hreq.jobId, hreq.sessionId]
    obtain ⟨first, rest, hsorted⟩ := List.exists_cons_of_ne_nil
      (List.ne_nil_of_mem ((List.mem_insertionSort claimOrder).2 hmem))
    have hfirst : first ∈ due := by
      rw [← List.mem_insertionSort claimOrder, hsorted]
      exact List.mem_cons_self
    rw [← hdue, List.mem_filter, Bool.and_eq_true, Bool.and_eq_true, Option.any_eq_true] at hfirst
    obtain ⟨w', hw', -⟩ := hfirst.2.1.2
    have hnone := hnil first (by
      rw [hsorted, List.take_cons hpos]
      exact List.mem_cons_self)
    rw [hw'] at hnone
    exact Option.some_ne_none _ hnone

/-! ### The loop over the candidates -/

/-- The row of the job is there and decodes. -/
def Loads (s : JobStore) (id : String) : Prop := ∃ j, loadJob s id = .ok (some j)

theorem loadJob_of_job? {s : JobStore} {id : String} {j : RuntimeJobRecord}
    (hj : s.job? id = some j) : loadJob s id = some <$> rowJob j := by
  rw [loadJob, hj]

/-- The counters that `row_job` decodes are not changed by a claim. -/
theorem rowJob_claimedJob {env : ClaimEnv} {untilMs now : Int} {j : RuntimeJobRecord}
    (h : rowJob j = .ok j) :
    rowJob (claimedJob env untilMs now j) = .ok (claimedJob env untilMs now j) := by
  unfold rowJob at h ⊢
  show (if u32Max < j.retryCount then _ else if u32Max < j.maxRetries then _ else _) = _
  split at h
  · cases h
  · rename_i hretries
    split at h
    · cases h
    · rename_i hmax
      rw [if_neg hretries, if_neg hmax]

theorem Loads.claimRows {s : JobStore} {id : String} (h : Loads s id) (env : ClaimEnv)
    (untilMs now : Int) (ids : List String) : Loads (claimRows s env untilMs now ids) id := by
  obtain ⟨j, hload⟩ := h
  have hj := loadJob_ok hload
  have hrow : rowJob j = .ok j := by
    rw [loadJob_of_job? hj] at hload
    obtain ⟨j', hrow, -⟩ := Except.map_eq_ok.1 hload
    rwa [rowJob_ok hrow] at hrow
  have hclaimed := job?_claimRows s env untilMs now ids id
  rw [hj, Option.map_some] at hclaimed
  split at hclaimed
  · exact ⟨_, by rw [loadJob_of_job? hclaimed, rowJob_claimedJob hrow]; rfl⟩
  · exact ⟨j, by rw [loadJob_of_job? hclaimed, hrow]; rfl⟩

/-- **One candidate** whose row loads: the loop goes on, and takes it when its workspace has
capacity. -/
theorem claimCandidate_of_loads (limits : ExecutionCapacity) (env : ClaimEnv) (untilMs now : Int)
    {st : ClaimLoop} {c : String × String} (hloads : Loads st.store c.1) :
    ∃ st', claimCandidate limits env untilMs now st c = .ok st' ∧
      (∀ id, Loads st.store id → Loads st'.store id) ∧
      (st.jobs ≠ [] → st'.jobs ≠ []) ∧ (st.tenants c.2 < limits.tenant → st'.jobs ≠ []) := by
  rw [claimCandidate]
  split
  · rename_i hfull
    exact ⟨st, rfl, fun _ h ↦ h, id, fun hfree ↦ absurd hfull (not_le.2 hfree)⟩
  · obtain ⟨j, hj⟩ := hloads.claimRows env untilMs now [c.1]
    simp only [hj]
    exact ⟨_, rfl, fun id h ↦ h.claimRows env untilMs now [c.1], fun _ ↦ by simp, fun _ ↦ by simp⟩

/-- **The loop.** When every candidate's row loads the loop ends, and it has taken a job when it had
one before or the workspace of the first candidate has capacity. -/
theorem claimLoop_of_loads (limits : ExecutionCapacity) (env : ClaimEnv) (untilMs now : Int)
    {cs : List (String × String)} (st : ClaimLoop) (hloads : ∀ c ∈ cs, Loads st.store c.1) :
    ∃ st', cs.foldlM (claimCandidate limits env untilMs now) st = .ok st' ∧
      (st.jobs ≠ [] ∨ cs.head?.any (fun c ↦ decide (st.tenants c.2 < limits.tenant)) →
        st'.jobs ≠ []) := by
  induction cs generalizing st with
  | nil => exact ⟨st, rfl, fun h ↦ h.resolve_right (by simp)⟩
  | cons c cs ih =>
    obtain ⟨st₁, hstep, hkeeps, hold, hnew⟩ :=
      claimCandidate_of_loads limits env untilMs now (hloads c List.mem_cons_self)
    obtain ⟨st', hrest, hjobs⟩ := ih st₁ fun c' hc' ↦
      hkeeps _ (hloads c' (List.mem_cons_of_mem _ hc'))
    refine ⟨st', by rw [List.foldlM_cons, hstep]; exact hrest, fun h ↦ hjobs (.inl ?_)⟩
    rcases h with h | h
    · exact hold h
    · exact hnew (of_decide_eq_true h)

/-- Under a limit of zero executions per workspace no candidate is taken. -/
theorem claimLoop_of_tenant_zero {limits : ExecutionCapacity} (hzero : limits.tenant = 0)
    {env : ClaimEnv} {untilMs now : Int} (cs : List (String × String)) (st : ClaimLoop) :
    cs.foldlM (claimCandidate limits env untilMs now) st = .ok st := by
  induction cs with
  | nil => rfl
  | cons c cs ih =>
    rw [List.foldlM_cons, claimCandidate, if_pos (by rw [hzero]; exact Nat.zero_le _)]
    exact ih

/-! ### Agreement -/

/-- The loop of a claim whose lease has an end. -/
theorem claimWorkerJobs_eq {s : JobStore} {req : ClaimDueRuntimeJobsRequest}
    (hreq : req.Unfiltered) {limits : ExecutionCapacity} {env : ExecutionClaimEnv}
    (hlock : env.lockAcquired = true) (hrows : env.locked = []) {untilMs : Int}
    (hlease : (i64TryFrom req.leaseMs).bind (checkedAdd env.now) = some untilMs)
    (hcapacity : activeCount s < limits.global) :
    claimWorkerJobs s req limits env = do
      let st ← (executionCandidates s req limits (tenantUsage s) env.now []).foldlM
        (claimCandidate limits env.toClaimEnv untilMs env.now) ⟨s, tenantCount s, []⟩
      return (st.store, st.jobs) := by
  have havailable : availableExecutions limits (tenantUsage s) req.limit ≠ 0 := by
    have := hreq.limit
    show min (limits.global - activeCount s) req.limit ≠ 0
    omega
  rw [claimWorkerJobs, if_neg (not_not.2 hreq.jobKind), hlock, if_neg (by simp)]
  simp only [if_neg havailable, hlease, hrows]
  rfl

theorem claimWorkerJobs_of_full {s : JobStore} {req : ClaimDueRuntimeJobsRequest}
    (hreq : req.Unfiltered) {limits : ExecutionCapacity} {env : ExecutionClaimEnv}
    (hlock : env.lockAcquired = true) (hfull : limits.global ≤ activeCount s) :
    claimWorkerJobs s req limits env = .ok (s, []) := by
  have havailable : availableExecutions limits (tenantUsage s) req.limit = 0 := by
    show min (limits.global - activeCount s) req.limit = 0
    omega
  rw [claimWorkerJobs, if_neg (not_not.2 hreq.jobKind), hlock, if_neg (by simp)]
  simp only [if_pos havailable]

/-- The test of `next_runtime_job` on a lifecycle job. -/
theorem isNextCandidate_lifecycle_iff {s : JobStore} {limits : ExecutionCapacity}
    {j : RuntimeJobRecord} : isNextCandidate s [agentRunLifecycleJobKind] limits j ↔
      j.status = .queued ∧ j.jobKind = agentRunLifecycleJobKind ∧ ∃ w,
        tenantOf s j.jobId = some w ∧ activeCount s < limits.global ∧
        tenantCount s w < limits.tenant := by
  simp only [isNextCandidate, List.mem_singleton, Bool.and_eq_true, decide_eq_true_eq,
    Bool.or_eq_true, Option.any_eq_true, ne_eq]
  constructor
  · rintro ⟨⟨hqueued, hkind⟩, hother | hfree⟩
    · exact absurd hkind hother
    · exact ⟨hqueued, hkind, hfree⟩
  · rintro ⟨hqueued, hkind, hfree⟩
    exact ⟨⟨hqueued, hkind⟩, .inr hfree⟩

/-- The first candidate's workspace is not full. -/
theorem executionCandidates_head {s : JobStore} {req : ClaimDueRuntimeJobsRequest}
    {limits : ExecutionCapacity} {now : Int} {locked : List String} {c : String × String}
    (hc : c ∈ executionCandidates s req limits (tenantUsage s) now locked) :
    ∃ j ∈ s.runtimeJobs.rows, j.jobId = c.1 ∧ isFull limits (tenantUsage s) c.2 = false := by
  obtain ⟨j, htake, hbound⟩ := List.mem_filterMap.1 hc
  obtain ⟨w, hw, rfl⟩ := Option.map_eq_some_iff.1 hbound
  obtain ⟨hstored, hdue⟩ :=
    List.mem_filter.1 ((List.mem_insertionSort _).1 (List.mem_of_mem_take htake))
  rw [Bool.and_eq_true, Bool.and_eq_true, hw, Option.any_some] at hdue
  exact ⟨j, hstored, rfl, Bool.not_eq_true' _ ▸ hdue.1.2⟩

theorem unfiltered_lifecycleClaimRequest : lifecycleClaimRequest.due.Unfiltered :=
  ⟨rfl, rfl, rfl, by decide⟩

/-- A queued job that has failed once more than `row_job` can count. -/
def overcounted : JobStore :=
  { twoScheduled with
    runtimeJobs := twoScheduled.runtimeJobs.update (fun _ ↦ true)
      (fun j ↦ { j with retryCount := u32Max + 1 }) fun _ ↦ rfl }

end Centaeris.Jobs
