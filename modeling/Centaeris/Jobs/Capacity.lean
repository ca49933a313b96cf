import Centaeris.Jobs.Lease
import Centaeris.Jobs.Protocol

/-!
# The execution capacity bound

A claim of lifecycle jobs counts the active executions, selects candidates and leases them one by
one, in one transaction but in separate statements; every other transaction may commit in between.
Two things keep the count that was read sound until the commit: the advisory lock excludes a second
such claim on every replica, and no call outside the lock makes a lifecycle job active.

`CapacityStep` interleaves the statements of the claim with whole calls of the store. The
transaction's own updates are kept aside until it commits (`LifecycleClaim.claiming`), as no other
transaction sees them. `capacity_bound` is the result, for any limits and any number of clients.
-/

namespace Centaeris.Jobs

open Machine

/-! ### Calls outside the lock -/

/-- A claim of any kind. -/
def JobOp.isClaim : JobOp → Bool
  | .claimDue _ _ | .claimWorker _ _ _ => true
  | _ => false

/-- A claim of another kind leases no lifecycle job. -/
theorem job?_claimDue_of_kind {s s' : JobStore} {req : ClaimDueRuntimeJobsRequest} {env : ClaimEnv}
    {jobs : List RuntimeJobRecord} {kind id : String} {j' : RuntimeJobRecord}
    (h : claimDueRuntimeJobs s req env = .ok (s', jobs)) (hkind : req.jobKind = some kind)
    (hne : kind ≠ j'.jobKind) (hj' : s'.job? id = some j') : s.job? id = some j' := by
  obtain ⟨untilMs, ids, rfl, hdue⟩ := claimDueRuntimeJobs_ok h
  rw [job?_claimRows] at hj'
  obtain ⟨j, hj, hset⟩ := Option.map_eq_some_iff.1 hj'
  split at hset
  · rename_i hclaimed
    subst hset
    have hid : j.jobId = id := Table.key_of_get? hj
    have hkind' := hdue j (Table.mem_of_get? hj) (hid ▸ hclaimed.1)
    simp only [isDue, hkind, Option.all_some, Bool.and_eq_true, decide_eq_true_eq] at hkind'
    exact absurd hkind'.1.2.symm hne
  · exact hset ▸ hj

/-- A row that is active after a call that is no claim was active before it. -/
theorem RowStep.active_of_not_claim {op : JobOp} {id : String} {row row' : Row}
    {j' : RuntimeJobRecord} (h : RowStep op id row row') (hop : op.isClaim = false)
    (hj' : row'.job = some j') (ha : isActiveExecution j') :
    ∃ j, row.job = some j ∧ isActiveExecution j := by
  have held {o : String} {atMs : Int} {j : RuntimeJobRecord} (hl : holdsLease o atMs j) :
      j.status.isActive := (RowStep.holdsLease_iff.1 hl).1
  simp only [isActiveExecution, Bool.and_eq_true, decide_eq_true_eq] at ha ⊢
  cases h with
  | same => exact ⟨j', hj', ha⟩
  | inserted _ _ hfree =>
    cases hj'
    simp [hfree.queued, RuntimeJobStatus.isActive] at ha
  | claimed hop' => cases op <;> first | cases hop' | cases hop
  | started _ _ hl => cases hj'; exact ⟨_, rfl, ha.1, held hl⟩
  | renewed _ _ hl => cases hj'; exact ⟨_, rfl, ha.1, held hl⟩
  | woken => cases hj'; exact ⟨_, rfl, ha⟩
  | _ => cases hj'; cases ha.2

/-! ### The binding of a job to its workspace -/

/-- The bindings a call leaves: those before, and possibly one for a job it has inserted. -/
theorem tenants_run {s s' : JobStore} {op : JobOp} (h : op.run s = .ok s') :
    s'.executionJobTenants = s.executionJobTenants ∨
      ∃ t : ExecutionJobTenant, s.job? t.jobId = none ∧
        s.executionJobTenants.insert? t = some s'.executionJobTenants := by
  by_cases hop : ∃ job w hfree, op = .scheduleWorker job w hfree
  · obtain ⟨job, w, hfree, rfl⟩ := hop
    obtain ⟨⟨t, d⟩, hok, rfl⟩ := Except.map_eq_ok.1 h
    obtain rfl | ⟨workspace, tenants, hins, htenants, rfl⟩ := scheduleWorkerJob_ok hok
    · exact .inl (sameTables_insertJob s job).executionJobTenants
    · refine .inr ⟨⟨job.jobId, workspace⟩, ?_, htenants⟩
      obtain hnot | ⟨jobs, -, hjobs⟩ := insertJob_spec s job
      · rw [hnot] at hins
        cases hins
      · exact (Table.insert?_eq_some_iff.1 hjobs).1
  · exact .inl ((run_frame h).executionJobTenants fun job w hfree hop' ↦ hop ⟨job, w, hfree, hop'⟩)

theorem tenantOf_exec {s : JobStore} {op : JobOp} {id w : String} (h : tenantOf s id = some w) :
    tenantOf (exec s op) id = some w := by
  unfold exec
  split
  · rename_i s' hrun
    obtain hsame | ⟨t, -, hins⟩ := tenants_run hrun
    · rw [tenantOf, hsame]
      exact h
    · obtain ⟨b, hb, hw⟩ := Option.map_eq_some_iff.1 h
      refine Option.map_eq_some_iff.2 ⟨b, ?_, hw⟩
      rw [Table.get?_of_insert? hins]
      split
      · rename_i hid
        have hfree := (Table.insert?_eq_some_iff.1 hins).1
        rw [hid, hb] at hfree
        cases hfree
      · exact hb
  · exact h

/-- A job that is there keeps its binding. -/
theorem tenantOf_exec_of_job {s : JobStore} {op : JobOp} {id : String} {j : RuntimeJobRecord}
    (hj : s.job? id = some j) : tenantOf (exec s op) id = tenantOf s id := by
  unfold exec
  split
  · rename_i s' hrun
    obtain hsame | ⟨t, hnone, hins⟩ := tenants_run hrun
    · rw [tenantOf, hsame, tenantOf]
    · have hne : t.jobId ≠ id := fun hid ↦ by
        rw [hid, hj] at hnone
        cases hnone
      rw [tenantOf, Table.get?_of_insert? hins, if_neg hne, tenantOf]
  · rfl

/-! ### Counts under calls -/

/-- The counts of `s'` do not exceed those of `s`. -/
structure CountsLe (s' s : JobStore) : Prop where
  active : activeCount s' ≤ activeCount s
  tenant : ∀ w, tenantCount s' w ≤ tenantCount s w

/-- No call makes a lifecycle job active but a claim of lifecycle jobs, so the counts never grow
under the others. -/
theorem countsLe_exec {s : JobStore} {op : JobOp}
    (h : ∀ id j', (exec s op).job? id = some j' → isActiveExecution j' →
      ∃ j, s.job? id = some j ∧ isActiveExecution j) : CountsLe (exec s op) s := by
  refine ⟨Table.count_le_add [] fun k r' hr' ha ↦ .inl (h k r' hr' ha), fun w ↦ ?_⟩
  refine Table.count_le_add [] fun k r' hr' hp ↦ .inl ?_
  simp only [Bool.and_eq_true, decide_eq_true_eq] at hp ⊢
  obtain ⟨j, hj, ha⟩ := h k r' hr' hp.1
  have hkey : r'.jobId = k := Table.key_of_get? hr'
  have hkey' : j.jobId = k := Table.key_of_get? hj
  exact ⟨j, hj, ha, by rw [hkey', ← tenantOf_exec_of_job hj, ← hkey]; exact hp.2⟩

theorem countsLe_of_not_claim {s : JobStore} {op : JobOp} (hop : op.isClaim = false) :
    CountsLe (exec s op) s :=
  countsLe_exec fun id _ hj' ha ↦ (exec_rowStep s op id).active_of_not_claim hop hj' ha

/-- A claim of another kind. -/
theorem countsLe_of_other_claim {s : JobStore} {r : ClaimRequest} {limits : ExecutionCapacity}
    {env : ExecutionClaimEnv} (hkind : r.jobKind ≠ agentRunLifecycleJobKind) :
    CountsLe (exec s (.claimWorker r.due limits env)) s := by
  refine countsLe_exec fun id j' hj' ha ↦ ⟨j', ?_, ha⟩
  have hlifecycle : j'.jobKind = agentRunLifecycleJobKind := by
    simp only [isActiveExecution, Bool.and_eq_true, decide_eq_true_eq] at ha
    exact ha.1
  unfold exec at hj'
  split at hj'
  · rename_i s' hrun
    obtain ⟨⟨t, jobs⟩, hok, rfl⟩ := Except.map_eq_ok.1 hrun
    have hne : r.due.jobKind ≠ some agentRunLifecycleJobKind := fun h ↦
      hkind (Option.some.inj h)
    rw [claimWorkerJobs, if_pos hne] at hok
    exact job?_claimDue_of_kind hok rfl (hlifecycle ▸ hkind) hj'
  · exact hj'

/-! ### The interleaved system -/

/-- A claim of lifecycle jobs that holds the advisory lock, between two of its statements. -/
inductive LifecycleClaim
  /-- The lock is held, nothing is read. -/
  | begun (req : ClaimRequest)
  /-- The active executions are counted. -/
  | counted (req : ClaimRequest) (usage : TenantUsage)
  /-- The candidates are selected and their rows locked. `claimed` are the candidates this
  transaction has updated, `todo` those it has not looked at, `tenants` its counters. -/
  | claiming (env : ClaimEnv) (untilMs now : Int) (claimed todo : List (String × String))
      (tenants : String → Nat) (jobs : List RuntimeJobRecord)

/-- The committed store, and the claim that holds the advisory lock. -/
structure CapacityState where
  store : JobStore
  claim : Option LifecycleClaim

/-- The store before the first call. -/
def CapacityState.init : CapacityState := ⟨.empty, none⟩

/-- The rows the claim in flight holds locked. -/
def CapacityState.lockedRows (st : CapacityState) : List String :=
  match st.claim with
  | some (.claiming _ _ _ claimed todo _ _) => (claimed ++ todo).map (·.1)
  | _ => []

/-- What can happen next. -/
inductive CapacityOp
  | call (op : JobOp)
  | otherClaim (r : ClaimRequest) (env : ExecutionClaimEnv)
  | begin (r : ClaimRequest)
  | busy (r : ClaimRequest)
  | count
  | select (now : Int) (locked : List String) (genRandomUuid : String → String)
  | candidate
  | commit
  | abort

/-- One step, of any client on any replica. -/
inductive CapacityStep (limits : ExecutionCapacity) :
    CapacityState → CapacityOp → CapacityState → Prop
  /-- A call that is no claim. It waits for a row that the claim in flight has locked. -/
  | call {st : CapacityState} {op : JobOp} (hop : op.isClaim = false)
      (hlocked : ∀ id ∈ st.lockedRows, (exec st.store op).job? id = st.store.job? id) :
      CapacityStep limits st (.call op) { st with store := exec st.store op }
  /-- A claim of another kind; it skips locked rows. -/
  | otherClaim {st : CapacityState} {r : ClaimRequest} {env : ExecutionClaimEnv}
      (hvalid : validClaimRequest r) (hkind : r.jobKind ≠ agentRunLifecycleJobKind)
      (hlocked : st.lockedRows ⊆ env.locked) :
      CapacityStep limits st (.otherClaim r env)
        { st with store := exec st.store (.claimWorker r.due limits env) }
  /-- `pg_try_advisory_xact_lock` succeeds: no claim is in flight. -/
  | begin {s : JobStore} {r : ClaimRequest} (hvalid : validClaimRequest r)
      (hkind : r.jobKind = agentRunLifecycleJobKind) :
      CapacityStep limits ⟨s, none⟩ (.begin r) ⟨s, some (.begun r)⟩
  /-- `pg_try_advisory_xact_lock` fails. -/
  | busy {s : JobStore} {claim : LifecycleClaim} {r : ClaimRequest} :
      CapacityStep limits ⟨s, some claim⟩ (.busy r) ⟨s, some claim⟩
  /-- The count, over what is committed when the statement runs. -/
  | count {s : JobStore} {r : ClaimRequest} :
      CapacityStep limits ⟨s, some (.begun r)⟩ .count ⟨s, some (.counted r (tenantUsage s))⟩
  /-- The candidate query. -/
  | select {s : JobStore} {r : ClaimRequest} {usage : TenantUsage} {now untilMs : Int}
      {locked : List String} {genRandomUuid : String → String}
      (havailable : availableExecutions limits usage r.limit ≠ 0)
      (huntil : (i64TryFrom r.leaseMs).bind (checkedAdd now) = some untilMs) :
      CapacityStep limits ⟨s, some (.counted r usage)⟩ (.select now locked genRandomUuid)
        ⟨s, some (.claiming ⟨locked, genRandomUuid⟩ untilMs now []
          (executionCandidates s r.due limits usage now locked) usage.tenants [])⟩
  /-- One candidate, on the committed rows with the transaction's own updates. -/
  | candidate {s : JobStore} {env : ClaimEnv} {untilMs now : Int} {c : String × String}
      {claimed todo : List (String × String)} {tenants : String → Nat}
      {jobs : List RuntimeJobRecord} {loop : ClaimLoop}
      (h : claimCandidate limits env untilMs now
        ⟨claimRows s env untilMs now (claimed.map (·.1)), tenants, jobs⟩ c = .ok loop) :
      CapacityStep limits ⟨s, some (.claiming env untilMs now claimed (c :: todo) tenants jobs)⟩
        .candidate ⟨s, some (.claiming env untilMs now
          (if limits.tenant ≤ tenants c.2 then claimed else claimed ++ [c]) todo loop.tenants
          loop.jobs)⟩
  /-- The transaction's updates take effect and its locks are released. -/
  | commit {s : JobStore} {env : ClaimEnv} {untilMs now : Int} {claimed : List (String × String)}
      {tenants : String → Nat} {jobs : List RuntimeJobRecord} :
      CapacityStep limits ⟨s, some (.claiming env untilMs now claimed [] tenants jobs)⟩ .commit
        ⟨claimRows s env untilMs now (claimed.map (·.1)), none⟩
  /-- The transaction ends without effect, at any point: no capacity, an error, a lost connection. -/
  | abort {s : JobStore} {claim : LifecycleClaim} :
      CapacityStep limits ⟨s, some claim⟩ .abort ⟨s, none⟩

/-! ### The invariant -/

/-- The number of candidates of a workspace. -/
def countFor (w : String) (cs : List (String × String)) : Nat :=
  (cs.filter fun c ↦ decide (c.2 = w)).length

/-- What the claim in flight may rely on. -/
def ClaimInv (limits : ExecutionCapacity) (s : JobStore) : LifecycleClaim → Prop
  | .begun _ => True
  | .counted _ usage => activeCount s ≤ usage.used ∧ usage.used ≤ limits.global ∧
      ∀ w, tenantCount s w ≤ usage.tenants w ∧ usage.tenants w ≤ limits.tenant
  | .claiming _ _ _ claimed todo tenants _ =>
      activeCount s + (claimed.length + todo.length) ≤ limits.global ∧
      (∀ w, tenantCount s w + countFor w claimed ≤ tenants w ∧ tenants w ≤ limits.tenant) ∧
      ∀ c ∈ claimed ++ todo, tenantOf s c.1 = some c.2

/-- The bound, and what keeps the claim in flight within it. -/
structure CapacityInv (limits : ExecutionCapacity) (st : CapacityState) : Prop where
  active : activeCount st.store ≤ limits.global
  tenant : ∀ w, tenantCount st.store w ≤ limits.tenant
  claim : ∀ claim, st.claim = some claim → ClaimInv limits st.store claim

/-- The claim in flight keeps its guarantees when the counts do not grow and the bindings stay. -/
theorem ClaimInv.mono {limits : ExecutionCapacity} {s s' : JobStore} {claim : LifecycleClaim}
    (h : ClaimInv limits s claim) (hle : CountsLe s' s)
    (htenants : ∀ id w, tenantOf s id = some w → tenantOf s' id = some w) :
    ClaimInv limits s' claim := by
  cases claim with
  | begun => exact trivial
  | counted r usage =>
    obtain ⟨hactive, hglobal, htenant⟩ := h
    exact ⟨hle.active.trans hactive, hglobal,
      fun w ↦ ⟨(hle.tenant w).trans (htenant w).1, (htenant w).2⟩⟩
  | claiming env untilMs now claimed todo tenants jobs =>
    obtain ⟨hactive, htenant, hbound⟩ := h
    refine ⟨?_, fun w ↦ ⟨?_, (htenant w).2⟩, fun c hc ↦ htenants _ _ (hbound c hc)⟩
    · have := hle.active
      omega
    · have := hle.tenant w
      have := (htenant w).1
      omega

/-- The candidates fit the capacity that was read, and each is bound to the workspace it is listed
with. -/
theorem executionCandidates_spec (s : JobStore) (req : ClaimDueRuntimeJobsRequest)
    (limits : ExecutionCapacity) (usage : TenantUsage) (now : Int) (locked : List String) :
    (executionCandidates s req limits usage now locked).length ≤
        availableExecutions limits usage req.limit ∧
      ∀ c ∈ executionCandidates s req limits usage now locked, tenantOf s c.1 = some c.2 := by
  constructor
  · exact (List.length_filterMap_le _ _).trans (List.length_take_le _ _)
  · intro c hc
    obtain ⟨j, -, hj⟩ := List.mem_filterMap.1 hc
    obtain ⟨w, hw, rfl⟩ := Option.map_eq_some_iff.1 hj
    exact hw

theorem countFor_snoc (w : String) (cs : List (String × String)) (c : String × String) :
    countFor w (cs ++ [c]) = countFor w cs + if c.2 = w then 1 else 0 := by
  by_cases h : c.2 = w <;> simp [countFor, h]

/-- A row that is active after the claimed rows are leased was active, or is one of them. -/
theorem active_of_claimRows {s : JobStore} {env : ClaimEnv} {untilMs now : Int}
    {ids : List String} {id : String} {j' : RuntimeJobRecord}
    (h : (claimRows s env untilMs now ids).job? id = some j') (ha : isActiveExecution j') :
    (∃ j, s.job? id = some j ∧ isActiveExecution j) ∨ id ∈ ids := by
  rw [job?_claimRows] at h
  obtain ⟨j, hj, hset⟩ := Option.map_eq_some_iff.1 h
  split at hset
  · rename_i hclaimed
    exact .inr hclaimed.1
  · exact .inl ⟨j, hj, hset ▸ ha⟩

/-- The commit of a claim stays within the limits. -/
theorem counts_claimRows {limits : ExecutionCapacity} {s : JobStore} {env : ClaimEnv}
    {untilMs now : Int} {claimed : List (String × String)} {tenants : String → Nat}
    {jobs : List RuntimeJobRecord}
    (h : ClaimInv limits s (.claiming env untilMs now claimed [] tenants jobs)) :
    activeCount (claimRows s env untilMs now (claimed.map (·.1))) ≤ limits.global ∧
      ∀ w, tenantCount (claimRows s env untilMs now (claimed.map (·.1))) w ≤ limits.tenant := by
  obtain ⟨hactive, htenant, hbound⟩ := h
  constructor
  · have hle : activeCount (claimRows s env untilMs now (claimed.map (·.1))) ≤
        activeCount s + (claimed.map (·.1)).length :=
      Table.count_le_add _ fun k r' hr' ha ↦ active_of_claimRows hr' ha
    simp only [List.length_map, List.length_nil] at hle hactive
    omega
  · intro w
    have hle : tenantCount (claimRows s env untilMs now (claimed.map (·.1))) w ≤ tenantCount s w +
        ((claimed.filter fun c ↦ decide (c.2 = w)).map (·.1)).length := by
      refine Table.count_le_add _ fun k r' hr' hp ↦ ?_
      simp only [Bool.and_eq_true, decide_eq_true_eq] at hp ⊢
      have hkey : r'.jobId = k := Table.key_of_get? hr'
      have hw : tenantOf s k = some w := hkey ▸ hp.2
      rcases active_of_claimRows hr' hp.1 with ⟨j, hj, ha⟩ | hk
      · have hkey' : j.jobId = k := Table.key_of_get? hj
        exact .inl ⟨j, hj, ha, hkey'.symm ▸ hw⟩
      · obtain ⟨c, hc, rfl⟩ := List.mem_map.1 hk
        have hcw : c.2 = w :=
          Option.some.inj ((hbound c (List.mem_append_left _ hc)).symm.trans hw)
        exact .inr (List.mem_map.2 ⟨c, List.mem_filter.2 ⟨hc, decide_eq_true hcw⟩, rfl⟩)
    have := htenant w
    simp only [List.length_map, countFor] at hle this
    omega

/-- The guarantees after one candidate. -/
theorem ClaimInv.candidate {limits : ExecutionCapacity} {s : JobStore} {env : ClaimEnv}
    {untilMs now : Int} {c : String × String} {claimed todo : List (String × String)}
    {tenants : String → Nat} {jobs : List RuntimeJobRecord} {loop : ClaimLoop} {view : JobStore}
    (hi : ClaimInv limits s (.claiming env untilMs now claimed (c :: todo) tenants jobs))
    (h : claimCandidate limits env untilMs now ⟨view, tenants, jobs⟩ c = .ok loop) :
    ClaimInv limits s (.claiming env untilMs now
      (if limits.tenant ≤ tenants c.2 then claimed else claimed ++ [c]) todo loop.tenants
      loop.jobs) := by
  obtain ⟨hactive, htenant, hbound⟩ := hi
  obtain ⟨hfull, rfl⟩ | ⟨hfree, -, hupdate⟩ := claimCandidate_ok h
  · rw [if_pos hfull]
    refine ⟨?_, htenant, fun x hx ↦ hbound x ?_⟩
    · simp only [List.length_cons] at hactive
      omega
    · rcases List.mem_append.1 hx with hx | hx
      · exact List.mem_append_left _ hx
      · exact List.mem_append_right _ (List.mem_cons_of_mem _ hx)
  · have hfree : tenants c.2 < limits.tenant := hfree
    rw [if_neg (not_le.2 hfree), hupdate]
    refine ⟨?_, fun w ↦ ?_, fun x hx ↦ hbound x ?_⟩
    · simp only [List.length_cons, List.length_append, List.length_nil] at hactive ⊢
      omega
    · have hw := htenant w
      rw [countFor_snoc]
      by_cases hcw : c.2 = w
      · subst hcw
        simp only [if_true, Function.update_self]
        omega
      · simpa [hcw, Function.update_of_ne (Ne.symm hcw)] using hw
    · simpa [or_assoc] using hx

namespace CapacityInv

variable {limits : ExecutionCapacity} {st st' : CapacityState}

/-- A call under which the counts do not grow keeps the invariant. -/
theorem call {op : JobOp} (hi : CapacityInv limits st) (hle : CountsLe (exec st.store op) st.store) :
    CapacityInv limits { st with store := exec st.store op } where
  active := hle.active.trans hi.active
  tenant w := (hle.tenant w).trans (hi.tenant w)
  claim claim hclaim := (hi.claim claim hclaim).mono hle fun _ _ hw ↦ tenantOf_exec hw

/-- **Step lemma.** -/
theorem step {op : CapacityOp} (hi : CapacityInv limits st) (h : CapacityStep limits st op st') :
    CapacityInv limits st' := by
  cases h with
  | call hop _ => exact hi.call (countsLe_of_not_claim hop)
  | otherClaim _ hkind _ => exact hi.call (countsLe_of_other_claim hkind)
  | begin => exact ⟨hi.active, hi.tenant, by rintro _ ⟨⟩; trivial⟩
  | busy => exact hi
  | count =>
    refine ⟨hi.active, hi.tenant, ?_⟩
    rintro _ ⟨⟩
    exact ⟨le_rfl, hi.active, fun w ↦ ⟨le_rfl, hi.tenant w⟩⟩
  | @select s r usage now untilMs locked genRandomUuid _ _ =>
    refine ⟨hi.active, hi.tenant, ?_⟩
    rintro _ ⟨⟩
    obtain ⟨hactive, hglobal, htenant⟩ := hi.claim _ rfl
    obtain ⟨hlen, hbound⟩ := executionCandidates_spec s r.due limits usage now locked
    refine ⟨?_, fun w ↦ ?_, by simpa using hbound⟩
    · have hactive : activeCount s ≤ usage.used := hactive
      simp only [availableExecutions, List.length_nil] at hlen ⊢
      omega
    · simpa [countFor] using htenant w
  | candidate h =>
    refine ⟨hi.active, hi.tenant, ?_⟩
    rintro _ ⟨⟩
    exact (hi.claim _ rfl).candidate h
  | commit =>
    obtain ⟨hactive, htenant⟩ := counts_claimRows (hi.claim _ rfl)
    exact ⟨hactive, htenant, by rintro _ ⟨⟩⟩
  | abort => exact ⟨hi.active, hi.tenant, by rintro _ ⟨⟩⟩

end CapacityInv

/-- **The execution capacity bound.** For any limits, in every state that any interleaving of
clients reaches, at most `limits.global` lifecycle jobs are leased or running, and for every
workspace at most `limits.tenant` of those that are bound to it. -/
theorem capacity_bound {limits : ExecutionCapacity} {l : List CapacityOp} {st : CapacityState}
    (h : Run (CapacityStep limits) .init l st) :
    activeCount st.store ≤ limits.global ∧ ∀ w, tenantCount st.store w ≤ limits.tenant := by
  have hi : CapacityInv limits st := h.invariant
    ⟨Nat.zero_le _, fun _ ↦ Nat.zero_le _, fun _ hc ↦ by cases hc⟩ fun _ _ _ hi hs ↦ hi.step hs
  exact ⟨hi.active, hi.tenant⟩

/-! ### The transaction without interruption -/

theorem claimRows_nil (s : JobStore) (env : ClaimEnv) (untilMs now : Int) :
    claimRows s env untilMs now [] = s := by
  have hrows : (claimRows s env untilMs now []).runtimeJobs = s.runtimeJobs :=
    Table.ext (by simp [claimRows, Table.update])
  simp only [claimRows] at hrows ⊢
  rw [hrows]

/-- Leasing rows one by one is leasing them together: a leased row is not leased again. -/
theorem claimRows_snoc (s : JobStore) (env : ClaimEnv) (untilMs now : Int) (ids : List String)
    (id : String) :
    claimRows (claimRows s env untilMs now ids) env untilMs now [id] =
      claimRows s env untilMs now (ids ++ [id]) := by
  have hrows : (claimRows (claimRows s env untilMs now ids) env untilMs now [id]).runtimeJobs =
      (claimRows s env untilMs now (ids ++ [id])).runtimeJobs := by
    refine Table.ext ?_
    simp only [claimRows, Table.update, List.map_map]
    refine List.map_congr_left fun j _ ↦ ?_
    by_cases hq : j.status = .queued
    · by_cases hids : j.jobId ∈ ids
      · simp [hq, hids, claimedJob]
      · simp [hq, hids]
    · simp [hq]
  simp only [claimRows] at hrows ⊢
  rw [hrows]

/-- The loop over the candidates, step by step. -/
theorem run_of_loop {limits : ExecutionCapacity} {s : JobStore} {env : ClaimEnv}
    {untilMs now : Int} {claimed todo : List (String × String)} {tenants : String → Nat}
    {jobs : List RuntimeJobRecord} {loop : ClaimLoop}
    (h : todo.foldlM (claimCandidate limits env untilMs now)
      ⟨claimRows s env untilMs now (claimed.map (·.1)), tenants, jobs⟩ = .ok loop) :
    ∃ l, Run (CapacityStep limits)
      ⟨s, some (.claiming env untilMs now claimed todo tenants jobs)⟩ l ⟨loop.store, none⟩ := by
  induction todo generalizing claimed tenants jobs with
  | nil => cases h; exact ⟨_, .single .commit⟩
  | cons c todo ih =>
    rw [List.foldlM_cons] at h
    obtain ⟨loop₁, h₁, h₂⟩ := Except.bind_eq_ok.1 h
    have hstep : CapacityStep limits
        ⟨s, some (.claiming env untilMs now claimed (c :: todo) tenants jobs)⟩ .candidate _ :=
      .candidate h₁
    have hview : loop₁ = ⟨claimRows s env untilMs now
        ((if limits.tenant ≤ tenants c.2 then claimed else claimed ++ [c]).map (·.1)),
        loop₁.tenants, loop₁.jobs⟩ := by
      obtain ⟨hfull, rfl⟩ | ⟨hfree, hstore, -⟩ := claimCandidate_ok h₁
      · rw [if_pos hfull]
      · have hfree : tenants c.2 < limits.tenant := hfree
        rw [if_neg (not_le.2 hfree), List.map_append, List.map_singleton, ← claimRows_snoc,
          ← hstore]
    rw [hview] at h₂
    obtain ⟨l, hrun⟩ := ih h₂
    exact ⟨_, (Run.single hstep).trans hrun⟩

/-- A claim that nothing interrupts is a run of the interleaved system: `CapacityStep` cuts
`claimWorkerJobs` into its statements and loses none of its behaviour. -/
theorem run_of_claimWorkerJobs {limits : ExecutionCapacity} {s s' : JobStore} {r : ClaimRequest}
    {env : ExecutionClaimEnv} {jobs : List RuntimeJobRecord} (hvalid : validClaimRequest r)
    (hkind : r.jobKind = agentRunLifecycleJobKind)
    (h : claimWorkerJobs s r.due limits env = .ok (s', jobs)) :
    ∃ l, Run (CapacityStep limits) ⟨s, none⟩ l ⟨s', none⟩ := by
  have hbegin : Run (CapacityStep limits) ⟨s, none⟩ [.begin r, .count]
      ⟨s, some (.counted r (tenantUsage s))⟩ :=
    (Run.single (.begin hvalid hkind)).snoc .count
  have hdue : r.due.jobKind = some agentRunLifecycleJobKind := congrArg some hkind
  rw [claimWorkerJobs, if_neg (not_not.2 hdue)] at h
  split at h
  · cases h
  simp only at h
  split at h
  · cases h
    exact ⟨_, hbegin.snoc .abort⟩
  rename_i havailable
  split at h
  · cases h
  rename_i untilMs huntil
  obtain ⟨loop, hloop, h⟩ := Except.bind_eq_ok.1 h
  cases h
  have hselect := hbegin.snoc (@CapacityStep.select limits s r _ env.now untilMs env.locked
    env.genRandomUuid havailable huntil)
  obtain ⟨l, hrun⟩ : ∃ l, Run (CapacityStep limits) ⟨s, some (.claiming env.toClaimEnv untilMs
      env.now [] (executionCandidates s r.due limits (tenantUsage s) env.now env.locked)
      (tenantUsage s).tenants [])⟩ l ⟨loop.store, none⟩ :=
    run_of_loop (by rw [List.map_nil, claimRows_nil]; exact hloop)
  exact ⟨_, hselect.trans hrun⟩

/-! ### Two jobs and one place -/

/-- Two lifecycle jobs of one workspace are scheduled, and a worker claims as many as it may. -/
def lifecycleRequest (id : String) : ScheduleRequest :=
  ⟨"runtime.job.schedule.v1", id, agentRunLifecycleJobKind, 0, 1, id, none, none, some "ws"⟩

@[inherit_doc lifecycleRequest]
def lifecycleClaimRequest : ClaimRequest :=
  ⟨"runtime.job.claim.v1", "worker:python-slot-0", none, agentRunLifecycleJobKind, 1, 1000, 32⟩

@[inherit_doc lifecycleRequest]
def lifecycleSchedule (id : String) : JobOp :=
  scheduleOp ⟨"", "", fun _ _ _ _ ↦ 0, .ok⟩ (lifecycleRequest id) 0

@[inherit_doc lifecycleRequest]
def twoScheduled : JobStore :=
  exec (exec .empty (lifecycleSchedule "job_1")) (lifecycleSchedule "job_2")

@[inherit_doc lifecycleRequest]
def lifecycleEnv : ExecutionClaimEnv := ⟨⟨[], fun id ↦ "owner:" ++ id⟩, true, 5⟩

@[inherit_doc lifecycleRequest]
def oneClaimed : JobStore :=
  exec twoScheduled (.claimWorker lifecycleClaimRequest.due ⟨1, 1⟩ lifecycleEnv)

/-- With a global limit of one, one of the two jobs is leased, and the bound is reached. -/
theorem capacity_bound_reached :
    activeCount oneClaimed = 1 ∧ activeCount oneClaimed ≤ 1 ∧ tenantCount oneClaimed "ws" ≤ 1 := by
  have call (s : JobStore) (id : String) : CapacityStep ⟨1, 1⟩ ⟨s, none⟩
      (.call (lifecycleSchedule id)) ⟨exec s (lifecycleSchedule id), none⟩ :=
    .call rfl fun _ h ↦ by cases h
  have hschedule : Run (CapacityStep ⟨1, 1⟩) .init _ ⟨twoScheduled, none⟩ :=
    (Run.single (call .empty "job_1")).snoc (call _ "job_2")
  obtain ⟨jobs, hjobs⟩ : ∃ jobs, claimWorkerJobs twoScheduled lifecycleClaimRequest.due ⟨1, 1⟩
      lifecycleEnv = .ok (oneClaimed, jobs) := ⟨_, rfl⟩
  obtain ⟨l, hclaim⟩ := run_of_claimWorkerJobs (by decide +kernel) rfl hjobs
  obtain ⟨hactive, htenant⟩ := capacity_bound (hschedule.trans hclaim)
  exact ⟨by decide +kernel, hactive, htenant "ws"⟩

end Centaeris.Jobs
