import Centaeris.Jobs.Store

/-!
# Claiming under the execution capacity

`claim_worker_jobs`: a claim of lifecycle jobs is made under a transaction-scoped advisory lock,
reads how many executions are active in all and per workspace, and leases at most what is left.

The transaction is cut at its statements (`tenantUsage`, `executionCandidates`,
`claimCandidate`), so that the atomic operation below and the step-by-step transaction, which other
transactions may interleave with, are made of the same parts.
-/

namespace Centaeris.Jobs

open Machine

/-- `ExecutionCapacity`. -/
structure ExecutionCapacity where
  global : Nat
  tenant : Nat

/-- `job_kind='agent_run.lifecycle' AND status IN ('leased','running')`. -/
def isActiveExecution (j : RuntimeJobRecord) : Bool :=
  decide (j.jobKind = agentRunLifecycleJobKind) && j.status.isActive

/-- The workspace a job is bound to. -/
def tenantOf (s : JobStore) (jobId : String) : Option String :=
  (s.executionJobTenants.get? jobId).map (·.workspaceId)

/-- The number of active executions. -/
def activeCount (s : JobStore) : Nat := s.runtimeJobs.count isActiveExecution

/-- The number of active executions bound to a workspace. -/
def tenantCount (s : JobStore) (workspace : String) : Nat :=
  s.runtimeJobs.count fun j ↦
    isActiveExecution j && decide (tenantOf s j.jobId = some workspace)

/-- What the claim knows about the executions that are active: their number, and the number for
each workspace, zero for a workspace that is not in the `tenants` map. -/
structure TenantUsage where
  used : Nat
  tenants : String → Nat

/-- The rows of `tenant_usage`, summed up. -/
def tenantUsage (s : JobStore) : TenantUsage := ⟨activeCount s, tenantCount s⟩

/-- `limits.global.saturating_sub(used).min(req.limit)`. -/
def availableExecutions (limits : ExecutionCapacity) (usage : TenantUsage) (limit : Nat) : Nat :=
  min (limits.global - usage.used) limit

/-- The workspaces whose limit is reached; only a workspace in the map can be one. -/
def isFull (limits : ExecutionCapacity) (usage : TenantUsage) (workspace : String) : Bool :=
  decide (0 < usage.tenants workspace) && decide (limits.tenant ≤ usage.tenants workspace)

/-- The `WHERE` clause of the candidate query, on the job row. -/
def isExecutionDue (req : ClaimDueRuntimeJobsRequest) (now : Int) (j : RuntimeJobRecord) : Bool :=
  decide (j.status = .queued) && decide (j.jobKind = agentRunLifecycleJobKind) &&
    decide (j.runAtMs ≤ now) && req.jobId.all (fun id ↦ decide (j.jobId = id)) &&
    req.sessionId.all fun session ↦ decide (j.sessionId = some session)

/-- The candidate query: due jobs of workspaces with capacity, in claim order, each with its
workspace. -/
def executionCandidates (s : JobStore) (req : ClaimDueRuntimeJobsRequest)
    (limits : ExecutionCapacity) (usage : TenantUsage) (now : Int) (locked : List String) :
    List (String × String) :=
  let due := s.runtimeJobs.rows.filter fun j ↦
    isExecutionDue req now j && (tenantOf s j.jobId).any (fun w ↦ !isFull limits usage w) &&
      !decide (j.jobId ∈ locked)
  ((due.insertionSort claimOrder).take (availableExecutions limits usage req.limit)).filterMap
    fun j ↦ (tenantOf s j.jobId).map (j.jobId, ·)

/-- The state of the loop over the candidates. -/
structure ClaimLoop where
  store : JobStore
  tenants : String → Nat
  jobs : List RuntimeJobRecord

/-- One candidate: skipped when its workspace has reached the limit, leased and loaded otherwise. -/
def claimCandidate (limits : ExecutionCapacity) (env : ClaimEnv) (untilMs now : Int)
    (st : ClaimLoop) (c : String × String) : StoreResult ClaimLoop :=
  if limits.tenant ≤ st.tenants c.2 then .ok st
  else
    let s' := claimRows st.store env untilMs now [c.1]
    match loadJob s' c.1 with
    | .error e => .error e
    | .ok none => .error "claimed execution job missing"
    | .ok (some job) =>
      .ok ⟨s', Function.update st.tenants c.2 (st.tenants c.2 + 1), st.jobs ++ [job]⟩

/-- What the database contributes to a capacity-bound claim, besides locks and identifiers. -/
structure ExecutionClaimEnv extends ClaimEnv where
  /-- `pg_try_advisory_xact_lock(731946,2)`. -/
  lockAcquired : Bool
  /-- `clock_timestamp()` in milliseconds. -/
  now : Int

/-- `claim_worker_jobs`. -/
def claimWorkerJobs (s : JobStore) (req : ClaimDueRuntimeJobsRequest) (limits : ExecutionCapacity)
    (env : ExecutionClaimEnv) : StoreResult (JobStore × List RuntimeJobRecord) :=
  if req.jobKind ≠ some agentRunLifecycleJobKind then
    claimDueRuntimeJobs s req env.toClaimEnv
  else if !env.lockAcquired then
    .error "execution claim busy"
  else
    let usage := tenantUsage s
    if availableExecutions limits usage req.limit = 0 then .ok (s, [])
    else
      let candidates := executionCandidates s req limits usage env.now env.locked
      match (i64TryFrom req.leaseMs).bind (checkedAdd env.now) with
      | none => .error "execution lease deadline overflow"
      | some untilMs => do
        let st ← candidates.foldlM (claimCandidate limits env.toClaimEnv untilMs env.now)
          ⟨s, usage.tenants, []⟩
        return (st.store, st.jobs)

end Centaeris.Jobs
