import Centaeris.Jobs.Operation
import Centaeris.Relational.LeaseHistory
import Centaeris.Relational.Run

/-!
# Lease fencing of runtime jobs

Any number of clients call the job store with clocks and owners of their choice. Along every
interleaving of their calls:

* the owner column of a job is the holder that the job's history names, so a `start`, `renew`,
  `yield`, `complete` or `fail` that changes a row carries the owner issued by the job's most
  recent claim, with no release since (`lease_fencing`);
* an ended job never changes again, an owner is present exactly while the job is leased or
  running, and the end of a job is announced in the outbox exactly when it has ended.

A history is made of the calls that changed the row. A `yield` that merely repeats an earlier one
returns `Ok` to a caller that no longer holds the lease; it changes no row and is not part of any
history.
-/

namespace Centaeris.Jobs

open LeaseEvent

/-! ### Calls and histories -/

/-- A call, together with the store it was made on. -/
structure Call where
  store : JobStore
  op : JobOp

/-- A step of the system: one client makes one call. -/
def JobStep (s : JobStore) (c : Call) (t : JobStore) : Prop := c.store = s ∧ t = exec s c.op

/-- The call changes the row of `id`. -/
def Call.Changes (c : Call) (id : String) : Prop := (exec c.store c.op).job? id ≠ c.store.job? id

instance (c : Call) (id : String) : Decidable (c.Changes id) := by
  unfold Call.Changes; infer_instance

/-- What a call that changes the row of `id` means for its lease. -/
def JobOp.leaseEvent (id : String) : JobOp → LeaseEvent String
  | .claimDue _ env => .claimed (env.genRandomUuid id)
  | .claimWorker _ _ env => .claimed (env.genRandomUuid id)
  | .yield _ | .complete _ | .fail _ | .cancel _ | .reclaim _ | .externalComplete _
  | .deadLetterFail _ => .released
  | .schedule _ _ | .scheduleWorker _ _ _ | .start _ | .renew _ | .wake _ => .kept

/-- The lease history of a job: one event for each call that changed its row. -/
def leaseHistory (calls : List Call) (id : String) : List (LeaseEvent String) :=
  (calls.filter fun c ↦ decide (c.Changes id)).map fun c ↦ c.op.leaseEvent id

/-- The owners a call issued, one for each row it claimed. -/
def Call.issued (c : Call) : List String :=
  c.op.uuid?.elim [] fun uuid ↦
    (c.store.runtimeJobs.rows.filter fun j ↦ decide (c.Changes j.jobId)).map fun j ↦ uuid j.jobId

/-- The owners issued so far. -/
def issuedOwners (calls : List Call) : List String := calls.flatMap Call.issued

/-- The job and the owner of a call that has to hold a lease. -/
def JobOp.lease? : JobOp → Option (String × String)
  | .start r => some (r.jobId, r.leaseOwner)
  | .renew r => some (r.jobId, r.leaseOwner)
  | .yield r => some (r.jobId, r.leaseOwner)
  | .complete r => some (r.jobId, r.leaseOwner)
  | .fail r => some (r.jobId, r.leaseOwner)
  | .externalComplete r => some (r.completeJob.jobId, r.completeJob.leaseOwner)
  | .deadLetterFail r => some (r.failJob.jobId, r.failJob.leaseOwner)
  | _ => none

/-! ### One row -/

namespace RowStep

variable {op : JobOp} {id : String} {row row' : Row}

/-- The owner column of a row. -/
def owner (row : Row) : Option String := row.job.bind (·.leaseOwner)

theorem holdsLease_iff {o : String} {atMs : Int} {j : RuntimeJobRecord} :
    holdsLease o atMs j = true ↔
      j.status.isActive = true ∧ j.leaseOwner = some o ∧ ∃ e, j.leaseExpiresAtMs = some e ∧ atMs < e := by
  simp [holdsLease, and_assoc, Option.any_eq_true]

/-- A change of a row changes its owner as the event of the call says. -/
theorem owner_eq_next (h : RowStep op id row row') (hne : row'.job ≠ row.job) :
    owner row' = next (owner row) (op.leaseEvent id) := by
  cases h with
  | same => exact absurd rfl hne
  | inserted hop _ hfree =>
    cases op <;> cases hop <;> simp [owner, JobOp.leaseEvent, next, hfree.noOwner]
  | claimed hop hid _ =>
    cases op <;> simp only [JobOp.uuid?, Option.some.injEq, reduceCtorEq] at hop <;>
      simp [owner, JobOp.leaseEvent, next, claimedJob, hop, hid]
  | started hop _ _ => subst hop; rfl
  | renewed hop _ _ => subst hop; rfl
  | woken hop _ _ => subst hop; rfl
  | yielded hop _ _ => subst hop; rfl
  | cancelled hop _ _ => subst hop; rfl
  | reclaimed hop _ => subst hop; rfl
  | completed hop _ _ => cases op <;> cases hop <;> rfl
  | retried hop _ _ _ => cases op <;> cases hop <;> rfl
  | failed hop _ _ _ => cases op <;> cases hop <;> rfl
  | deadLettered hop _ _ _ => cases op <;> cases hop <;> rfl

/-- A call that has to hold a lease changes only the row of its own job, and only when that row
names the caller as its owner. -/
theorem owner_of_lease {jobId o : String} (h : RowStep op id row row') (hne : row'.job ≠ row.job)
    (hop : op.lease? = some (jobId, o)) : jobId = id ∧ owner row = some o := by
  have key {atMs : Int} {j : RuntimeJobRecord} {b : Bool} {o' : String}
      (hl : holdsLease o' atMs j) : owner ⟨some j, b⟩ = some o' := (holdsLease_iff.1 hl).2.1
  cases h with
  | same => exact absurd rfl hne
  | inserted hop' _ _ => cases op <;> cases hop' <;> cases hop
  | claimed hop' _ _ => cases op <;> first | cases hop' | cases hop
  | started hop' hid hl => subst hop'; cases hop; exact ⟨hid, key hl⟩
  | renewed hop' hid hl => subst hop'; cases hop; exact ⟨hid, key hl⟩
  | yielded hop' hid hl => subst hop'; cases hop; exact ⟨hid, key hl⟩
  | woken hop' _ _ => subst hop'; cases hop
  | cancelled hop' _ _ => subst hop'; cases hop
  | reclaimed hop' _ => subst hop'; cases hop
  | completed hop' hid hl => cases op <;> cases hop' <;> cases hop <;> exact ⟨hid, key hl⟩
  | retried hop' hid hl _ => cases op <;> cases hop' <;> cases hop <;> exact ⟨hid, key hl⟩
  | failed hop' hid hl _ => cases op <;> cases hop' <;> cases hop <;> exact ⟨hid, key hl⟩
  | deadLettered hop' hid hl _ => cases op <;> cases hop' <;> cases hop <;> exact ⟨hid, key hl⟩

/-- A claim changes only rows that are there. -/
theorem exists_of_uuid {uuid : String → String} (h : RowStep op id row row')
    (hne : row'.job ≠ row.job) (hop : op.uuid? = some uuid) : ∃ j, row.job = some j := by
  cases h with
  | same => exact absurd rfl hne
  | inserted hop' _ _ => cases op <;> cases hop' <;> cases hop
  | _ => exact ⟨_, rfl⟩

/-- The row of an ended job never changes. -/
theorem eq_of_terminal {j : RuntimeJobRecord} (h : RowStep op id row row')
    (hj : row.job = some j) (ht : j.status.isTerminal) : row' = row := by
  have active {o : String} {atMs : Int} {j : RuntimeJobRecord} (hl : holdsLease o atMs j) :
      j.status.isTerminal = false := RuntimeJobStatus.isTerminal_of_isActive (holdsLease_iff.1 hl).1
  cases h with
  | same => rfl
  | inserted => cases hj
  | claimed _ _ hq => cases hj; simp [hq, RuntimeJobStatus.isTerminal] at ht
  | woken _ _ hq => cases hj; simp [hq, RuntimeJobStatus.isTerminal] at ht
  | started _ _ hl => cases hj; simp [active hl] at ht
  | renewed _ _ hl => cases hj; simp [active hl] at ht
  | yielded _ _ hl => cases hj; simp [active hl] at ht
  | completed _ _ hl => cases hj; simp [active hl] at ht
  | retried _ _ hl _ => cases hj; simp [active hl] at ht
  | failed _ _ hl _ => cases hj; simp [active hl] at ht
  | deadLettered _ _ hl _ => cases hj; simp [active hl] at ht
  | cancelled _ _ hc => cases hj; simp [cancellable, ht] at hc
  | reclaimed _ he =>
    cases hj
    have hactive := (Bool.and_eq_true_iff.1 he).1
    simp [RuntimeJobStatus.isTerminal_of_isActive hactive] at ht

end RowStep

/-- What holds of the row of every job at every moment. -/
structure RowInv (row : Row) : Prop where
  /-- An owner is present exactly while the job is leased or running. -/
  owner_iff : ∀ j, row.job = some j → (j.leaseOwner.isSome ↔ j.status.isActive)
  /-- The end is announced exactly when the job has ended. -/
  announced_iff : row.announced ↔ ∃ j, row.job = some j ∧ j.status.isTerminal

namespace RowInv

variable {op : JobOp} {id : String} {row row' : Row}

/-- A row whose job has not ended is not announced. -/
theorem announced_eq_false {j : RuntimeJobRecord} {b : Bool} (h : RowInv ⟨some j, b⟩)
    (ht : j.status.isTerminal = false) : b = false := by
  by_contra hb
  obtain ⟨j', hj', ht'⟩ := h.announced_iff.1 (by simpa using hb)
  cases hj'
  simp [ht] at ht'

/-- The invariant of a row that is queued or active again. -/
theorem of_not_terminal {j : RuntimeJobRecord} (ht : j.status.isTerminal = false)
    (ho : j.leaseOwner.isSome ↔ j.status.isActive) : RowInv ⟨some j, false⟩ where
  owner_iff := by rintro _ ⟨⟩; exact ho
  announced_iff := by simp [ht]

/-- The invariant of a row whose job has just ended. -/
theorem of_terminal {j : RuntimeJobRecord} (ht : j.status.isTerminal)
    (ho : j.leaseOwner = none) : RowInv ⟨some j, true⟩ where
  owner_iff := by
    rintro _ ⟨⟩
    cases hs : j.status <;> simp_all [RuntimeJobStatus.isActive, RuntimeJobStatus.isTerminal]
  announced_iff := by simp [ht]

/-- **Step lemma.** Every step of a row keeps the invariant. -/
theorem step (h : RowStep op id row row') (hi : RowInv row) : RowInv row' := by
  have running {o : String} {atMs : Int} {j : RuntimeJobRecord} {b : Bool}
      (hi : RowInv ⟨some j, b⟩) (hl : holdsLease o atMs j) : b = false :=
    hi.announced_eq_false (RuntimeJobStatus.isTerminal_of_isActive (RowStep.holdsLease_iff.1 hl).1)
  have queued {j : RuntimeJobRecord} {b : Bool} (hi : RowInv ⟨some j, b⟩)
      (hq : j.status = .queued) : b = false := hi.announced_eq_false (by rw [hq]; rfl)
  cases h with
  | same => exact hi
  | @inserted job b _ _ hfree =>
    obtain rfl : b = false := by
      by_contra hb
      obtain ⟨_, hj, -⟩ := hi.announced_iff.1 (by simpa using hb)
      cases hj
    exact of_not_terminal (by rw [hfree.queued]; rfl)
      (by simp [hfree.queued, hfree.noOwner, RuntimeJobStatus.isActive])
  | claimed _ _ hq =>
    obtain rfl := queued hi hq
    exact of_not_terminal rfl (by simp [claimedJob, RuntimeJobStatus.isActive])
  | @woken j b r _ _ hq =>
    obtain rfl := queued hi hq
    exact of_not_terminal (by simp [wokenJob, hq, RuntimeJobStatus.isTerminal])
      (hi.owner_iff j rfl)
  | started _ _ hl =>
    obtain rfl := running hi hl
    refine of_not_terminal rfl ?_
    simp [startedJob, (RowStep.holdsLease_iff.1 hl).2.1, RuntimeJobStatus.isActive]
  | @renewed j b r untilMs _ _ hl =>
    obtain rfl := running hi hl
    exact of_not_terminal (RuntimeJobStatus.isTerminal_of_isActive (RowStep.holdsLease_iff.1 hl).1)
      (hi.owner_iff j rfl)
  | yielded _ _ hl =>
    obtain rfl := running hi hl
    exact of_not_terminal rfl (by simp [yieldedJob, RuntimeJobStatus.isActive])
  | retried _ _ hl _ =>
    obtain rfl := running hi hl
    exact of_not_terminal rfl (by simp [failedJob, RuntimeJobStatus.isActive])
  | @reclaimed j b now _ he =>
    obtain rfl := hi.announced_eq_false
      (RuntimeJobStatus.isTerminal_of_isActive (Bool.and_eq_true_iff.1 he).1)
    exact of_not_terminal rfl (by simp [reclaimedJob, RuntimeJobStatus.isActive])
  | completed => exact of_terminal rfl rfl
  | failed => exact of_terminal rfl rfl
  | deadLettered => exact of_terminal rfl rfl
  | cancelled => exact of_terminal rfl rfl

end RowInv

section Runs

variable {calls : List Call} {s t : JobStore}

theorem rowInv_of_run (h : Run JobStep JobStore.empty calls s) (id : String) : RowInv (s.row id) :=
  h.invariant (I := fun s ↦ RowInv (s.row id))
    ⟨fun _ hj ↦ (by cases hj), by simp [JobStore.row, JobStore.empty, JobStore.job?,
      JobStore.terminalOutbox?]⟩
    fun t c u hi ⟨_, hu⟩ ↦ hu ▸ hi.step (exec_rowStep t c.op id)

theorem leaseHistory_snoc (calls : List Call) (c : Call) (id : String) :
    leaseHistory (calls ++ [c]) id =
      leaseHistory calls id ++ if c.Changes id then [c.op.leaseEvent id] else [] := by
  by_cases hc : c.Changes id <;> simp [leaseHistory, hc]

/-- **The owner column implements the history.** -/
theorem owner_eq_holder (h : Run JobStep JobStore.empty calls s) (id : String) :
    RowStep.owner (s.row id) = holder (leaseHistory calls id) := by
  refine h.invariant_history
    (I := fun calls s ↦ RowStep.owner (s.row id) = holder (leaseHistory calls id)) rfl ?_
  rintro l t c u - hi ⟨hc, rfl⟩
  subst hc
  have hstep := exec_rowStep c.store c.op id
  rw [leaseHistory_snoc]
  by_cases hch : c.Changes id
  · rw [if_pos hch, holder_snoc, hstep.owner_eq_next hch, hi]
  · have hsame : (exec c.store c.op).job? id = c.store.job? id := not_not.1 hch
    rw [if_neg hch, List.append_nil, ← hi]
    simp only [RowStep.owner, JobStore.row, hsame]

/-- An owner that is claimed in some history was issued. -/
theorem mem_issuedOwners {o : String} (id : String) (h : .claimed o ∈ leaseHistory calls id) :
    o ∈ issuedOwners calls := by
  obtain ⟨c, hc, he⟩ := List.mem_map.1 h
  obtain ⟨hmem, hch⟩ := List.mem_filter.1 hc
  refine List.mem_flatMap.2 ⟨c, hmem, ?_⟩
  have hch : c.Changes id := of_decide_eq_true hch
  -- only a claim has this event, and a claim changes a row only by leasing it
  obtain ⟨uuid, huuid, rfl⟩ : ∃ uuid, c.op.uuid? = some uuid ∧ uuid id = o := by
    cases hop : c.op <;> simp_all [JobOp.leaseEvent, JobOp.uuid?]
  obtain ⟨j, hj⟩ := (exec_rowStep c.store c.op id).exists_of_uuid hch huuid
  simp only [Call.issued, huuid, Option.elim_some]
  have hid := Table.key_of_get? hj
  refine List.mem_map.2 ⟨j, List.mem_filter.2 ⟨Table.mem_of_get? hj, ?_⟩, by rw [hid]⟩
  simpa [hid] using hch

/-- An ended job stays as it is along every run. -/
theorem job?_of_terminal {id : String} {j : RuntimeJobRecord} (h : Run JobStep s calls t)
    (hj : s.job? id = some j) (ht : j.status.isTerminal) : t.job? id = some j :=
  h.invariant (I := fun t ↦ t.job? id = some j) hj fun t c u hi ⟨_, hu⟩ ↦ by
    subst hu
    exact (congrArg Row.job ((exec_rowStep t c.op id).eq_of_terminal hi ht)).trans hi

/-- **Lease fencing.** In every run of the job store in which `gen_random_uuid` never repeats:

* a call that has to hold a lease and changes a row changes the row of its own job, and carries
  the owner issued by that job's most recent claim, unreleased since and issued by no other claim;
* a job that has ended keeps its status in every continuation of the run;
* a job has an owner exactly while it is leased or running;
* the terminal event of a job is in the outbox exactly when the job has ended. -/
theorem lease_fencing (h : Run JobStep JobStore.empty calls s) (huuid : (issuedOwners calls).Nodup) :
    (∀ op jobId owner id, JobOp.lease? op = some (jobId, owner) → Call.Changes ⟨s, op⟩ id →
      id = jobId ∧ HeldSince owner (leaseHistory calls jobId) ∧
        (issuedOwners calls).count owner = 1) ∧
    (∀ id j later t, s.job? id = some j → j.status.isTerminal → Run JobStep s later t →
      ∃ j', t.job? id = some j' ∧ j'.status = j.status) ∧
    (∀ id j, s.job? id = some j → (j.leaseOwner.isSome ↔ j.status.isActive)) ∧
    ∀ id, (s.terminalOutbox? id).isSome ↔ ∃ j, s.job? id = some j ∧ j.status.isTerminal := by
  refine ⟨fun op jobId owner id hop hch ↦ ?_, fun id j later t hj ht hrun ↦ ?_,
    fun id ↦ (rowInv_of_run h id).owner_iff, fun id ↦ (rowInv_of_run h id).announced_iff⟩
  · obtain ⟨rfl, howner⟩ := (exec_rowStep s op id).owner_of_lease hch hop
    rw [owner_eq_holder h, holder_eq_some_iff] at howner
    refine ⟨rfl, howner, ?_⟩
    obtain ⟨before, after, hhist, -⟩ := howner
    exact List.count_eq_one_of_mem huuid (mem_issuedOwners jobId (by simp [hhist]))
  · exact ⟨j, job?_of_terminal hrun hj ht, rfl⟩

end Runs

/-! ### A run with two claims -/

/-- The calls of a script, each with the store it finds. -/
def callsOf (s : JobStore) : List JobOp → List Call
  | [] => []
  | op :: ops => ⟨s, op⟩ :: callsOf (exec s op) ops

theorem run_callsOf (s : JobStore) (ops : List JobOp) :
    Run JobStep s (callsOf s ops) (ops.foldl exec s) := by
  induction ops generalizing s with
  | nil => exact .nil
  | cons op ops ih => exact (Run.single ⟨rfl, rfl⟩).trans (ih (exec s op))

/-- A job as the job protocol schedules it. -/
def sampleJob (id kind : String) : RuntimeJobRecord where
  jobId := id
  jobKind := kind
  status := .queued
  runAtMs := 0
  leaseOwner := none
  leaseExpiresAtMs := none
  retryCount := 0
  maxRetries := 1
  backoffPolicy := ""
  idempotencyKey := id
  sessionId := none
  branchId := none
  checkpointId := none
  payloadRef := none
  outputRefs := []
  lastError := none
  createdAtMs := 0
  updatedAtMs := 0
  heartbeatAtMs := none

theorem unclaimed_sampleJob {id kind : String} : Unclaimed (sampleJob id kind) := ⟨rfl, rfl⟩

/-- A job is claimed, its lease expires and is reclaimed, and a second worker claims it. -/
def sampleScript : List JobOp :=
  [.schedule (sampleJob "job_1" "worker.noop") unclaimed_sampleJob,
    .claimDue ⟨1, "worker:0", none, none, none, 1, 10⟩ ⟨[], fun _ ↦ "owner_1"⟩,
    .reclaim 20,
    .claimDue ⟨21, "worker:1", none, none, none, 1, 10⟩ ⟨[], fun _ ↦ "owner_2"⟩]

/-- The second worker's `start` takes effect, and the second worker holds the lease. -/
theorem lease_fencing_second_claim :
    Call.Changes ⟨sampleScript.foldl exec .empty, .start ⟨"job_1", "owner_2", 25⟩⟩ "job_1" ∧
      HeldSince "owner_2" (leaseHistory (callsOf .empty sampleScript) "job_1") := by
  have hch : Call.Changes ⟨sampleScript.foldl exec .empty, .start ⟨"job_1", "owner_2", 25⟩⟩
      "job_1" := by decide +kernel
  have hfence := lease_fencing (run_callsOf .empty sampleScript) (by decide +kernel)
  exact ⟨hch, (hfence.1 _ _ _ _ rfl hch).2.1⟩

end Centaeris.Jobs
