import Centaeris.Jobs.Lease
import Centaeris.Jobs.Protocol

/-!
# Retry accounting

A fail request decides between retry, failure and dead letter from a read it made in an earlier
transaction. The decision is still sound: the write is fenced by the lease owner, every accepted
failure clears the lease, and a later claim issues an owner no request in flight carries. So
whenever the fence lets the write through, the retry count is the one that was read
(`RetryInv.pending`), and the accounting is exact: `retry_accounting`.
-/

namespace Centaeris.Jobs

open Machine

/-- The accepted failures of a job, oldest first: whether each was retryable. -/
def acceptedFor (accepted : List (String × Bool)) (id : String) : List Bool :=
  (accepted.filter fun a ↦ decide (a.1 = id)).map (·.2)

theorem acceptedFor_snoc (accepted : List (String × Bool)) (a : String × Bool) (id : String) :
    acceptedFor (accepted ++ [a]) id =
      if id = a.1 then acceptedFor accepted id ++ [a.2] else acceptedFor accepted id := by
  by_cases hid : id = a.1
  · simp [acceptedFor, hid]
  · simp [acceptedFor, hid, Ne.symm hid]

/-! ### Calls of other handlers -/

/-- What a call of another handler can do to a job row, as far as retries go. -/
structure PlainChange (op : JobOp) (id : String) (j j' : RuntimeJobRecord) : Prop where
  live : j.status.isTerminal = false
  notDead : j'.status ≠ .deadLettered
  retryCount : j'.retryCount = j.retryCount
  maxRetries : j'.maxRetries = j.maxRetries
  /-- The owner stays, goes, or is a new identifier. -/
  owner : j'.leaseOwner = j.leaseOwner ∨ j'.leaseOwner = none ∨
    ∃ uuid, op.uuid? = some uuid ∧ j'.leaseOwner = some (uuid id)

theorem RowStep.plain {op : JobOp} {id : String} {row row' : Row} (h : RowStep op id row row')
    (hplain : op.isPlain) :
    row' = row ∨ ∃ j j', row.job = some j ∧ row'.job = some j' ∧ PlainChange op id j j' := by
  have live {o : String} {atMs : Int} {j : RuntimeJobRecord} (hl : holdsLease o atMs j) :
      j.status.isTerminal = false :=
    RuntimeJobStatus.isTerminal_of_isActive (RowStep.holdsLease_iff.1 hl).1
  have alive {o : String} {atMs : Int} {j : RuntimeJobRecord} (hl : holdsLease o atMs j) :
      j.status ≠ .deadLettered := fun hd ↦ by simpa [hd, RuntimeJobStatus.isTerminal] using live hl
  cases h with
  | same => exact .inl rfl
  | inserted hop _ _ => cases op <;> cases hop <;> cases hplain
  | retried hop _ _ _ => cases op <;> cases hop <;> cases hplain
  | failed hop _ _ _ => cases op <;> cases hop <;> cases hplain
  | deadLettered hop _ _ _ => cases op <;> cases hop <;> cases hplain
  | @claimed j b env untilMs now hop hid hq =>
    exact .inr ⟨j, _, rfl, rfl, by rw [hq]; rfl, by simp [claimedJob], rfl, rfl,
      .inr (.inr ⟨_, hop, by simp [claimedJob, hid]⟩)⟩
  | woken _ _ hq =>
    exact .inr ⟨_, _, rfl, rfl, by rw [hq]; rfl, by simp [wokenJob, hq], rfl, rfl, .inl rfl⟩
  | started _ _ hl =>
    exact .inr ⟨_, _, rfl, rfl, live hl, by simp [startedJob], rfl, rfl, .inl rfl⟩
  | renewed _ _ hl =>
    have hdead := alive hl
    exact .inr ⟨_, _, rfl, rfl, live hl, hdead, rfl, rfl, .inl rfl⟩
  | yielded _ _ hl =>
    exact .inr ⟨_, _, rfl, rfl, live hl, by simp [yieldedJob], rfl, rfl, .inr (.inl rfl)⟩
  | completed _ _ hl =>
    exact .inr ⟨_, _, rfl, rfl, live hl, by simp [completedJob], rfl, rfl, .inr (.inl rfl)⟩
  | @cancelled j b r _ _ hc =>
    have hlive : j.status.isTerminal = false := by
      by_contra ht
      simp [cancellable, Bool.not_eq_false _ ▸ ht] at hc
    exact .inr ⟨_, _, rfl, rfl, hlive, by simp [cancelledJob], rfl, rfl, .inr (.inl rfl)⟩
  | reclaimed _ he =>
    exact .inr ⟨_, _, rfl, rfl,
      RuntimeJobStatus.isTerminal_of_isActive (Bool.and_eq_true_iff.1 he).1,
      by simp [reclaimedJob], rfl, rfl, .inr (.inl rfl)⟩

/-! ### The write of a fail request -/

/-- The status a failure leads to, by the job as it was read. -/
def failStatus (r : FailRequest) (job : RuntimeJobRecord) : RuntimeJobStatus :=
  if !r.retryable then .failed
  else if attemptOf job ≤ job.maxRetries then .queued
  else .deadLettered

/-- An accepted fail request, applied to the row `j`. -/
structure FailEffect (core : JobCore) (r : FailRequest) (job : RuntimeJobRecord) (s s' : JobStore)
    (j j' : RuntimeJobRecord) : Prop where
  holds : holdsLease r.leaseOwner r.failedAtMs j
  before : s.job? r.jobId = some j
  after : ∀ k, s'.job? k = if k = r.jobId then some j' else s.job? k
  status : j'.status = failStatus r job
  retryCount : j'.retryCount = j.retryCount + 1
  maxRetries : j'.maxRetries = j.maxRetries
  owner : j'.leaseOwner = none
  letters : s'.deadLetters = if failStatus r job = .deadLettered then
    (insertDeadLetter s (deadLetterOf core r job)).1.deadLetters else s.deadLetters

theorem outcome_failJobRequest {core : JobCore} {r : FailRequest} {job : RuntimeJobRecord}
    {missing : String} {outcome : RuntimeJobStatus × Int}
    (h : (failJobRequest core r job).outcome missing = .ok outcome) :
    outcome.1 = failStatus r job := by
  unfold FailRuntimeJobRequest.outcome at h
  unfold failJobRequest at h
  unfold failStatus
  cases hr : r.retryable with
  | false =>
    simp only [hr, Bool.not_false, if_true] at h ⊢
    cases h
    rfl
  | true =>
    by_cases ha : attemptOf job ≤ job.maxRetries
    · simp only [hr, ha, Bool.not_true, Bool.false_eq_true, if_false, if_true, and_self] at h ⊢
      cases h
      rfl
    · simp only [hr, ha, Bool.not_true, Bool.false_eq_true, if_false] at h ⊢
      cases h
      rfl

theorem disposition_failJobRequest (core : JobCore) (r : FailRequest) (job : RuntimeJobRecord) :
    (failJobRequest core r job).disposition = .deadLettered ↔
      failStatus r job = .deadLettered := by
  unfold failJobRequest failStatus
  cases r.retryable <;> by_cases ha : attemptOf job ≤ job.maxRetries <;> simp [ha]

theorem failOp_ok {core : JobCore} {r : FailRequest} {job : RuntimeJobRecord} {s s' : JobStore}
    (h : (failOp core r job).run s = .ok s') : ∃ j j', FailEffect core r job s s' j j' := by
  have hdisp := disposition_failJobRequest core r job
  unfold failOp at h
  split at h
  · rename_i hd
    obtain ⟨⟨t, d⟩, hok, rfl⟩ := Except.map_eq_ok.1 h
    obtain ⟨outcome, hout, hfail⟩ := createDeadLetterAndFailJob_ok hok
    obtain ⟨j, hl, hj, hafter⟩ := applyFailure_ok hfail
    -- the dead letter goes into its own table; the job rows are those of `s`
    have hjob : ∀ k, (insertDeadLetter s (deadLetterOf core r job)).1.job? k = s.job? k := fun k ↦
      congrArg Row.job (row_insertDeadLetter s (deadLetterOf core r job) k)
    simp only [hjob] at hj hafter
    exact ⟨j, _, hl, hj, hafter, outcome_failJobRequest hout, rfl, rfl, rfl, by
      rw [if_pos (hdisp.1 hd)]; exact (sameTables_applyFailure hfail).1⟩
  · rename_i hd
    obtain ⟨outcome, hout, hfail⟩ := Except.bind_eq_ok.1 h
    obtain ⟨j, hl, hj, hafter⟩ := applyFailure_ok hfail
    exact ⟨j, _, hl, hj, hafter, outcome_failJobRequest hout, rfl, rfl, rfl, by
      rw [if_neg fun hs ↦ hd (hdisp.2 hs)]; exact (sameTables_applyFailure hfail).1⟩

/-! ### The invariant -/

/-- The accounting of one row against its accepted failures. -/
structure RetryRow (accepted : List Bool) (j : RuntimeJobRecord) : Prop where
  /-- The protocol admits at most ten retries, so the attempt counter never saturates. -/
  bound : j.maxRetries ≤ 10
  count : j.retryCount = accepted.length
  live : j.status.isTerminal = false → j.retryCount ≤ j.maxRetries
  total : j.retryCount ≤ j.maxRetries + 1
  dead : j.status = .deadLettered ↔
    accepted.length = j.maxRetries + 1 ∧ accepted.getLast? = some true

/-- A request in flight that still holds the lease has read the current retry count. -/
structure PendingRow (p : PendingFail) (j : RuntimeJobRecord) : Prop where
  jobId : p.job.jobId = p.request.jobId
  maxRetries : p.job.maxRetries = j.maxRetries
  current : j.leaseOwner = some p.request.leaseOwner → p.job.retryCount = j.retryCount

/-- A dead letter and the row of the job it is for. -/
structure LetterRow (d : DeadLetterRecord) (j : RuntimeJobRecord) : Prop where
  deadLetterId : d.deadLetterId = deadLetterIdOf d.originalJobId
  status : j.status = .deadLettered
  attempts : d.attempts = j.maxRetries + 1

/-- The invariant of the protocol. -/
structure RetryInv (st : ProtocolState) : Prop where
  row : ∀ id j, st.store.job? id = some j → RetryRow (acceptedFor st.accepted id) j
  absent : ∀ id, st.store.job? id = none → acceptedFor st.accepted id = []
  pending : ∀ p ∈ st.failing, ∃ j, st.store.job? p.request.jobId = some j ∧ PendingRow p j
  letter : ∀ d ∈ st.store.deadLetters.rows, ∃ j,
    st.store.job? d.originalJobId = some j ∧ LetterRow d j
  lettered : ∀ id j, st.store.job? id = some j → j.status = .deadLettered →
    ∃ d ∈ st.store.deadLetters.rows, d.originalJobId = id

namespace RetryInv

variable {st st' : ProtocolState} {core : JobCore} {s' : JobStore}

theorem init : RetryInv .init where
  row _ _ h := by cases h
  absent _ _ := rfl
  pending _ h := by cases h
  letter _ h := by cases h
  lettered _ _ h := by cases h

/-- Forgetting requests in flight keeps the invariant. -/
theorem mono_failing (hi : RetryInv st) {failing : List PendingFail} (h : failing ⊆ st.failing) :
    RetryInv { st with failing := failing } :=
  { hi with pending := fun p hp ↦ hi.pending p (h hp) }

/-- The record a scheduling call inserts, or nothing. -/
theorem rowStep_scheduleOp {r : ScheduleRequest} {now : Int} {id : String} {row row' : Row}
    (h : RowStep (scheduleOp core r now) id row row') :
    row' = row ∨ (row.job = none ∧ row'.job = some (scheduledJob core r now) ∧ r.jobId = id) := by
  cases h with
  | same => exact .inl rfl
  | inserted hop hid _ => cases hop; exact .inr ⟨rfl, rfl, hid⟩
  | claimed hop => cases hop
  | started hop => cases hop
  | renewed hop => cases hop
  | yielded hop => cases hop
  | woken hop => cases hop
  | completed hop => cases hop
  | retried hop => cases hop
  | failed hop => cases hop
  | deadLettered hop => cases hop
  | cancelled hop => cases hop
  | reclaimed hop => cases hop

theorem schedule_ok {r : ScheduleRequest} {now : Int}
    (h : Jobs.schedule core st.store r now = .ok s') :
    r.maxRetries ≤ 10 ∧ (scheduleOp core r now).run st.store = .ok s' := by
  unfold Jobs.schedule at h
  split at h
  · cases h
  · rename_i hvalid
    refine ⟨?_, ?_⟩
    · simp only [validScheduleRequest, Bool.not_eq_true, Bool.not_eq_false', Bool.and_eq_true,
        decide_eq_true_eq] at hvalid
      exact hvalid.1.1.1.2
    · cases hrun : (scheduleOp core r now).run st.store with
      | error e => rw [hrun] at h; cases h
      | ok t => rw [hrun] at h; cases h; rfl

theorem step_schedule (hi : RetryInv st) {r : ScheduleRequest} {now : Int}
    (h : Jobs.schedule core st.store r now = .ok s') : RetryInv { st with store := s' } := by
  obtain ⟨hbound, hrun⟩ := schedule_ok h
  have hletters : s'.deadLetters = st.store.deadLetters :=
    (run_frame hrun).deadLetters fun _ hne ↦ by cases hne
  have hrow (id : String) : s'.job? id = st.store.job? id ∨ (st.store.job? id = none ∧
      s'.job? id = some (scheduledJob core r now)) := by
    obtain h | ⟨h, h', -⟩ := rowStep_scheduleOp (run_rowStep hrun id)
    · exact .inl (congrArg Row.job h)
    · exact .inr ⟨h, h'⟩
  -- a row that is there stays; a new row has no accepted failure and is no dead letter
  have hkeep {id : String} {j : RuntimeJobRecord} (hj : st.store.job? id = some j) :
      s'.job? id = some j := by
    obtain h | ⟨hnone, -⟩ := hrow id
    · rw [h, hj]
    · rw [hnone] at hj; cases hj
  refine ⟨fun id j hj ↦ ?_, fun id hj ↦ ?_, fun p hp ↦ ?_, fun d hd ↦ ?_, fun id j hj hdead ↦ ?_⟩
  · obtain h | ⟨hnone, h⟩ := hrow id
    · exact hi.row id j (h ▸ hj)
    · obtain rfl : j = scheduledJob core r now := Option.some.inj (hj.symm.trans h)
      have hacc : acceptedFor st.accepted id = [] := hi.absent id hnone
      simp only [hacc]
      exact ⟨hbound, rfl, fun _ ↦ Nat.zero_le _, Nat.zero_le _, by simp [scheduledJob]⟩
  · obtain h | ⟨hnone, -⟩ := hrow id
    · exact hi.absent id (h ▸ hj)
    · exact hi.absent id hnone
  · obtain ⟨j, hj, hrow⟩ := hi.pending p hp
    exact ⟨j, hkeep hj, hrow⟩
  · obtain ⟨j, hj, hrow⟩ := hi.letter d (hletters ▸ hd)
    exact ⟨j, hkeep hj, hrow⟩
  · obtain h | ⟨-, h⟩ := hrow id
    · obtain ⟨d, hd, hid⟩ := hi.lettered id j (h ▸ hj) hdead
      exact ⟨d, hletters ▸ hd, hid⟩
    · obtain rfl : j = scheduledJob core r now := Option.some.inj (hj.symm.trans h)
      cases hdead

theorem step_call (hi : RetryInv st) {op : JobOp} (hplain : op.isPlain)
    (hfresh : ∀ uuid, op.uuid? = some uuid → ∀ id, ∀ p ∈ st.failing,
      p.request.leaseOwner ≠ uuid id) :
    RetryInv { st with store := exec st.store op } := by
  have hletters : (exec st.store op).deadLetters = st.store.deadLetters := by
    unfold exec
    split
    · rename_i hrun
      exact (run_frame hrun).deadLetters fun r hne ↦ by subst hne; cases hplain
    · rfl
  have hrow (id : String) : (exec st.store op).job? id = st.store.job? id ∨
      ∃ j j', st.store.job? id = some j ∧ (exec st.store op).job? id = some j' ∧
        PlainChange op id j j' := by
    obtain h | h := (exec_rowStep st.store op id).plain hplain
    · exact .inl (congrArg Row.job h)
    · exact .inr h
  refine ⟨fun id j hj ↦ ?_, fun id hj ↦ ?_, fun p hp ↦ ?_, fun d hd ↦ ?_, fun id j hj hdead ↦ ?_⟩
  · obtain h | ⟨j₀, j', hj₀, hj', hc⟩ := hrow id
    · exact hi.row id j (h ▸ hj)
    · obtain rfl : j = j' := Option.some.inj (hj.symm.trans hj')
      have hr := hi.row id j₀ hj₀
      have hdead₀ : j₀.status ≠ .deadLettered := fun hd ↦ by
        simpa [hd, RuntimeJobStatus.isTerminal] using hc.live
      refine ⟨hc.maxRetries ▸ hr.bound, hc.retryCount ▸ hr.count, fun _ ↦ ?_, ?_, ?_⟩
      · rw [hc.retryCount, hc.maxRetries]
        exact hr.live hc.live
      · rw [hc.retryCount, hc.maxRetries]
        exact hr.total
      · rw [hc.maxRetries]
        exact iff_of_false hc.notDead fun h ↦ hdead₀ (hr.dead.2 h)
  · obtain h | ⟨_, _, _, hj', _⟩ := hrow id
    · exact hi.absent id (h ▸ hj)
    · rw [hj'] at hj; cases hj
  · obtain ⟨j, hj, hp'⟩ := hi.pending p hp
    obtain h | ⟨j₀, j', hj₀, hj', hc⟩ := hrow p.request.jobId
    · exact ⟨j, h ▸ hj, hp'⟩
    · obtain rfl : j = j₀ := Option.some.inj (hj.symm.trans hj₀)
      refine ⟨j', hj', hp'.jobId, hc.maxRetries ▸ hp'.maxRetries, fun howner ↦ ?_⟩
      rw [hc.retryCount]
      obtain h | h | ⟨uuid, huuid, h⟩ := hc.owner
      · exact hp'.current (h ▸ howner)
      · rw [h] at howner; cases howner
      · rw [h] at howner
        exact absurd (Option.some.inj howner).symm (hfresh uuid huuid _ p hp)
  · obtain ⟨j, hj, hd'⟩ := hi.letter d (hletters ▸ hd)
    obtain h | ⟨j₀, j', hj₀, hj', hc⟩ := hrow d.originalJobId
    · exact ⟨j, h ▸ hj, hd'⟩
    · obtain rfl : j = j₀ := Option.some.inj (hj.symm.trans hj₀)
      simpa [hd'.status, RuntimeJobStatus.isTerminal] using hc.live
  · obtain h | ⟨_, j', _, hj', hc⟩ := hrow id
    · obtain ⟨d, hd, hid⟩ := hi.lettered id j (h ▸ hj) hdead
      exact ⟨d, hletters ▸ hd, hid⟩
    · obtain rfl : j = j' := Option.some.inj (hj.symm.trans hj')
      exact absurd hdead hc.notDead

theorem failRead_ok {s : JobStore} {r : FailRequest} {job : RuntimeJobRecord}
    (h : Jobs.failRead s r = .ok job) : s.job? r.jobId = some job := by
  unfold Jobs.failRead at h
  split at h
  · cases h
  · exact getRuntimeJob_ok h

theorem step_failRead (hi : RetryInv st) {r : FailRequest} {job : RuntimeJobRecord}
    (h : Jobs.failRead st.store r = .ok job) :
    RetryInv { st with failing := st.failing ++ [⟨r, job⟩] } := by
  have hj := failRead_ok h
  refine { hi with pending := fun p hp ↦ ?_ }
  rcases List.mem_append.1 hp with hp | hp
  · exact hi.pending p hp
  · obtain rfl := List.mem_singleton.1 hp
    exact ⟨job, hj, Table.key_of_get? hj, rfl, fun _ ↦ rfl⟩

/-- The row a fail request leaves, when it has read the current retry count. -/
theorem retryRow_of_failEffect {r : FailRequest} {job j j' : RuntimeJobRecord} {s s' : JobStore}
    {accepted : List Bool} (h : FailEffect core r job s s' j j') (hr : RetryRow accepted j)
    (hmax : job.maxRetries = j.maxRetries) (hcount : job.retryCount = j.retryCount) :
    RetryRow (accepted ++ [r.retryable]) j' := by
  have hlive := hr.live (RuntimeJobStatus.isTerminal_of_isActive (RowStep.holdsLease_iff.1 h.holds).1)
  have hattempt : attemptOf job = j.retryCount + 1 := by
    have := hr.bound
    simp only [attemptOf, u32SaturatingAdd, u32Max, hcount]
    omega
  have hstatus := h.status
  simp only [failStatus, hattempt, hmax] at hstatus
  refine ⟨h.maxRetries ▸ hr.bound, by simp [h.retryCount, hr.count], fun hlive' ↦ ?_,
    by rw [h.retryCount, h.maxRetries]; omega, ?_⟩
  · rw [h.retryCount, h.maxRetries]
    split at hstatus
    · simp [hstatus, RuntimeJobStatus.isTerminal] at hlive'
    · split at hstatus
      · assumption
      · simp [hstatus, RuntimeJobStatus.isTerminal] at hlive'
  · simp only [List.length_append, List.length_singleton, List.getLast?_append,
      List.getLast?_singleton, Option.some_or, Option.some.injEq, h.maxRetries, ← hr.count]
    split at hstatus
    · rename_i hret
      simp only [hstatus, reduceCtorEq, false_iff]
      simp_all
    · rename_i hret
      have hret : r.retryable = true := by simpa using hret
      split at hstatus
      · simp only [hstatus, reduceCtorEq, false_iff]
        omega
      · simp only [hstatus, hret, and_true, true_iff]
        omega

/-- The dead letters after an accepted failure: the new one is inserted, for there is none yet for
a job that is not dead-lettered. -/
theorem mem_letters_of_failEffect {r : FailRequest} {job j j' : RuntimeJobRecord}
    {s s' : JobStore} (h : FailEffect core r job s s' j j') (hid : job.jobId = r.jobId)
    (hletter : ∀ d ∈ s.deadLetters.rows, ∃ j, s.job? d.originalJobId = some j ∧ LetterRow d j)
    (hdead : j.status ≠ .deadLettered) (d : DeadLetterRecord) :
    d ∈ s'.deadLetters.rows ↔ d ∈ s.deadLetters.rows ∨
      (failStatus r job = .deadLettered ∧ d = deadLetterOf core r job) := by
  by_cases hstatus : failStatus r job = .deadLettered
  · have hnone : ∀ x ∈ s.deadLetters.rows, x.originalJobId ≠ job.jobId := fun x hx hxid ↦ by
      obtain ⟨q, hq, hrow⟩ := hletter x hx
      obtain rfl : q = j := Option.some.inj (hq.symm.trans (by rw [hxid, hid, h.before]))
      exact hdead hrow.status
    have hins : ∃ letters, (insertDeadLetter s (deadLetterOf core r job)).1.deadLetters = letters ∧
        letters.rows = s.deadLetters.rows ++ [deadLetterOf core r job] := by
      obtain ⟨-, hsome | ⟨x, hx, hxid⟩⟩ | ⟨letters, heq, hins⟩ :=
        insertDeadLetter_spec s (deadLetterOf core r job)
      · obtain ⟨x, hx⟩ := Option.isSome_iff_exists.1 hsome
        have hmem := Table.mem_of_get? hx
        obtain ⟨_, _, hrow⟩ := hletter x hmem
        have hkey : deadLetterIdOf x.originalJobId = deadLetterIdOf job.jobId :=
          hrow.deadLetterId.symm.trans (Table.key_of_get? hx)
        exact absurd (by simpa [deadLetterIdOf] using hkey) (hnone x hmem)
      · exact absurd hxid (hnone x hx)
      · exact ⟨letters, by rw [heq], (Table.insert?_eq_some_iff.1 hins).2⟩
    obtain ⟨letters, heq, hrows⟩ := hins
    rw [h.letters, if_pos hstatus, heq, hrows]
    simp [hstatus]
  · rw [h.letters, if_neg hstatus]
    simp [hstatus]

theorem step_failWrite (hi : RetryInv st) {p : PendingFail} (hp : p ∈ st.failing)
    (h : (failOp core p.request p.job).run st.store = .ok s') :
    RetryInv ⟨s', st.failing.erase p,
      st.accepted ++ [(p.request.jobId, p.request.retryable)]⟩ := by
  obtain ⟨j, j', heff⟩ := failOp_ok h
  obtain ⟨j₀, hj₀, hpend⟩ := hi.pending p hp
  obtain rfl : j₀ = j := Option.some.inj (hj₀.symm.trans heff.before)
  have hr := hi.row _ _ heff.before
  have howner := (RowStep.holdsLease_iff.1 heff.holds).2.1
  have hcount := hpend.current howner
  have hrow' := retryRow_of_failEffect heff hr hpend.maxRetries hcount
  have hlive := RuntimeJobStatus.isTerminal_of_isActive (RowStep.holdsLease_iff.1 heff.holds).1
  have hdead₀ : j₀.status ≠ .deadLettered := fun hd ↦ by
    simp [hd, RuntimeJobStatus.isTerminal] at hlive
  have hletters := mem_letters_of_failEffect heff hpend.jobId hi.letter hdead₀
  have hother {k : String} (hk : k ≠ p.request.jobId) : s'.job? k = st.store.job? k := by
    rw [heff.after, if_neg hk]
  have hself : s'.job? p.request.jobId = some j' := by rw [heff.after, if_pos rfl]
  refine ⟨fun id q hq ↦ ?_, fun id hq ↦ ?_, fun q hq ↦ ?_, fun d hd ↦ ?_, fun id q hq hdead ↦ ?_⟩
  · rw [acceptedFor_snoc]
    by_cases hid : id = p.request.jobId
    · subst hid
      obtain rfl : j' = q := Option.some.inj (hself.symm.trans hq)
      simpa using hrow'
    · rw [if_neg hid]
      exact hi.row id q (hother hid ▸ hq)
  · rw [acceptedFor_snoc]
    by_cases hid : id = p.request.jobId
    · subst hid
      rw [hself] at hq
      cases hq
    · rw [if_neg hid]
      exact hi.absent id (hother hid ▸ hq)
  · -- an accepted failure clears the lease, so no other request in flight holds it
    obtain ⟨q₀, hq₀, hrow⟩ := hi.pending q (List.mem_of_mem_erase hq)
    by_cases hid : q.request.jobId = p.request.jobId
    · obtain rfl : q₀ = j₀ := Option.some.inj (hq₀.symm.trans (hid ▸ hj₀))
      refine ⟨j', hid ▸ hself, hrow.jobId, heff.maxRetries ▸ hrow.maxRetries, fun howner' ↦ ?_⟩
      rw [heff.owner] at howner'
      cases howner'
    · exact ⟨q₀, (hother hid).trans hq₀, hrow⟩
  · rcases (hletters d).1 hd with hd | ⟨hstatus, rfl⟩
    · obtain ⟨q, hq, hrow⟩ := hi.letter d hd
      have hid : d.originalJobId ≠ p.request.jobId := fun hid ↦ by
        obtain rfl : q = j₀ := Option.some.inj (hq.symm.trans (hid ▸ hj₀))
        exact hdead₀ hrow.status
      exact ⟨q, (hother hid).trans hq, hrow⟩
    · have hdead := (hrow'.dead.1 (heff.status.trans hstatus)).1
      refine ⟨j', hpend.jobId ▸ hself, rfl, heff.status.trans hstatus, ?_⟩
      rw [← hrow'.count, heff.retryCount] at hdead
      have := hr.bound
      simp only [deadLetterOf, attemptOf, u32SaturatingAdd, u32Max, hcount]
      have := heff.maxRetries
      omega
  · by_cases hid : id = p.request.jobId
    · subst hid
      obtain rfl : j' = q := Option.some.inj (hself.symm.trans hq)
      exact ⟨_, (hletters _).2 (.inr ⟨heff.status.symm.trans hdead, rfl⟩), hpend.jobId⟩
    · obtain ⟨d, hd, hd'⟩ := hi.lettered id q (hother hid ▸ hq) hdead
      exact ⟨d, (hletters d).2 (.inl hd), hd'⟩

/-- **Step lemma.** -/
theorem step {op : ProtocolOp} (hi : RetryInv st) (h : ProtocolStep core st op st') :
    RetryInv st' := by
  cases h with
  | schedule h => exact hi.step_schedule h
  | scheduleRejected => exact hi
  | call hplain hfresh => exact hi.step_call hplain hfresh
  | failRead h => exact hi.step_failRead h
  | failReadRejected => exact hi
  | failWrite hp h => exact hi.step_failWrite hp h
  | failWriteRejected => exact hi.mono_failing fun _ ↦ List.mem_of_mem_erase
  | failAbandon => exact hi.mono_failing fun _ ↦ List.mem_of_mem_erase

end RetryInv

section Runs

variable {core : JobCore} {st st' : ProtocolState} {l : List ProtocolOp} {id : String}

theorem retryInv_of_run (h : Run (ProtocolStep core) .init l st) : RetryInv st :=
  h.invariant RetryInv.init fun _ _ _ hi hstep ↦ hi.step hstep

/-- A row comes from a schedule request and never changes its retry bound. -/
theorem maxRetries_of_step {op : ProtocolOp} {j' : RuntimeJobRecord}
    (h : ProtocolStep core st op st') (hj' : st'.store.job? id = some j') :
    (∃ j, st.store.job? id = some j ∧ j.maxRetries = j'.maxRetries) ∨
      (st.store.job? id = none ∧
        ∃ r now, op = .schedule r now ∧ r.jobId = id ∧ r.maxRetries = j'.maxRetries) := by
  cases h with
  | @schedule r now s' h =>
    obtain hrow | ⟨hnone, hrow, hid⟩ :=
      RetryInv.rowStep_scheduleOp (run_rowStep (RetryInv.schedule_ok h).2 id)
    · exact .inl ⟨j', (congrArg Row.job hrow).symm.trans hj', rfl⟩
    · obtain rfl : scheduledJob core r now = j' := Option.some.inj (hrow.symm.trans hj')
      exact .inr ⟨hnone, r, now, rfl, hid, rfl⟩
  | call hplain _ =>
    obtain hrow | ⟨j, q, hj, hq, hc⟩ := (exec_rowStep st.store _ id).plain hplain
    · exact .inl ⟨j', (congrArg Row.job hrow).symm.trans hj', rfl⟩
    · obtain rfl : q = j' := Option.some.inj (hq.symm.trans hj')
      exact .inl ⟨j, hj, hc.maxRetries.symm⟩
  | failWrite _ h =>
    obtain ⟨j, q, heff⟩ := failOp_ok h
    have hj' := (heff.after id).symm.trans hj'
    split at hj'
    · rename_i hid
      cases hj'
      exact .inl ⟨j, hid ▸ heff.before, heff.maxRetries.symm⟩
    · exact .inl ⟨j', hj', rfl⟩
  | scheduleRejected => exact .inl ⟨j', hj', rfl⟩
  | failRead => exact .inl ⟨j', hj', rfl⟩
  | failReadRejected => exact .inl ⟨j', hj', rfl⟩
  | failWriteRejected => exact .inl ⟨j', hj', rfl⟩
  | failAbandon => exact .inl ⟨j', hj', rfl⟩

theorem scheduled_of_run (h : Run (ProtocolStep core) .init l st) (j : RuntimeJobRecord)
    (hj : st.store.job? id = some j) :
    ∃ r now, .schedule r now ∈ l ∧ r.jobId = id ∧ r.maxRetries = j.maxRetries := by
  refine h.invariant_history (I := fun l st ↦ ∀ j, st.store.job? id = some j →
    ∃ r now, .schedule r now ∈ l ∧ r.jobId = id ∧ r.maxRetries = j.maxRetries)
    (fun _ hj ↦ by cases hj) (fun l t a u _ hi hstep j hj ↦ ?_) j hj
  obtain ⟨j₀, hj₀, hmax⟩ | ⟨-, r, now, rfl, hid, hmax⟩ := maxRetries_of_step hstep hj
  · obtain ⟨r, now, hmem, hid, hmax'⟩ := hi j₀ hj₀
    exact ⟨r, now, List.mem_append_left _ hmem, hid, hmax'.trans hmax⟩
  · exact ⟨r, now, List.mem_append_right _ List.mem_cons_self, hid, hmax⟩

/-- The log of accepted failures grows at the write of a fail request and nowhere else. -/
theorem accepted_of_step {op : ProtocolOp} (h : ProtocolStep core st op st') :
    st'.accepted = st.accepted ∨ ∃ p, op = .failWrite p ∧
      st'.accepted = st.accepted ++ [(p.request.jobId, p.request.retryable)] := by
  cases h with
  | @failWrite p => exact .inr ⟨p, rfl, rfl⟩
  | _ => exact .inl rfl

/-- **Retry accounting.** In every run of the job protocol, for every job: its retry bound is the
one it was scheduled with; its retry count is the number of accepted fail requests, and stays
within the bound while the job is queued, leased or running; it becomes dead-lettered exactly at
the accepted fail request that is the first beyond the bound and retryable; and a dead letter for
the job exists exactly when it is dead-lettered, and records that number of attempts. -/
theorem retry_accounting (h : Run (ProtocolStep core) .init l st) (j : RuntimeJobRecord)
    (hj : st.store.job? id = some j) :
    (∃ r now, .schedule r now ∈ l ∧ r.jobId = id ∧ r.maxRetries = j.maxRetries) ∧
    j.retryCount = (acceptedFor st.accepted id).length ∧
    (j.status = .queued ∨ j.status = .leased ∨ j.status = .running →
      j.retryCount ≤ j.maxRetries) ∧
    (j.status = .deadLettered ↔
      (acceptedFor st.accepted id).length = j.maxRetries + 1 ∧ (acceptedFor st.accepted id).getLast? = some true) ∧
    (∀ op st' j', ProtocolStep core st op st' → st'.store.job? id = some j' →
      j.status ≠ .deadLettered → (j'.status = .deadLettered ↔
        ∃ p, op = .failWrite p ∧ st'.accepted = st.accepted ++ [(id, true)] ∧
          (acceptedFor st'.accepted id).length = j.maxRetries + 1)) ∧
    ((∃ d ∈ st.store.deadLetters.rows, d.originalJobId = id) ↔ j.status = .deadLettered) ∧
    ∀ d ∈ st.store.deadLetters.rows, d.originalJobId = id → d.attempts = j.maxRetries + 1 := by
  have hi := retryInv_of_run h
  have hr := hi.row id j hj
  have hletter : ∀ d ∈ st.store.deadLetters.rows, d.originalJobId = id → LetterRow d j := by
    rintro d hd rfl
    obtain ⟨j₀, hj₀, hrow⟩ := hi.letter d hd
    exact Option.some.inj (hj₀.symm.trans hj) ▸ hrow
  refine ⟨scheduled_of_run h j hj, hr.count, fun hlive ↦ hr.live ?_, hr.dead,
    fun op st' j' hstep hj' hne ↦ ?_, ⟨fun ⟨d, hd, hid⟩ ↦ (hletter d hd hid).status, hi.lettered id j hj⟩,
    fun d hd hid ↦ (hletter d hd hid).attempts⟩
  · rcases hlive with h | h | h <;> rw [h] <;> rfl
  · have hr' := (hi.step hstep).row id j' hj'
    have hmax : j'.maxRetries = j.maxRetries := by
      obtain ⟨j₀, hj₀, hmax⟩ | ⟨hnone, -⟩ := maxRetries_of_step hstep hj'
      · exact hmax.symm.trans (congrArg _ (Option.some.inj (hj₀.symm.trans hj)))
      · rw [hj] at hnone
        cases hnone
    rw [hr'.dead, hmax]
    constructor
    · rintro ⟨hlen, hlast⟩
      have hgrow : acceptedFor st'.accepted id ≠ acceptedFor st.accepted id := fun heq ↦
        hne (hr.dead.2 (heq ▸ ⟨hlen, hlast⟩))
      obtain hsame | ⟨p, rfl, hsnoc⟩ := accepted_of_step hstep
      · exact absurd (by rw [hsame]) hgrow
      · rw [hsnoc, acceptedFor_snoc] at hgrow hlast
        have hid : id = p.request.jobId := by_contra fun hid ↦ hgrow (by rw [if_neg hid])
        rw [if_pos hid, List.getLast?_append, List.getLast?_singleton] at hlast
        have hret : p.request.retryable = true := by simpa using hlast
        exact ⟨p, rfl, by rw [hsnoc, hid, hret], hlen⟩
    · rintro ⟨p, -, hsnoc, hlen⟩
      refine ⟨hlen, ?_⟩
      simp [hsnoc, acceptedFor_snoc]

end Runs

/-! ### A job without retries that fails once -/

/-- A runtime core with an immediate retry. -/
def sampleCore : JobCore where
  defaultBackoffPolicy := ""
  defaultReplayPolicy := ""
  retryDelayMs _ _ _ _ := 0
  agentRunLifecycleJobId id := .ok ("agent_run.lifecycle:" ++ id)

/-- A job is scheduled without retries and claimed, and its worker reports a retryable failure. -/
def sampleScheduleRequest : ScheduleRequest :=
  ⟨"runtime.job.schedule.v1", "job_1", "worker.noop", 0, 0, "key_1", none, none, none⟩

@[inherit_doc sampleScheduleRequest]
def sampleClaim : JobOp :=
  .claimDue ⟨1, "worker:0", none, none, none, 1, 10⟩ ⟨[], fun _ ↦ "owner-0123456789"⟩

@[inherit_doc sampleScheduleRequest]
def sampleFailRequest : FailRequest :=
  ⟨"runtime.job.fail.v1", "job_1", "owner-0123456789", 5, "worker_failed", true⟩

/-- The stores of that run. -/
def sampleScheduled : JobStore := exec .empty (scheduleOp sampleCore sampleScheduleRequest 0)

@[inherit_doc sampleScheduled]
def sampleClaimed : JobStore := exec sampleScheduled sampleClaim

/-- The fail request in flight. -/
def sampleFailing : PendingFail :=
  ⟨sampleFailRequest, (sampleClaimed.job? "job_1").getD (sampleJob "job_1" "worker.noop")⟩

@[inherit_doc sampleScheduled]
def sampleFailed : JobStore :=
  exec sampleClaimed (failOp sampleCore sampleFailRequest sampleFailing.job)

theorem sampleRun : Run (ProtocolStep sampleCore) .init
    [.schedule sampleScheduleRequest 0, .call sampleClaim, .failRead sampleFailRequest,
      .failWrite sampleFailing]
    ⟨sampleFailed, [], [("job_1", true)]⟩ := by
  have h₁ : ProtocolStep sampleCore .init (.schedule sampleScheduleRequest 0)
      ⟨sampleScheduled, [], []⟩ := .schedule rfl
  have h₂ : ProtocolStep sampleCore ⟨sampleScheduled, [], []⟩ (.call sampleClaim)
      ⟨sampleClaimed, [], []⟩ := .call rfl fun _ _ _ _ hp ↦ by cases hp
  have h₃ : ProtocolStep sampleCore ⟨sampleClaimed, [], []⟩ (.failRead sampleFailRequest)
      ⟨sampleClaimed, [sampleFailing], []⟩ := .failRead rfl
  have h₄ : ProtocolStep sampleCore ⟨sampleClaimed, [sampleFailing], []⟩
      (.failWrite sampleFailing) ⟨sampleFailed, [], [("job_1", true)]⟩ := by
    simpa [sampleFailing, sampleFailRequest] using
      @ProtocolStep.failWrite sampleCore ⟨sampleClaimed, [sampleFailing], []⟩ sampleFailing
        sampleFailed List.mem_cons_self rfl
  exact (((Run.single h₁).snoc h₂).snoc h₃).snoc h₄

/-- The first failure is beyond the bound: the job is dead-lettered after one attempt. -/
theorem retry_accounting_without_retries :
    ∃ j, sampleFailed.job? "job_1" = some j ∧ j.status = .deadLettered ∧
      ∃ d ∈ sampleFailed.deadLetters.rows, d.originalJobId = "job_1" ∧ d.attempts = 1 := by
  obtain ⟨j, hj, hmax⟩ : ∃ j, sampleFailed.job? "job_1" = some j ∧ j.maxRetries = 0 :=
    ⟨_, rfl, rfl⟩
  obtain ⟨-, -, -, hdead, -, hletter, hattempts⟩ := retry_accounting sampleRun j hj
  have hstatus : j.status = .deadLettered := hdead.2 (by rw [hmax]; exact ⟨rfl, rfl⟩)
  obtain ⟨d, hd, hid⟩ := hletter.2 hstatus
  exact ⟨j, hj, hstatus, d, hd, hid, by rw [hattempts d hd hid, hmax]⟩

end Centaeris.Jobs
