import Centaeris.Jobs.Wake
import Centaeris.Supplement.Queue

/-!
# Interleaved calls on the supplement queue

Clients `ι` call the queue while jobs are claimed, reclaimed and ended and while cancellations are
requested. Everything a call does under the lock of the job row takes effect with its commit. A call
that tests for a cancellation passes that test first (`enter`) and waits for the lock; anything may
happen before it gets it.

The checks make sure that two calls on the queue of one run name the same job and so wait for the
same lock.

`QueueStep` says all that a step does to the queue of a run. It speaks of a `QueueView`, in which a
run without a queue has an empty one that accepts.
-/

namespace Centaeris.Supplement

open Machine Except
open Jobs (JobStore RuntimeJobRecord RuntimeEvent)
open Session (CheckpointRecord)

/-! ### States and steps -/

/-- A call that has passed its test for a cancellation. -/
inductive SupplementCall
  | enqueue (req : EnqueueTurnSupplementRequest)
  | claim (req : ClaimTurnSupplementsRequest)
  | acknowledge (req : AcknowledgeTurnSupplementsRequest)
  deriving DecidableEq

namespace SupplementCall

/-- The run whose queue is called. -/
def runId : SupplementCall → String
  | enqueue req => req.agentRunId
  | claim req => req.agentRunId
  | acknowledge req => req.agentRunId

/-- The call has passed the checks that need no database. -/
def Checked (core : SupplementCore) : SupplementCall → Prop
  | enqueue req => ∃ raw, checkEnqueue core raw = .ok req
  | claim req => checkClaim core req = .ok ()
  | acknowledge req => checkAcknowledge core req = .ok ()

end SupplementCall

/-- The committed rows and the calls in flight. -/
structure SupplementState (ι : Type) where
  store : SupplementStore
  calls : ι → Option SupplementCall

/-- What can happen next. -/
inductive SupplementOp (ι : Type)
  | enter (i : ι) (call : SupplementCall)
  /-- `sequence` is the next sequence that the call has read. -/
  | enqueue (i : ι) (req : EnqueueTurnSupplementRequest) (sequence : Nat)
      (result : EnqueueTurnSupplementResult)
  | claim (i : ι) (req : ClaimTurnSupplementsRequest) (claimed : List DurableTurnSupplement)
  | acknowledge (i : ι) (req : AcknowledgeTurnSupplementsRequest)
  | close (req : CloseTurnSupplementQueueRequest)
  | cancel (req : CancellationRequest) (isNew : Bool)
  | jobs (call : Jobs.Call)
  | event (e : RuntimeEvent)
  | checkpoints
  | abandon (i : ι)

/-- What the calls read of the queue of a run. -/
structure QueueView where
  /-- There is a row. -/
  stored : Bool
  nextSequence : Nat
  accepting : Bool
  entries : List DurableTurnSupplement
  dedupe : List (String × String)
  deriving DecidableEq

/-- The view of a row. -/
def StoredQueue.view (q : StoredQueue) : QueueView :=
  ⟨true, q.nextSequence, q.accepting, q.entries, q.dedupe⟩

/-- The queue of a run that has none. -/
def QueueView.unopened : QueueView := ⟨false, 1, true, [], []⟩

/-- The view of the queue of a run. -/
def SupplementStore.view (s : SupplementStore) (runId : String) : QueueView :=
  (s.queue? runId).elim .unopened StoredQueue.view

variable {ι : Type}

section Steps

variable [DecidableEq ι]

/-- The state when the call of `i` has ended with the store `s`. -/
def SupplementState.finish (σ : SupplementState ι) (i : ι) (s : SupplementStore) :
    SupplementState ι := ⟨s, Function.update σ.calls i none⟩

/-- One step. -/
inductive SupplementStep (core : SupplementCore) :
    SupplementState ι → SupplementOp ι → SupplementState ι → Prop
  | enter {σ : SupplementState ι} {i : ι} {call : SupplementCall} (hidle : σ.calls i = none)
      (hcheck : call.Checked core) (hopen : σ.store.cancelRequested call.runId = false) :
      SupplementStep core σ (.enter i call) { σ with calls := Function.update σ.calls i (some call) }
  | enqueue {σ : SupplementState ι} {i : ι} {req : EnqueueTurnSupplementRequest}
      {s : SupplementStore} {result : EnqueueTurnSupplementResult}
      (hcall : σ.calls i = some (.enqueue req))
      (h : enqueueLocked core σ.store req = .ok (s, result)) :
      SupplementStep core σ (.enqueue i req (σ.store.view req.agentRunId).nextSequence result)
        (σ.finish i s)
  | claim {σ : SupplementState ι} {i : ι} {req : ClaimTurnSupplementsRequest}
      {s : SupplementStore} {claimed : List DurableTurnSupplement}
      (hcall : σ.calls i = some (.claim req)) (h : claimLocked σ.store req = .ok (s, claimed)) :
      SupplementStep core σ (.claim i req claimed) (σ.finish i s)
  | acknowledge {σ : SupplementState ι} {i : ι} {req : AcknowledgeTurnSupplementsRequest}
      {s : SupplementStore} (hcall : σ.calls i = some (.acknowledge req))
      (h : acknowledgeLocked σ.store req = .ok s) :
      SupplementStep core σ (.acknowledge i req) (σ.finish i s)
  | close {σ : SupplementState ι} {req : CloseTurnSupplementQueueRequest} {s : SupplementStore}
      (h : closeTurnSupplementQueue core σ.store req = .ok s) :
      SupplementStep core σ (.close req) { σ with store := s }
  | cancel {σ : SupplementState ι} {req : CancellationRequest} {s : SupplementStore}
      {isNew : Bool} (h : requestAgentRunCancellation core σ.store req = .ok (s, isNew)) :
      SupplementStep core σ (.cancel req isNew) { σ with store := s }
  /-- A call on the job store. -/
  | jobs {σ : SupplementState ι} {call : Jobs.Call} (hstore : call.store = σ.store.jobs) :
      SupplementStep core σ (.jobs call)
        { σ with store := { σ.store with jobs := Jobs.exec call.store call.op } }
  /-- Another part of the server records an event. -/
  | event {σ : SupplementState ι} {e : RuntimeEvent} {events : Table RuntimeEvent.eventId}
      (h : σ.store.jobs.runtimeEvents.insert? e = some events) :
      SupplementStep core σ (.event e)
        { σ with store := { σ.store with jobs := { σ.store.jobs with runtimeEvents := events } } }
  /-- Another part of the server writes checkpoints. -/
  | checkpoints {σ : SupplementState ι} (checkpoints : Table CheckpointRecord.checkpointId) :
      SupplementStep core σ .checkpoints { σ with store := { σ.store with checkpoints } }
  /-- A call in flight ends without effect: it is refused, or its client is gone. -/
  | abandon {σ : SupplementState ι} {i : ι} :
      SupplementStep core σ (.abandon i) (σ.finish i σ.store)

end Steps

/-! ### Statements -/

/-- The statement wrote the queue of one run and nothing else: it is `q` now. -/
structure WritesQueue (s s' : SupplementStore) (runId : String) (q : StoredQueue) : Prop where
  queue : s'.queue? runId = some q
  others (k : String) : k ≠ runId → s'.queue? k = s.queue? k
  jobs : s'.jobs = s.jobs
  checkpoints : s'.checkpoints = s.checkpoints

theorem writesQueue_insertQueue {s s' : SupplementStore} {q : StoredQueue}
    (h : insertQueue s q = .ok s') : WritesQueue s s' q.agentRunId q := by
  obtain ⟨-, h⟩ := require_bind.1 h
  obtain ⟨queues, hqueues, h⟩ := okOr_bind.1 h
  cases h
  refine ⟨?_, fun k hk ↦ ?_, rfl, rfl⟩
  · show queues.get? q.agentRunId = some q
    rw [Table.get?_of_insert? hqueues, if_pos (show q.runId = q.agentRunId from rfl)]
  · show queues.get? k = s.queues.get? k
    rw [Table.get?_of_insert? hqueues, if_neg (show ¬q.runId = k from Ne.symm hk)]

theorem writesQueue_casQueue {s s' : SupplementStore} {runId : String} {q : StoredQueue}
    {set : StoredQueue → StoredQueue} {hset : ∀ q, (set q).runId = q.runId}
    (hq : s.queue? runId = some q) (h : casQueue s runId q.revision set hset = .ok s') :
    WritesQueue s s' runId (set q) := by
  obtain ⟨_, -, h⟩ := bind_eq_ok.1 h
  obtain ⟨-, h⟩ := require_bind.1 h
  cases h
  have hrun : q.runId = runId := Table.key_of_get? hq
  refine ⟨?_, fun k hk ↦ ?_, rfl, rfl⟩
  · show Table.get? _ _ = _
    rw [Table.get?_update, show s.queues.get? runId = some q from hq]
    simp [hrun]
  · show Table.get? _ _ = s.queues.get? k
    rw [Table.get?_update]
    cases hk' : s.queues.get? k with
    | none => rfl
    | some x =>
      have hx : x.runId = k := Table.key_of_get? hk'
      simp [hx, hk]

/-- The compare-and-swap of `update_queue` meets the row that the call has loaded. -/
theorem writesQueue_updateQueue {s s' : SupplementStore} {runId : String} {q q' : StoredQueue}
    {atMs : Int} (hq : s.queue? runId = some q) (h : updateQueue s q' atMs = .ok s')
    (hrun : q'.agentRunId = q.agentRunId) (hrevision : q'.revision = q.revision) :
    WritesQueue s s' runId (assignQueue q' atMs q) := by
  have hkey : q.runId = runId := Table.key_of_get? hq
  unfold updateQueue at h
  rw [hrun, show q.agentRunId = runId from hkey] at h
  simp only [hrevision] at h
  exact writesQueue_casQueue hq h

namespace WritesQueue

variable {s s' : SupplementStore} {runId : String} {q : StoredQueue}

theorem view_eq (h : WritesQueue s s' runId q) : s'.view runId = q.view := by
  rw [SupplementStore.view, h.queue]; rfl

theorem view_of_ne (h : WritesQueue s s' runId q) {k : String} (hk : k ≠ runId) :
    s'.view k = s.view k := by
  rw [SupplementStore.view, h.others k hk]; rfl

end WritesQueue

theorem SupplementStore.view_of_some {s : SupplementStore} {runId : String} {q : StoredQueue}
    (h : s.queue? runId = some q) : s.view runId = q.view := by
  rw [SupplementStore.view, h]; rfl

theorem SupplementStore.view_of_none {s : SupplementStore} {runId : String}
    (h : s.queue? runId = none) : s.view runId = .unopened := by
  rw [SupplementStore.view, h]; rfl

/-! ### What a step does to a queue -/

/-- The run whose queue the step is about. -/
def SupplementOp.runId? : SupplementOp ι → Option String
  | enqueue _ req _ _ => some req.agentRunId
  | claim _ req _ => some req.agentRunId
  | acknowledge _ req => some req.agentRunId
  | close req => some req.agentRunId
  | cancel req _ => some req.agentRunId
  | enter _ _ | jobs _ | event _ | checkpoints | abandon _ => none

/-- The queue with a new entry. -/
def QueueView.push (v : QueueView) (e : DurableTurnSupplement) (digest : String) : QueueView :=
  { v with
    stored := true, nextSequence := v.nextSequence + 1, entries := v.entries ++ [e],
    dedupe := v.dedupe ++ [(e.supplementId, digest)] }

/-- The queue after it is closed. -/
def QueueView.closed (v : QueueView) : QueueView :=
  { v with stored := true, accepting := false, entries := [] }

/-- The queue with other entries. -/
def QueueView.setEntries (v : QueueView) (entries : List DurableTurnSupplement) : QueueView :=
  { v with entries }

/-- **All that a step does to the queue of a run.** -/
inductive QueueStep (runId : String) : SupplementOp ι → QueueView → QueueView → Prop
  /-- The step is about another run, or about no queue. -/
  | other {a : SupplementOp ι} {v : QueueView} (h : a.runId? ≠ some runId) : QueueStep runId a v v
  | pushed {i : ι} {req : EnqueueTurnSupplementRequest} {result : EnqueueTurnSupplementResult}
      {v : QueueView} {digest : String} (hrun : req.agentRunId = runId)
      (haccepted : result.disposition = .accepted) (hopen : v.accepting)
      (hnew : v.dedupe.lookup req.supplementId = none) :
      QueueStep runId (.enqueue i req v.nextSequence result) v
        (v.push (req.entry v.nextSequence) digest)
  | duplicate {i : ι} {req : EnqueueTurnSupplementRequest} {sequence : Nat}
      {result : EnqueueTurnSupplementResult} {v : QueueView}
      (hduplicate : result.disposition = .duplicate) :
      QueueStep runId (.enqueue i req sequence result) v v
  | claimed {i : ι} {req : ClaimTurnSupplementsRequest} {claimed entries : List DurableTurnSupplement}
      {v : QueueView} (hrun : req.agentRunId = runId)
      (hclaim : claimEntries req 0 v.entries = .ok (entries, claimed)) :
      QueueStep runId (.claim i req claimed) v (v.setEntries entries)
  /-- A claim found the queue empty and closed it. -/
  | safePoint {i : ι} {req : ClaimTurnSupplementsRequest} {v : QueueView}
      (hrun : req.agentRunId = runId) (hempty : v.entries = []) :
      QueueStep runId (.claim i req []) v v.closed
  | acknowledged {i : ι} {req : AcknowledgeTurnSupplementsRequest} {v : QueueView}
      (hrun : req.agentRunId = runId)
      (hholds : ∀ e ∈ v.entries, e.supplementId ∈ req.supplementIds → req.holds e) :
      QueueStep runId (.acknowledge i req) v
        (v.setEntries (v.entries.filter fun e ↦ decide (e.supplementId ∉ req.supplementIds)))
  | closed {req : CloseTurnSupplementQueueRequest} {v : QueueView} (hrun : req.agentRunId = runId) :
      QueueStep runId (.close req) v v.closed
  | cancelled {req : CancellationRequest} {isNew : Bool} {v : QueueView}
      (hrun : req.agentRunId = runId) (hstored : v.stored) :
      QueueStep runId (.cancel req isNew) v v.closed
  /-- A cancellation found no queue, or one that did not accept. -/
  | notCancelled {req : CancellationRequest} {isNew : Bool} {v : QueueView}
      (h : v.stored = false ∨ v.accepting = false) : QueueStep runId (.cancel req isNew) v v

theorem WritesQueue.queueStep {s s' : SupplementStore} {k runId : String} {q : StoredQueue}
    {a : SupplementOp ι} (h : WritesQueue s s' k q) (ha : a.runId? = some k)
    (hstep : k = runId → QueueStep runId a (s.view runId) q.view) :
    QueueStep runId a (s.view runId) (s'.view runId) := by
  by_cases hk : k = runId
  · rw [show s'.view runId = q.view from hk ▸ h.view_eq]
    exact hstep hk
  · rw [h.view_of_ne (Ne.symm hk)]
    exact .other (by rw [ha]; simpa using hk)

/-- A write of the job tables is not seen in the queues. -/
theorem queueStep_of_queues {s s' t : SupplementStore} {runId : String} {a : SupplementOp ι}
    (h : QueueStep runId a (s.view runId) (s'.view runId)) (hqueues : t.queues = s'.queues) :
    QueueStep runId a (s.view runId) (t.view runId) := by
  have : t.view runId = s'.view runId := by simp [SupplementStore.view, SupplementStore.queue?, hqueues]
  rwa [this]

theorem claimEntries_eq_nil {req : ClaimTurnSupplementsRequest} {n : Nat}
    {entries claimed : List DurableTurnSupplement}
    (h : claimEntries req n entries = .ok ([], claimed)) : entries = [] ∧ claimed = [] := by
  cases entries with
  | nil => cases h; exact ⟨rfl, rfl⟩
  | cons e rest =>
    unfold claimEntries at h
    split_ifs at h
    · obtain ⟨_, -, h⟩ := map_eq_ok.1 h; cases h
    · cases h
    · obtain ⟨_, -, h⟩ := map_eq_ok.1 h; cases h

/-- A claim that gets nothing changes nothing. -/
theorem claimEntries_eq_self {req : ClaimTurnSupplementsRequest} {n : Nat}
    {entries entries' : List DurableTurnSupplement}
    (h : claimEntries req n entries = .ok (entries', [])) : entries' = entries := by
  induction entries generalizing entries' with
  | nil => cases h; rfl
  | cons e rest ih =>
    unfold claimEntries at h
    split_ifs at h
    · obtain ⟨⟨rest', claimed⟩, hrest, h⟩ := map_eq_ok.1 h
      obtain ⟨rfl, rfl⟩ := Prod.mk.inj h
      rw [ih hrest]
    · cases h
    · obtain ⟨_, -, h⟩ := map_eq_ok.1 h; cases h

/-- The write of an accepted supplement. -/
theorem writesQueue_writePushed {core : SupplementCore} {s s' : SupplementStore}
    {req : EnqueueTurnSupplementRequest} {q : StoredQueue}
    (hq : q = (s.queue? req.agentRunId).getD (unopenedQueue req))
    (h : writePushed s q.revision (pushEntry core req q) = .ok s') :
    ∃ q', WritesQueue s s' req.agentRunId q' ∧ q'.view = (pushEntry core req q).view := by
  have hrun : q.agentRunId = req.agentRunId := by
    cases hs : s.queue? req.agentRunId with
    | none => rw [hs] at hq; rw [hq]; rfl
    | some x => rw [hs] at hq; exact hq ▸ (Table.key_of_get? hs : x.runId = _)
  unfold writePushed at h
  split_ifs at h with hzero
  · exact ⟨_, hrun ▸ writesQueue_insertQueue h, rfl⟩
  · cases hs : s.queue? req.agentRunId with
    | none => rw [hs] at hq; exact absurd (by rw [hq]; rfl) hzero
    | some x =>
      obtain rfl : q = x := by rw [hs] at hq; exact hq
      rw [show (pushEntry core req q).agentRunId = req.agentRunId from hrun] at h
      exact ⟨_, writesQueue_casQueue hs h, rfl⟩

theorem view_getD_unopenedQueue (s : SupplementStore) (req : EnqueueTurnSupplementRequest) :
    ((s.queue? req.agentRunId).getD (unopenedQueue req)).view =
      { s.view req.agentRunId with stored := true } := by
  unfold SupplementStore.view
  cases s.queue? req.agentRunId <;> rfl

theorem enqueueLocked_queueStep {core : SupplementCore} {s s' : SupplementStore}
    {req : EnqueueTurnSupplementRequest} {result : EnqueueTurnSupplementResult} (i : ι)
    (h : enqueueLocked core s req = .ok (s', result)) (runId : String) :
    QueueStep runId (.enqueue i req (s.view req.agentRunId).nextSequence result)
      (s.view runId) (s'.view runId) := by
  obtain ⟨_, -, h⟩ := bind_eq_ok.1 h
  obtain ⟨_, -, h⟩ := bind_eq_ok.1 h
  have hview := view_getD_unopenedQueue s req
  generalize hq : (s.queue? req.agentRunId).getD (unopenedQueue req) = q at h hview
  obtain ⟨hnext, haccepting, hentries, hdedupe⟩ :
      q.nextSequence = (s.view req.agentRunId).nextSequence ∧
      q.accepting = (s.view req.agentRunId).accepting ∧
      q.entries = (s.view req.agentRunId).entries ∧ q.dedupe = (s.view req.agentRunId).dedupe := by
    simpa [StoredQueue.view] using hview
  unfold enqueueInto at h
  split at h
  case h_1 existing hlookup =>
    obtain ⟨-, h⟩ := require_bind.1 h
    cases h
    exact .duplicate rfl
  case h_2 hlookup =>
    obtain ⟨hopen, h⟩ := require_bind.1 h
    obtain ⟨-, h⟩ := require_bind.1 h
    obtain ⟨s₁, hs₁, h⟩ := bind_eq_ok.1 h
    cases h
    obtain ⟨_, -, hs₁⟩ := bind_eq_ok.1 hs₁
    obtain ⟨_, -, hs₁⟩ := bind_eq_ok.1 hs₁
    obtain ⟨s₂, hs₂, hs₁⟩ := bind_eq_ok.1 hs₁
    cases hs₁
    obtain ⟨q', hwrites, hq'⟩ := writesQueue_writePushed hq.symm hs₂
    refine queueStep_of_queues (hwrites.queueStep rfl fun hk ↦ ?_) rfl
    subst hk
    have hpush : q'.view = (s.view req.agentRunId).push (req.entry (s.view req.agentRunId).nextSequence)
        (core.turnSupplementMessageDigest req.message) := by
      rw [hq']
      simp [StoredQueue.view, pushEntry, QueueView.push, hnext, haccepting, hentries, hdedupe,
        EnqueueTurnSupplementRequest.entry]
    rw [hpush]
    exact .pushed rfl rfl (haccepting ▸ hopen) (hdedupe ▸ hlookup)

theorem claimLocked_queueStep {s s' : SupplementStore} {req : ClaimTurnSupplementsRequest}
    {claimed : List DurableTurnSupplement} (i : ι) (h : claimLocked s req = .ok (s', claimed))
    (runId : String) : QueueStep runId (.claim i req claimed) (s.view runId) (s'.view runId) := by
  obtain ⟨_, -, h⟩ := bind_eq_ok.1 h
  split at h
  case h_1 hnone =>
    split_ifs at h with hclose
    · obtain ⟨s₁, hs₁, h⟩ := bind_eq_ok.1 h
      cases h
      refine (writesQueue_insertQueue hs₁).queueStep rfl fun hk ↦ ?_
      subst hk
      have hnone' := SupplementStore.view_of_none hnone
      have hempty : (s.view req.agentRunId).entries = [] := by rw [hnone']; rfl
      have hclosed : (closedQueue req.toSupplementIdentity "safe_point_closed" req.nowMs).view =
          (s.view req.agentRunId).closed := by rw [hnone']; rfl
      exact hclosed ▸ .safePoint rfl hempty
    · cases h
      by_cases hk : req.agentRunId = runId
      · subst hk
        rw [SupplementStore.view_of_none hnone]
        exact .claimed rfl (v := .unopened) rfl
      · exact .other (by simpa [SupplementOp.runId?] using hk)
  case h_2 q hq =>
    obtain ⟨_, -, h⟩ := bind_eq_ok.1 h
    obtain ⟨⟨entries, claimed'⟩, hclaim, h⟩ := bind_eq_ok.1 h
    obtain ⟨s₁, hs₁, h⟩ := bind_eq_ok.1 h
    cases h
    have hv := SupplementStore.view_of_some hq
    unfold storeClaimed at hs₁
    by_cases hwrite : claimed ≠ [] ∨ (req.closeIfEmpty && entries.isEmpty) = true
    · rw [if_pos hwrite] at hs₁
      refine (writesQueue_updateQueue hq hs₁ rfl rfl).queueStep rfl fun hk ↦ ?_
      subst hk
      rw [hv]
      cases hclose : req.closeIfEmpty && entries.isEmpty with
      | true =>
        obtain rfl : entries = [] := by simpa using (Bool.and_eq_true_iff.1 hclose).2
        obtain ⟨hempty, rfl⟩ := claimEntries_eq_nil hclaim
        exact .safePoint (v := q.view) rfl hempty
      | false => exact .claimed (v := q.view) rfl hclaim
    · rw [if_neg hwrite] at hs₁
      cases hs₁
      obtain rfl : claimed = [] := by
        by_contra hne
        exact hwrite (.inl hne)
      obtain rfl := claimEntries_eq_self hclaim
      by_cases hk : req.agentRunId = runId
      · subst hk
        rw [hv]
        exact .claimed (v := q.view) rfl hclaim
      · exact .other (by simpa [SupplementOp.runId?] using hk)

theorem acknowledgeLocked_queueStep {s s' : SupplementStore}
    {req : AcknowledgeTurnSupplementsRequest} (i : ι) (h : acknowledgeLocked s req = .ok s')
    (runId : String) : QueueStep runId (.acknowledge i req) (s.view runId) (s'.view runId) := by
  obtain ⟨_, -, h⟩ := bind_eq_ok.1 h
  obtain ⟨q, hq, h⟩ := okOr_bind.1 h
  have hv := SupplementStore.view_of_some hq
  dsimp only at h
  split_ifs at h with hnone
  · cases h
    by_cases hk : req.agentRunId = runId
    · subst hk
      -- nothing was asked for that is still there
      have hfree : ∀ e ∈ q.entries, e.supplementId ∉ req.supplementIds := by
        simpa [List.filter_eq_nil_iff] using hnone
      have hsame : (q.entries.filter fun e ↦ decide (e.supplementId ∉ req.supplementIds)) =
          q.entries := List.filter_eq_self.2 fun e he ↦ decide_eq_true (hfree e he)
      have hstep : QueueStep req.agentRunId (.acknowledge i req) q.view
          (q.view.setEntries (q.entries.filter fun e ↦ decide (e.supplementId ∉ req.supplementIds))) :=
        .acknowledged (v := q.view) rfl fun e he hid ↦ absurd hid (hfree e he)
      rw [hsame] at hstep
      rw [hv]
      exact hstep
    · exact .other (by simpa [SupplementOp.runId?] using hk)
  · obtain ⟨⟨-, hholds⟩, h⟩ := require_bind.1 h
    refine (writesQueue_updateQueue hq h rfl rfl).queueStep rfl fun hk ↦ ?_
    subst hk
    rw [hv]
    exact .acknowledged (v := q.view) rfl fun e he hid ↦
      hholds e (List.mem_filter.2 ⟨he, decide_eq_true hid⟩)

theorem closeTurnSupplementQueue_queueStep {core : SupplementCore} {s s' : SupplementStore}
    {req : CloseTurnSupplementQueueRequest} (h : closeTurnSupplementQueue core s req = .ok s')
    (runId : String) :
    QueueStep runId (.close req : SupplementOp ι) (s.view runId) (s'.view runId) := by
  obtain ⟨_, -, h⟩ := bind_eq_ok.1 h
  obtain ⟨-, h⟩ := require_bind.1 h
  obtain ⟨_, -, h⟩ := bind_eq_ok.1 h
  split at h
  case h_1 q hq =>
    obtain ⟨_, -, h⟩ := bind_eq_ok.1 h
    refine (writesQueue_updateQueue hq h rfl rfl).queueStep rfl fun hk ↦ ?_
    subst hk
    rw [SupplementStore.view_of_some hq]
    exact .closed (v := q.view) rfl
  case h_2 hnone =>
    refine (writesQueue_insertQueue h).queueStep rfl fun hk ↦ ?_
    subst hk
    show QueueStep req.agentRunId _ (s.view req.agentRunId) _
    rw [SupplementStore.view_of_none hnone]
    exact .closed (v := .unopened) rfl

/-- **A cancellation request that is granted, taken apart.** -/
structure Cancelled (core : SupplementCore) (s s' : SupplementStore) (req : CancellationRequest) :
    Prop where
  /-- The request is on record. -/
  requested : s'.cancelRequested req.agentRunId
  /-- No event is lost. -/
  events : ∀ e ∈ s.jobs.runtimeEvents.rows, e ∈ s'.jobs.runtimeEvents.rows
  owner (id : String) :
    (s'.jobs.job? id).bind (·.leaseOwner) = (s.jobs.job? id).bind (·.leaseOwner)
  queues : s'.queues = s.queues.update (fun q ↦ decide (q.runId = req.agentRunId) && q.accepting)
    (cancelQueue req.requestedAtMs) (cancelQueue_runId req.requestedAtMs)

/-- Making a job due leaves the owner of every lease. -/
theorem owner_makeDue (jobs : JobStore) (jobId : String) (atMs : Int) (id : String) :
    ((makeDue jobs jobId atMs).job? id).bind (·.leaseOwner) =
      (jobs.job? id).bind (·.leaseOwner) := by
  unfold makeDue JobStore.job?
  rw [Table.get?_update]
  cases jobs.runtimeJobs.get? id with
  | none => rfl
  | some j =>
    show (if _ then dueBy atMs j else j).leaseOwner = j.leaseOwner
    split <;> rfl

theorem requestAgentRunCancellation_ok {core : SupplementCore} {s s' : SupplementStore}
    {req : CancellationRequest} {isNew : Bool}
    (h : requestAgentRunCancellation core s req = .ok (s', isNew)) : Cancelled core s s' req := by
  obtain ⟨jobId, -, h⟩ := bind_eq_ok.1 h
  obtain ⟨job, -, h⟩ := okOr_bind.1 h
  obtain ⟨-, h⟩ := require_bind.1 h
  obtain ⟨-, h⟩ := require_bind.1 h
  obtain ⟨stored, hstored, h⟩ := okOr_bind.1 h
  obtain ⟨hmatches, h⟩ := require_bind.1 h
  cases h
  refine ⟨?_, fun e he ↦ ?_, fun id ↦ owner_makeDue _ _ _ _, rfl⟩
  · show ((s.jobs.runtimeEvents.insertIgnore req.event).get? _).any _ = true
    rw [show (s.jobs.runtimeEvents.insertIgnore req.event).get?
      ("agent_run_cancel_requested:" ++ req.agentRunId) = some stored from hstored]
    exact decide_eq_true hmatches.2.2.1
  · show e ∈ (s.jobs.runtimeEvents.insertIgnore req.event).rows
    have := Table.get?_of_mem he
    refine Table.mem_of_get? (k := e.eventId) ?_
    rw [Table.get?_insertIgnore, this]
    rfl

theorem Cancelled.queueStep {core : SupplementCore} {s s' : SupplementStore}
    {req : CancellationRequest} (h : Cancelled core s s' req) (isNew : Bool) (runId : String) :
    QueueStep runId (.cancel req isNew : SupplementOp ι) (s.view runId) (s'.view runId) := by
  have hget : s'.queue? runId = (s.queue? runId).map fun q ↦
      if decide (q.runId = req.agentRunId) && q.accepting then cancelQueue req.requestedAtMs q
      else q := by
    show s'.queues.get? runId = _
    rw [h.queues, Table.get?_update]
    rfl
  cases hq : s.queue? runId with
  | none =>
    rw [SupplementStore.view_of_none hq, SupplementStore.view_of_none (by rw [hget, hq]; rfl)]
    exact .notCancelled (.inl rfl)
  | some q =>
    have hrun : q.runId = runId := Table.key_of_get? hq
    rw [hq, Option.map_some, hrun] at hget
    rw [SupplementStore.view_of_some hq, SupplementStore.view_of_some hget]
    by_cases hk : req.agentRunId = runId
    · cases hopen : q.accepting with
      | true =>
        rw [if_pos (by simp [hk])]
        exact .cancelled (v := q.view) hk rfl
      | false =>
        rw [if_neg (by simp)]
        exact .notCancelled (.inr hopen)
    · rw [if_neg (by simp [Ne.symm hk])]
      exact .other (by simpa [SupplementOp.runId?] using hk)

/-- **Every step is a `QueueStep` of every queue.** -/
theorem SupplementStep.queueStep [DecidableEq ι] {core : SupplementCore} {σ τ : SupplementState ι}
    {a : SupplementOp ι} (h : SupplementStep core σ a τ) (runId : String) :
    QueueStep runId a (σ.store.view runId) (τ.store.view runId) := by
  cases h with
  | enqueue _ h => exact enqueueLocked_queueStep _ h runId
  | claim _ h => exact claimLocked_queueStep _ h runId
  | acknowledge _ h => exact acknowledgeLocked_queueStep _ h runId
  | close h => exact closeTurnSupplementQueue_queueStep h runId
  | cancel h => exact (requestAgentRunCancellation_ok h).queueStep _ runId
  | enter | jobs | event | checkpoints | abandon => exact .other nofun

end Centaeris.Supplement
