import Centaeris.Supplement.Delivery

/-!
# Cancellation and supplements

`request_agent_run_cancellation` closes the supplement queue of a run, if there is one. An enqueue
tests for a cancellation before it waits for the lock, and creates the queue when it finds none. So
an enqueue that has passed its test, then waits while a cancellation commits, opens a queue for a
cancelled run (`accepted_after_cancellation`).

That is the only way. `closed_of_cancelled`: once a cancellation has committed while the run had a
queue, or while no enqueue was between its test and its commit, nothing is accepted for the run and
it has no accepting queue, whatever happens.
-/

namespace Centaeris.Supplement

open Machine Except
open Jobs (JobStore RuntimeEvent)

variable {ι : Type}

/-- No call between its test and its commit is an enqueue for the run. -/
def SupplementState.NoEnqueue (σ : SupplementState ι) (runId : String) : Prop :=
  ∀ i req, σ.calls i = some (.enqueue req) → req.agentRunId ≠ runId

/-- **When a cancellation closes admission**: the run has a queue, or no enqueue for it is past its
test. -/
def SupplementState.CanClose (σ : SupplementState ι) (runId : String) : Prop :=
  (σ.store.queue? runId).isSome ∨ σ.NoEnqueue runId

section Steps

variable [DecidableEq ι] {core : SupplementCore} {σ τ : SupplementState ι} {a : SupplementOp ι}

/-- Events are never deleted. -/
theorem SupplementStep.mem_events (h : SupplementStep core σ a τ) {e : RuntimeEvent}
    (he : e ∈ σ.store.jobs.runtimeEvents.rows) : e ∈ τ.store.jobs.runtimeEvents.rows := by
  cases h with
  | enter | checkpoints | abandon => exact he
  | @enqueue _ _ s _ _ h =>
    show e ∈ s.jobs.runtimeEvents.rows
    rcases enqueueLocked_jobs h with hjobs | hjobs
    · rw [hjobs]
      exact he
    · rw [hjobs]
      exact he
  | claim _ h => exact (claimLocked_jobs h).1 ▸ he
  | acknowledge _ h => exact acknowledgeLocked_jobs h ▸ he
  | close h => exact closeTurnSupplementQueue_jobs h ▸ he
  | cancel h => exact (requestAgentRunCancellation_ok h).events e he
  | jobs hstore => exact Jobs.mem_events_of_exec _ (hstore ▸ he)
  | event h =>
    show e ∈ Table.rows _
    rw [(Table.insert?_eq_some_iff.1 h).2]
    exact List.mem_append_left _ he

/-- A request for a cancellation stays on record. -/
theorem SupplementStep.cancelRequested (h : SupplementStep core σ a τ) {runId : String}
    (hc : σ.store.cancelRequested runId) : τ.store.cancelRequested runId := by
  obtain ⟨e, he, htype⟩ := (Option.any_eq_true _ _).1 hc
  have hmem := h.mem_events (Table.mem_of_get? he)
  refine (Option.any_eq_true _ _).2 ⟨e, ?_, htype⟩
  rw [← show e.eventId = _ from Table.key_of_get? he]
  exact Table.get?_of_mem hmem

/-- An enqueue that has not passed its test before a cancellation does not pass it after. -/
theorem SupplementStep.noEnqueue (h : SupplementStep core σ a τ) {runId : String}
    (hc : σ.store.cancelRequested runId) (hn : σ.NoEnqueue runId) : τ.NoEnqueue runId := by
  have finish (i : ι) (s : SupplementStore) : (σ.finish i s).NoEnqueue runId := by
    intro j req hj
    by_cases hji : j = i
    · rw [hji] at hj
      simp [SupplementState.finish] at hj
    · exact hn j req (by simpa [SupplementState.finish, hji] using hj)
  cases h with
  | @enter i call _ _ hopen =>
    intro j req hj
    by_cases hji : j = i
    · rw [hji] at hj
      obtain rfl : call = .enqueue req := by simpa using hj
      rintro rfl
      rw [show σ.store.cancelRequested req.agentRunId = false from hopen] at hc
      cases hc
    · exact hn j req (by simpa [hji] using hj)
  | enqueue | claim | acknowledge | abandon => exact finish _ _
  | close | cancel | jobs | event | checkpoints => exact hn

/-- **Admission is closed**: the cancellation is on record, and the queue of the run is closed, or
there is none and nobody is about to open it. -/
def SupplementState.Closed (σ : SupplementState ι) (runId : String) : Prop :=
  σ.store.cancelRequested runId ∧
    ((σ.store.view runId).stored = true ∧ (σ.store.view runId).accepting = false ∨
      (σ.store.view runId).stored = false ∧ σ.NoEnqueue runId)

/-- **Closed admission stays closed**, and lets nothing through. -/
theorem SupplementState.Closed.step {runId : String} (hi : σ.Closed runId)
    (h : SupplementStep core σ a τ) : a.acceptance runId = none ∧ τ.Closed runId := by
  obtain ⟨hc, ⟨hs, hclosed⟩ | ⟨hs, hn⟩⟩ := hi
  · obtain ⟨hs', hclosed', hnone⟩ := (h.queueStep runId).closed_stays hs hclosed
    exact ⟨hnone, h.cancelRequested hc, .inl ⟨hs', hclosed'⟩⟩
  · have hc' := h.cancelRequested hc
    have hn' := h.noEnqueue hc hn
    have hstep := h.queueStep runId
    unfold SupplementState.Closed
    generalize τ.store.view runId = v' at hstep
    generalize hv : σ.store.view runId = v at hstep hs
    cases hstep with
    | other hne => exact ⟨SupplementOp.acceptance_of_ne hne, hc', .inr ⟨hs, hn'⟩⟩
    | @pushed i req result _ _ hrun =>
      -- nobody was about to open the queue
      generalize v.nextSequence = sequence at h
      cases h with
      | enqueue hcall _ => exact absurd hrun (hn i req hcall)
    | duplicate hd => exact ⟨SupplementOp.acceptance_of_duplicate hd runId, hc', .inr ⟨hs, hn'⟩⟩
    | claimed | acknowledged | notCancelled => exact ⟨rfl, hc', .inr ⟨hs, hn'⟩⟩
    | safePoint | closed | cancelled => exact ⟨rfl, hc', .inl ⟨rfl, rfl⟩⟩

/-- A cancellation that can close admission does. -/
theorem SupplementStep.closed_of_cancel {req : CancellationRequest} {isNew : Bool}
    (h : SupplementStep core σ (.cancel req isNew) τ) (hcan : σ.CanClose req.agentRunId) :
    τ.Closed req.agentRunId := by
  have hstep := h.queueStep req.agentRunId
  have hrequested : τ.store.cancelRequested req.agentRunId := by
    cases h with
    | cancel h => exact (requestAgentRunCancellation_ok h).requested
  have hcalls : τ.calls = σ.calls := by
    cases h with
    | cancel h => rfl
  refine ⟨hrequested, ?_⟩
  generalize τ.store.view req.agentRunId = v' at hstep
  cases hstep with
  | other hne => exact absurd rfl hne
  | cancelled => exact .inl ⟨rfl, rfl⟩
  | notCancelled hnot =>
    cases hs : (σ.store.view req.agentRunId).stored with
    | true =>
      refine .inl ⟨rfl, hnot.resolve_left ?_⟩
      rw [hs]
      exact Bool.noConfusion
    | false =>
      refine .inr ⟨rfl, ?_⟩
      rcases hcan with hsome | hn
      · obtain ⟨q, hq⟩ := Option.isSome_iff_exists.1 hsome
        rw [SupplementStore.view_of_some hq] at hs
        cases hs
      · intro i req' hi
        exact hn i req' (hcalls ▸ hi)

/-- **Cancellation closes admission** when it can. -/
theorem closed_of_cancelled {req : CancellationRequest} {isNew : Bool}
    {υ : SupplementState ι} {l : List (SupplementOp ι)}
    (hcancel : SupplementStep core σ (.cancel req isNew) τ) (hcan : σ.CanClose req.agentRunId)
    (h : Run (SupplementStep core) τ l υ) :
    accepted req.agentRunId l = [] ∧
      ∀ q, υ.store.queue? req.agentRunId = some q → q.accepting = false := by
  obtain ⟨hnone, hclosed⟩ := h.invariant_history
    (I := fun l υ ↦ accepted req.agentRunId l = [] ∧ υ.Closed req.agentRunId)
    ⟨rfl, hcancel.closed_of_cancel hcan⟩ fun l τ a υ _ ⟨hnone, hi⟩ ha ↦ by
      obtain ⟨ha', hi'⟩ := hi.step ha
      refine ⟨?_, hi'⟩
      rw [accepted_concat, hnone, ha']
      rfl
  refine ⟨hnone, fun q hq ↦ ?_⟩
  have hview := SupplementStore.view_of_some hq
  obtain ⟨-, ⟨-, hc⟩ | ⟨hs, -⟩⟩ := hclosed
  · rw [hview] at hc
    exact hc
  · rw [hview] at hs
    cases hs

end Steps

/-! ### A supplement for a cancelled run -/

/-- The user cancels `r`. -/
def sampleCancellation : CancellationRequest := ⟨"r", "s", "a", 3⟩

/-- The tables after the cancellation. -/
def cancelledStore : SupplementStore :=
  { runningStore with
    jobs := makeDue { runningStore.jobs with
      runtimeEvents := ⟨[sampleCancellation.event], List.nodup_singleton _⟩ }
      "agent_run.lifecycle:r" 3 }

theorem cancel_sample : requestAgentRunCancellation sampleCore runningStore sampleCancellation =
    .ok (cancelledStore, true) := by decide +kernel

/-- The tables when the enqueue has committed, too. -/
def reopenedStore : SupplementStore :=
  { cancelledStore with
    jobs := makeDue cancelledStore.jobs "agent_run.lifecycle:r" 3
    queues := ⟨[firstQueue 1 none none 3], List.nodup_singleton _⟩ }

theorem enqueueLocked_cancelled : enqueueLocked sampleCore cancelledStore firstEnqueue =
    .ok (reopenedStore, ⟨.accepted, 1, 1⟩) := by decide +kernel

/-- The enqueue has passed its test. -/
def waitingState (s : SupplementStore) : SupplementState Unit :=
  ⟨s, fun _ ↦ some (.enqueue firstEnqueue)⟩

theorem run_enter_first : Run (SupplementStep sampleCore) (⟨runningStore, fun _ ↦ none⟩)
    [.enter () (.enqueue firstEnqueue)] (waitingState runningStore) := by
  have hstate : waitingState runningStore =
      ⟨runningStore, Function.update (fun _ ↦ none) () (some (.enqueue firstEnqueue))⟩ := by
    refine congrArg (SupplementState.mk runningStore) (funext fun _ ↦ ?_)
    rw [Function.update_self]
  rw [hstate]
  exact .single (.enter rfl ⟨firstEnqueue, rfl⟩ (by decide +kernel))

/-- **An enqueue waits while the run is cancelled**: it is accepted, and the run has an accepting
queue. -/
theorem accepted_after_cancellation :
    ∃ (l l' : List (SupplementOp Unit)) (τ : SupplementState Unit) (q : StoredQueue),
      Run (SupplementStep sampleCore) .initial (l ++ [.cancel sampleCancellation true] ++ l') τ ∧
      accepted "r" l' = [("s1", 1)] ∧ τ.store.queue? "r" = some q ∧ q.accepting = true := by
  have hjobs : Run (SupplementStep sampleCore) (.initial : SupplementState Unit) _
      ⟨runningStore, fun _ ↦ none⟩ := run_of_jobOps .initial lifecycleScript
  have hcancel : SupplementStep sampleCore (waitingState runningStore)
      (.cancel sampleCancellation true) (waitingState cancelledStore) := .cancel cancel_sample
  have hrun := (hjobs.trans run_enter_first).snoc hcancel
  have henqueue := hrun.snoc (.enqueue (i := ()) rfl enqueueLocked_cancelled)
  exact ⟨_, [_], _, firstQueue 1 none none 3, henqueue, by decide +kernel, by decide +kernel, rfl⟩

/-- The tables when a run is cancelled that has a queue. -/
def closedStore : SupplementStore :=
  { queuedStore (cancelQueue 3 (firstQueue 1 none none 3)) with
    jobs := makeDue { (queuedStore (firstQueue 1 none none 3)).jobs with
      runtimeEvents := ⟨[sampleCancellation.event], List.nodup_singleton _⟩ }
      "agent_run.lifecycle:r" 3 }

theorem cancel_queued : requestAgentRunCancellation sampleCore
    (queuedStore (firstQueue 1 none none 3)) sampleCancellation = .ok (closedStore, true) := by
  decide +kernel

/-- **A run that is cancelled with its queue** accepts nothing any more, though an enqueue waits. -/
theorem closed_of_cancelled_queue :
    SupplementStep sampleCore (waitingState (queuedStore (firstQueue 1 none none 3)))
        (.cancel sampleCancellation true) (waitingState closedStore) ∧
      ∀ l υ, Run (SupplementStep sampleCore) (waitingState closedStore) l υ →
        accepted "r" l = [] := by
  have hcancel : SupplementStep sampleCore (waitingState (queuedStore (firstQueue 1 none none 3)))
      (.cancel sampleCancellation true) (waitingState closedStore) := .cancel cancel_queued
  refine ⟨hcancel, fun l υ hrun ↦ ?_⟩
  exact (closed_of_cancelled hcancel (.inl (by decide +kernel)) hrun).1

end Centaeris.Supplement
