import Centaeris.Recovery.Policy
import Centaeris.Relational.Run

/-!
# Host activity under concurrent calls

The epoch of a host is one atomic variable. Threads that dispatch raise it, and a snapshot reads it at
three moments: when the capture begins, when it is complete, and when the evidence for a decision is
taken. What is read is copied from one value to the next, so that a decision compares the first and
the last of the three readings. Every call is one step here, and the steps of all threads on all hosts
are interleaved in any way.

`epoch_run` is what makes the comparison sound: the epoch counts the dispatches that took effect. It
does not wrap around, because an overflow is an error and not a dispatch. So equal epochs exclude a
dispatch in the whole window.
-/

namespace Centaeris.Recovery

/-- The hosts of a process, by their instance numbers. -/
structure Hosts where
  epoch : Nat → Nat

namespace Hosts

/-- The witness of a host. -/
def host (s : Hosts) (i : Nat) : ExecutionActivityWitness := ⟨i, s.epoch i⟩

/-- All hosts are new. -/
def initial : Hosts := ⟨fun _ ↦ 0⟩

end Hosts

/-- A call of some thread, with what it returns. -/
inductive HostEvent
  | invalidate (host : Nat) (answer : Except String Nat)
  | beginCapture (host : Nat) (token : SnapshotCaptureToken)
  | complete (host : Nat) (token : SnapshotCaptureToken) (snapshotValid generationKnown : Bool)
      (answer : Except SnapshotCaptureError WorkspaceReuseEvidence)
  | evidence (host : Nat) (snapshot answer : WorkspaceReuseEvidence)
  | eligibility (evidence : RecoveryEvidence) (answer : Except String CheckpointAdvance)

/-- One call. Tokens and evidence are plain values, so a thread may have them from anywhere. -/
inductive Hosts.Step (s : Hosts) : HostEvent → Hosts → Prop
  | invalidate (i : Nat) :
      Step s (.invalidate i (s.host i).invalidateBeforeDispatch.2)
        ⟨Function.update s.epoch i (s.host i).invalidateBeforeDispatch.1.epoch⟩
  | beginCapture (i : Nat) : Step s (.beginCapture i (s.host i).beginSnapshotCapture) s
  | complete (i : Nat) (token : SnapshotCaptureToken) (valid known : Bool) :
      Step s (.complete i token valid known
        ((s.host i).completeQuiescedSnapshot token valid known)) s
  | evidence (i : Nat) (snapshot : WorkspaceReuseEvidence) :
      Step s (.evidence i snapshot ((s.host i).workspaceEvidence snapshot)) s
  | eligibility (evidence : RecoveryEvidence) :
      Step s (.eligibility evidence (recoveryEligibility evidence)) s

/-- A dispatch on the host that took effect. -/
def HostEvent.dispatches (i : Nat) : HostEvent → Bool
  | .invalidate j (.ok _) => decide (j = i)
  | _ => false

section Epochs

variable {s t : Hosts} {e : HostEvent} {l : List HostEvent} {i : Nat}

/-- The epoch goes up with a dispatch, and only then. -/
theorem epoch_step (h : s.Step e t) : t.epoch i = s.epoch i + (e.dispatches i).toNat := by
  cases h with
  | invalidate j =>
    show Function.update s.epoch j _ i = _
    have hhost : (s.host j).epoch = s.epoch j := rfl
    rw [ExecutionActivityWitness.invalidateBeforeDispatch, Machine.u64CheckedAdd, hhost]
    split_ifs
    · by_cases hj : i = j
      · subst hj
        rw [Function.update_self]
        simp [HostEvent.dispatches]
      · rw [Function.update_of_ne hj]
        simp [HostEvent.dispatches, Ne.symm hj]
    · by_cases hj : i = j
      · subst hj
        rw [Function.update_self]
        rfl
      · rw [Function.update_of_ne hj]
        rfl
  | beginCapture j => rfl
  | complete j token valid known => rfl
  | evidence j snapshot => rfl
  | eligibility evidence => rfl

/-- **The epoch counts the dispatches.** -/
theorem epoch_run (h : Run Hosts.Step s l t) :
    t.epoch i = s.epoch i + l.countP (HostEvent.dispatches i) :=
  h.counter (f := fun t ↦ t.epoch i) fun _ _ _ ↦ epoch_step

/-- So an epoch that is the same at the end was not raised. -/
theorem quiet_of_epoch (h : Run Hosts.Step s l t) (hepoch : t.epoch i = s.epoch i) :
    ∀ e ∈ l, e.dispatches i = false := by
  have hcount := epoch_run h (i := i)
  have hzero : l.countP (HostEvent.dispatches i) = 0 := by omega
  intro e he
  exact Bool.eq_false_iff.2 (List.countP_eq_zero.1 hzero e he)

end Epochs

section Window

variable {s t : Hosts} {i j k : Nat} {token : SnapshotCaptureToken}
  {snapshot copy workspace : WorkspaceReuseEvidence} {valid known : Bool}
  {l₀ l₁ l₂ l₃ : List HostEvent}

/-- **The window of a snapshot is quiet** when the evidence that was taken from it says so: all three
calls were on one host, and nothing was dispatched on it. -/
theorem window_quiet
    (h : Run Hosts.Step s (.beginCapture i token ::
      (l₁ ++ .complete j token valid known (.ok snapshot) :: (l₂ ++ [.evidence k copy workspace]))) t)
    (hcopy : copy.IsOf snapshot)
    (hepoch : workspace.currentActivityEpoch = workspace.snapshotActivityEpoch)
    (hhost : workspace.currentHostInstance = workspace.snapshotHostInstance) :
    j = i ∧ k = i ∧ ∀ e ∈ l₁ ++ l₂, e.dispatches i = false := by
  obtain ⟨_, hbegin, h⟩ := h.of_cons
  cases hbegin
  obtain ⟨s₁, hrun₁, h⟩ := h.split
  obtain ⟨_, hcomplete, h⟩ := h.of_cons
  obtain ⟨s₂, hrun₂, hevidence⟩ := h.of_concat
  generalize hanswer : (Except.ok snapshot : Except SnapshotCaptureError _) = answer at hcomplete
  cases hcomplete
  cases hevidence
  obtain ⟨htoken, hsnapshot⟩ := ExecutionActivityWitness.completeQuiescedSnapshot_ok hanswer.symm
  have hj : j = i := (congrArg SnapshotCaptureToken.hostInstance htoken).symm
  have hk : k = i := hhost.trans (hcopy.host.trans hsnapshot.host)
  subst hj hk
  refine ⟨rfl, rfl, ?_⟩
  -- The first, the second and the third reading of the epoch.
  have hmiddle : s₁.epoch k = s.epoch k := (congrArg SnapshotCaptureToken.activityEpoch htoken).symm
  have hend : t.epoch k = s.epoch k := hepoch.trans (hcopy.epoch.trans hsnapshot.epoch)
  intro e he
  rcases List.mem_append.1 he with he | he
  · exact quiet_of_epoch hrun₁ hmiddle e he
  · exact quiet_of_epoch hrun₂ (hend.trans hmiddle.symm) e he

/-- Recovery after a sandbox loss is sound, in every interleaving of the calls on all hosts. When a
decision is accepted for evidence that was taken from a snapshot (or from a copy of it, as earlier
evidence is) and for the suffix since the checkpoint, then the snapshot was begun and completed on the
host that gave the evidence, nothing was dispatched on that host between the begin and the evidence,
the suffix is one failed call of `bash`, and the range of the decision is not empty. -/
theorem recovery_sound {records : List ToolRecord} {failure : HostFailureEvidence}
    {committed previous opened : Nat} {generationKnown deferred : Bool} {advance : CheckpointAdvance}
    (h : Run Hosts.Step s (l₀ ++ .beginCapture i token ::
      (l₁ ++ .complete j token valid known (.ok snapshot) :: (l₂ ++ .evidence k copy workspace ::
        (l₃ ++ [.eligibility ((suffixOf records).evidence failure committed previous opened
          generationKnown (workspace.attested deferred)) (.ok advance)])))) t)
    (hcopy : copy.IsOf snapshot) :
    j = i ∧ k = i ∧ (∀ e ∈ l₁ ++ l₂, e.dispatches i = false) ∧ OneFailedBash records ∧
      advance.sourceCheckpointSequence < advance.coveredThroughSequence := by
  have hcut : ∀ a b c d : HostEvent, l₀ ++ a :: (l₁ ++ b :: (l₂ ++ c :: (l₃ ++ [d]))) =
      l₀ ++ ((a :: (l₁ ++ b :: (l₂ ++ [c]))) ++ (l₃ ++ [d])) := by
    intro a b c d
    simp
  rw [hcut] at h
  obtain ⟨_, -, h⟩ := h.split
  obtain ⟨_, hwindow, h⟩ := h.split
  obtain ⟨_, -, hdecision⟩ := h.of_concat
  generalize hanswer : (Except.ok advance : Except String _) = answer at hdecision
  cases hdecision
  have heligible := recoveryEligibility_ok hanswer.symm
  obtain ⟨hj, hk, hquiet⟩ := window_quiet hwindow hcopy heligible.epoch heligible.host
  exact ⟨hj, hk, hquiet, heligible.oneFailedBash, heligible.range⟩

end Window

/-! ### A run -/

/-- A receipt of a call that was not executed. -/
def notExecuted : ToolExecutionResult :=
  ⟨"call", false, [], none, .obj [("executed", .bool false)]⟩

/-- Two hosts; a dispatch on the second one is in the window of a snapshot of the first one. -/
theorem recovery_sound_beside :
    let records := [ToolRecord.call "bash", .receipt notExecuted]
    let snapshot : WorkspaceReuseEvidence := ⟨true, true, true, 1, 1, 1, 1⟩
    let advance : CheckpointAdvance := ⟨4, 6⟩
    recoveryEligibility ((suffixOf records).evidence .preDispatchProcessNotStarted 6 4 0 true
        (snapshot.attested false)) = .ok advance ∧
      OneFailedBash records ∧ advance.sourceCheckpointSequence < advance.coveredThroughSequence ∧
      (HostEvent.invalidate 2 (.ok 1)).dispatches 1 = false := by
  intro records snapshot advance
  let evidence := (suffixOf records).evidence .preDispatchProcessNotStarted 6 4 0 true
    (snapshot.attested false)
  have heligible : recoveryEligibility evidence = .ok advance := by decide +kernel
  let s₁ : Hosts := ⟨Function.update (fun _ ↦ 0) 1 1⟩
  let s₂ : Hosts := ⟨Function.update s₁.epoch 2 1⟩
  have h₁ : Hosts.initial.Step (.invalidate 1 (.ok 1)) s₁ := .invalidate 1
  have h₂ : s₁.Step (.beginCapture 1 ⟨1, 1⟩) s₁ := .beginCapture 1
  have h₃ : s₁.Step (.invalidate 2 (.ok 1)) s₂ := .invalidate 2
  have h₄ : s₂.Step (.complete 1 ⟨1, 1⟩ true true (.ok snapshot)) s₂ := .complete 1 ⟨1, 1⟩ true true
  have h₅ : s₂.Step (.evidence 1 snapshot snapshot) s₂ := .evidence 1 snapshot
  have h₆ : s₂.Step (.eligibility evidence (.ok advance)) s₂ := by
    rw [← heligible]
    exact .eligibility evidence
  have hrun : Run Hosts.Step .initial ([.invalidate 1 (.ok 1)] ++ .beginCapture 1 ⟨1, 1⟩ ::
      ([.invalidate 2 (.ok 1)] ++ .complete 1 ⟨1, 1⟩ true true (.ok snapshot) ::
        ([] ++ .evidence 1 snapshot snapshot ::
          ([] ++ [.eligibility evidence (.ok advance)])))) s₂ :=
    .cons h₁ (.cons h₂ (.cons h₃ (.cons h₄ (.cons h₅ (.single h₆)))))
  obtain ⟨-, -, hquiet, hsuffix, hrange⟩ := recovery_sound hrun ⟨rfl, rfl⟩
  exact ⟨heligible, hsuffix, hrange, hquiet _ List.mem_cons_self⟩

end Centaeris.Recovery
