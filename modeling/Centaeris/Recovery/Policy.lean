import Mathlib.Data.List.Induction
import Centaeris.Base.Json
import Centaeris.Base.Machine
import Centaeris.Base.Except
import Mathlib.Algebra.Ring.Int.Defs
import Mathlib.Algebra.Ring.Nat

/-!
# The recovery policy after a sandbox loss

When the sandbox of a run is lost, the run may go on from its last checkpoint with a new sandbox, if
nothing has happened in the old one since. The decision rests on two kinds of evidence. The
`RecoverySuffix` counts the tool records that were committed since the checkpoint. The
`ExecutionActivityWitness` of the host has an activity epoch that goes up before everything that could
change the workspace; a snapshot carries the epoch it was begun at.

`counter_suffixOf` reads the counters back: they saturate, but a counter that is 0 or 1 is exact.
-/

namespace Centaeris.Recovery

open Machine

/-! ### The suffix since the checkpoint -/

/-- What `record_receipt` reads of a `ToolExecutionResult`. `isSuccess` is
`result_state().is_success()`. -/
structure ToolExecutionResult where
  toolCallId : String
  isSuccess : Bool
  facts : List Json
  parallelGroup : Option String
  details : Json
  deriving DecidableEq

/-- `RecoverySuffix`. -/
structure RecoverySuffix where
  calls : Nat
  receipts : Nat
  nonBashCalls : Nat
  successfulReceipts : Nat
  facts : Nat
  parallelReceipts : Nat
  receiptExecuted : Option Bool
  deriving DecidableEq

namespace RecoverySuffix

/-- `RecoverySuffix::default`. -/
def empty : RecoverySuffix := ⟨0, 0, 0, 0, 0, 0, none⟩

/-- `record_call`. -/
def recordCall (suffix : RecoverySuffix) (name : String) : RecoverySuffix :=
  { suffix with
    calls := usizeSaturatingAdd suffix.calls 1
    nonBashCalls := usizeSaturatingAdd suffix.nonBashCalls (decide (name ≠ "bash")).toNat }

/-- `record_receipt`. -/
def recordReceipt (suffix : RecoverySuffix) (result : ToolExecutionResult) : RecoverySuffix :=
  { suffix with
    receipts := usizeSaturatingAdd suffix.receipts 1
    successfulReceipts := usizeSaturatingAdd suffix.successfulReceipts result.isSuccess.toNat
    facts := usizeSaturatingAdd suffix.facts result.facts.length
    parallelReceipts := usizeSaturatingAdd suffix.parallelReceipts result.parallelGroup.isSome.toNat
    receiptExecuted := (result.details.get? "executed").bind Json.asBool? }

end RecoverySuffix

/-- A tool record that is committed. -/
inductive ToolRecord
  | call (name : String)
  | receipt (result : ToolExecutionResult)

namespace ToolRecord

/-- The name of a call. -/
def call? : ToolRecord → Option String
  | call name => some name
  | receipt _ => none

/-- The result of a receipt. -/
def receipt? : ToolRecord → Option ToolExecutionResult
  | call _ => none
  | receipt result => some result

end ToolRecord

/-- One record. -/
def RecoverySuffix.record (suffix : RecoverySuffix) : ToolRecord → RecoverySuffix
  | .call name => suffix.recordCall name
  | .receipt result => suffix.recordReceipt result

/-- The suffix after some records. -/
def suffixOf (records : List ToolRecord) : RecoverySuffix :=
  records.foldl RecoverySuffix.record .empty

/-- The calls of a suffix. -/
def callsOf (records : List ToolRecord) : List String := records.filterMap ToolRecord.call?

/-- The receipts of a suffix. -/
def receiptsOf (records : List ToolRecord) : List ToolExecutionResult :=
  records.filterMap ToolRecord.receipt?

section Counters

variable {β : Type}

/-- **What a counter counts**, up to where it saturates: it starts at 0, and a record adds its weight
to it, if it has one. -/
theorem counter_suffixOf (field : RecoverySuffix → Nat) (f : ToolRecord → Option β) (w : β → Nat)
    (hempty : field .empty = 0)
    (hsame : ∀ suffix r, f r = none → field (suffix.record r) = field suffix)
    (hadd : ∀ suffix r b, f r = some b →
      field (suffix.record r) = usizeSaturatingAdd (field suffix) (w b)) (records : List ToolRecord) :
    field (suffixOf records) = min u64Max ((records.filterMap f).map w).sum := by
  induction records using List.reverseRecOn with
  | nil =>
    show field .empty = min u64Max 0
    rw [hempty, Nat.min_zero]
  | append_singleton records r ih =>
    have hsuffix : suffixOf (records ++ [r]) = (suffixOf records).record r := by
      rw [suffixOf, List.foldl_append]
      rfl
    rw [hsuffix, List.filterMap_append, List.map_append, List.sum_append]
    cases hr : f r with
    | none => simp [hsame _ _ hr, ih, hr]
    | some b => simp [hadd _ _ _ hr, ih, hr, usizeSaturatingAdd_min]

/-- A counter of calls. -/
theorem callCounter (field : RecoverySuffix → Nat) (w : String → Nat) (hempty : field .empty = 0)
    (hcall : ∀ suffix name, field (suffix.recordCall name) = usizeSaturatingAdd (field suffix) (w name))
    (hreceipt : ∀ suffix result, field (suffix.recordReceipt result) = field suffix)
    (records : List ToolRecord) :
    field (suffixOf records) = min u64Max ((callsOf records).map w).sum := by
  refine counter_suffixOf field ToolRecord.call? w hempty ?_ ?_ records
  · rintro suffix (name | result) h
    · cases h
    · exact hreceipt suffix result
  · rintro suffix (name | result) _ h
    · cases h
      exact hcall suffix name
    · cases h

/-- A counter of receipts. -/
theorem receiptCounter (field : RecoverySuffix → Nat) (w : ToolExecutionResult → Nat)
    (hempty : field .empty = 0) (hcall : ∀ suffix name, field (suffix.recordCall name) = field suffix)
    (hreceipt : ∀ suffix result,
      field (suffix.recordReceipt result) = usizeSaturatingAdd (field suffix) (w result))
    (records : List ToolRecord) :
    field (suffixOf records) = min u64Max ((receiptsOf records).map w).sum := by
  refine counter_suffixOf field ToolRecord.receipt? w hempty ?_ ?_ records
  · rintro suffix (name | result) h
    · exact hcall suffix name
    · cases h
  · rintro suffix (name | result) _ h
    · cases h
    · cases h
      exact hreceipt suffix result

/-- A counter below its limit is exact. -/
theorem eq_of_counter {c n k : Nat} (h : c = min u64Max n) (hc : c = k) (hk : k < u64Max) : n = k := by
  omega

end Counters

/-- A suffix that is one failed call of `bash`: one call and one receipt, which reports no success and
no facts and is not of a parallel group. -/
def OneFailedBash (records : List ToolRecord) : Prop :=
  callsOf records = ["bash"] ∧ ∃ result, receiptsOf records = [result] ∧ result.isSuccess = false ∧
    result.parallelGroup = none ∧ result.facts = []

/-- **The counters are enough** to know the suffix. -/
theorem oneFailedBash_of_counters {records : List ToolRecord} (hcalls : (suffixOf records).calls = 1)
    (hbash : (suffixOf records).nonBashCalls = 0) (hreceipts : (suffixOf records).receipts = 1)
    (hsuccess : (suffixOf records).successfulReceipts = 0) (hfacts : (suffixOf records).facts = 0)
    (hparallel : (suffixOf records).parallelReceipts = 0) : OneFailedBash records := by
  have hcalls := eq_of_counter (callCounter (·.calls) (fun _ ↦ 1) rfl (fun _ _ ↦ rfl)
    (fun _ _ ↦ rfl) records) hcalls (by decide)
  have hbash := eq_of_counter (callCounter (·.nonBashCalls)
    (fun name ↦ (decide (name ≠ "bash")).toNat) rfl (fun _ _ ↦ rfl) (fun _ _ ↦ rfl) records) hbash
    (by decide)
  have hreceipts := eq_of_counter (receiptCounter (·.receipts) (fun _ ↦ 1) rfl (fun _ _ ↦ rfl)
    (fun _ _ ↦ rfl) records) hreceipts (by decide)
  have hsuccess := eq_of_counter (receiptCounter (·.successfulReceipts) (fun r ↦ r.isSuccess.toNat) rfl
    (fun _ _ ↦ rfl) (fun _ _ ↦ rfl) records) hsuccess (by decide)
  have hfacts := eq_of_counter (receiptCounter (·.facts) (fun r ↦ r.facts.length) rfl (fun _ _ ↦ rfl)
    (fun _ _ ↦ rfl) records) hfacts (by decide)
  have hparallel := eq_of_counter (receiptCounter (·.parallelReceipts)
    (fun r ↦ r.parallelGroup.isSome.toNat) rfl (fun _ _ ↦ rfl) (fun _ _ ↦ rfl) records) hparallel
    (by decide)
  simp only [List.map_const', List.sum_replicate_nat, Nat.mul_one] at hcalls hreceipts
  obtain ⟨name, hname⟩ := List.length_eq_one_iff.1 hcalls
  obtain ⟨result, hresult⟩ := List.length_eq_one_iff.1 hreceipts
  rw [hname] at hbash
  rw [hresult] at hsuccess hfacts hparallel
  simp at hbash hsuccess hfacts hparallel
  exact ⟨by rw [hname, hbash], result, hresult, hsuccess, hparallel, hfacts⟩

/-! ### Activity of a host -/

/-- What the host says about a failure. -/
inductive HostFailureEvidence
  | preDispatchProcessNotStarted
  | unknown
  deriving DecidableEq

/-- `WorkspaceReuseEvidence`. -/
structure WorkspaceReuseEvidence where
  priorCheckpointSnapshotValid : Bool
  generationKnown : Bool
  snapshotWasQuiesced : Bool
  snapshotActivityEpoch : Nat
  currentActivityEpoch : Nat
  snapshotHostInstance : Nat
  currentHostInstance : Nat
  deriving DecidableEq

/-- The evidence is of a snapshot: it has where and when the snapshot was begun. -/
structure WorkspaceReuseEvidence.IsOf (evidence snapshot : WorkspaceReuseEvidence) : Prop where
  host : evidence.snapshotHostInstance = snapshot.snapshotHostInstance
  epoch : evidence.snapshotActivityEpoch = snapshot.snapshotActivityEpoch

/-- `ExecutionActivityWitness`: the epoch is an atomic variable. -/
structure ExecutionActivityWitness where
  hostInstance : Nat
  epoch : Nat
  deriving DecidableEq

/-- `SnapshotCaptureToken`. -/
structure SnapshotCaptureToken where
  hostInstance : Nat
  activityEpoch : Nat
  deriving DecidableEq

/-- A snapshot was begun with a token. -/
structure WorkspaceReuseEvidence.BegunWith (snapshot : WorkspaceReuseEvidence)
    (token : SnapshotCaptureToken) : Prop where
  host : snapshot.snapshotHostInstance = token.hostInstance
  epoch : snapshot.snapshotActivityEpoch = token.activityEpoch

/-- `SnapshotCaptureError`. -/
inductive SnapshotCaptureError
  | activityChanged
  | hostChanged
  deriving DecidableEq

namespace ExecutionActivityWitness

variable (host : ExecutionActivityWitness)

/-- `invalidate_before_dispatch`: one atomic update, and the epoch after it. -/
def invalidateBeforeDispatch : ExecutionActivityWitness × Except String Nat :=
  match u64CheckedAdd host.epoch 1 with
  | none => (host, .error "execution activity epoch overflow")
  | some epoch => ({ host with epoch }, .ok epoch)

/-- `begin_snapshot_capture`. -/
def beginSnapshotCapture : SnapshotCaptureToken := ⟨host.hostInstance, host.epoch⟩

/-- `complete_quiesced_snapshot`. -/
def completeQuiescedSnapshot (token : SnapshotCaptureToken) (snapshotValid generationKnown : Bool) :
    Except SnapshotCaptureError WorkspaceReuseEvidence :=
  if token.hostInstance ≠ host.hostInstance then .error .hostChanged
  else if token.activityEpoch ≠ host.epoch then .error .activityChanged
  else
    .ok {
      priorCheckpointSnapshotValid := snapshotValid
      generationKnown
      snapshotWasQuiesced := true
      snapshotActivityEpoch := token.activityEpoch
      currentActivityEpoch := token.activityEpoch
      snapshotHostInstance := token.hostInstance
      currentHostInstance := token.hostInstance }

/-- `workspace_evidence`. -/
def workspaceEvidence (snapshot : WorkspaceReuseEvidence) : WorkspaceReuseEvidence :=
  { snapshot with
    currentActivityEpoch := host.epoch
    currentHostInstance := host.hostInstance }

variable {host}

/-- A snapshot is completed at the epoch it was begun at, on the same host. -/
theorem completeQuiescedSnapshot_ok {token : SnapshotCaptureToken} {valid known : Bool}
    {snapshot : WorkspaceReuseEvidence}
    (h : host.completeQuiescedSnapshot token valid known = .ok snapshot) :
    token = host.beginSnapshotCapture ∧ snapshot.BegunWith token := by
  rw [completeQuiescedSnapshot] at h
  split_ifs at h with hinstance hepoch
  cases h
  refine ⟨?_, ⟨rfl, rfl⟩⟩
  rw [beginSnapshotCapture, ← not_not.1 hinstance, ← not_not.1 hepoch]

end ExecutionActivityWitness

/-! ### The decision -/

/-- `RecoveryEvidence`. -/
structure RecoveryEvidence where
  failure : HostFailureEvidence
  receiptReportedExecuted : Option Bool
  durableReceiptSequence : Nat
  previousCheckpointSequence : Nat
  nextModelRequestStarted : Bool
  openToolCalls : Nat
  parallelToolCalls : Nat
  toolCallsSinceCheckpoint : Nat
  receiptsSinceCheckpoint : Nat
  allSuffixToolsAreBash : Bool
  externalOrMcpCallsSinceCheckpoint : Nat
  successfulReceiptsSinceCheckpoint : Nat
  factsSinceCheckpoint : Nat
  workspace : WorkspaceReuseEvidence
  deriving DecidableEq

/-- `CheckpointAdvance`. -/
structure CheckpointAdvance where
  sourceCheckpointSequence : Nat
  coveredThroughSequence : Nat
  deriving DecidableEq

open Except in
/-- `recovery_eligibility`. -/
def recoveryEligibility (evidence : RecoveryEvidence) : Except String CheckpointAdvance := do
  require (evidence.failure = .preDispatchProcessNotStarted)
    "sandbox loss lacks typed pre-dispatch process-not-started evidence"
  require (evidence.receiptReportedExecuted = some false)
    "tool receipt does not report a non-executed operation"
  require evidence.nextModelRequestStarted
    "checkpoint advance requires a real next model request safe point"
  require (evidence.previousCheckpointSequence < evidence.durableReceiptSequence)
    "durable tool ledger is not ahead of the previous checkpoint"
  require (evidence.openToolCalls = 0 ∧ evidence.parallelToolCalls = 0)
    "tool execution is open, parallel, or indeterminate"
  require (evidence.toolCallsSinceCheckpoint = 1 ∧ evidence.receiptsSinceCheckpoint = 1 ∧
      evidence.allSuffixToolsAreBash ∧ evidence.externalOrMcpCallsSinceCheckpoint = 0)
    "checkpoint suffix is not one closed bash call and receipt"
  require (evidence.successfulReceiptsSinceCheckpoint = 0 ∧ evidence.factsSinceCheckpoint = 0)
    "checkpoint suffix contains a successful tool or semantic fact"
  let workspace := evidence.workspace
  require (workspace.priorCheckpointSnapshotValid ∧ workspace.generationKnown)
    "previous workspace snapshot is absent or has unknown generation"
  require (workspace.snapshotWasQuiesced ∧
      workspace.currentActivityEpoch = workspace.snapshotActivityEpoch ∧
      workspace.currentHostInstance = workspace.snapshotHostInstance)
    "execution host cannot prove the previous workspace snapshot remains complete"
  return ⟨evidence.previousCheckpointSequence, evidence.durableReceiptSequence⟩

/-- What `recovery_workspace_evidence` makes of the evidence: a host with a deferred dispatch of an
extension does not attest that it was quiet. -/
def WorkspaceReuseEvidence.attested (evidence : WorkspaceReuseEvidence)
    (deferredExtensionDispatch : Bool) : WorkspaceReuseEvidence :=
  { evidence with
    snapshotWasQuiesced := evidence.snapshotWasQuiesced && !deferredExtensionDispatch }

/-- The evidence that the safe point of a model request has: `workspace` is what
the host returns, `generationKnown` whether the generation of the checkpoint is known. -/
def RecoverySuffix.evidence (suffix : RecoverySuffix) (failure : HostFailureEvidence)
    (committedSequence previousCheckpointSequence openToolCalls : Nat) (generationKnown : Bool)
    (workspace : WorkspaceReuseEvidence) : RecoveryEvidence where
  failure := failure
  receiptReportedExecuted := suffix.receiptExecuted
  durableReceiptSequence := committedSequence
  previousCheckpointSequence := previousCheckpointSequence
  nextModelRequestStarted := true
  openToolCalls := openToolCalls
  parallelToolCalls := suffix.parallelReceipts
  toolCallsSinceCheckpoint := suffix.calls
  receiptsSinceCheckpoint := suffix.receipts
  allSuffixToolsAreBash := decide (suffix.nonBashCalls = 0)
  externalOrMcpCallsSinceCheckpoint := suffix.nonBashCalls
  successfulReceiptsSinceCheckpoint := suffix.successfulReceipts
  factsSinceCheckpoint := suffix.facts
  workspace := { workspace with generationKnown }

/-- **What an accepted decision has checked.** -/
structure Eligible (evidence : RecoveryEvidence) (advance : CheckpointAdvance) : Prop where
  failure : evidence.failure = .preDispatchProcessNotStarted
  executed : evidence.receiptReportedExecuted = some false
  range : advance.sourceCheckpointSequence < advance.coveredThroughSequence
  closed : evidence.openToolCalls = 0 ∧ evidence.parallelToolCalls = 0
  suffix : evidence.toolCallsSinceCheckpoint = 1 ∧ evidence.receiptsSinceCheckpoint = 1 ∧
    evidence.externalOrMcpCallsSinceCheckpoint = 0
  effects : evidence.successfulReceiptsSinceCheckpoint = 0 ∧ evidence.factsSinceCheckpoint = 0
  epoch : evidence.workspace.currentActivityEpoch = evidence.workspace.snapshotActivityEpoch
  host : evidence.workspace.currentHostInstance = evidence.workspace.snapshotHostInstance

theorem recoveryEligibility_ok {evidence : RecoveryEvidence} {advance : CheckpointAdvance}
    (h : recoveryEligibility evidence = .ok advance) : Eligible evidence advance := by
  simp only [recoveryEligibility, Except.require_bind, Except.pure_eq_ok, Except.ok.injEq] at h
  obtain ⟨hfailure, hexecuted, -, hrange, hclosed, ⟨hcalls, hreceipts, -, hexternal⟩, heffects, -,
    ⟨-, hepoch, hhost⟩, rfl⟩ := h
  exact ⟨hfailure, hexecuted, hrange, hclosed, ⟨hcalls, hreceipts, hexternal⟩, heffects, hepoch, hhost⟩

/-- An accepted suffix is one failed call of `bash`. -/
theorem Eligible.oneFailedBash {records : List ToolRecord} {failure : HostFailureEvidence}
    {committed previous opened : Nat} {known : Bool} {workspace : WorkspaceReuseEvidence}
    {advance : CheckpointAdvance}
    (h : Eligible ((suffixOf records).evidence failure committed previous opened known workspace)
      advance) : OneFailedBash records :=
  oneFailedBash_of_counters h.suffix.1 h.suffix.2.2 h.suffix.2.1 h.effects.1 h.effects.2 h.closed.2

end Centaeris.Recovery
