import Centaeris.Relational.Run
import Centaeris.Transcript.Store

/-!
# Stability of the published transcript generation

A rotation publishes a complete generation. From then on, and until the next rotation, a reader
should find that generation, and nothing of it should be deleted. It holds for exactly one
generation: `loadOrInitializeCurrentTranscriptGeneration` takes every other published generation
for one of an older block encoding and deletes the derived rows of the session
(`rotation_stable_iff`). The generations that rebuilds publish are among those
(`rebuild_destroyed_by_read`).
-/

namespace Centaeris.Transcript

open Machine

/-! ### Calls -/

/-- A call of the transcript store. A rebuild is made of commits and one rotation. -/
inductive TranscriptOp
  | load (sessionId : String)
  | commit (c : ProjectionCommit)
  | rotate (r : GenerationRotation)

/-- The store after a transaction. -/
def committed (s : TranscriptStore) : Except String (TranscriptStore × Disposition) → TranscriptStore
  | .ok (s', _) => s'
  | .error _ => s

/-- The store after a call. -/
def exec (core : TranscriptCore) (s : TranscriptStore) : TranscriptOp → TranscriptStore
  | .load sessionId => (loadOrInitializeCurrentTranscriptGeneration core s sessionId).1
  | .commit c => committed s (commitTranscriptProjection core s c)
  | .rotate r => committed s (rotateCurrentTranscriptProjectionGeneration core s r)

/-- One client makes one call. -/
def TranscriptStep (core : TranscriptCore) (s : TranscriptStore) (op : TranscriptOp)
    (t : TranscriptStore) : Prop :=
  t = exec core s op

/-- The published row of a session. -/
def TranscriptStore.current? (s : TranscriptStore) (sessionId version : String) :
    Option CurrentGenerationRow :=
  s.currentGenerations.get? (sessionId, version)

/-- What the validators of the core have to do with each other. -/
structure TranscriptCore.Lawful (core : TranscriptCore) : Prop where
  /-- A valid rotation is for the one projection version. -/
  rotation_version : ∀ r, core.validateRotation r = .ok () →
    r.projectionVersion = core.projectionVersionV1
  /-- The row a valid rotation publishes is valid. -/
  rotation_current : ∀ r n, core.validateRotation r = .ok () →
    decimalToI64 r.targetSourceHighWater "generation targetSourceHighWater" = .ok n →
    core.validateCurrent ⟨r.sessionId, r.projectionVersion, r.nextGeneration, toString n⟩ = .ok ()

/-! ### What stays of a generation -/

/-- Nothing of the generation is deleted, and its head does not go back. -/
structure GenerationKept (key : GenerationKey) (s t : TranscriptStore) : Prop where
  head : ∀ h, s.heads.get? key = some h →
    ∃ h', t.heads.get? key = some h' ∧ h.sourceHighWater ≤ h'.sourceHighWater
  blockVersions : ∀ v ∈ s.blockVersions.rows, v.key = key → v ∈ t.blockVersions.rows
  commits : ∀ c ∈ s.commits.rows, c.key = key → c ∈ t.commits.rows
  resumeCursors : ∀ c ∈ s.resumeCursors.rows, c.key = key → c ∈ t.resumeCursors.rows

namespace GenerationKept

variable {key : GenerationKey} {s t u : TranscriptStore}

theorem refl (key : GenerationKey) (s : TranscriptStore) : GenerationKept key s s :=
  ⟨fun h hh ↦ ⟨h, hh, le_rfl⟩, fun _ h _ ↦ h, fun _ h _ ↦ h, fun _ h _ ↦ h⟩

theorem trans (h : GenerationKept key s t) (h' : GenerationKept key t u) :
    GenerationKept key s u where
  head x hx := by
    obtain ⟨y, hy, hxy⟩ := h.head x hx
    obtain ⟨z, hz, hyz⟩ := h'.head y hy
    exact ⟨z, hz, hxy.trans hyz⟩
  blockVersions v hv hk := h'.blockVersions v (h.blockVersions v hv hk) hk
  commits c hc hk := h'.commits c (h.commits c hc hk) hk
  resumeCursors c hc hk := h'.resumeCursors c (h.resumeCursors c hc hk) hk

end GenerationKept

theorem insertChecked_ok {ρ κ : Type} {key : ρ → κ} [DecidableEq κ] {t t' : Table key}
    {label : String} {check : ρ → Bool} {r : ρ} (h : insertChecked t label check r = .ok t') :
    check r ∧ t.insert? r = some t' := by
  unfold insertChecked at h
  split at h
  · cases h
  rename_i hcheck
  split at h
  · cases h
  · rename_i hins
    cases h
    exact ⟨by simpa using hcheck, hins⟩

theorem mem_of_insertChecked {ρ κ : Type} {key : ρ → κ} [DecidableEq κ] {t t' : Table key}
    {label : String} {check : ρ → Bool} {r x : ρ} (h : insertChecked t label check r = .ok t')
    (hx : x ∈ t.rows) : x ∈ t'.rows := by
  rw [(Table.insert?_eq_some_iff.1 (insertChecked_ok h).2).2]
  exact List.mem_append_left _ hx

/-! ### Commits -/

/-- What the statements of a commit leave alone: the published rows, the heads, and every row that
is there. -/
structure CommitFrame (s t : TranscriptStore) : Prop where
  currentGenerations : t.currentGenerations = s.currentGenerations
  heads : t.heads = s.heads
  blockVersions : s.blockVersions.rows ⊆ t.blockVersions.rows
  commits : s.commits.rows ⊆ t.commits.rows
  resumeCursors : s.resumeCursors.rows ⊆ t.resumeCursors.rows

namespace CommitFrame

variable {s t u : TranscriptStore}

theorem refl (s : TranscriptStore) : CommitFrame s s :=
  ⟨rfl, rfl, List.Subset.refl _, List.Subset.refl _, List.Subset.refl _⟩

theorem trans (h : CommitFrame s t) (h' : CommitFrame t u) : CommitFrame s u :=
  ⟨h'.1.trans h.1, h'.2.trans h.2, List.Subset.trans h.3 h'.3, List.Subset.trans h.4 h'.4,
    List.Subset.trans h.5 h'.5⟩

theorem kept (h : CommitFrame s t) (key : GenerationKey) : GenerationKept key s t :=
  ⟨fun x hx ↦ ⟨x, h.heads ▸ hx, le_rfl⟩, fun _ hv _ ↦ h.3 hv, fun _ hc _ ↦ h.4 hc,
    fun _ hc _ ↦ h.5 hc⟩

end CommitFrame

theorem saveBlockIdentity_frame {s t : TranscriptStore} {key : GenerationKey} {blockId : String}
    {applied order ordinal : Int} (h : saveBlockIdentity s key blockId applied order ordinal = .ok t) :
    CommitFrame s t := by
  unfold saveBlockIdentity at h
  split at h
  · split at h
    · cases h
    · cases h
      exact .refl _
  · split at h
    · cases h
    split at h
    · cases h
    obtain ⟨identities, -, h⟩ := Except.bind_eq_ok.1 h
    cases h
    exact ⟨rfl, rfl, List.Subset.refl _, List.Subset.refl _, List.Subset.refl _⟩

theorem saveBlockVersion_frame {s t : TranscriptStore} {c : ProjectionCommit}
    {item : CommittedBlock} (h : saveBlockVersion c s item = .ok t) : CommitFrame s t := by
  obtain ⟨applied, -, h⟩ := Except.bind_eq_ok.1 h
  obtain ⟨order, -, h⟩ := Except.bind_eq_ok.1 h
  obtain ⟨revision, -, h⟩ := Except.bind_eq_ok.1 h
  obtain ⟨s₁, h₁, h⟩ := Except.bind_eq_ok.1 h
  split at h
  · cases h
  obtain ⟨versions, h₂, h⟩ := Except.bind_eq_ok.1 h
  cases h
  exact (saveBlockIdentity_frame h₁).trans ⟨rfl, rfl, fun _ ↦ mem_of_insertChecked h₂,
    List.Subset.refl _, List.Subset.refl _⟩

theorem saveResumeCursor_frame {s t : TranscriptStore} {c : ProjectionCommit} {highWater : Int}
    {cursor : String × String} (h : saveResumeCursor c highWater s cursor = .ok t) :
    CommitFrame s t := by
  obtain ⟨cursors, h₁, h⟩ := Except.bind_eq_ok.1 h
  cases h
  exact ⟨rfl, rfl, List.Subset.refl _, List.Subset.refl _, fun _ ↦ mem_of_insertChecked h₁⟩

theorem saveRecovery_frame {s t : TranscriptStore} {c : ProjectionCommit} {highWater : Int}
    (h : saveRecovery c highWater s = .ok t) : CommitFrame s t := by
  have slot (recoveries : Table CurrentRecovery.key) :
      CommitFrame s { s with currentRecoveries := recoveries } :=
    ⟨rfl, rfl, List.Subset.refl _, List.Subset.refl _, List.Subset.refl _⟩
  unfold saveRecovery at h
  split at h
  · split at h
    · cases h
    split at h
    · cases h
    split at h
    · cases h
    · cases h
      exact slot _
  · split at h
    · cases h
      exact slot _
    · cases h
      exact .refl _

/-- The head moves forward when `expected < highWater`; every other head stays. -/
theorem advanceHead_kept {s t : TranscriptStore} {c : ProjectionCommit} {expected highWater : Int}
    (h : advanceHead c expected highWater s = .ok t) (hlt : expected < highWater)
    (key : GenerationKey) :
    t.currentGenerations = s.currentGenerations ∧ GenerationKept key s t := by
  unfold advanceHead at h
  simp only at h
  split at h
  · cases h
    refine ⟨rfl, fun x hx ↦ ?_, fun _ h _ ↦ h, fun _ h _ ↦ h, fun _ h _ ↦ h⟩
    rw [Table.get?_update, hx, Option.map_some]
    split
    · rename_i hread
      simp only [Bool.and_eq_true, decide_eq_true_eq] at hread
      refine ⟨_, rfl, ?_⟩
      simp only [advancedHead]
      omega
    · exact ⟨x, rfl, le_rfl⟩
  · cases h

theorem recordCommit_ok {s t : TranscriptStore} {c : ProjectionCommit} {expected highWater : Int}
    (h : recordCommit c expected highWater s = .ok t) :
    expected < highWater ∧ CommitFrame s t := by
  unfold recordCommit at h
  split at h
  · cases h
  obtain ⟨commits, h₁, h⟩ := Except.bind_eq_ok.1 h
  cases h
  have hcheck := (insertChecked_ok h₁).1
  simp only [Bool.and_eq_true, decide_eq_true_eq] at hcheck
  exact ⟨hcheck.2, rfl, rfl, List.Subset.refl _, fun _ ↦ mem_of_insertChecked h₁,
    List.Subset.refl _⟩

theorem writeCommit_kept {s t : TranscriptStore} {c : ProjectionCommit} {expected highWater : Int}
    (h : writeCommit c expected highWater s = .ok t) (key : GenerationKey) :
    t.currentGenerations = s.currentGenerations ∧ GenerationKept key s t := by
  obtain ⟨s₁, h₁, h⟩ := Except.bind_eq_ok.1 h
  obtain ⟨s₂, h₂, h⟩ := Except.bind_eq_ok.1 h
  obtain ⟨s₃, h₃, h⟩ := Except.bind_eq_ok.1 h
  obtain ⟨s₄, h₄, h₅⟩ := Except.bind_eq_ok.1 h
  have hblocks : CommitFrame s s₁ := Except.foldlM_invariant (I := CommitFrame s)
    (fun _ _ _ _ hi hb ↦ hi.trans (saveBlockVersion_frame hb)) (.refl s) h₁
  have hcursors : CommitFrame s s₂ := Except.foldlM_invariant (I := CommitFrame s)
    (fun _ _ _ _ hi hc ↦ hi.trans (saveResumeCursor_frame hc)) hblocks h₂
  have hrecovery := hcursors.trans (saveRecovery_frame h₃)
  obtain ⟨hlt, hrecord⟩ := recordCommit_ok h₅
  obtain ⟨hcurrent, hhead⟩ := advanceHead_kept h₄ hlt key
  exact ⟨hrecord.1.trans (hcurrent.trans hrecovery.1),
    (hrecovery.kept key).trans (hhead.trans (hrecord.kept key))⟩

theorem ensureHead_kept (s : TranscriptStore) (k key : GenerationKey) :
    GenerationKept key s (ensureHead s k) := by
  refine ⟨fun x hx ↦ ⟨x, ?_, le_rfl⟩, fun _ h _ ↦ h, fun _ h _ ↦ h, fun _ h _ ↦ h⟩
  rw [ensureHead, Table.get?_insertIgnore, hx, Option.some_or]

/-- A commit deletes nothing, moves heads forward only, and publishes nothing. -/
theorem commit_kept (core : TranscriptCore) (s : TranscriptStore) (c : ProjectionCommit)
    (key : GenerationKey) :
    (exec core s (.commit c)).currentGenerations = s.currentGenerations ∧
      GenerationKept key s (exec core s (.commit c)) := by
  rw [exec]
  cases h : commitTranscriptProjection core s c with
  | error e => exact ⟨rfl, .refl _ _⟩
  | ok x =>
    obtain ⟨-, -, h⟩ := Except.bind_eq_ok.1 h
    obtain ⟨expected, -, h⟩ := Except.bind_eq_ok.1 h
    obtain ⟨highWater, -, h⟩ := Except.bind_eq_ok.1 h
    simp only at h
    generalize hs₁ : (if expected = 0 then ensureHead s c.key else s) = s₁ at h
    have hensure : s₁.currentGenerations = s.currentGenerations ∧ GenerationKept key s s₁ := by
      subst hs₁
      split
      · exact ⟨rfl, ensureHead_kept s c.key key⟩
      · exact ⟨rfl, .refl _ _⟩
    split at h
    · split at h
      · cases h
        exact ⟨rfl, .refl _ _⟩
      · cases h
    split at h
    · cases h
    split at h
    · cases h
    split at h
    · cases h
    obtain ⟨s₂, h₂, h⟩ := Except.bind_eq_ok.1 h
    cases h
    obtain ⟨hcurrent, hkept⟩ := writeCommit_kept h₂ key
    exact ⟨hcurrent.trans hensure.1, hensure.2.trans hkept⟩

/-! ### Rotations -/

/-- A rotation publishes its generation in the row of its session, and changes nothing else. -/
structure RotationEffect (core : TranscriptCore) (s t : TranscriptStore) (r : GenerationRotation)
    (target : Int) : Prop where
  valid : core.validateRotation r = .ok ()
  parsed : decimalToI64 r.targetSourceHighWater "generation targetSourceHighWater" = .ok target
  head : ∃ h, s.heads.get? ⟨r.sessionId, r.projectionVersion, r.nextGeneration⟩ = some h ∧
    h.sourceHighWater = target ∧ h.invalidationReason = none
  current : ∀ k, t.currentGenerations.get? k =
    if k = (r.sessionId, r.projectionVersion) then
      some ⟨r.sessionId, r.projectionVersion, r.nextGeneration, target⟩
    else s.currentGenerations.get? k
  rest : t = { s with currentGenerations := t.currentGenerations }

theorem publishGeneration_ok {s t : TranscriptStore} {r : GenerationRotation} {target : Int}
    {d : Disposition} (h : publishGeneration s r target = .ok (t, d)) :
    (∀ k, t.currentGenerations.get? k =
      if k = (r.sessionId, r.projectionVersion) then
        some ⟨r.sessionId, r.projectionVersion, r.nextGeneration, target⟩
      else s.currentGenerations.get? k) ∧
    t = { s with currentGenerations := t.currentGenerations } := by
  unfold publishGeneration at h
  simp only at h
  cases hc : s.currentGenerations.get? (r.sessionId, r.projectionVersion) with
  | none =>
    simp only [hc, Option.any_none, Bool.false_eq_true, if_false] at h
    cases he : r.expectedCurrentGeneration with
    | some expected => rw [he] at h; cases h
    | none =>
      rw [he] at h
      obtain ⟨published, hins, h⟩ := Except.bind_eq_ok.1 h
      cases h
      refine ⟨fun k ↦ ?_, rfl⟩
      simp only [Table.get?_of_insert? (insertChecked_ok hins).2, eq_comm]
  | some c =>
    have hkey := Table.key_of_get? hc
    obtain ⟨hsession, hversion⟩ := Prod.mk.inj hkey
    simp only [hc, Option.any_some, decide_eq_true_eq] at h
    split at h
    · rename_i hsame
      cases h
      refine ⟨fun k ↦ ?_, rfl⟩
      split
      · rename_i hk
        rw [hk, hc, ← hsession, ← hversion, ← hsame.1, ← hsame.2]
      · rfl
    cases he : r.expectedCurrentGeneration with
    | none => rw [he] at h; cases h
    | some expected =>
      simp only [he] at h
      split at h
      · rename_i heq
        cases h
        refine ⟨fun k ↦ ?_, rfl⟩
        rw [Table.get?_update]
        split
        · rename_i hk
          simp [hk, hc, hsession, hversion, heq, rotatedRow]
        · rename_i hk
          cases hq : s.currentGenerations.get? k with
          | none => rfl
          | some q =>
            have hkq := Table.key_of_get? hq
            have hne : ¬ (q.sessionId = r.sessionId ∧ q.projectionVersion = r.projectionVersion ∧
                q.projectionGeneration = expected) := fun h ↦ hk (by rw [← hkq, h.1, h.2.1])
            simp [hne]
      · cases h

theorem rotate_ok {core : TranscriptCore} {s t : TranscriptStore} {r : GenerationRotation}
    {d : Disposition} (h : rotateCurrentTranscriptProjectionGeneration core s r = .ok (t, d)) :
    ∃ target, RotationEffect core s t r target := by
  obtain ⟨⟨⟩, hvalid, h⟩ := Except.bind_eq_ok.1 h
  obtain ⟨target, htarget, h⟩ := Except.bind_eq_ok.1 h
  split at h
  · cases h
  rename_i head hhead
  split at h
  · cases h
  rename_i hcomplete
  obtain ⟨hcurrent, hrest⟩ := publishGeneration_ok h
  refine ⟨target, hvalid, htarget, ⟨head, hhead, ?_, ?_⟩, hcurrent, hrest⟩
  · exact not_not.1 fun hne ↦ hcomplete (.inl hne)
  · exact Option.not_isSome_iff_eq_none.1 fun hsome ↦ hcomplete (.inr hsome)

/-- A rotation keeps every generation, and the published rows of other sessions. -/
theorem rotate_kept (core : TranscriptCore) (s : TranscriptStore) (r : GenerationRotation)
    (key : GenerationKey) :
    GenerationKept key s (exec core s (.rotate r)) ∧
      ∀ sessionId, r.sessionId ≠ sessionId →
        (exec core s (.rotate r)).current? sessionId core.projectionVersionV1 =
          s.current? sessionId core.projectionVersionV1 := by
  rw [exec]
  cases h : rotateCurrentTranscriptProjectionGeneration core s r with
  | error e => exact ⟨.refl _ _, fun _ _ ↦ rfl⟩
  | ok x =>
    obtain ⟨t, d⟩ := x
    obtain ⟨target, heff⟩ := rotate_ok h
    refine ⟨?_, fun sessionId hne ↦ ?_⟩
    · rw [committed, heff.rest]
      exact ⟨fun x hx ↦ ⟨x, hx, le_rfl⟩, fun _ h _ ↦ h, fun _ h _ ↦ h, fun _ h _ ↦ h⟩
    · rw [committed, TranscriptStore.current?, heff.current, if_neg]
      · rfl
      · intro heq
        exact hne (Prod.mk.inj heq).1.symm

/-! ### Loads -/

/-- Dropping the derived rows of a session keeps those of the others. -/
theorem invalidate_kept (s : TranscriptStore) {sessionId : String} {key : GenerationKey}
    (hne : key.sessionId ≠ sessionId) :
    GenerationKept key s (invalidateTranscriptProjection s sessionId) := by
  have keep {k : GenerationKey} (hk : k = key) : decide (k.sessionId = sessionId) = false := by
    rw [hk]
    exact decide_eq_false hne
  refine ⟨fun x hx ↦ ⟨x, ?_, le_rfl⟩, fun v hv hk ↦ ?_, fun c hc hk ↦ ?_, fun c hc hk ↦ ?_⟩
  · rw [← hx]
    exact Table.get?_delete_of_not fun r hr ↦ keep (Table.key_of_get? hr)
  · exact List.mem_filter.2 ⟨hv, by simp [keep hk]⟩
  · exact List.mem_filter.2 ⟨hc, by simp [keep hk]⟩
  · exact List.mem_filter.2 ⟨hc, by simp [keep hk]⟩

theorem publishInitial_kept (core : TranscriptCore) (s : TranscriptStore) (sessionId : String)
    (key : GenerationKey) :
    GenerationKept key s (publishInitialGeneration core s sessionId).1 ∧
      ∀ other version, other ≠ sessionId →
        (publishInitialGeneration core s sessionId).1.current? other version =
          s.current? other version := by
  unfold publishInitialGeneration
  cases h : initializeTranscriptGeneration core s sessionId with
  | error e => exact ⟨.refl _ _, fun _ _ _ ↦ rfl⟩
  | ok x =>
    unfold initializeTranscriptGeneration at h
    simp only at h
    split at h
    · cases h
    obtain ⟨-, -, h⟩ := Except.bind_eq_ok.1 h
    cases h
    refine ⟨?_, fun other version hne ↦ ?_⟩
    · have hensure := ensureHead_kept s
        ⟨sessionId, core.projectionVersionV1, workspaceTranscriptInitialGeneration⟩ key
      exact ⟨hensure.head, hensure.blockVersions, hensure.commits, hensure.resumeCursors⟩
    · have hk : ¬ (sessionId, core.projectionVersionV1) = (other, version) := fun heq ↦
        hne (Prod.mk.inj heq).1.symm
      simp [TranscriptStore.current?, Table.get?_insertIgnore, hk]

/-- A session without a published generation gets the initial one, or an error. -/
theorem publishInitial_result {core : TranscriptCore} {s : TranscriptStore} {sessionId : String}
    {current : CurrentGeneration} (hnone : s.current? sessionId core.projectionVersionV1 = none)
    (h : (publishInitialGeneration core s sessionId).2 = .ok current) :
    current.projectionGeneration = workspaceTranscriptInitialGeneration := by
  unfold publishInitialGeneration at h
  cases hi : initializeTranscriptGeneration core s sessionId with
  | error e => rw [hi] at h; cases h
  | ok x =>
    rw [hi] at h
    cases h
    unfold initializeTranscriptGeneration at hi
    have hget : (s.currentGenerations.insertIgnore ⟨sessionId, core.projectionVersionV1,
        workspaceTranscriptInitialGeneration, 0⟩).get? (sessionId, core.projectionVersionV1) =
        some ⟨sessionId, core.projectionVersionV1, workspaceTranscriptInitialGeneration, 0⟩ := by
      have hnone : s.currentGenerations.get? (sessionId, core.projectionVersionV1) = none := hnone
      simp [Table.get?_insertIgnore, hnone]
    simp only [hget] at hi
    obtain ⟨-, -, hi⟩ := Except.bind_eq_ok.1 hi
    cases hi
    rfl

/-- A load for another session keeps the generations and the published row of this one. -/
theorem load_other_kept (core : TranscriptCore) (s : TranscriptStore) {sessionId other : String}
    {key : GenerationKey} (hkey : key.sessionId = sessionId) (hne : sessionId ≠ other) :
    GenerationKept key s (exec core s (.load other)) ∧
      (exec core s (.load other)).current? sessionId core.projectionVersionV1 =
        s.current? sessionId core.projectionVersionV1 := by
  rw [exec, loadOrInitializeCurrentTranscriptGeneration]
  split
  · exact ⟨.refl _ _, rfl⟩
  split
  · exact ⟨.refl _ _, rfl⟩
  · obtain ⟨hkept, hcurrent⟩ := publishInitial_kept core s other key
    exact ⟨hkept, hcurrent _ _ hne⟩
  split
  · exact ⟨.refl _ _, rfl⟩
  · obtain ⟨hkept, hcurrent⟩ :=
      publishInitial_kept core (invalidateTranscriptProjection s other) other key
    refine ⟨(invalidate_kept s (hkey ▸ hne)).trans hkept, (hcurrent _ _ hne).trans ?_⟩
    refine Table.get?_delete_of_not fun r hr ↦ decide_eq_false fun heq ↦ hne ?_
    have hr' := Table.key_of_get? hr
    exact (Prod.mk.inj hr').1.symm.trans heq

/-- What a load finds when the published row is valid. -/
theorem loadCurrent_of_valid {core : TranscriptCore} {s : TranscriptStore} {sessionId : String}
    {row : CurrentGenerationRow} (hblank : isBlank sessionId = false)
    (hrow : s.current? sessionId core.projectionVersionV1 = some row)
    (hvalid : core.validateCurrent row.toCurrent = .ok ()) :
    loadCurrentTranscriptProjectionGeneration core s sessionId = .ok (some row.toCurrent) := by
  have hrow : s.currentGenerations.get? (sessionId, core.projectionVersionV1) = some row := hrow
  simp [loadCurrentTranscriptProjectionGeneration, requireNonempty, hblank, hrow, hvalid]

/-- The initial generation is returned as it is, and the store stays as it is. -/
theorem load_of_initial {core : TranscriptCore} {s : TranscriptStore} {sessionId : String}
    {row : CurrentGenerationRow} (hblank : isBlank sessionId = false)
    (hrow : s.current? sessionId core.projectionVersionV1 = some row)
    (hvalid : core.validateCurrent row.toCurrent = .ok ())
    (hinitial : row.projectionGeneration = workspaceTranscriptInitialGeneration) :
    loadOrInitializeCurrentTranscriptGeneration core s sessionId = (s, .ok row.toCurrent) := by
  have hinitial' : row.toCurrent.projectionGeneration = workspaceTranscriptInitialGeneration :=
    hinitial
  simp [loadOrInitializeCurrentTranscriptGeneration, requireNonempty, hblank,
    loadCurrent_of_valid hblank hrow hvalid, hinitial']

/-- Any other generation is never returned. -/
theorem load_of_other_generation {core : TranscriptCore} {s : TranscriptStore}
    {sessionId : String} {row : CurrentGenerationRow} {current : CurrentGeneration}
    (hblank : isBlank sessionId = false)
    (hrow : s.current? sessionId core.projectionVersionV1 = some row)
    (hvalid : core.validateCurrent row.toCurrent = .ok ())
    (hne : row.projectionGeneration ≠ workspaceTranscriptInitialGeneration)
    (h : (loadOrInitializeCurrentTranscriptGeneration core s sessionId).2 = .ok current) :
    current.projectionGeneration = workspaceTranscriptInitialGeneration := by
  have hne' : row.toCurrent.projectionGeneration ≠ workspaceTranscriptInitialGeneration := hne
  simp only [loadOrInitializeCurrentTranscriptGeneration, requireNonempty, hblank,
    loadCurrent_of_valid hblank hrow hvalid, hne', Bool.false_eq_true, if_false] at h
  refine publishInitial_result ?_ h
  -- the published row was deleted with the rest of the session
  refine Table.get?_eq_none_iff.2 fun r hr hkey ↦ ?_
  have hsession : r.sessionId = sessionId := (Prod.mk.inj hkey).1
  simpa [hsession] using (List.mem_filter.1 hr).2

/-- A blank session id is refused. -/
theorem load_of_blank {core : TranscriptCore} {s : TranscriptStore} {sessionId : String}
    {current : CurrentGeneration} (hblank : isBlank sessionId = true) :
    (loadOrInitializeCurrentTranscriptGeneration core s sessionId).2 ≠ .ok current := by
  have hrefused : requireNonempty sessionId "sessionId" = .error _ := if_pos hblank
  rw [loadOrInitializeCurrentTranscriptGeneration, hrefused]
  exact fun h ↦ by cases h

/-! ### Stability -/

/-- The call publishes a generation of the session. -/
def TranscriptOp.rotates (sessionId : String) : TranscriptOp → Prop
  | .rotate r => r.sessionId = sessionId
  | _ => False

/-- From `s` on, whatever is called, and until a generation of the session is published: every load
of the session returns `g`, nothing of `g` is deleted, and the published high water does not go
down. -/
def GenerationStable (core : TranscriptCore) (s : TranscriptStore) (sessionId g : String) : Prop :=
  ∀ ops t, Run (TranscriptStep core) s ops t → (∀ op ∈ ops, ¬ op.rotates sessionId) →
    (∃ current, (loadOrInitializeCurrentTranscriptGeneration core t sessionId).2 = .ok current ∧
      current.projectionGeneration = g) ∧
    GenerationKept ⟨sessionId, core.projectionVersionV1, g⟩ s t ∧
    ∀ row, s.current? sessionId core.projectionVersionV1 = some row →
      ∃ row', t.current? sessionId core.projectionVersionV1 = some row' ∧
        row.sourceHighWater ≤ row'.sourceHighWater

/-- **Step lemma.** While the initial generation is published, a call other than a rotation of the
session keeps the published row and every generation of the session. -/
theorem exec_of_initial {core : TranscriptCore} {s : TranscriptStore} {sessionId : String}
    {row : CurrentGenerationRow} {op : TranscriptOp} (hblank : isBlank sessionId = false)
    (hvalid : core.validateCurrent row.toCurrent = .ok ())
    (hinitial : row.projectionGeneration = workspaceTranscriptInitialGeneration)
    (hrow : s.current? sessionId core.projectionVersionV1 = some row)
    (hop : ¬ op.rotates sessionId) (key : GenerationKey) (hkey : key.sessionId = sessionId) :
    (exec core s op).current? sessionId core.projectionVersionV1 = some row ∧
      GenerationKept key s (exec core s op) := by
  cases op with
  | load other =>
    by_cases hother : sessionId = other
    · subst hother
      rw [exec, load_of_initial hblank hrow hvalid hinitial]
      exact ⟨hrow, .refl _ _⟩
    · obtain ⟨hkept, hcurrent⟩ := load_other_kept core s hkey hother
      exact ⟨hcurrent.trans hrow, hkept⟩
  | commit c =>
    obtain ⟨hcurrent, hkept⟩ := commit_kept core s c key
    exact ⟨by rw [TranscriptStore.current?, hcurrent]; exact hrow, hkept⟩
  | rotate r =>
    obtain ⟨hkept, hcurrent⟩ := rotate_kept core s r key
    exact ⟨(hcurrent sessionId hop).trans hrow, hkept⟩

/-- **Which published generations are stable.** After a successful rotation, the generation it
published is stable exactly when it is the initial generation (and its session id is not blank,
which every load refuses). -/
theorem rotation_stable_iff {core : TranscriptCore} (hlaw : core.Lawful) {s s' : TranscriptStore}
    {r : GenerationRotation} {d : Disposition}
    (h : rotateCurrentTranscriptProjectionGeneration core s r = .ok (s', d)) :
    GenerationStable core s' r.sessionId r.nextGeneration ↔
      isBlank r.sessionId = false ∧ r.nextGeneration = workspaceTranscriptInitialGeneration := by
  obtain ⟨target, heff⟩ := rotate_ok h
  have hversion := hlaw.rotation_version r heff.valid
  have hrow : s'.current? r.sessionId core.projectionVersionV1 =
      some ⟨r.sessionId, r.projectionVersion, r.nextGeneration, target⟩ := by
    rw [TranscriptStore.current?, heff.current, if_pos (by rw [hversion])]
  have hvalid := hlaw.rotation_current r target heff.valid heff.parsed
  constructor
  · intro hstable
    obtain ⟨⟨current, hload, hg⟩, -⟩ := hstable [] s' .nil fun _ hop ↦ by cases hop
    have hblank : isBlank r.sessionId = false :=
      Bool.eq_false_iff.2 fun hblank ↦ load_of_blank hblank hload
    refine ⟨hblank, ?_⟩
    by_contra hne
    exact hne (hg.symm.trans (load_of_other_generation hblank hrow hvalid hne hload))
  · rintro ⟨hblank, hinitial⟩ ops t hrun hops
    obtain ⟨hcurrent, hkept⟩ := hrun.invariant_history (I := fun ops t ↦
      (∀ op ∈ ops, ¬ op.rotates r.sessionId) →
        t.current? r.sessionId core.projectionVersionV1 =
          some ⟨r.sessionId, r.projectionVersion, r.nextGeneration, target⟩ ∧
        GenerationKept ⟨r.sessionId, core.projectionVersionV1, r.nextGeneration⟩ s' t)
      (fun _ ↦ ⟨hrow, .refl _ _⟩) (by
        rintro ops t op u - hi rfl hops
        obtain ⟨hcurrent, hkept⟩ := hi fun op hop ↦ hops op (List.mem_append_left _ hop)
        obtain ⟨hcurrent', hkept'⟩ := exec_of_initial hblank hvalid hinitial hcurrent
          (hops op (by simp)) ⟨r.sessionId, core.projectionVersionV1, r.nextGeneration⟩ rfl
        exact ⟨hcurrent', hkept.trans hkept'⟩) hops
    refine ⟨⟨_, by rw [load_of_initial hblank hcurrent hvalid hinitial], rfl⟩, hkept, ?_⟩
    rintro row hrow'
    obtain rfl := Option.some.inj (hrow.symm.trans hrow')
    exact ⟨_, hcurrent, le_rfl⟩

/-! ### A rebuild that a read destroys -/

/-- A core that checks the projection version. -/
def sampleCore : TranscriptCore where
  projectionVersionV1 := "transcript.projection.v1"
  validateCommit _ := .ok ()
  validateRotation r := if r.projectionVersion = "transcript.projection.v1" then .ok ()
    else .error "transcript generation rotation version mismatch"
  validateCurrent _ := .ok ()

theorem sampleCore_lawful : sampleCore.Lawful where
  rotation_version r h := by
    by_contra hne
    have hne : r.projectionVersion ≠ "transcript.projection.v1" := hne
    simp [sampleCore, hne] at h
  rotation_current _ _ _ _ := rfl

/-- A session is opened; then its generation is rebuilt up to its first record. -/
def rebuildCommit : ProjectionCommit where
  commitId := "transcript-commit:generation-rebuild-1:event_1"
  sessionId := "session_1"
  projectionVersion := "transcript.projection.v1"
  projectionGeneration := "generation-rebuild-1"
  expectedSourceHighWater := "0"
  sourceHighWater := "1"
  upserts := [⟨"1", ⟨"block_1", "1", 0, "1", .null⟩⟩]
  resumeCursors := [("workspace-transcript.v1", "1")]
  checkpoint := none
  frontier := none
  invalidationReason := none

@[inherit_doc rebuildCommit]
def rebuilt : TranscriptStore :=
  exec sampleCore (exec sampleCore .empty (.load "session_1")) (.commit rebuildCommit)

@[inherit_doc rebuildCommit]
def rebuildRotation : GenerationRotation :=
  ⟨"session_1", "transcript.projection.v1", some "generation-1", "generation-rebuild-1", "1"⟩

@[inherit_doc rebuildCommit]
def published : TranscriptStore := exec sampleCore rebuilt (.rotate rebuildRotation)

/-- The rotation is the one by which the scheduled rebuild ends, it is applied, and the published
generation covers the record; the next load drops the head and publishes a generation that covers
nothing. -/
theorem rebuild_destroyed_by_read :
    Run (TranscriptStep sampleCore) .empty [.load "session_1", .commit rebuildCommit] rebuilt ∧
    (scheduleTranscriptGenerationRebuild "session_1" 1 "generation-1").map
      (·.rotation sampleCore) = .ok rebuildRotation ∧
    rotateCurrentTranscriptProjectionGeneration sampleCore rebuilt rebuildRotation =
      .ok (published, .applied) ∧
    published.current? "session_1" "transcript.projection.v1" =
      some ⟨"session_1", "transcript.projection.v1", "generation-rebuild-1", 1⟩ ∧
    (loadOrInitializeCurrentTranscriptGeneration sampleCore published "session_1").2 =
      .ok ⟨"session_1", "transcript.projection.v1", "generation-1", "0"⟩ ∧
    (exec sampleCore published (.load "session_1")).heads.get?
      ⟨"session_1", "transcript.projection.v1", "generation-rebuild-1"⟩ = none ∧
    published.blockVersions.rows.length = 1 ∧
    (exec sampleCore published (.load "session_1")).blockVersions.rows = [] := by
  refine ⟨(Run.single rfl).snoc rfl, rfl, rfl, ?_, ?_, ?_, ?_, ?_⟩ <;> decide +kernel

/-- The published rebuild is not stable. -/
theorem rotation_stable_iff_rebuild :
    ¬ GenerationStable sampleCore published "session_1" "generation-rebuild-1" := by
  have hrotate : rotateCurrentTranscriptProjectionGeneration sampleCore rebuilt rebuildRotation =
      .ok (published, .applied) := rfl
  intro hstable
  have hinitial := ((rotation_stable_iff sampleCore_lawful hrotate).1 hstable).2
  exact absurd hinitial (by decide +kernel)

end Centaeris.Transcript
