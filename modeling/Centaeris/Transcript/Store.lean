import Centaeris.Base.Except
import Centaeris.Base.Json
import Centaeris.Base.Machine
import Centaeris.Relational.Table

/-!
# The transcript projection store

The derived transcript of a session is stored in *generations*. A generation has a head with the
high water of the source records it covers, block versions, resume cursors, commits and a recovery
slot; one row per session names the generation that is published.

* `commitTranscriptProjection` advances the head of one generation by a compare-and-set and stores
  what the step projected;
* `rotateCurrentTranscriptProjectionGeneration` publishes a complete generation, by a
  compare-and-set on the published one;
* `loadOrInitializeCurrentTranscriptGeneration` is what every reader calls first.

Each transaction returns the store it commits; an error rolls it back. A function that runs several
transactions returns the store next to its result, as an error of a later transaction leaves the
earlier ones committed.
-/

namespace Centaeris.Transcript

open Machine

/-! ### Records -/

/-- The generation a row belongs to. -/
structure GenerationKey where
  sessionId : String
  projectionVersion : String
  projectionGeneration : String
  deriving DecidableEq

/-- A row of `transcript_projection_heads`. -/
structure ProjectionHead where
  key : GenerationKey
  sourceHighWater : Int
  invalidationReason : Option String
  deriving DecidableEq

/-- A row of `transcript_projection_current_generations`. -/
structure CurrentGenerationRow where
  sessionId : String
  projectionVersion : String
  projectionGeneration : String
  sourceHighWater : Int
  deriving DecidableEq

/-- A row of `transcript_block_identities`. -/
structure BlockIdentity where
  key : GenerationKey
  blockId : String
  orderSourceSequence : Int
  orderOrdinal : Int
  deriving DecidableEq

/-- `TranscriptBlockV1`: the fields the store reads, and the rest. -/
structure TranscriptBlock where
  blockId : String
  orderSourceSequence : String
  orderOrdinal : Nat
  blockRevision : String
  content : Json
  deriving DecidableEq

/-- A row of `transcript_block_versions`. -/
structure BlockVersion where
  key : GenerationKey
  blockId : String
  appliedSourceSequence : Int
  blockRevision : Int
  block : TranscriptBlock
  deriving DecidableEq

/-- A row of `transcript_resume_cursors`. -/
structure ResumeCursor where
  key : GenerationKey
  streamId : String
  sourceHighWater : Int
  cursor : String
  deriving DecidableEq

/-- A row of `transcript_projection_current_recoveries`. -/
structure CurrentRecovery where
  key : GenerationKey
  sourceHighWater : Int
  checkpoint : Json
  frontier : Json
  deriving DecidableEq

/-- `TranscriptCommittedBlockV1`. -/
structure CommittedBlock where
  appliedSourceSequence : String
  block : TranscriptBlock
  deriving DecidableEq

/-- `TranscriptProjectionCommitV1`. -/
structure ProjectionCommit where
  commitId : String
  sessionId : String
  projectionVersion : String
  projectionGeneration : String
  expectedSourceHighWater : String
  sourceHighWater : String
  upserts : List CommittedBlock
  /-- Stream ids with their cursors. -/
  resumeCursors : List (String × String)
  checkpoint : Option Json
  frontier : Option Json
  invalidationReason : Option String
  deriving DecidableEq

/-- The generation a commit is for. -/
def ProjectionCommit.key (c : ProjectionCommit) : GenerationKey :=
  ⟨c.sessionId, c.projectionVersion, c.projectionGeneration⟩

/-- A row of `transcript_projection_commits`, with its `commit_json` decoded. -/
structure CommitRow where
  commitId : String
  key : GenerationKey
  expectedSourceHighWater : Int
  sourceHighWater : Int
  commit : ProjectionCommit
  deriving DecidableEq

/-- `TranscriptProjectionGenerationRotationV1`. -/
structure GenerationRotation where
  sessionId : String
  projectionVersion : String
  expectedCurrentGeneration : Option String
  nextGeneration : String
  targetSourceHighWater : String
  deriving DecidableEq

/-- `TranscriptProjectionCurrentGenerationV1`. -/
structure CurrentGeneration where
  sessionId : String
  projectionVersion : String
  projectionGeneration : String
  sourceHighWater : String
  deriving DecidableEq

/-- The transcript tables. -/
structure TranscriptStore where
  heads : Table ProjectionHead.key
  currentGenerations : Table fun r : CurrentGenerationRow ↦ (r.sessionId, r.projectionVersion)
  blockIdentities : Table fun r : BlockIdentity ↦ (r.key, r.blockId)
  blockVersions : Table fun r : BlockVersion ↦ (r.key, r.blockId, r.appliedSourceSequence)
  resumeCursors : Table fun r : ResumeCursor ↦ (r.key, r.streamId, r.sourceHighWater)
  currentRecoveries : Table CurrentRecovery.key
  commits : Table CommitRow.commitId

/-- The tables without rows. -/
def TranscriptStore.empty : TranscriptStore :=
  ⟨.empty, .empty, .empty, .empty, .empty, .empty, .empty⟩

/-- What the runtime core contributes to the transcript store. -/
structure TranscriptCore where
  /-- `TRANSCRIPT_PROJECTION_VERSION_V1`. -/
  projectionVersionV1 : String
  /-- `TranscriptProjectionCommitV1::validate`. -/
  validateCommit : ProjectionCommit → Except String Unit
  /-- `TranscriptProjectionGenerationRotationV1::validate`. -/
  validateRotation : GenerationRotation → Except String Unit
  /-- `TranscriptProjectionCurrentGenerationV1::validate`. -/
  validateCurrent : CurrentGeneration → Except String Unit

/-! ### Helpers -/

/-- `decimal_to_i64`. -/
def decimalToI64 (value name : String) : Except String Int :=
  match parseU64 value with
  | none => .error ("transcript " ++ name ++ " is not a valid u64")
  | some n =>
    match i64TryFrom n with
    | none => .error ("transcript " ++ name ++ " exceeds PostgreSQL bigint range")
    | some i => .ok i

/-- `require_nonempty`. -/
def requireNonempty (value name : String) : Except String Unit :=
  if isBlank value then .error ("transcript " ++ name ++ " must not be empty") else .ok ()

/-- `INSERT` of a row that must satisfy its `CHECK` constraints. -/
def insertChecked {ρ κ : Type} {key : ρ → κ} [DecidableEq κ] (t : Table key) (label : String)
    (check : ρ → Bool) (r : ρ) : Except String (Table key) :=
  if !check r then .error (label ++ " failed: new row violates check constraint")
  else
    match t.insert? r with
    | none => .error (label ++ " failed: duplicate key value violates unique constraint")
    | some t' => .ok t'

/-! ### Committing projected blocks -/

/-- The identity of a block is stored with its first revision; later revisions keep its order. -/
def saveBlockIdentity (s : TranscriptStore) (key : GenerationKey) (blockId : String)
    (applied order ordinal : Int) : Except String TranscriptStore :=
  match s.blockIdentities.get? (key, blockId) with
  | some identity =>
    if (identity.orderSourceSequence, identity.orderOrdinal) ≠ (order, ordinal) then
      .error "transcript block orderKey changed across revisions"
    else .ok s
  | none =>
    if applied ≠ order then
      .error "transcript block first revision must be applied at its order sourceSequence"
    else if s.blockIdentities.rows.any fun r ↦
        decide (r.key = key ∧ r.orderSourceSequence = order ∧ r.orderOrdinal = ordinal) then
      .error "save transcript block identity failed: duplicate key value violates unique constraint"
    else do
      let identities ← insertChecked s.blockIdentities "save transcript block identity"
        (fun r ↦ decide (0 < r.orderSourceSequence) && decide (0 ≤ r.orderOrdinal))
        ⟨key, blockId, order, ordinal⟩
      return { s with blockIdentities := identities }

/-- `ORDER BY applied_source_sequence DESC LIMIT 1`. -/
def latestVersion (s : TranscriptStore) (key : GenerationKey) (blockId : String) :
    Option BlockVersion :=
  (s.blockVersions.rows.filter fun v ↦ decide (v.key = key ∧ v.blockId = blockId)).foldl
    (fun best v ↦ match best with
      | some b => if b.appliedSourceSequence < v.appliedSourceSequence then some v else some b
      | none => some v) none

/-- `save_block_version`. -/
def saveBlockVersion (c : ProjectionCommit) (s : TranscriptStore) (item : CommittedBlock) :
    Except String TranscriptStore := do
  let applied ← decimalToI64 item.appliedSourceSequence "appliedSourceSequence"
  let order ← decimalToI64 item.block.orderSourceSequence "order sourceSequence"
  let revision ← decimalToI64 item.block.blockRevision "blockRevision"
  let s₁ ← saveBlockIdentity s c.key item.block.blockId applied order item.block.orderOrdinal
  if (latestVersion s₁ c.key item.block.blockId).any fun previous ↦
      decide (applied ≤ previous.appliedSourceSequence) ||
        decide (revision ≤ previous.blockRevision) then
    throw "transcript block version is not increasing"
  let versions ← insertChecked s₁.blockVersions "save transcript block version"
    (fun r ↦ decide (0 < r.appliedSourceSequence) && decide (0 < r.blockRevision))
    ⟨c.key, item.block.blockId, applied, revision, item.block⟩
  return { s₁ with blockVersions := versions }

/-- One resume cursor of a commit. -/
def saveResumeCursor (c : ProjectionCommit) (highWater : Int) (s : TranscriptStore)
    (cursor : String × String) : Except String TranscriptStore := do
  let cursors ← insertChecked s.resumeCursors "save transcript resume cursor"
    (fun r ↦ decide (0 < r.sourceHighWater)) ⟨c.key, cursor.1, highWater, cursor.2⟩
  return { s with resumeCursors := cursors }

/-- The recovery slot of the generation advances with a checkpoint, and is emptied by an
invalidation. -/
def saveRecovery (c : ProjectionCommit) (highWater : Int) (s : TranscriptStore) :
    Except String TranscriptStore :=
  match c.checkpoint with
  | some checkpoint =>
    match c.frontier with
    | none => .error "validated checkpoint frontier pair"
    | some frontier =>
      if highWater ≤ 0 then
        .error "save current transcript projection recovery failed: new row violates check constraint"
      else if (s.currentRecoveries.get? c.key).any fun r ↦ decide (highWater ≤ r.sourceHighWater) then
        .error "current transcript projection recovery did not advance"
      else
        .ok { s with
          currentRecoveries := s.currentRecoveries.upsert ⟨c.key, highWater, checkpoint, frontier⟩
            (fun r ↦ ⟨r.key, highWater, checkpoint, frontier⟩) fun _ ↦ rfl }
  | none =>
    if c.invalidationReason.isSome then
      .ok { s with currentRecoveries := s.currentRecoveries.delete fun r ↦ decide (r.key = c.key) }
    else .ok s

/-- Patch history leaves out the recovery data. -/
def patchCommit (c : ProjectionCommit) : ProjectionCommit :=
  { c with checkpoint := none, frontier := none }

/-- The head of a generation after a commit. -/
def advancedHead (highWater : Int) (invalidation : Option String) (h : ProjectionHead) :
    ProjectionHead :=
  ⟨h.key, highWater, invalidation⟩

@[simp] theorem advancedHead_key (highWater : Int) (invalidation : Option String)
    (h : ProjectionHead) : (advancedHead highWater invalidation h).key = h.key := rfl

/-- The head moves from `expected` to `highWater`. -/
def advanceHead (c : ProjectionCommit) (expected highWater : Int) (s : TranscriptStore) :
    Except String TranscriptStore :=
  let readable (h : ProjectionHead) : Bool := decide (h.key = c.key) &&
    decide (h.sourceHighWater = expected) && h.invalidationReason.isNone
  if (s.heads.get? c.key).any readable then
    .ok { s with
      heads := s.heads.update readable (advancedHead highWater c.invalidationReason)
        (advancedHead_key _ _) }
  else .error "transcript projection sourceHighWater conflict while committing"

/-- The row of a commit. -/
def recordCommit (c : ProjectionCommit) (expected highWater : Int) (s : TranscriptStore) :
    Except String TranscriptStore :=
  if s.commits.rows.any fun r ↦ decide (r.key = c.key ∧ r.sourceHighWater = highWater) then
    .error
      "record transcript projection commit failed: duplicate key value violates unique constraint"
  else do
    let commits ← insertChecked s.commits "record transcript projection commit"
      (fun r ↦ decide (0 ≤ r.expectedSourceHighWater) &&
        decide (r.expectedSourceHighWater < r.sourceHighWater))
      ⟨c.commitId, c.key, expected, highWater, patchCommit c⟩
    return { s with commits := commits }

/-- `TranscriptProjectionCommitDispositionV1`, and the same for rotations. -/
inductive Disposition
  | applied | alreadyApplied
  deriving DecidableEq

/-- What a commit writes, once its head is locked and its expectation met. -/
def writeCommit (c : ProjectionCommit) (expected highWater : Int) (s : TranscriptStore) :
    Except String TranscriptStore := do
  let s₁ ← c.upserts.foldlM (saveBlockVersion c) s
  let s₂ ← c.resumeCursors.foldlM (saveResumeCursor c highWater) s₁
  let s₃ ← saveRecovery c highWater s₂
  let s₄ ← advanceHead c expected highWater s₃
  recordCommit c expected highWater s₄

/-- The first commit of a generation creates its head. -/
def ensureHead (s : TranscriptStore) (key : GenerationKey) : TranscriptStore :=
  { s with heads := s.heads.insertIgnore ⟨key, 0, none⟩ }

/-- `commit_transcript_projection`. A repeated commit returns without committing its
transaction. -/
def commitTranscriptProjection (core : TranscriptCore) (s : TranscriptStore)
    (c : ProjectionCommit) : Except String (TranscriptStore × Disposition) := do
  core.validateCommit c
  let expected ← decimalToI64 c.expectedSourceHighWater "expectedSourceHighWater"
  let highWater ← decimalToI64 c.sourceHighWater "sourceHighWater"
  let s₁ := if expected = 0 then ensureHead s c.key else s
  match s₁.commits.get? c.commitId with
  | some existing =>
    if existing.commit = patchCommit c then return (s, .alreadyApplied)
    else throw ("transcript projection commitId conflict: " ++ c.commitId)
  | none =>
    match s₁.heads.get? c.key with
    | none =>
      throw "transcript projection sourceHighWater conflict: projection head is missing"
    | some head =>
      match head.invalidationReason with
      | some reason => throw ("transcript projection is invalidated: " ++ reason)
      | none =>
        if head.sourceHighWater ≠ expected then
          throw ("transcript projection sourceHighWater conflict: expected " ++ toString expected ++
            ", actual " ++ toString head.sourceHighWater)
        else
          let s₂ ← writeCommit c expected highWater s₁
          return (s₂, .applied)

/-! ### Publishing a generation -/

/-- The published row of a session, switched to another generation. -/
def rotatedRow (next : String) (target : Int) (r : CurrentGenerationRow) : CurrentGenerationRow :=
  { r with projectionGeneration := next, sourceHighWater := target }

theorem rotatedRow_key (next : String) (target : Int) (r : CurrentGenerationRow) :
    ((rotatedRow next target r).sessionId, (rotatedRow next target r).projectionVersion) =
      (r.sessionId, r.projectionVersion) := rfl

/-- The compare-and-set on the published generation. -/
def publishGeneration (s : TranscriptStore) (r : GenerationRotation) (target : Int) :
    Except String (TranscriptStore × Disposition) :=
  let current := s.currentGenerations.get? (r.sessionId, r.projectionVersion)
  if current.any fun c ↦
      decide (c.projectionGeneration = r.nextGeneration ∧ c.sourceHighWater = target) then
    .ok (s, .alreadyApplied)
  else
    match r.expectedCurrentGeneration, current with
    | none, none => do
      let published ← insertChecked s.currentGenerations "publish initial transcript generation"
        (fun c ↦ decide (0 ≤ c.sourceHighWater))
        ⟨r.sessionId, r.projectionVersion, r.nextGeneration, target⟩
      return ({ s with currentGenerations := published }, .applied)
    | some expected, some c =>
      if expected = c.projectionGeneration then
        .ok ({ s with
          currentGenerations := s.currentGenerations.update
            (fun x ↦ decide (x.sessionId = r.sessionId ∧ x.projectionVersion = r.projectionVersion ∧
              x.projectionGeneration = expected))
            (rotatedRow r.nextGeneration target) (rotatedRow_key _ _) }, .applied)
      else .error "transcript projection generation rotation conflict"
    | _, _ => .error "transcript projection generation rotation conflict"

/-- `rotate_current_transcript_projection_generation`. -/
def rotateCurrentTranscriptProjectionGeneration (core : TranscriptCore) (s : TranscriptStore)
    (r : GenerationRotation) : Except String (TranscriptStore × Disposition) := do
  core.validateRotation r
  let target ← decimalToI64 r.targetSourceHighWater "generation targetSourceHighWater"
  match s.heads.get? ⟨r.sessionId, r.projectionVersion, r.nextGeneration⟩ with
  | none => throw "next transcript projection generation head is missing"
  | some head =>
    if head.sourceHighWater ≠ target ∨ head.invalidationReason.isSome then
      throw "next transcript projection generation is not complete and readable"
    else publishGeneration s r target

/-! ### Reading the published generation -/

/-- `WORKSPACE_TRANSCRIPT_BLOCK_SCHEMA_VERSION`. -/
def workspaceTranscriptBlockSchemaVersion : Nat := 1

/-- `workspace_transcript_initial_generation`. -/
def workspaceTranscriptInitialGeneration : String :=
  if workspaceTranscriptBlockSchemaVersion ≤ 1 then "generation-1"
  else "generation-1.blocks" ++ toString workspaceTranscriptBlockSchemaVersion

/-- A stored row as the reader returns it. -/
def CurrentGenerationRow.toCurrent (r : CurrentGenerationRow) : CurrentGeneration :=
  ⟨r.sessionId, r.projectionVersion, r.projectionGeneration, toString r.sourceHighWater⟩

/-- `load_current_transcript_projection_generation`. -/
def loadCurrentTranscriptProjectionGeneration (core : TranscriptCore) (s : TranscriptStore)
    (sessionId : String) : Except String (Option CurrentGeneration) := do
  requireNonempty sessionId "sessionId"
  match s.currentGenerations.get? (sessionId, core.projectionVersionV1) with
  | none => return none
  | some row =>
    core.validateCurrent row.toCurrent
    return some row.toCurrent

/-- `invalidate_transcript_projection`: the derived rows of a session are deleted. -/
def invalidateTranscriptProjection (s : TranscriptStore) (sessionId : String) : TranscriptStore where
  currentRecoveries := s.currentRecoveries.delete fun r ↦ decide (r.key.sessionId = sessionId)
  resumeCursors := s.resumeCursors.delete fun r ↦ decide (r.key.sessionId = sessionId)
  blockVersions := s.blockVersions.delete fun r ↦ decide (r.key.sessionId = sessionId)
  blockIdentities := s.blockIdentities.delete fun r ↦ decide (r.key.sessionId = sessionId)
  commits := s.commits.delete fun r ↦ decide (r.key.sessionId = sessionId)
  currentGenerations := s.currentGenerations.delete fun r ↦ decide (r.sessionId = sessionId)
  heads := s.heads.delete fun r ↦ decide (r.key.sessionId = sessionId)

/-- The transaction that publishes the initial generation of a session that has none. -/
def initializeTranscriptGeneration (core : TranscriptCore) (s : TranscriptStore)
    (sessionId : String) : Except String (TranscriptStore × CurrentGeneration) := do
  let version := core.projectionVersionV1
  let initial := workspaceTranscriptInitialGeneration
  let s' := { ensureHead s ⟨sessionId, version, initial⟩ with
    currentGenerations := s.currentGenerations.insertIgnore ⟨sessionId, version, initial, 0⟩ }
  match s'.currentGenerations.get? (sessionId, version) with
  | none => throw "load initialized transcript generation failed: query returned no rows"
  | some row =>
    core.validateCurrent row.toCurrent
    return (s', row.toCurrent)

/-- The initial publication, with the store it leaves. -/
def publishInitialGeneration (core : TranscriptCore) (s : TranscriptStore) (sessionId : String) :
    TranscriptStore × Except String CurrentGeneration :=
  match initializeTranscriptGeneration core s sessionId with
  | .error e => (s, .error e)
  | .ok (s', current) => (s', .ok current)

/-- `load_or_initialize_current_transcript_generation`: a published generation other than the
initial one is taken for one of another block encoding, and dropped. -/
def loadOrInitializeCurrentTranscriptGeneration (core : TranscriptCore) (s : TranscriptStore)
    (sessionId : String) : TranscriptStore × Except String CurrentGeneration :=
  match requireNonempty sessionId "sessionId" with
  | .error e => (s, .error e)
  | .ok () =>
    match loadCurrentTranscriptProjectionGeneration core s sessionId with
    | .error e => (s, .error e)
    | .ok none => publishInitialGeneration core s sessionId
    | .ok (some current) =>
      if current.projectionGeneration = workspaceTranscriptInitialGeneration then (s, .ok current)
      else publishInitialGeneration core (invalidateTranscriptProjection s sessionId) sessionId

/-! ### Rebuilding -/

/-- `TranscriptGenerationRebuildRequestV1`. -/
structure GenerationRebuildRequest where
  sessionId : String
  projectionGeneration : String
  targetSourceHighWater : String
  expectedCurrentGeneration : Option String

/-- The request `schedule_transcript_generation_rebuild` hands to the rebuilder. -/
def scheduleTranscriptGenerationRebuild (sessionId : String) (sourceHighWater : Nat)
    (expectedCurrentGeneration : String) : Except String GenerationRebuildRequest := do
  requireNonempty sessionId "sessionId"
  requireNonempty expectedCurrentGeneration "expectedCurrentGeneration"
  if sourceHighWater = 0 then
    throw "transcript generation rebuild requires a positive sourceHighWater"
  return ⟨sessionId, "generation-rebuild-" ++ toString sourceHighWater, toString sourceHighWater,
    some expectedCurrentGeneration⟩

/-- The rotation by which a rebuild ends. -/
def GenerationRebuildRequest.rotation (core : TranscriptCore) (r : GenerationRebuildRequest) :
    GenerationRotation :=
  ⟨r.sessionId, core.projectionVersionV1, r.expectedCurrentGeneration, r.projectionGeneration,
    r.targetSourceHighWater⟩

end Centaeris.Transcript
