import Centaeris.Web.Contract
import Centaeris.Relational.Dict
import Mathlib.Data.Finset.Dedup
import Mathlib.Data.Finset.Erase
import Mathlib.Data.Finset.Insert

/-!
# The transcript view store of the web client

`createTranscriptViewStore`: the blocks of one transcript as far as they are loaded, with what is
kept beside them so that an update does not have to go over all of them: the sorted ids, the owner of
each order key, the bytes, the highest notice. A store is opened with the tail of a transcript; older
pages are prepended to it, patches are applied on top, and what was prepended can be released again.

An operation returns the store it leaves and its answer, also when it throws: the store after a throw
is the one the source has at that point. The variables that are assigned before everything is known to
go through are the reason for this; in `applyPatchPage` it is `postBaseOverrideIds`.

Maps that are only looked up are functions; those that are iterated are `Dict`s. Listeners are left
out, and with them the sets of changed ids that only they see.
-/

namespace Centaeris.Web

open Except

/-- `TranscriptListSnapshot`. -/
structure TranscriptListSnapshot where
  sessionId : Option String
  projectionVersion : Option String
  projectionGeneration : Option String
  sourceHighWater : Nat
  viewEpoch : Nat
  blockIds : List String
  olderCursor : Option String
  hasOlder : Bool
  appliedSourceHighWater : Nat
  deriving DecidableEq

/-- The snapshot of a store that is not open. -/
def TranscriptListSnapshot.closed (viewEpoch : Nat) : TranscriptListSnapshot :=
  ⟨none, none, none, 0, viewEpoch, [], none, false, 0⟩

/-- The variables of `createTranscriptViewStore`. -/
structure ViewStore where
  viewEpoch : Nat
  identity : Option TranscriptIdentity
  blocks : Dict String TranscriptBlock
  blockBytes : Dict String Nat
  managedBytes : Int
  tailBlockIds : Finset String
  postBaseOverrideIds : Finset String
  tailOlderCursor : Option String
  revisions : String → Option Nat
  orderOwners : OrderKey → Option String
  noticeHighWater : Nat
  blockIds : List String
  listSnapshot : TranscriptListSnapshot
  liveSnapshot : Option TranscriptLiveOverlay

/-- The store as it is created. -/
def ViewStore.initial : ViewStore where
  viewEpoch := 0
  identity := none
  blocks := .empty
  blockBytes := .empty
  managedBytes := 0
  tailBlockIds := ∅
  postBaseOverrideIds := ∅
  tailOlderCursor := none
  revisions := fun _ ↦ none
  orderOwners := fun _ ↦ none
  noticeHighWater := 0
  blockIds := []
  listSnapshot := .closed 0
  liveSnapshot := none

/-! ### Indexes -/

/-- The error of two blocks at one place. -/
def orderConflict : String := "conflicting transcript block orderKey"

/-- The error of two contents for one revision. -/
def revisionConflict : String := "conflicting transcript block revision"

/-- The error of a block that moves. -/
def orderChanged : String := "transcript block revision changed orderKey"

/-- `sortedIds`. -/
def sortedIds (candidate : Dict String TranscriptBlock) : Except String (List String) :=
  let ordered := candidate.values.insertionSort fun a b ↦ compareTranscriptBlocks a b ≤ 0
  if ordered.IsChain fun a b ↦ compareTranscriptBlocks a b ≠ 0 then .ok (ordered.map (·.blockId))
  else .error orderConflict

/-- A block takes its place, unless another one has it. -/
def claimOrder (owners : OrderKey → Option String) (item : TranscriptBlock) :
    Except String (OrderKey → Option String) :=
  if (owners item.order).any fun owner ↦ decide (owner ≠ item.blockId) then .error orderConflict
  else .ok (Function.update owners item.order (some item.blockId))

/-- `indexOrders`. -/
def indexOrders (candidate : Dict String TranscriptBlock) :
    Except String (OrderKey → Option String) :=
  candidate.values.foldlM claimOrder fun _ ↦ none

/-- `latestNoticeHighWater`. -/
def latestNoticeHighWater (candidate : Dict String TranscriptBlock) : Nat :=
  candidate.values.foldl
    (fun highWater item ↦ if item.isNotice then max highWater item.sourceSequence else highWater) 0

/-- `replaceManagedBlock`. -/
def ViewStore.replaceManagedBlock (js : Js) (s : ViewStore) (blockId : String)
    (block : Option TranscriptBlock) : ViewStore :=
  let managedBytes := s.managedBytes - (s.blockBytes.get? blockId).getD 0
  match block with
  | none => { s with managedBytes, blockBytes := s.blockBytes.erase blockId }
  | some block =>
    { s with
      managedBytes := managedBytes + block.bytes js
      blockBytes := s.blockBytes.set blockId (block.bytes js) }

/-! ### Opening -/

/-- One block of the tail page. -/
def ViewStore.loadTailBlock (js : Js) (s : ViewStore) (item : TranscriptBlock) : ViewStore :=
  let s := { s with blocks := s.blocks.set item.blockId item }
  let s := s.replaceManagedBlock js item.blockId (some item)
  { s with revisions := Function.update s.revisions item.blockId (some item.blockRevision) }

/-- `openTail`, for a page that is valid. -/
def ViewStore.openPage (js : Js) (s : ViewStore) (page : TranscriptPage) :
    ViewStore × Except String Nat :=
  let s := { s with
    viewEpoch := s.viewEpoch + 1
    identity := some page.identity
    blocks := .empty
    blockBytes := .empty
    managedBytes := 0
    postBaseOverrideIds := ∅
    revisions := fun _ ↦ none }
  let s := page.blocks.foldl (ViewStore.loadTailBlock js) s
  let s := { s with
    tailBlockIds := (page.blocks.map (·.blockId)).toFinset
    tailOlderCursor := page.olderCursor }
  match sortedIds s.blocks with
  | .error e => (s, .error e)
  | .ok blockIds =>
    let s := { s with blockIds }
    match indexOrders s.blocks with
    | .error e => (s, .error e)
    | .ok orderOwners =>
      ({ s with
        orderOwners
        noticeHighWater := latestNoticeHighWater s.blocks
        listSnapshot := {
          sessionId := some page.identity.sessionId
          projectionVersion := some page.identity.projectionVersion
          projectionGeneration := some page.identity.projectionGeneration
          sourceHighWater := page.identity.sourceHighWater
          viewEpoch := s.viewEpoch
          blockIds
          olderCursor := page.olderCursor
          hasOlder := page.hasOlder
          appliedSourceHighWater := page.resumeCursor.getD 0 }
        liveSnapshot := none }, .ok s.viewEpoch)

/-- `openTail`. -/
def ViewStore.openTail (js : Js) (s : ViewStore) (rawPage : Json) : ViewStore × Except String Nat :=
  match validateTranscriptTailPage js rawPage with
  | .error e => (s, .error e)
  | .ok page => s.openPage js page

/-! ### Older pages -/

/-- The maps that `mergeBlock` works on, and the ids it has changed. -/
structure Candidate where
  blocks : Dict String TranscriptBlock
  revisions : String → Option Nat
  changed : List String

/-- `mergeBlock`, when the block is newer than what is known. -/
def Candidate.accept (c : Candidate) (next : TranscriptBlock) : Except String Candidate := do
  require ((c.blocks.get? next.blockId).all fun current ↦
    decide (compareTranscriptBlocks current next = 0)) orderChanged
  return {
    blocks := c.blocks.set next.blockId next
    revisions := Function.update c.revisions next.blockId (some next.blockRevision)
    changed := if next.blockId ∈ c.changed then c.changed else c.changed ++ [next.blockId] }

/-- `mergeBlock`. -/
def mergeBlock (js : Js) (c : Candidate) (next : TranscriptBlock) : Except String Candidate :=
  match c.revisions next.blockId with
  | none => c.accept next
  | some currentRevision =>
    if next.blockRevision < currentRevision then .ok c
    else if next.blockRevision = currentRevision then do
      require ((c.blocks.get? next.blockId).any fun current ↦
        decide (current.canonical js = next.canonical js)) revisionConflict
      return c
    else c.accept next

/-- The notices of a page, also of blocks that it did not change. -/
def raiseNotice (highWater : Nat) (item : TranscriptBlock) : Nat :=
  if item.isNotice then max highWater item.sourceSequence else highWater

/-- `prependPage`, for a page that is valid and of the same projection. -/
def ViewStore.mergePage (js : Js) (s : ViewStore) (page : TranscriptPage) :
    ViewStore × Except String Bool :=
  match page.blocks.foldlM (mergeBlock js) ⟨s.blocks, s.revisions, []⟩ with
  | .error e => (s, .error e)
  | .ok candidate =>
    match sortedIds candidate.blocks with
    | .error e => (s, .error e)
    | .ok blockIds =>
      let s := candidate.changed.foldl
        (fun s blockId ↦ s.replaceManagedBlock js blockId (candidate.blocks.get? blockId)) s
      let s := { s with blocks := candidate.blocks, revisions := candidate.revisions, blockIds }
      match indexOrders candidate.blocks with
      | .error e => (s, .error e)
      | .ok orderOwners =>
        ({ s with
          orderOwners
          noticeHighWater := page.blocks.foldl raiseNotice s.noticeHighWater
          listSnapshot := { s.listSnapshot with
            blockIds
            olderCursor := page.olderCursor
            hasOlder := page.hasOlder } }, .ok true)

/-- The identity that an operation works under: the store is open, in the epoch it is called for. -/
def ViewStore.current? (s : ViewStore) (expectedEpoch : Nat) : Option TranscriptIdentity :=
  if expectedEpoch ≠ s.viewEpoch then none else s.identity

/-- `prependPage`. -/
def ViewStore.prependPage (js : Js) (s : ViewStore) (rawPage : Json) (expectedEpoch : Nat) :
    ViewStore × Except String Bool :=
  match s.current? expectedEpoch with
  | none => (s, .ok false)
  | some identity =>
    match validateTranscriptPage js rawPage identity.sessionId with
    | .error e => (s, .error e)
    | .ok page =>
      if page.identity.projectionVersion ≠ identity.projectionVersion ∨
          page.identity.projectionGeneration ≠ identity.projectionGeneration ∨
          page.identity.sourceHighWater ≠ identity.sourceHighWater then
        (s, .error "transcript page identity changed")
      else s.mergePage js page

/-! ### Patches -/

/-- What `applyPatchPage` stages. `postBaseOverrideIds` is the variable of the store. -/
structure Staging where
  blocks : Dict String (Option TranscriptBlock)
  revisions : String → Option Nat
  postBaseOverrideIds : Finset String
  nextLive : Option TranscriptLiveOverlay
  noticeAffected : Bool

/-- Nothing is staged. -/
def ViewStore.staging (s : ViewStore) : Staging :=
  ⟨.empty, fun _ ↦ none, s.postBaseOverrideIds, s.liveSnapshot, false⟩

/-- `currentBlock`. -/
def ViewStore.currentBlock (s : ViewStore) (g : Staging) (blockId : String) :
    Option TranscriptBlock :=
  (g.blocks.get? blockId).getD (s.blocks.get? blockId)

/-- `currentRevision`. -/
def ViewStore.currentRevision (s : ViewStore) (g : Staging) (blockId : String) : Option Nat :=
  (g.revisions blockId).or (s.revisions blockId)

/-- The block, or its message, is what the overlay shows. -/
def TranscriptLiveOverlay.names (live : TranscriptLiveOverlay) (blockId : String) : Bool :=
  decide (blockId = live.messageId) ||
    live.reasoning.any fun reasoning ↦ decide (blockId = reasoning.blockId)

/-- A notice after the overlay began. -/
def TranscriptLiveOverlay.precedes (live : TranscriptLiveOverlay) (item : TranscriptBlock) : Bool :=
  item.isNotice && decide (live.afterSourceHighWater < item.sourceSequence)

/-- The upsert is staged. -/
def ViewStore.withUpsert (s : ViewStore) (base : Nat) (g : Staging) (item : TranscriptBlock) :
    Staging where
  blocks := g.blocks.set item.blockId (some item)
  revisions := Function.update g.revisions item.blockId (some item.blockRevision)
  postBaseOverrideIds :=
    if s.blocks.has item.blockId ∧ item.sourceSequence ≤ base then
      insert item.blockId g.postBaseOverrideIds
    else g.postBaseOverrideIds
  nextLive := g.nextLive.filter fun live ↦ !(live.names item.blockId || live.precedes item)
  noticeAffected :=
    g.noticeAffected || (s.currentBlock g item.blockId).any (·.isNotice) || item.isNotice

/-- An upsert that is newer than what is known. -/
def ViewStore.acceptUpsert (s : ViewStore) (base : Nat) (g : Staging) (item : TranscriptBlock) :
    Except (Staging × String) Staging := do
  let original := s.blocks.get? item.blockId
  require (original.all fun block ↦ decide (compareTranscriptBlocks block item = 0))
    (g, orderChanged)
  return s.withUpsert base g item

/-- One upsert of a patch. A throw carries what was staged. -/
def ViewStore.stageUpsert (js : Js) (s : ViewStore) (base : Nat) (g : Staging)
    (item : TranscriptBlock) : Except (Staging × String) Staging :=
  match s.currentRevision g item.blockId with
  | none => s.acceptUpsert base g item
  | some previousRevision =>
    if item.blockRevision < previousRevision then .ok g
    else if item.blockRevision = previousRevision then do
      require ((s.currentBlock g item.blockId).any fun previous ↦
        decide (previous.canonical js = item.canonical js)) (g, revisionConflict)
      return g
    else s.acceptUpsert base g item

/-- The removal is staged. -/
def ViewStore.withRemoval (s : ViewStore) (g : Staging) (removal : TranscriptRemoval) : Staging :=
  { g with
    blocks := g.blocks.set removal.blockId none
    revisions := Function.update g.revisions removal.blockId (some removal.blockRevision)
    nextLive := g.nextLive.filter fun live ↦ !live.names removal.blockId
    noticeAffected :=
      g.noticeAffected || (s.currentBlock g removal.blockId).any (·.isNotice) }

/-- One removal of a patch. -/
def ViewStore.stageRemoval (s : ViewStore) (g : Staging) (removal : TranscriptRemoval) :
    Except (Staging × String) Staging :=
  match s.currentRevision g removal.blockId with
  | none => .ok (s.withRemoval g removal)
  | some previousRevision =>
    if removal.blockRevision < previousRevision then .ok g
    else if previousRevision = removal.blockRevision then do
      require (s.currentBlock g removal.blockId).isNone (g, revisionConflict)
      return g
    else .ok (s.withRemoval g removal)

/-- One patch. -/
def ViewStore.stagePatch (js : Js) (s : ViewStore) (base : Nat) (g : Staging)
    (patch : TranscriptPatch) : Except (Staging × String) Staging := do
  let g ← patch.upserts.foldlM (s.stageUpsert js base) g
  patch.removals.foldlM s.stageRemoval g

/-- `structuralChange`: a staged block appears or disappears. -/
def ViewStore.structuralChange (s : ViewStore) (g : Staging) : Bool :=
  g.blocks.rows.any fun entry ↦ decide (s.blocks.has entry.1 ≠ entry.2.isSome)

/-- The place of a block that is removed is free. -/
def ViewStore.releaseOwner (s : ViewStore) (owners : OrderKey → Option String)
    (entry : String × Option TranscriptBlock) : OrderKey → Option String :=
  match s.blocks.get? entry.1, entry.2 with
  | some previous, none => Function.update owners previous.order none
  | _, _ => owners

/-- The owners without those of the blocks that are removed. -/
def ViewStore.releasedOwners (s : ViewStore) (g : Staging) : OrderKey → Option String :=
  g.blocks.rows.foldl s.releaseOwner s.orderOwners

/-- The staged blocks that are not in the store, sorted. -/
def ViewStore.additions (s : ViewStore) (g : Staging) : List TranscriptBlock :=
  (g.blocks.rows.filterMap fun entry ↦ if s.blocks.has entry.1 then none else entry.2).insertionSort
    fun a b ↦ compareTranscriptBlocks a b ≤ 0

/-- The loop that merges the retained ids and the additions, as long as one retained id is the next:
the additions before it are pushed, then it is, and `rest` goes on. -/
def pushAdditions (retainedId : String) (block : Option TranscriptBlock)
    (rest : List TranscriptBlock → Except String (List String)) :
    List TranscriptBlock → Except String (List String)
  | [] => (retainedId :: ·) <$> rest []
  | addition :: additions => do
    let block' ← okOr block "undefined block"
    let relation := compareTranscriptBlocks block' addition
    if relation = 0 then .error orderConflict
    else if relation < 0 then (retainedId :: ·) <$> rest (addition :: additions)
    else (addition.blockId :: ·) <$> pushAdditions retainedId block rest additions

/-- The loop that merges the retained ids and the additions. -/
def mergeIds (blocks : Dict String TranscriptBlock) :
    List String → List TranscriptBlock → Except String (List String)
  | [] => fun additions ↦ .ok (additions.map (·.blockId))
  | retainedId :: retained =>
    pushAdditions retainedId (blocks.get? retainedId) (mergeIds blocks retained)

/-- The sorted ids and the owners after the staged changes. -/
def ViewStore.restructure (s : ViewStore) (g : Staging) :
    Except String (List String × (OrderKey → Option String)) :=
  if s.structuralChange g then do
    let additions := s.additions g
    let owners ← additions.foldlM claimOrder (s.releasedOwners g)
    let retained := s.blockIds.filter fun blockId ↦ decide (g.blocks.get? blockId ≠ some none)
    let ids ← mergeIds s.blocks retained additions
    return (ids, owners)
  else .ok (s.blockIds, s.orderOwners)

/-- One staged block goes into the store. -/
def ViewStore.commitStaged (js : Js) (s : ViewStore) (entry : String × Option TranscriptBlock) :
    ViewStore :=
  let s := s.replaceManagedBlock js entry.1 entry.2
  match entry.2 with
  | none =>
    { s with
      blocks := s.blocks.erase entry.1
      postBaseOverrideIds := s.postBaseOverrideIds.erase entry.1 }
  | some item => { s with blocks := s.blocks.set entry.1 item }

/-- The end of `applyPatchPage`, where nothing is thrown any more. -/
def ViewStore.commitPatchPage (js : Js) (s : ViewStore) (g : Staging) (blockIds : List String)
    (orderOwners : OrderKey → Option String) (nextSourceHighWater : Nat) : ViewStore :=
  let s := g.blocks.rows.foldl (ViewStore.commitStaged js) s
  { s with
    revisions := fun blockId ↦ (g.revisions blockId).or (s.revisions blockId)
    blockIds
    orderOwners
    noticeHighWater := if g.noticeAffected then latestNoticeHighWater s.blocks else s.noticeHighWater
    listSnapshot := { s.listSnapshot with
      blockIds
      appliedSourceHighWater := nextSourceHighWater }
    liveSnapshot := g.nextLive }

/-- `applyPatchPage`, for a page that is valid. -/
def ViewStore.patchPage (js : Js) (s : ViewStore) (base : Nat) (page : TranscriptPatchPage) :
    ViewStore × Except String Bool :=
  match page.patches.foldlM (s.stagePatch js base) s.staging with
  | .error (g, e) => ({ s with postBaseOverrideIds := g.postBaseOverrideIds }, .error e)
  | .ok g =>
    -- The ids were added to the variable of the store, whatever happens from here on.
    let s := { s with postBaseOverrideIds := g.postBaseOverrideIds }
    match s.restructure g with
    | .error e => (s, .error e)
    | .ok (blockIds, orderOwners) =>
      (s.commitPatchPage js g blockIds orderOwners page.nextSourceHighWater, .ok true)

/-- `applyPatchPage`. -/
def ViewStore.applyPatchPage (js : Js) (s : ViewStore) (rawPage : Json) (expectedEpoch : Nat) :
    ViewStore × Except String Bool :=
  match s.current? expectedEpoch with
  | none => (s, .ok false)
  | some identity =>
    match validateTranscriptPatchPage js rawPage identity
      s.listSnapshot.appliedSourceHighWater with
    | .error e => (s, .error e)
    | .ok page => s.patchPage js identity.sourceHighWater page

/-! ### The overlay -/

/-- The overlay is not newer than the one that is shown. -/
def TranscriptLiveOverlay.isStale (next live : TranscriptLiveOverlay) : Bool :=
  decide (next.afterSourceHighWater < live.afterSourceHighWater) ||
    decide (next.afterSourceHighWater = live.afterSourceHighWater) &&
      decide (next.revision ≤ live.revision)

/-- What the overlay shows is stored. -/
def ViewStore.sealed (s : ViewStore) (next : TranscriptLiveOverlay) : Bool :=
  s.blocks.has next.messageId || (next.reasoning.any fun r ↦ s.blocks.has r.blockId) ||
    decide (next.afterSourceHighWater < s.noticeHighWater)

/-- `applyLiveOverlay`. -/
def ViewStore.applyLiveOverlay (s : ViewStore) (raw : Json) (expectedEpoch : Nat) :
    ViewStore × Bool :=
  match s.current? expectedEpoch with
  | none => (s, false)
  | some _ =>
    match parseTranscriptLiveOverlay raw with
    | none => (s, false)
    | some next =>
      if (s.liveSnapshot.any next.isStale) || s.sealed next then (s, false)
      else ({ s with liveSnapshot := some next }, true)

/-- `clearLiveOverlay`. -/
def ViewStore.clearLiveOverlay (s : ViewStore) (expectedEpoch : Nat) : ViewStore × Bool :=
  if expectedEpoch ≠ s.viewEpoch then (s, false) else ({ s with liveSnapshot := none }, true)

/-- `clear`. -/
def ViewStore.clear (s : ViewStore) : ViewStore :=
  { ViewStore.initial with
    viewEpoch := s.viewEpoch + 1
    listSnapshot := .closed (s.viewEpoch + 1) }

/-! ### Releasing history -/

/-- The block came with an older page, and nothing has changed it since. -/
def ViewStore.releasable (s : ViewStore) (base : Nat) (blockId : String)
    (block : TranscriptBlock) : Bool :=
  !decide (blockId ∈ s.tailBlockIds) && !decide (blockId ∈ s.postBaseOverrideIds) &&
    decide (block.sourceSequence ≤ base)

/-- One block of the loop of `releaseLoadedHistory`. -/
def ViewStore.releaseBlock (js : Js) (base : Nat) (s : ViewStore)
    (entry : String × TranscriptBlock) : ViewStore :=
  if s.releasable base entry.1 entry.2 then
    let s := { s with blocks := s.blocks.erase entry.1 }
    let s := s.replaceManagedBlock js entry.1 none
    { s with revisions := Function.update s.revisions entry.1 none }
  else s

/-- `releaseLoadedHistory`. -/
def ViewStore.releaseLoadedHistory (js : Js) (s : ViewStore) : ViewStore × Except String Unit :=
  match s.identity with
  | none => (s, .ok ())
  | some identity =>
    let s := s.blocks.rows.foldl (ViewStore.releaseBlock js identity.sourceHighWater) s
    match sortedIds s.blocks with
    | .error e => (s, .error e)
    | .ok blockIds =>
      let s := { s with blockIds }
      match indexOrders s.blocks with
      | .error e => (s, .error e)
      | .ok orderOwners =>
        ({ s with
          orderOwners
          listSnapshot := { s.listSnapshot with
            blockIds
            olderCursor := s.tailOlderCursor
            hasOlder := s.tailOlderCursor.isSome } }, .ok ())

/-! ### Operations -/

/-- A call on the store. -/
inductive StoreOp
  | openTail (rawPage : Json)
  | prependPage (rawPage : Json) (expectedEpoch : Nat)
  | applyPatchPage (rawPage : Json) (expectedEpoch : Nat)
  | applyLiveOverlay (raw : Json) (expectedEpoch : Nat)
  | clearLiveOverlay (expectedEpoch : Nat)
  | clear
  | releaseLoadedHistory

/-- What a call returns. -/
inductive StoreAnswer
  | epoch (viewEpoch : Nat)
  | flag (b : Bool)
  | done
  deriving DecidableEq

/-- A call: the store it leaves, and what it returns or throws. -/
def ViewStore.exec (js : Js) (s : ViewStore) : StoreOp → ViewStore × Except String StoreAnswer
  | .openTail rawPage =>
    let (s, answer) := s.openTail js rawPage
    (s, .epoch <$> answer)
  | .prependPage rawPage expectedEpoch =>
    let (s, answer) := s.prependPage js rawPage expectedEpoch
    (s, .flag <$> answer)
  | .applyPatchPage rawPage expectedEpoch =>
    let (s, answer) := s.applyPatchPage js rawPage expectedEpoch
    (s, .flag <$> answer)
  | .applyLiveOverlay raw expectedEpoch =>
    let (s, answer) := s.applyLiveOverlay raw expectedEpoch
    (s, .ok (.flag answer))
  | .clearLiveOverlay expectedEpoch =>
    let (s, answer) := s.clearLiveOverlay expectedEpoch
    (s, .ok (.flag answer))
  | .clear => (s.clear, .ok .done)
  | .releaseLoadedHistory =>
    let (s, answer) := s.releaseLoadedHistory js
    (s, (fun _ ↦ .done) <$> answer)

/-- The store after a sequence of calls, also of such that throw. -/
def ViewStore.run (js : Js) (s : ViewStore) (ops : List StoreOp) : ViewStore :=
  ops.foldl (fun s op ↦ (s.exec js op).1) s

/-- **Invariant rule.** -/
theorem ViewStore.run_invariant {js : Js} {I : ViewStore → Prop}
    (hstep : ∀ s op, I s → I (s.exec js op).1) {s : ViewStore} (h0 : I s) (ops : List StoreOp) :
    I (s.run js ops) := by
  induction ops generalizing s with
  | nil => exact h0
  | cons op ops ih => exact ih (hstep s op h0)

/-- Every call of the sequence meets a condition, in the store that it finds. -/
def ViewStore.Along (js : Js) (P : ViewStore → StoreOp → Prop) : ViewStore → List StoreOp → Prop
  | _, [] => True
  | s, op :: ops => P s op ∧ Along js P (s.exec js op).1 ops

/-- **Invariant rule**, for calls that meet a condition. -/
theorem ViewStore.along_invariant {js : Js} {I : ViewStore → Prop} {P : ViewStore → StoreOp → Prop}
    (hstep : ∀ s op, I s → P s op → I (s.exec js op).1) {s : ViewStore} (h0 : I s)
    {ops : List StoreOp} (h : s.Along js P ops) : I (s.run js ops) := by
  induction ops generalizing s with
  | nil => exact h0
  | cons op ops ih => exact ih (hstep s op h0 h.1) h.2

/-! ### Values for runs -/

/-- A client's `JSON.stringify` for runs on values that are far below the size limits. -/
def shortJs : Js := ⟨fun _ ↦ ""⟩

/-- The value of a block with a user's text. -/
def blockValue (blockId revision sequence : String) : Json :=
  .obj [("blockId", .str blockId), ("blockRevision", .str revision),
    ("orderKey", .obj [("sourceSequence", .str sequence), ("ordinal", .num 0 0)]),
    ("body", .obj [("kind", .str "userText"),
      ("content", .obj [("inlineContent", .str ""), ("sourceRef", .null)])])]

/-- The value of a page of the session `session` at a high water, with its older cursor. -/
def pageValue (sourceHighWater : String) (older : Json) (blocks : List Json) : Json :=
  .obj [("schema", .str pageSchema), ("sessionId", .str "session"),
    ("projectionVersion", .str projectionVersion), ("projectionGeneration", .str "generation"),
    ("sourceHighWater", .str sourceHighWater), ("blocks", .arr blocks), ("olderCursor", older),
    ("hasOlder", .bool (decide (older ≠ .null))),
    ("resumeCursors", .arr [.obj [("streamId", .str workspaceStreamId),
      ("cursor", .str sourceHighWater)]])]

/-- The value of a patch of the session `session`. -/
def patchValue (sourceHighWater : String) (upserts : List Json) (removals : List Json) : Json :=
  .obj [("schema", .str patchSchema), ("sessionId", .str "session"),
    ("projectionVersion", .str projectionVersion), ("projectionGeneration", .str "generation"),
    ("sourceHighWater", .str sourceHighWater), ("streamId", .str workspaceStreamId),
    ("appliedCursor", .str sourceHighWater), ("upserts", .arr upserts), ("removals", .arr removals)]

/-- The value of a patch page that ends at the high water it is read through. -/
def patchPageValue (throughSourceHighWater : String) (patches : List Json) : Json :=
  .obj [("schema", .str patchPageSchema), ("sessionId", .str "session"),
    ("projectionVersion", .str projectionVersion), ("projectionGeneration", .str "generation"),
    ("throughSourceHighWater", .str throughSourceHighWater), ("patches", .arr patches),
    ("nextSourceHighWater", .str throughSourceHighWater), ("hasMore", .bool false)]

/-- The value of an overlay without reasoning. -/
def overlayValue (messageId afterSourceHighWater : String) : Json :=
  .obj [("messageId", .str messageId), ("turnId", .str "turn"),
    ("afterSourceHighWater", .str afterSourceHighWater), ("revision", .num 1 0), ("text", .str "text"),
    ("reasoning", .null)]

end Centaeris.Web
