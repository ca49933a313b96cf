import Centaeris.Web.Representation

/-!
# What the operations of the view store do

One statement for each operation, in terms of what can be looked up: `Opened`, `Merged`, `Patched` and
`Released` relate the store before an operation to the store after it, with the invariant `StoreInv`
at both ends. What the operations do to the blocks comes out in the same form for all of them: the
block under an id afterwards is what was there, or the block that came for this id.

The loops work on a part of the store at a time. What a loop leaves alone is stated as an equation
between the store `t` at its end and the store `s` at its beginning, `t = { s with … }`, where the
fields that do change are those of `t`.
-/

namespace Centaeris.Web

open Except

variable {js : Js} {s t : ViewStore}

/-- The block of a page under an id. -/
def blockOf (l : List TranscriptBlock) (id : String) : Option TranscriptBlock :=
  l.find? fun b ↦ decide (b.blockId = id)

section BlockOf

variable {l : List TranscriptBlock} {id : String} {b : TranscriptBlock}

theorem blockOf_mem (h : blockOf l id = some b) : b ∈ l ∧ b.blockId = id :=
  ⟨List.mem_of_find?_eq_some h, by simpa using List.find?_some h⟩

theorem blockOf_eq_none : blockOf l id = none ↔ id ∉ l.map (·.blockId) := by
  simp [blockOf]

theorem blockOf_of_mem (hids : (l.map (·.blockId)).Nodup) (hb : b ∈ l) :
    blockOf l b.blockId = some b := by
  cases h : blockOf l b.blockId with
  | none => exact absurd (List.mem_map_of_mem hb) (blockOf_eq_none.1 h)
  | some b' =>
    obtain ⟨hmem, hid⟩ := blockOf_mem h
    rw [List.inj_on_of_nodup_map hids hmem hb hid]

theorem blockOf_cons (item : TranscriptBlock) (l : List TranscriptBlock) (id : String) :
    blockOf (item :: l) id = if item.blockId = id then some item else blockOf l id := by
  by_cases h : item.blockId = id <;> simp [blockOf, h]

end BlockOf

/-! ### Opening -/

/-- The blocks of the tail page are loaded. -/
theorem foldl_loadTailBlock {l : List TranscriptBlock} (hids : (l.map (·.blockId)).Nodup)
    (hs : Accounted js s) (ht : l.foldl (ViewStore.loadTailBlock js) s = t) :
    t = { s with blocks := t.blocks, blockBytes := t.blockBytes, managedBytes := t.managedBytes,
                 revisions := t.revisions } ∧
      Accounted js t ∧
      (∀ id, t.blocks.get? id = (blockOf l id).or (s.blocks.get? id)) ∧
      ∀ id, t.revisions id = ((blockOf l id).map (·.blockRevision)).or (s.revisions id) := by
  induction l generalizing s with
  | nil =>
    subst ht
    exact ⟨rfl, hs, fun _ ↦ rfl, fun _ ↦ rfl⟩
  | cons item l ih =>
    obtain ⟨hnew, hids⟩ := List.nodup_cons.1 hids
    have hstep : Accounted js (s.loadTailBlock js item) :=
      hs.replace (Dict.get?_set s.blocks item.blockId item) rfl rfl
    obtain ⟨hframe, hacc, hblocks, hrevisions⟩ := ih hids hstep ht
    refine ⟨hframe, hacc, fun id ↦ ?_, fun id ↦ ?_⟩
    · rw [hblocks, blockOf_cons]
      show (blockOf l id).or ((s.blocks.set item.blockId item).get? id) = _
      rw [Dict.get?_set]
      split
      · rename_i heq
        rw [← heq, blockOf_eq_none.2 hnew, Option.none_or, Option.some_or]
      · rfl
    · rw [hrevisions, blockOf_cons]
      show ((blockOf l id).map _).or (Function.update s.revisions item.blockId _ id) = _
      split
      · rename_i heq
        rw [← heq, blockOf_eq_none.2 hnew, Function.update_self]
        rfl
      · rename_i hne
        rw [Function.update_of_ne (Ne.symm hne)]

/-- The snapshot of a store that was just opened. -/
def TranscriptPage.snapshot (page : TranscriptPage) (viewEpoch : Nat) (blockIds : List String) :
    TranscriptListSnapshot where
  sessionId := some page.identity.sessionId
  projectionVersion := some page.identity.projectionVersion
  projectionGeneration := some page.identity.projectionGeneration
  sourceHighWater := page.identity.sourceHighWater
  viewEpoch := viewEpoch
  blockIds := blockIds
  olderCursor := page.olderCursor
  hasOlder := page.hasOlder
  appliedSourceHighWater := page.resumeCursor.getD 0

/-- The store `t` was opened with a page, in the place of `s`. -/
structure Opened (js : Js) (page : TranscriptPage) (s t : ViewStore) : Prop where
  inv : StoreInv js t
  viewEpoch : t.viewEpoch = s.viewEpoch + 1
  identity : t.identity = some page.identity
  blocks : ∀ id, t.blocks.get? id = blockOf page.blocks id
  tail : t.tailBlockIds = (page.blocks.map (·.blockId)).toFinset
  overrides : t.postBaseOverrideIds = ∅
  older : t.tailOlderCursor = page.olderCursor
  revisions : ∀ id, t.revisions id = (blockOf page.blocks id).map (·.blockRevision)
  notice : t.noticeHighWater = latestNoticeHighWater t.blocks
  snapshot : t.listSnapshot = page.snapshot t.viewEpoch t.blockIds
  live : t.liveSnapshot = none

/-- A map with the blocks of a page can be listed. -/
theorem listed_of_page (page : TranscriptPage) {d : Dict String TranscriptBlock}
    (hd : ∀ id, d.get? id = blockOf page.blocks id) :
    Listed d (page.blocks.map (·.blockId)) := by
  have hkeyed : Keyed d := fun id b hb ↦ (blockOf_mem ((hd id).symm.trans hb)).2
  have hmem : ∀ b, b ∈ page.blocks ↔ b ∈ d.values := by
    intro b
    rw [Dict.mem_values]
    constructor
    · intro hb
      exact ⟨b.blockId, (hd _).trans (blockOf_of_mem page.nodup_blockIds hb)⟩
    · rintro ⟨id, hb⟩
      exact (blockOf_mem ((hd id).symm.trans hb)).1
  refine Dict.lists_of_sorted hkeyed ?_ page.blocks_sorted
  exact (List.perm_ext_iff_of_nodup (page.nodup_blockIds.of_map _) ((nodup_values hkeyed).of_map _)).2
    hmem

/-- **A valid tail page opens the store.** -/
theorem openPage_spec (js : Js) (s : ViewStore) (page : TranscriptPage) :
    ∃ t, s.openPage js page = (t, .ok t.viewEpoch) ∧ Opened js page s t := by
  generalize hs₀ : ({ s with
    viewEpoch := s.viewEpoch + 1
    identity := some page.identity
    blocks := .empty
    blockBytes := .empty
    managedBytes := 0
    postBaseOverrideIds := ∅
    revisions := fun _ ↦ none } : ViewStore) = s₀
  have hacc₀ : Accounted js s₀ := by
    subst hs₀
    exact ⟨fun _ ↦ rfl, rfl⟩
  obtain ⟨hframe, hacc, hblocks, hrevisions⟩ :=
    foldl_loadTailBlock page.nodup_blockIds hacc₀ rfl
  generalize ht : page.blocks.foldl (ViewStore.loadTailBlock js) s₀ = t at *
  have hget : ∀ id, t.blocks.get? id = blockOf page.blocks id := by
    intro id
    rw [hblocks, ← hs₀]
    exact Option.or_none
  have hrev : ∀ id, t.revisions id = (blockOf page.blocks id).map (·.blockRevision) := by
    intro id
    rw [hrevisions, ← hs₀]
    exact Option.or_none
  have hkeyed : Keyed t.blocks := fun id b hb ↦ (blockOf_mem ((hget id).symm.trans hb)).2
  have hlisted := listed_of_page page hget
  obtain ⟨owners, howners, howns⟩ := exists_indexOrders hkeyed hlisted
  generalize hu : ({ t with
    tailBlockIds := (page.blocks.map (·.blockId)).toFinset
    tailOlderCursor := page.olderCursor
    blockIds := page.blocks.map (·.blockId)
    orderOwners := owners
    noticeHighWater := latestNoticeHighWater t.blocks
    listSnapshot := page.snapshot t.viewEpoch (page.blocks.map (·.blockId))
    liveSnapshot := none } : ViewStore) = u
  have hopen : s.openPage js page = (u, .ok u.viewEpoch) := by
    rw [ViewStore.openPage, hs₀, ht]
    simp only [sortedIds_of_listed hkeyed hlisted, howners]
    rw [← hu]
    rfl
  refine ⟨u, hopen, ?_⟩
  subst hu
  exact {
    inv := {
      keyed := hkeyed
      listed := hlisted
      owned := howns
      accounted := ⟨hacc.bytes, hacc.managed⟩
      notices := latestNoticeHighWater_le_iff.1 le_rfl
      revised := fun id b hb ↦ by
        show t.revisions id = _
        rw [hrev, ← hget, hb]
        rfl
      overrides := fun id hid ↦ by
        have hempty : t.postBaseOverrideIds = ∅ := by rw [hframe, ← hs₀]
        rw [show id ∈ t.postBaseOverrideIds ↔ id ∈ (∅ : Finset String) by rw [hempty]] at hid
        cases hid
      snapshot := rfl }
    viewEpoch := by rw [hframe, ← hs₀]
    identity := by rw [hframe, ← hs₀]
    blocks := hget
    tail := rfl
    overrides := by rw [hframe, ← hs₀]
    older := rfl
    revisions := hrev
    notice := rfl
    snapshot := rfl
    live := rfl }

/-! ### Older pages -/

/-- A block that comes for an id, if it is newer than what is known. -/
def incoming (revision : Option Nat) (next : Option TranscriptBlock) : Option TranscriptBlock :=
  next.filter fun b ↦ revision.all fun r ↦ decide (r < b.blockRevision)

section Merge

variable {c c' : Candidate} {l : List TranscriptBlock} {b : TranscriptBlock}

@[simp] theorem incoming_none (revision : Option Nat) : incoming revision none = none := rfl

theorem incoming_eq_some {revision : Option Nat} {next : Option TranscriptBlock} :
    incoming revision next = some b ↔ next = some b ∧ ∀ r, revision = some r → r < b.blockRevision := by
  rw [incoming, Option.filter_eq_some_iff]
  refine and_congr_right fun _ ↦ ?_
  cases revision <;> simp

/-- A block that is not newer is not taken. -/
theorem incoming_of_not_newer {r : Nat} (h : b.blockRevision ≤ r) : incoming (some r) (some b) = none := by
  simp [incoming, h]

theorem accept_ok (h : c.accept b = .ok c') :
    (∀ current, c.blocks.get? b.blockId = some current → current.order = b.order) ∧
      c'.blocks = c.blocks.set b.blockId b ∧
      c'.revisions = Function.update c.revisions b.blockId (some b.blockRevision) ∧
      ∀ id, id ∈ c'.changed ↔ b.blockId = id ∨ id ∈ c.changed := by
  obtain ⟨hplace, h⟩ := require_bind.1 h
  cases h
  refine ⟨fun current hcurrent ↦ ?_, rfl, rfl, fun id ↦ ?_⟩
  · rw [hcurrent] at hplace
    exact compareTranscriptBlocks_eq_zero.1 (of_decide_eq_true hplace)
  · show id ∈ (if _ then _ else _) ↔ _
    split
    · rename_i hmem
      refine ⟨.inr, ?_⟩
      rintro (rfl | h)
      · exact hmem
      · exact h
    · rw [List.mem_append, List.mem_singleton, or_comm, eq_comm]

/-- One block is merged: it is taken, or the maps stay as they are. -/
theorem mergeBlock_ok (h : mergeBlock js c b = .ok c') :
    incoming (c.revisions b.blockId) (some b) = none ∧ c' = c ∨
      incoming (c.revisions b.blockId) (some b) = some b ∧ c.accept b = .ok c' := by
  rw [mergeBlock] at h
  split at h
  · rename_i hrevision
    rw [hrevision]
    exact .inr ⟨incoming_eq_some.2 ⟨rfl, fun r hr ↦ by cases hr⟩, h⟩
  · rename_i r hrevision
    rw [hrevision]
    split_ifs at h with hlt heq
    · exact .inl ⟨incoming_of_not_newer hlt.le, (Except.ok.inj h).symm⟩
    · obtain ⟨-, h⟩ := require_bind.1 h
      exact .inl ⟨incoming_of_not_newer heq.le, (Except.ok.inj h).symm⟩
    · refine .inr ⟨incoming_eq_some.2 ⟨rfl, fun r' hr' ↦ ?_⟩, h⟩
      cases hr'
      omega

/-- The blocks of a list that were newer are in the maps. -/
structure Taken (l : List TranscriptBlock) (c c' : Candidate) : Prop where
  blocks : ∀ id, c'.blocks.get? id =
    (incoming (c.revisions id) (blockOf l id)).or (c.blocks.get? id)
  revisions : ∀ id, c'.revisions id =
    ((incoming (c.revisions id) (blockOf l id)).map (·.blockRevision)).or (c.revisions id)
  changed : ∀ id, id ∈ c'.changed ↔
    (incoming (c.revisions id) (blockOf l id)).isSome ∨ id ∈ c.changed
  placed : ∀ id b current, incoming (c.revisions id) (blockOf l id) = some b →
    c.blocks.get? id = some current → current.order = b.order

theorem mergeBlock_taken (h : mergeBlock js c b = .ok c') : Taken [b] c c' := by
  have hof : ∀ id, blockOf [b] id = if b.blockId = id then some b else none :=
    fun id ↦ blockOf_cons b [] id
  rcases mergeBlock_ok h with ⟨hnone, rfl⟩ | ⟨hsome, h⟩
  · have hall : ∀ id, incoming (c'.revisions id) (blockOf [b] id) = none := by
      intro id
      rw [hof]
      split
      · rename_i heq
        rw [← heq, hnone]
      · rfl
    exact ⟨fun id ↦ by rw [hall, Option.none_or], fun id ↦ by rw [hall, Option.map_none, Option.none_or],
      fun id ↦ by rw [hall]; simp, fun id b current hb ↦ by rw [hall] at hb; cases hb⟩
  · have hall : ∀ id, incoming (c.revisions id) (blockOf [b] id) =
        if b.blockId = id then some b else none := by
      intro id
      rw [hof]
      split
      · rename_i heq
        rw [← heq, hsome]
      · rfl
    obtain ⟨hplaced, hblocks, hrevisions, hchanged⟩ := accept_ok h
    refine ⟨fun id ↦ ?_, fun id ↦ ?_, fun id ↦ ?_, fun id b' current hb' hcurrent ↦ ?_⟩
    · rw [hall, hblocks, Dict.get?_set]
      split <;> rfl
    · rw [hall, hrevisions]
      split
      · rename_i heq
        rw [← heq, Function.update_self]
        rfl
      · rename_i hne
        rw [Function.update_of_ne (Ne.symm hne)]
        rfl
    · rw [hall, hchanged]
      split <;> simp [*]
    · rw [hall] at hb'
      split at hb'
      · rename_i heq
        cases hb'
        exact hplaced current (heq ▸ hcurrent)
      · cases hb'

/-- A block before a list of others. -/
theorem Taken.cons {c₁ : Candidate} (hids : b.blockId ∉ l.map (·.blockId)) (h : Taken [b] c c₁)
    (h' : Taken l c₁ c') : Taken (b :: l) c c' := by
  have hof : ∀ id, blockOf (b :: l) id = if b.blockId = id then some b else blockOf l id :=
    fun id ↦ blockOf_cons b l id
  -- The id of the block does not come again; the other ids have not been touched.
  have hself : ∀ id, b.blockId = id → blockOf l id = none ∧ blockOf [b] id = some b := by
    rintro id rfl
    exact ⟨blockOf_eq_none.2 hids, by rw [blockOf_cons, if_pos rfl]⟩
  have hother : ∀ id, b.blockId ≠ id → blockOf [b] id = none := by
    intro id hne
    rw [blockOf_cons, if_neg hne]
    rfl
  have hrevision : ∀ id, b.blockId ≠ id → c₁.revisions id = c.revisions id := by
    intro id hne
    rw [h.revisions, hother id hne]
    rfl
  have hblock : ∀ id, b.blockId ≠ id → c₁.blocks.get? id = c.blocks.get? id := by
    intro id hne
    rw [h.blocks, hother id hne]
    rfl
  refine ⟨fun id ↦ ?_, fun id ↦ ?_, fun id ↦ ?_, fun id b' current hb' hcurrent ↦ ?_⟩
  · rw [h'.blocks, hof]
    split
    · rename_i heq
      rw [(hself id heq).1, incoming_none, Option.none_or, h.blocks, (hself id heq).2]
    · rename_i hne
      rw [hrevision id hne, hblock id hne]
  · rw [h'.revisions, hof]
    split
    · rename_i heq
      rw [(hself id heq).1, incoming_none, Option.map_none, Option.none_or, h.revisions,
        (hself id heq).2]
    · rename_i hne
      rw [hrevision id hne]
  · rw [h'.changed, h.changed, hof]
    split
    · rename_i heq
      rw [(hself id heq).1, (hself id heq).2, incoming_none]
      simp
    · rename_i hne
      rw [hother id hne, hrevision id hne, incoming_none]
      simp
  · rw [hof] at hb'
    split at hb'
    · rename_i heq
      exact h.placed id b' current ((hself id heq).2.symm ▸ hb') hcurrent
    · rename_i hne
      exact h'.placed id b' current ((hrevision id hne).symm ▸ hb') ((hblock id hne).trans hcurrent)

/-- **The blocks of a page are merged.** -/
theorem foldlM_mergeBlock (hids : (l.map (·.blockId)).Nodup)
    (h : l.foldlM (mergeBlock js) c = .ok c') : Taken l c c' := by
  induction l generalizing c with
  | nil =>
    cases h
    exact ⟨fun _ ↦ rfl, fun _ ↦ rfl, fun _ ↦ by simp [blockOf], fun _ _ _ h ↦ by cases h⟩
  | cons b l ih =>
    rw [List.foldlM_cons] at h
    obtain ⟨c₁, hc₁, h⟩ := bind_eq_ok.1 h
    obtain ⟨hnew, hids⟩ := List.nodup_cons.1 hids
    exact (mergeBlock_taken hc₁).cons hnew (ih hids h)

end Merge

/-- The bytes of the changed blocks are replaced. -/
theorem foldl_replaceManagedBlock {blocks : Dict String TranscriptBlock} {changed : List String}
    (hs : s.managedBytes = Dict.total (fun n : Nat ↦ (n : Int)) s.blockBytes)
    (ht : changed.foldl (fun s id ↦ s.replaceManagedBlock js id (blocks.get? id)) s = t) :
    t = { s with blockBytes := t.blockBytes, managedBytes := t.managedBytes } ∧
      t.managedBytes = Dict.total (fun n : Nat ↦ (n : Int)) t.blockBytes ∧
      ∀ id, t.blockBytes.get? id =
        if id ∈ changed then (blocks.get? id).map (·.bytes js) else s.blockBytes.get? id := by
  induction changed generalizing s with
  | nil =>
    subst ht
    exact ⟨rfl, hs, fun id ↦ by simp⟩
  | cons id₀ changed ih =>
    obtain ⟨hframe, hmanaged, hbytes⟩ := ih (replaceManagedBlock_managed hs id₀ _) ht
    refine ⟨hframe.trans ?_, hmanaged, fun id ↦ ?_⟩
    · rw [replaceManagedBlock_eq]
    · rw [hbytes, replaceManagedBlock_bytes]
      by_cases hmem : id ∈ changed
      · rw [if_pos hmem, if_pos (List.mem_cons_of_mem _ hmem)]
      · by_cases heq : id₀ = id
        · rw [if_neg hmem, if_pos heq, heq, if_pos List.mem_cons_self]
        · rw [if_neg hmem, if_neg heq, if_neg]
          simp [hmem, Ne.symm heq]

/-- The page was prepended to `s`. -/
structure Merged (js : Js) (page : TranscriptPage) (s t : ViewStore) : Prop where
  inv : StoreInv js t
  frame : t = { s with
    blocks := t.blocks, blockBytes := t.blockBytes, managedBytes := t.managedBytes,
    revisions := t.revisions, orderOwners := t.orderOwners, noticeHighWater := t.noticeHighWater,
    blockIds := t.blockIds, listSnapshot := t.listSnapshot }
  blocks : ∀ id, t.blocks.get? id =
    (incoming (s.revisions id) (blockOf page.blocks id)).or (s.blocks.get? id)
  revisions : ∀ id, t.revisions id =
    ((incoming (s.revisions id) (blockOf page.blocks id)).map (·.blockRevision)).or (s.revisions id)
  placed : ∀ id b current, incoming (s.revisions id) (blockOf page.blocks id) = some b →
    s.blocks.get? id = some current → current.order = b.order
  notice : t.noticeHighWater = page.blocks.foldl raiseNotice s.noticeHighWater
  snapshot : t.listSnapshot = { s.listSnapshot with
    blockIds := t.blockIds, olderCursor := page.olderCursor, hasOlder := page.hasOlder }

/-- A page is prepended, once its blocks are merged and can be listed. -/
theorem mergePage_merged (hs : StoreInv js s) {page : TranscriptPage} {c : Candidate}
    {blockIds : List String}
    (hc : page.blocks.foldlM (mergeBlock js) ⟨s.blocks, s.revisions, []⟩ = .ok c)
    (hids : sortedIds c.blocks = .ok blockIds) :
    ∃ t, s.mergePage js page = (t, .ok true) ∧ Merged js page s t := by
  have htaken := foldlM_mergeBlock page.nodup_blockIds hc
  have hfrom : ∀ id b, c.blocks.get? id = some b →
      (b ∈ page.blocks ∧ incoming (s.revisions id) (blockOf page.blocks id) = some b ∧
        b.blockId = id) ∨
      incoming (s.revisions id) (blockOf page.blocks id) = none ∧ s.blocks.get? id = some b := by
    intro id b hb
    rw [htaken.blocks] at hb
    rcases Option.or_eq_some_iff.1 hb with hb | ⟨hnone, hb⟩
    · obtain ⟨hmem, hid⟩ := blockOf_mem (incoming_eq_some.1 hb).1
      exact .inl ⟨hmem, hb, hid⟩
    · exact .inr ⟨hnone, hb⟩
  have hkeyed : Keyed c.blocks := by
    intro id b hb
    rcases hfrom id b hb with ⟨-, -, hid⟩ | ⟨-, hb⟩
    · exact hid
    · exact hs.keyed id b hb
  have hlisted := listed_of_sortedIds hkeyed hids
  obtain ⟨owners, howners, howns⟩ := exists_indexOrders hkeyed hlisted
  obtain ⟨hframe, hmanaged, hbytes⟩ := foldl_replaceManagedBlock hs.accounted.managed rfl
  generalize ht : c.changed.foldl
    (fun s id ↦ s.replaceManagedBlock js id (c.blocks.get? id)) s = t at hframe hmanaged hbytes
  generalize hu : ({ t with
    blocks := c.blocks
    revisions := c.revisions
    blockIds := blockIds
    orderOwners := owners
    noticeHighWater := page.blocks.foldl raiseNotice t.noticeHighWater
    listSnapshot := { t.listSnapshot with
      blockIds := blockIds
      olderCursor := page.olderCursor
      hasOlder := page.hasOlder } } : ViewStore) = u
  have hmerge : s.mergePage js page = (u, .ok true) := by
    rw [ViewStore.mergePage]
    simp only [hc, hids, ht, howners]
    rw [← hu]
  refine ⟨u, hmerge, ?_⟩
  subst hu
  have hnotice : t.noticeHighWater = s.noticeHighWater := by rw [hframe]
  have hsnapshot : t.listSnapshot = s.listSnapshot := by rw [hframe]
  refine ⟨?_, ?_, htaken.blocks, htaken.revisions, htaken.placed, ?_, ?_⟩
  · refine ⟨hkeyed, hlisted, howns, ⟨fun id ↦ ?_, hmanaged⟩, fun id b hb hisNotice ↦ ?_,
      fun id b hb ↦ ?_, fun id hid ↦ ?_, rfl⟩
    · -- A block that did not change has the bytes it had.
      show t.blockBytes.get? id = (c.blocks.get? id).map _
      rw [hbytes, htaken.blocks]
      simp only [htaken.changed]
      cases incoming (s.revisions id) (blockOf page.blocks id) with
      | none => simpa using hs.accounted.bytes id
      | some b => simp
    · show b.sourceSequence ≤ page.blocks.foldl raiseNotice t.noticeHighWater
      rw [hnotice]
      obtain ⟨hle, hmem⟩ := foldl_raiseNotice_le.1 (le_refl (page.blocks.foldl raiseNotice s.noticeHighWater))
      rcases hfrom id b hb with ⟨hb, -, -⟩ | ⟨-, hb⟩
      · exact hmem b hb hisNotice
      · exact (hs.notices id b hb hisNotice).trans hle
    · show c.revisions id = _
      rw [htaken.revisions]
      rcases hfrom id b hb with ⟨-, hin, -⟩ | ⟨hnone, hb⟩
      · rw [hin]
        rfl
      · rw [hnone]
        exact hs.revised id b hb
    · have hstored : (s.blocks.get? id).isSome := by
        rw [hframe] at hid
        exact hs.overrides id hid
      show (c.blocks.get? id).isSome
      rw [htaken.blocks, Option.isSome_or, hstored, Bool.or_true]
  · rw [hframe]
  · show page.blocks.foldl raiseNotice t.noticeHighWater = _
    rw [hnotice]
  · show ({ t.listSnapshot with blockIds := _, olderCursor := _, hasOlder := _ } :
      TranscriptListSnapshot) = _
    rw [hsnapshot]

/-- **A page is prepended, or the store stays as it is.** -/
theorem mergePage_cases (hs : StoreInv js s) (page : TranscriptPage) :
    (∃ e, s.mergePage js page = (s, .error e)) ∨
      ∃ t, s.mergePage js page = (t, .ok true) ∧ Merged js page s t := by
  cases hc : page.blocks.foldlM (mergeBlock js) ⟨s.blocks, s.revisions, []⟩ with
  | error e =>
    refine .inl ⟨e, ?_⟩
    simp only [ViewStore.mergePage, hc]
  | ok c =>
    cases hids : sortedIds c.blocks with
    | error e =>
      refine .inl ⟨e, ?_⟩
      simp only [ViewStore.mergePage, hc, hids]
    | ok blockIds => exact .inr (mergePage_merged hs hc hids)

/-! ### Releasing history -/

/-- One block is released, or the store stays as it is. -/
theorem releaseBlock_spec {base : Nat} {id₀ : String} {b₀ : TranscriptBlock} (hs : Accounted js s)
    (ht : s.releaseBlock js base (id₀, b₀) = t) :
    t = { s with blocks := t.blocks, blockBytes := t.blockBytes, managedBytes := t.managedBytes,
                 revisions := t.revisions } ∧
      Accounted js t ∧
      (∀ id, t.blocks.get? id =
        if id₀ = id ∧ s.releasable base id₀ b₀ then none else s.blocks.get? id) ∧
      ∀ id, t.revisions id =
        if id₀ = id ∧ s.releasable base id₀ b₀ then none else s.revisions id := by
  rw [ViewStore.releaseBlock] at ht
  split at ht
  · rename_i hrel
    subst ht
    refine ⟨?_, hs.replace (Dict.get?_erase s.blocks id₀) rfl rfl, fun id ↦ ?_, fun id ↦ ?_⟩
    · rfl
    · refine (Dict.get?_erase s.blocks id₀ id).trans ?_
      simp only [hrel, and_true]
    · show Function.update s.revisions id₀ none id = _
      simp only [hrel, and_true, Function.update_apply, eq_comm]
  · rename_i hrel
    subst ht
    exact ⟨rfl, hs, fun id ↦ by simp [hrel], fun id ↦ by simp [hrel]⟩

/-- The blocks that can be released are gone. -/
theorem foldl_releaseBlock {base : Nat} {rows : List (String × TranscriptBlock)}
    (hs : Accounted js s) (ht : rows.foldl (ViewStore.releaseBlock js base) s = t) :
    t = { s with blocks := t.blocks, blockBytes := t.blockBytes, managedBytes := t.managedBytes,
                 revisions := t.revisions } ∧
      Accounted js t ∧
      (∀ id b, (id, b) ∈ rows → s.releasable base id b = true →
        t.blocks.get? id = none ∧ t.revisions id = none) ∧
      ∀ id, (∀ b, (id, b) ∈ rows → s.releasable base id b = false) →
        t.blocks.get? id = s.blocks.get? id ∧ t.revisions id = s.revisions id := by
  induction rows generalizing s with
  | nil =>
    subst ht
    refine ⟨rfl, hs, fun _ _ h ↦ ?_, fun _ _ ↦ ⟨rfl, rfl⟩⟩
    cases h
  | cons entry rows ih =>
    obtain ⟨id₀, b₀⟩ := entry
    obtain ⟨hframe₁, hacc₁, hblocks₁, hrevisions₁⟩ :=
      releaseBlock_spec hs (rfl : s.releaseBlock js base (id₀, b₀) = _)
    obtain ⟨hframe, hacc, hgone, hkept⟩ := ih hacc₁ ht
    generalize s.releaseBlock js base (id₀, b₀) = s₁ at *
    -- What can be released does not depend on what has been released.
    have hsame : ∀ id b, s₁.releasable base id b = s.releasable base id b := by
      intro id b
      rw [hframe₁]
      rfl
    simp only [hsame] at hgone hkept
    refine ⟨hframe.trans (by rw [hframe₁]), hacc, fun id b hmem hrel ↦ ?_, fun id hnone ↦ ?_⟩
    · by_cases hrest : ∃ b, (id, b) ∈ rows ∧ s.releasable base id b = true
      · obtain ⟨b', hb', hrel'⟩ := hrest
        exact hgone id b' hb' hrel'
      · have hnone : ∀ b, (id, b) ∈ rows → s.releasable base id b = false := by
          intro b' hb'
          exact Bool.eq_false_iff.2 fun hrel' ↦ hrest ⟨b', hb', hrel'⟩
        have hhead : (id, b) = (id₀, b₀) :=
          (List.mem_cons.1 hmem).resolve_right fun h ↦ hrest ⟨b, h, hrel⟩
        obtain ⟨rfl, rfl⟩ := Prod.mk.inj hhead
        obtain ⟨hblocks, hrevisions⟩ := hkept _ hnone
        rw [hblocks, hrevisions, hblocks₁, hrevisions₁, if_pos ⟨rfl, hrel⟩, if_pos ⟨rfl, hrel⟩]
        exact ⟨rfl, rfl⟩
    · have hhead : ¬(id₀ = id ∧ s.releasable base id₀ b₀ = true) := by
        rintro ⟨rfl, hrel⟩
        rw [hnone b₀ List.mem_cons_self] at hrel
        cases hrel
      obtain ⟨hblocks, hrevisions⟩ := hkept id fun b hb ↦ hnone b (List.mem_cons_of_mem _ hb)
      rw [hblocks, hrevisions, hblocks₁, hrevisions₁, if_neg hhead, if_neg hhead]
      exact ⟨rfl, rfl⟩

/-- The history of `s` was released. -/
structure Released (js : Js) (base : Nat) (s t : ViewStore) : Prop where
  inv : StoreInv js t
  frame : t = { s with
    blocks := t.blocks, blockBytes := t.blockBytes, managedBytes := t.managedBytes,
    revisions := t.revisions, orderOwners := t.orderOwners, blockIds := t.blockIds,
    listSnapshot := t.listSnapshot }
  blocks : ∀ id, t.blocks.get? id = (s.blocks.get? id).filter fun b ↦ !s.releasable base id b
  revisions : ∀ id, t.revisions id =
    if (s.blocks.get? id).any (s.releasable base id) then none else s.revisions id
  snapshot : t.listSnapshot = { s.listSnapshot with
    blockIds := t.blockIds
    olderCursor := s.tailOlderCursor
    hasOlder := s.tailOlderCursor.isSome }

/-- **History is released without an error.** -/
theorem releaseLoadedHistory_spec (hs : StoreInv js s) {identity : TranscriptIdentity}
    (hidentity : s.identity = some identity) :
    ∃ t, s.releaseLoadedHistory js = (t, .ok ()) ∧ Released js identity.sourceHighWater s t := by
  generalize hbase : identity.sourceHighWater = base
  obtain ⟨hframe, hacc, hgone, hkept⟩ :=
    foldl_releaseBlock hs.accounted
      (rfl : s.blocks.rows.foldl (ViewStore.releaseBlock js base) s = _)
  generalize ht : s.blocks.rows.foldl (ViewStore.releaseBlock js base) s = t at hframe hacc hgone hkept
  have hall : ∀ id,
      t.blocks.get? id = ((s.blocks.get? id).filter fun b ↦ !s.releasable base id b) ∧
      t.revisions id = if (s.blocks.get? id).any (s.releasable base id) then none
        else s.revisions id := by
    intro id
    have hmem : ∀ b, (id, b) ∈ s.blocks.rows → s.blocks.get? id = some b := fun b ↦ Dict.mem_rows.1
    cases hb : s.blocks.get? id with
    | none =>
      obtain ⟨hblocks, hrevisions⟩ := hkept id fun b' hb' ↦ by
        rw [hmem b' hb'] at hb
        cases hb
      rw [hblocks, hrevisions, hb]
      exact ⟨rfl, rfl⟩
    | some b =>
      cases hrel : s.releasable base id b with
      | true =>
        obtain ⟨hblocks, hrevisions⟩ := hgone id b (Dict.mem_rows.2 hb) hrel
        rw [hblocks, hrevisions]
        simp [Option.filter, hrel]
      | false =>
        obtain ⟨hblocks, hrevisions⟩ := hkept id fun b' hb' ↦ by
          rw [hmem b' hb'] at hb
          cases hb
          exact hrel
        rw [hblocks, hrevisions, hb]
        simp [Option.filter, hrel]
  have hsub : ∀ id b, t.blocks.get? id = some b → s.blocks.get? id = some b := by
    intro id b hb
    rw [(hall id).1] at hb
    exact (Option.filter_eq_some_iff.1 hb).1
  have hkeyed : Keyed t.blocks := fun id b hb ↦ hs.keyed id b (hsub id b hb)
  have hlisted := hs.listed.restrict hsub
  obtain ⟨owners, howners, howns⟩ := exists_indexOrders hkeyed hlisted
  generalize hids : s.blockIds.filter (fun k ↦ (t.blocks.get? k).isSome) = blockIds at hlisted
  generalize hu : ({ t with
    blockIds := blockIds
    orderOwners := owners
    listSnapshot := { t.listSnapshot with
      blockIds := blockIds
      olderCursor := t.tailOlderCursor
      hasOlder := t.tailOlderCursor.isSome } } : ViewStore) = u
  have hrelease : s.releaseLoadedHistory js = (u, .ok ()) := by
    rw [ViewStore.releaseLoadedHistory, hidentity]
    simp only [hbase, ht, sortedIds_of_listed hkeyed hlisted, howners]
    rw [← hu]
  refine ⟨u, hrelease, ?_⟩
  subst hu
  have hnotice : t.noticeHighWater = s.noticeHighWater := by rw [hframe]
  have hsnapshot : t.listSnapshot = s.listSnapshot := by rw [hframe]
  have holder : t.tailOlderCursor = s.tailOlderCursor := by rw [hframe]
  refine ⟨⟨hkeyed, hlisted, howns, ⟨hacc.bytes, hacc.managed⟩, fun id b hb hisNotice ↦ ?_,
    fun id b hb ↦ ?_, fun id hid ↦ ?_, rfl⟩, by rw [hframe], fun id ↦ (hall id).1,
    fun id ↦ (hall id).2, ?_⟩
  · show b.sourceSequence ≤ t.noticeHighWater
    exact hnotice ▸ hs.notices id b (hsub id b hb) hisNotice
  · show t.revisions id = _
    have hb' := hb
    rw [(hall id).1] at hb'
    obtain ⟨hstored, hrel⟩ := Option.filter_eq_some_iff.1 hb'
    rw [(hall id).2, hstored, if_neg]
    · exact hs.revised id b hstored
    · simpa using hrel
  · -- An override is not released.
    have hover : id ∈ s.postBaseOverrideIds := by
      rw [hframe] at hid
      exact hid
    obtain ⟨b, hb⟩ := Option.isSome_iff_exists.1 (hs.overrides id hover)
    show (t.blocks.get? id).isSome
    rw [(hall id).1, hb]
    simp [ViewStore.releasable, hover]
  · show ({ t.listSnapshot with blockIds := _, olderCursor := _, hasOlder := _ } :
      TranscriptListSnapshot) = _
    rw [hsnapshot, holder]

end Centaeris.Web
