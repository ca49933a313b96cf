import Centaeris.Web.Reachable

/-!
# What can be observed of a view store

A store is observed through its snapshots, its blocks and its byte count, now and after any further
calls, and through what these calls return or throw (`ObservationallyEqual`).

`Alike` is a relation that implies it. Of the blocks only the answers count, not the order in which
the map has them; and of `postBaseOverrideIds` only what lies outside the tail, because a block of the
tail is never released. The indexes and the byte counts are not mentioned: in a store that satisfies
the invariant they are determined by the blocks. `Alike.exec` says that a call does the same to two
stores that are alike.
-/

namespace Centaeris.Web

open Except

variable {js : Js} {s t : ViewStore}

/-- The observers agree: `getListSnapshot`, `getLiveSnapshot`, `getBlockSnapshot` and
`managedContentBytes`. -/
structure SameSnapshots (s t : ViewStore) : Prop where
  list : s.listSnapshot = t.listSnapshot
  live : s.liveSnapshot = t.liveSnapshot
  blocks : ∀ id, s.blocks.get? id = t.blocks.get? id
  bytes : s.managedBytes = t.managedBytes

/-- After the same calls the two stores show the same, and the next call answers the same. -/
def ObservationallyEqual (js : Js) (s t : ViewStore) : Prop :=
  ∀ ops, SameSnapshots (s.run js ops) (t.run js ops) ∧
    ∀ op, ((s.run js ops).exec js op).2 = ((t.run js ops).exec js op).2

/-- The two stores agree in what later calls depend on. -/
structure Alike (s t : ViewStore) : Prop where
  viewEpoch : s.viewEpoch = t.viewEpoch
  identity : s.identity = t.identity
  blocks : ∀ id, s.blocks.get? id = t.blocks.get? id
  tail : s.tailBlockIds = t.tailBlockIds
  overrides : ∀ id, id ∉ s.tailBlockIds → (id ∈ s.postBaseOverrideIds ↔ id ∈ t.postBaseOverrideIds)
  older : s.tailOlderCursor = t.tailOlderCursor
  revisions : s.revisions = t.revisions
  notice : s.noticeHighWater = t.noticeHighWater
  snapshot : s.listSnapshot = t.listSnapshot
  live : s.liveSnapshot = t.liveSnapshot

section Determined

variable {d e : Dict String TranscriptBlock} {ids ids' : List String}
  {owners owners' : OrderKey → Option String}

theorem listed_unique (h : ∀ id, d.get? id = e.get? id) (hd : Listed d ids) (he : Listed e ids') :
    ids = ids' :=
  (hd.congr fun id ↦ by rw [h]).unique he

theorem owns_unique (h : ∀ id, d.get? id = e.get? id) (hd : Owns d owners) (he : Owns e owners') :
    owners = owners' := by
  funext order
  refine Option.ext fun id ↦ ?_
  rw [hd, he, h]

theorem sortedIds_congr (h : ∀ id, d.get? id = e.get? id) (hd : Keyed d) : sortedIds d = sortedIds e := by
  have he : Keyed e := fun id b hb ↦ hd id b ((h id).trans hb)
  cases hids : sortedIds d with
  | ok ids =>
    have hlisted : Listed e ids := (listed_of_sortedIds hd hids).congr fun id ↦ by rw [h]
    exact (sortedIds_of_listed he hlisted).symm
  | error message =>
    cases hids' : sortedIds e with
    | ok ids =>
      have hlisted : Listed d ids := (listed_of_sortedIds he hids').congr fun id ↦ by rw [h]
      rw [sortedIds_of_listed hd hlisted] at hids
      cases hids
    | error message' =>
      -- There is one error.
      rw [sortedIds] at hids hids'
      split at hids <;> split at hids' <;> cases hids <;> cases hids'
      rfl

/-- The notices are all that counts for the highest one. -/
theorem latestNoticeHighWater_of_notices
    (h : ∀ id, (d.get? id).filter (·.isNotice) = (e.get? id).filter (·.isNotice)) :
    latestNoticeHighWater d = latestNoticeHighWater e := by
  have hmem : ∀ {d e : Dict String TranscriptBlock},
      (∀ id, (d.get? id).filter (·.isNotice) = (e.get? id).filter (·.isNotice)) →
      ∀ id b, d.get? id = some b → b.isNotice = true → e.get? id = some b := by
    intro d e h id b hb hnotice
    exact (Option.filter_eq_some_iff.1 ((h id).symm.trans (Option.filter_eq_some_iff.2 ⟨hb, hnotice⟩))).1
  refine eq_of_forall_ge_iff fun n ↦ ?_
  rw [latestNoticeHighWater_le_iff, latestNoticeHighWater_le_iff]
  exact ⟨fun hd id b hb hnotice ↦ hd id b (hmem (fun id ↦ (h id).symm) id b hb hnotice) hnotice,
    fun he id b hb hnotice ↦ he id b (hmem h id b hb hnotice) hnotice⟩

theorem latestNoticeHighWater_congr (h : ∀ id, d.get? id = e.get? id) :
    latestNoticeHighWater d = latestNoticeHighWater e :=
  latestNoticeHighWater_of_notices fun id ↦ by rw [h]

end Determined

namespace Alike

theorem sameSnapshots (h : Alike s t) (hs : StoreInv js s) (ht : StoreInv js t) : SameSnapshots s t where
  list := h.snapshot
  live := h.live
  blocks := h.blocks
  bytes := by rw [hs.accounted.total, ht.accounted.total, Dict.total_congr h.blocks]

theorem blockIds (h : Alike s t) (hs : StoreInv js s) (ht : StoreInv js t) : s.blockIds = t.blockIds :=
  listed_unique h.blocks hs.listed ht.listed

theorem orderOwners (h : Alike s t) (hs : StoreInv js s) (ht : StoreInv js t) :
    s.orderOwners = t.orderOwners :=
  owns_unique h.blocks hs.owned ht.owned

theorem has (h : Alike s t) (id : String) : s.blocks.has id = t.blocks.has id := by
  rw [Dict.has, Dict.has, h.blocks]

theorem current? (h : Alike s t) (epoch : Nat) : s.current? epoch = t.current? epoch := by
  rw [ViewStore.current?, ViewStore.current?, h.viewEpoch, h.identity]

theorem releasable (h : Alike s t) (base : Nat) (id : String) (b : TranscriptBlock) :
    s.releasable base id b = t.releasable base id b := by
  rw [ViewStore.releasable, ViewStore.releasable, h.tail]
  by_cases htail : id ∈ t.tailBlockIds
  · simp [htail]
  · simp only [h.overrides id (h.tail ▸ htail)]

/-! ### Opening, older pages, releasing -/

theorem openPage (h : Alike s t) (page : TranscriptPage) :
    (s.openPage js page).2 = (t.openPage js page).2 ∧
      Alike (s.openPage js page).1 (t.openPage js page).1 := by
  obtain ⟨u, hu, hopened⟩ := openPage_spec js s page
  obtain ⟨v, hv, hopened'⟩ := openPage_spec js t page
  have hepoch : u.viewEpoch = v.viewEpoch := by
    rw [hopened.viewEpoch, hopened'.viewEpoch, h.viewEpoch]
  have hblocks : ∀ id, u.blocks.get? id = v.blocks.get? id := fun id ↦ by
    rw [hopened.blocks, hopened'.blocks]
  rw [hu, hv]
  refine ⟨by rw [hepoch], hepoch, ?_, hblocks, ?_, fun id _ ↦ ?_, ?_, ?_, ?_, ?_, ?_⟩
  · rw [hopened.identity, hopened'.identity]
  · rw [hopened.tail, hopened'.tail]
  · rw [hopened.overrides, hopened'.overrides]
  · rw [hopened.older, hopened'.older]
  · funext id
    rw [hopened.revisions, hopened'.revisions]
  · rw [hopened.notice, hopened'.notice, latestNoticeHighWater_congr hblocks]
  · rw [hopened.snapshot, hopened'.snapshot, hepoch,
      listed_unique hblocks hopened.inv.listed hopened'.inv.listed]
  · rw [hopened.live, hopened'.live]

end Alike

/-- Maps of `mergeBlock` with the same answers. -/
structure Candidate.Alike (c c' : Candidate) : Prop where
  blocks : ∀ id, c.blocks.get? id = c'.blocks.get? id
  revisions : c.revisions = c'.revisions

theorem Candidate.Alike.accept {c c' : Candidate} (h : c.Alike c') (next : TranscriptBlock) :
    Rel Eq Candidate.Alike (c.accept next) (c'.accept next) := by
  rw [Candidate.accept, Candidate.accept, require, require, h.blocks]
  split
  · refine .ok ⟨fun id ↦ ?_, ?_⟩
    · show (c.blocks.set _ _).get? id = (c'.blocks.set _ _).get? id
      rw [Dict.get?_set, Dict.get?_set, h.blocks]
    · show Function.update c.revisions _ _ = Function.update c'.revisions _ _
      rw [h.revisions]
  · exact .error rfl

theorem Candidate.Alike.mergeBlock {c c' : Candidate} (h : c.Alike c') (next : TranscriptBlock) :
    Rel Eq Candidate.Alike (mergeBlock js c next) (mergeBlock js c' next) := by
  rw [Web.mergeBlock, Web.mergeBlock, h.revisions]
  split
  · exact h.accept next
  · split_ifs
    · exact .ok h
    · rw [require, require, h.blocks]
      split
      · exact .ok h
      · exact .error rfl
    · exact h.accept next

namespace Alike

/-- The same page is prepended to both. -/
theorem merged (h : Alike s t) {page : TranscriptPage} {u v : ViewStore} (hu : Merged js page s u)
    (hv : Merged js page t v) : Alike u v := by
  have hblocks : ∀ id, u.blocks.get? id = v.blocks.get? id := fun id ↦ by
    rw [hu.blocks, hv.blocks, h.blocks, h.revisions]
  refine ⟨?_, ?_, hblocks, ?_, fun id hid ↦ ?_, ?_, ?_, ?_, ?_, ?_⟩
  · rw [hu.frame, hv.frame]
    exact h.viewEpoch
  · rw [hu.frame, hv.frame]
    exact h.identity
  · rw [hu.frame, hv.frame]
    exact h.tail
  · rw [hu.frame] at hid
    rw [hu.frame, hv.frame]
    exact h.overrides id hid
  · rw [hu.frame, hv.frame]
    exact h.older
  · funext id
    rw [hu.revisions, hv.revisions, h.revisions]
  · rw [hu.notice, hv.notice, h.notice]
  · rw [hu.snapshot, hv.snapshot, h.snapshot, listed_unique hblocks hu.inv.listed hv.inv.listed]
  · rw [hu.frame, hv.frame]
    exact h.live

theorem mergePage (h : Alike s t) (hs : StoreInv js s) (ht : StoreInv js t) (page : TranscriptPage) :
    (s.mergePage js page).2 = (t.mergePage js page).2 ∧
      Alike (s.mergePage js page).1 (t.mergePage js page).1 := by
  have hfold : Rel Eq Candidate.Alike
      (page.blocks.foldlM (Web.mergeBlock js) ⟨s.blocks, s.revisions, []⟩)
      (page.blocks.foldlM (Web.mergeBlock js) ⟨t.blocks, t.revisions, []⟩) :=
    Rel.foldlM (fun next _ _ _ hc ↦ hc.mergeBlock next) ⟨h.blocks, h.revisions⟩
  rcases hfold.cases with ⟨e, e', hc, hc', rfl⟩ | ⟨c, c', hc, hc', hcand⟩
  · simp only [ViewStore.mergePage, hc, hc']
    exact ⟨trivial, h⟩
  · have hkeyed : Keyed c.blocks := by
      intro id b hb
      rw [(foldlM_mergeBlock page.nodup_blockIds hc).blocks] at hb
      rcases Option.or_eq_some_iff.1 hb with hb | ⟨-, hb⟩
      · exact (blockOf_mem (incoming_eq_some.1 hb).1).2
      · exact hs.keyed id b hb
    have hsorted := sortedIds_congr hcand.blocks hkeyed
    cases hids : sortedIds c.blocks with
    | error e =>
      rw [hids] at hsorted
      simp only [ViewStore.mergePage, hc, hc', hids, ← hsorted]
      exact ⟨trivial, h⟩
    | ok ids =>
      rw [hids] at hsorted
      obtain ⟨u, hu, hmerged⟩ := mergePage_merged hs hc hids
      obtain ⟨v, hv, hmerged'⟩ := mergePage_merged ht hc' hsorted.symm
      rw [hu, hv]
      exact ⟨rfl, h.merged hmerged hmerged'⟩

theorem released (h : Alike s t) {base : Nat} {u v : ViewStore} (hu : Released js base s u)
    (hv : Released js base t v) : Alike u v := by
  have hblocks : ∀ id, u.blocks.get? id = v.blocks.get? id := fun id ↦ by
    rw [hu.blocks, hv.blocks, h.blocks]
    simp only [h.releasable]
  refine ⟨?_, ?_, hblocks, ?_, fun id hid ↦ ?_, ?_, ?_, ?_, ?_, ?_⟩
  · rw [hu.frame, hv.frame]
    exact h.viewEpoch
  · rw [hu.frame, hv.frame]
    exact h.identity
  · rw [hu.frame, hv.frame]
    exact h.tail
  · rw [hu.frame] at hid
    rw [hu.frame, hv.frame]
    exact h.overrides id hid
  · rw [hu.frame, hv.frame]
    exact h.older
  · funext id
    have hrel : s.releasable base id = t.releasable base id := funext (h.releasable base id)
    rw [hu.revisions, hv.revisions, h.revisions, h.blocks, hrel]
  · rw [hu.frame, hv.frame]
    exact h.notice
  · rw [hu.snapshot, hv.snapshot, h.snapshot, h.older,
      listed_unique hblocks hu.inv.listed hv.inv.listed]
  · rw [hu.frame, hv.frame]
    exact h.live

theorem releaseLoadedHistory (h : Alike s t) (hs : StoreInv js s) (ht : StoreInv js t) :
    (s.releaseLoadedHistory js).2 = (t.releaseLoadedHistory js).2 ∧
      Alike (s.releaseLoadedHistory js).1 (t.releaseLoadedHistory js).1 := by
  cases hidentity : s.identity with
  | none =>
    simp only [ViewStore.releaseLoadedHistory, hidentity, ← h.identity]
    exact ⟨trivial, h⟩
  | some identity =>
    obtain ⟨u, hu, hreleased⟩ := releaseLoadedHistory_spec hs hidentity
    obtain ⟨v, hv, hreleased'⟩ := releaseLoadedHistory_spec ht (h.identity.symm.trans hidentity)
    rw [hu, hv]
    exact ⟨rfl, h.released hreleased hreleased'⟩

end Alike

/-! ### Patch pages -/

/-- The same is staged, up to overrides in the tail. -/
structure Staging.Alike (tail : Finset String) (g g' : Staging) : Prop where
  blocks : g.blocks = g'.blocks
  revisions : g.revisions = g'.revisions
  overrides : ∀ id, id ∉ tail → (id ∈ g.postBaseOverrideIds ↔ id ∈ g'.postBaseOverrideIds)
  live : g.nextLive = g'.nextLive
  notice : g.noticeAffected = g'.noticeAffected

namespace Alike

variable {g g' : Staging} {base : Nat}

theorem currentBlock (h : Alike s t) (hg : g.Alike s.tailBlockIds g') (id : String) :
    s.currentBlock g id = t.currentBlock g' id := by
  rw [ViewStore.currentBlock, ViewStore.currentBlock, hg.blocks, h.blocks]

theorem currentRevision (h : Alike s t) (hg : g.Alike s.tailBlockIds g') (id : String) :
    s.currentRevision g id = t.currentRevision g' id := by
  rw [ViewStore.currentRevision, ViewStore.currentRevision, hg.revisions, h.revisions]

theorem withUpsert (h : Alike s t) (hg : g.Alike s.tailBlockIds g') (item : TranscriptBlock) :
    (s.withUpsert base g item).Alike s.tailBlockIds (t.withUpsert base g' item) := by
  refine ⟨?_, ?_, fun id hid ↦ ?_, ?_, ?_⟩
  · show g.blocks.set _ _ = g'.blocks.set _ _
    rw [hg.blocks]
  · show Function.update g.revisions _ _ = Function.update g'.revisions _ _
    rw [hg.revisions]
  · show (id ∈ if _ then _ else _) ↔ (id ∈ if _ then _ else _)
    simp only [h.has]
    split
    · rw [Finset.mem_insert, Finset.mem_insert, hg.overrides id hid]
    · exact hg.overrides id hid
  · show g.nextLive.filter _ = g'.nextLive.filter _
    rw [hg.live]
  · show (g.noticeAffected || _ || _) = (g'.noticeAffected || _ || _)
    rw [hg.notice, h.currentBlock hg]

theorem withRemoval (h : Alike s t) (hg : g.Alike s.tailBlockIds g') (removal : TranscriptRemoval) :
    (s.withRemoval g removal).Alike s.tailBlockIds (t.withRemoval g' removal) := by
  refine ⟨?_, ?_, hg.overrides, ?_, ?_⟩
  · show g.blocks.set _ _ = g'.blocks.set _ _
    rw [hg.blocks]
  · show Function.update g.revisions _ _ = Function.update g'.revisions _ _
    rw [hg.revisions]
  · show g.nextLive.filter _ = g'.nextLive.filter _
    rw [hg.live]
  · show (g.noticeAffected || _) = (g'.noticeAffected || _)
    rw [hg.notice, h.currentBlock hg]

/-- Staging that throws: the same error, with the same staged. -/
def thrownAlike (tail : Finset String) (e e' : Staging × String) : Prop :=
  e.1.Alike tail e'.1 ∧ e.2 = e'.2

theorem acceptUpsert (h : Alike s t) (hg : g.Alike s.tailBlockIds g') (item : TranscriptBlock) :
    Rel (thrownAlike s.tailBlockIds) (Staging.Alike s.tailBlockIds) (s.acceptUpsert base g item)
      (t.acceptUpsert base g' item) := by
  rw [ViewStore.acceptUpsert, ViewStore.acceptUpsert, require, require, h.blocks]
  split
  · exact .ok (h.withUpsert hg item)
  · exact .error ⟨hg, rfl⟩

theorem stageUpsert (h : Alike s t) (hg : g.Alike s.tailBlockIds g') (item : TranscriptBlock) :
    Rel (thrownAlike s.tailBlockIds) (Staging.Alike s.tailBlockIds) (s.stageUpsert js base g item)
      (t.stageUpsert js base g' item) := by
  rw [ViewStore.stageUpsert, ViewStore.stageUpsert, h.currentRevision hg]
  split
  · exact h.acceptUpsert hg item
  · split_ifs
    · exact .ok hg
    · rw [require, require, h.currentBlock hg]
      split
      · exact .ok hg
      · exact .error ⟨hg, rfl⟩
    · exact h.acceptUpsert hg item

theorem stageRemoval (h : Alike s t) (hg : g.Alike s.tailBlockIds g') (removal : TranscriptRemoval) :
    Rel (thrownAlike s.tailBlockIds) (Staging.Alike s.tailBlockIds) (s.stageRemoval g removal)
      (t.stageRemoval g' removal) := by
  rw [ViewStore.stageRemoval, ViewStore.stageRemoval, h.currentRevision hg]
  split
  · exact .ok (h.withRemoval hg removal)
  · split_ifs
    · exact .ok hg
    · rw [require, require, h.currentBlock hg]
      split
      · exact .ok hg
      · exact .error ⟨hg, rfl⟩
    · exact .ok (h.withRemoval hg removal)

/-- **Both stores stage the same.** -/
theorem stagePatches (h : Alike s t) (patches : List TranscriptPatch) :
    Rel (thrownAlike s.tailBlockIds) (Staging.Alike s.tailBlockIds)
      (patches.foldlM (s.stagePatch js base) s.staging)
      (patches.foldlM (t.stagePatch js base) t.staging) := by
  refine Rel.foldlM (fun patch _ g g' hg ↦ ?_) ⟨rfl, rfl, h.overrides, h.live, rfl⟩
  refine (Rel.foldlM (fun item _ _ _ hg ↦ h.stageUpsert hg item) hg).bind fun g g' hg ↦ ?_
  exact Rel.foldlM (fun removal _ _ _ hg ↦ h.stageRemoval hg removal) hg

theorem mergeIds (h : Alike s t) (retained : List String) :
    mergeIds s.blocks retained = mergeIds t.blocks retained := by
  induction retained with
  | nil => rfl
  | cons id retained ih => rw [Web.mergeIds, Web.mergeIds, h.blocks, ih]

theorem restructure (h : Alike s t) (hs : StoreInv js s) (ht : StoreInv js t)
    (hg : g.Alike s.tailBlockIds g') : s.restructure g = t.restructure g' := by
  have hchange : s.structuralChange g = t.structuralChange g' := by
    simp only [ViewStore.structuralChange, hg.blocks, h.has]
  have hadditions : s.additions g = t.additions g' := by
    simp only [ViewStore.additions, hg.blocks, h.has]
  have hrelease : s.releaseOwner = t.releaseOwner := by
    funext owners entry
    rw [ViewStore.releaseOwner, ViewStore.releaseOwner, h.blocks]
  have howners : s.releasedOwners g = t.releasedOwners g' := by
    rw [ViewStore.releasedOwners, ViewStore.releasedOwners, hrelease, hg.blocks, h.orderOwners hs ht]
  simp only [ViewStore.restructure, hchange, hadditions, howners, h.blockIds hs ht, hg.blocks,
    h.mergeIds, h.orderOwners hs ht]

/-- The same is committed to both. -/
theorem patched (h : Alike s t) (hg : g.Alike s.tailBlockIds g') {next : Nat} {u v : ViewStore}
    (hu : Patched js g next s u) (hv : Patched js g' next t v) : Alike u v := by
  have hblocks : ∀ id, u.blocks.get? id = v.blocks.get? id := fun id ↦ by
    rw [hu.blocks, hv.blocks, h.currentBlock hg]
  refine ⟨?_, ?_, hblocks, ?_, fun id hid ↦ ?_, ?_, ?_, ?_, ?_, ?_⟩
  · rw [hu.frame, hv.frame]
    exact h.viewEpoch
  · rw [hu.frame, hv.frame]
    exact h.identity
  · rw [hu.frame, hv.frame]
    exact h.tail
  · rw [hu.frame] at hid
    rw [hu.overrides, hv.overrides, hg.overrides id hid, hg.blocks]
  · rw [hu.frame, hv.frame]
    exact h.older
  · funext id
    rw [hu.revisions, hv.revisions, h.currentRevision hg]
  · rw [hu.notice, hv.notice, hg.notice, h.notice, latestNoticeHighWater_congr hblocks]
  · rw [hu.snapshot, hv.snapshot, h.snapshot, listed_unique hblocks hu.inv.listed hv.inv.listed]
  · rw [hu.live, hv.live, hg.live]

/-- A page that throws leaves stores that are alike. -/
theorem withOverrides (h : Alike s t) (hg : g.Alike s.tailBlockIds g') :
    Alike { s with postBaseOverrideIds := g.postBaseOverrideIds }
      { t with postBaseOverrideIds := g'.postBaseOverrideIds } :=
  ⟨h.viewEpoch, h.identity, h.blocks, h.tail, hg.overrides, h.older, h.revisions, h.notice,
    h.snapshot, h.live⟩

theorem patchPage (h : Alike s t) (hs : StoreInv js s) (ht : StoreInv js t)
    (page : TranscriptPatchPage) :
    (s.patchPage js base page).2 = (t.patchPage js base page).2 ∧
      Alike (s.patchPage js base page).1 (t.patchPage js base page).1 := by
  have hstaged : Rel (thrownAlike s.tailBlockIds) (Staging.Alike s.tailBlockIds)
      (page.patches.foldlM (s.stagePatch js base) s.staging)
      (page.patches.foldlM (t.stagePatch js base) t.staging) := h.stagePatches page.patches
  rcases hstaged.cases with
    ⟨⟨g, e⟩, ⟨g', e'⟩, hstage, hstage', hg, rfl⟩ | ⟨g, g', hstage, hstage', hg⟩
  · simp only [ViewStore.patchPage, hstage, hstage']
    exact ⟨trivial, h.withOverrides hg⟩
  · have hindexes := h.restructure hs ht hg
    cases hindex : s.restructure g with
    | error e =>
      rw [hindex] at hindexes
      rw [patchPage_conflict hstage hindex, patchPage_conflict hstage' hindexes.symm]
      exact ⟨rfl, h.withOverrides hg⟩
    | ok indexes =>
      rw [hindex] at hindexes
      obtain ⟨u, hu, hpatched⟩ := patchPage_patched hs hstage hindex
      obtain ⟨v, hv, hpatched'⟩ := patchPage_patched ht hstage' hindexes.symm
      rw [hu, hv]
      exact ⟨rfl, h.patched hg hpatched hpatched'⟩

/-! ### All operations -/

theorem prependPage (h : Alike s t) (hs : StoreInv js s) (ht : StoreInv js t) (rawPage : Json)
    (epoch : Nat) : (s.prependPage js rawPage epoch).2 = (t.prependPage js rawPage epoch).2 ∧
      Alike (s.prependPage js rawPage epoch).1 (t.prependPage js rawPage epoch).1 := by
  rw [ViewStore.prependPage, ViewStore.prependPage, h.current?]
  cases t.current? epoch with
  | none => exact ⟨rfl, h⟩
  | some identity =>
    cases hpage : validateTranscriptPage js rawPage identity.sessionId with
    | error e =>
      simp only [hpage]
      exact ⟨trivial, h⟩
    | ok page =>
      simp only [hpage]
      split
      · exact ⟨rfl, h⟩
      · exact h.mergePage hs ht page

theorem applyPatchPage (h : Alike s t) (hs : StoreInv js s) (ht : StoreInv js t) (rawPage : Json)
    (epoch : Nat) : (s.applyPatchPage js rawPage epoch).2 = (t.applyPatchPage js rawPage epoch).2 ∧
      Alike (s.applyPatchPage js rawPage epoch).1 (t.applyPatchPage js rawPage epoch).1 := by
  rw [ViewStore.applyPatchPage, ViewStore.applyPatchPage, h.current?, h.snapshot]
  cases t.current? epoch with
  | none => exact ⟨rfl, h⟩
  | some identity =>
    cases hpage : validateTranscriptPatchPage js rawPage identity
      t.listSnapshot.appliedSourceHighWater with
    | error e =>
      simp only [hpage]
      exact ⟨trivial, h⟩
    | ok page =>
      simp only [hpage]
      exact h.patchPage hs ht page

theorem withLive (h : Alike s t) (live : Option TranscriptLiveOverlay) :
    Alike { s with liveSnapshot := live } { t with liveSnapshot := live } :=
  ⟨h.viewEpoch, h.identity, h.blocks, h.tail, h.overrides, h.older, h.revisions, h.notice,
    h.snapshot, rfl⟩

theorem applyLiveOverlay (h : Alike s t) (raw : Json) (epoch : Nat) :
    (s.applyLiveOverlay raw epoch).2 = (t.applyLiveOverlay raw epoch).2 ∧
      Alike (s.applyLiveOverlay raw epoch).1 (t.applyLiveOverlay raw epoch).1 := by
  have hsealed : s.sealed = t.sealed := by
    funext next
    simp only [ViewStore.sealed, h.has, h.notice]
  rw [ViewStore.applyLiveOverlay, ViewStore.applyLiveOverlay, h.current?, h.live, hsealed]
  cases t.current? epoch with
  | none => exact ⟨rfl, h⟩
  | some identity =>
    cases parseTranscriptLiveOverlay raw with
    | none => exact ⟨rfl, h⟩
    | some next =>
      dsimp only
      split
      · exact ⟨rfl, h⟩
      · exact ⟨rfl, h.withLive (some next)⟩

/-- **A call does the same to both stores.** -/
theorem exec (h : Alike s t) (hs : StoreInv js s) (ht : StoreInv js t) (op : StoreOp) :
    (s.exec js op).2 = (t.exec js op).2 ∧ Alike (s.exec js op).1 (t.exec js op).1 := by
  cases op with
  | openTail rawPage =>
    have hopen : (s.openTail js rawPage).2 = (t.openTail js rawPage).2 ∧
        Alike (s.openTail js rawPage).1 (t.openTail js rawPage).1 := by
      rw [ViewStore.openTail, ViewStore.openTail]
      cases validateTranscriptTailPage js rawPage with
      | error e => exact ⟨rfl, h⟩
      | ok page => exact h.openPage page
    exact ⟨congrArg (StoreAnswer.epoch <$> ·) hopen.1, hopen.2⟩
  | prependPage rawPage epoch =>
    obtain ⟨hanswer, halike⟩ := h.prependPage hs ht rawPage epoch
    exact ⟨congrArg (StoreAnswer.flag <$> ·) hanswer, halike⟩
  | applyPatchPage rawPage epoch =>
    obtain ⟨hanswer, halike⟩ := h.applyPatchPage hs ht rawPage epoch
    exact ⟨congrArg (StoreAnswer.flag <$> ·) hanswer, halike⟩
  | applyLiveOverlay raw epoch =>
    obtain ⟨hanswer, halike⟩ := h.applyLiveOverlay raw epoch
    exact ⟨congrArg (fun b ↦ Except.ok (StoreAnswer.flag b)) hanswer, halike⟩
  | clearLiveOverlay epoch =>
    show Except.ok (StoreAnswer.flag (s.clearLiveOverlay epoch).2) =
        Except.ok (.flag (t.clearLiveOverlay epoch).2) ∧
      Alike (s.clearLiveOverlay epoch).1 (t.clearLiveOverlay epoch).1
    rw [ViewStore.clearLiveOverlay, ViewStore.clearLiveOverlay]
    by_cases hepoch : epoch ≠ s.viewEpoch
    · rw [if_pos hepoch, if_pos (h.viewEpoch ▸ hepoch)]
      exact ⟨rfl, h⟩
    · rw [if_neg hepoch, if_neg (h.viewEpoch ▸ hepoch)]
      exact ⟨rfl, h.withLive none⟩
  | clear =>
    refine ⟨rfl, ?_, rfl, fun _ ↦ rfl, rfl, fun _ _ ↦ Iff.rfl, rfl, rfl, rfl, ?_, rfl⟩
    · exact congrArg (· + 1) h.viewEpoch
    · exact congrArg (fun n ↦ TranscriptListSnapshot.closed (n + 1)) h.viewEpoch
  | releaseLoadedHistory =>
    obtain ⟨hanswer, halike⟩ := h.releaseLoadedHistory hs ht
    exact ⟨congrArg ((fun _ ↦ StoreAnswer.done) <$> ·) hanswer, halike⟩

/-- **Stores that are alike cannot be told apart.** -/
theorem observationallyEqual (h : Alike s t) (hs : StoreInv js s) (ht : StoreInv js t) :
    ObservationallyEqual js s t := by
  intro ops
  have hrun : StoreInv js (s.run js ops) ∧ StoreInv js (t.run js ops) ∧
      Alike (s.run js ops) (t.run js ops) := by
    induction ops generalizing s t with
    | nil => exact ⟨hs, ht, h⟩
    | cons op ops ih =>
      exact ih (h.exec hs ht op).2 (hs.effect (exec_effect hs op)) (ht.effect (exec_effect ht op))
  obtain ⟨hs', ht', h'⟩ := hrun
  exact ⟨h'.sameSnapshots hs' ht', fun op ↦ (h'.exec hs' ht' op).1⟩

end Alike

end Centaeris.Web
