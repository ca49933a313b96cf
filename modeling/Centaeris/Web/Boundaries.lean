import Centaeris.Web.Observation

/-!
# The boundaries of patch pages

The same patches can come in one page or in two. Within a page the blocks that are staged are not
those that are stored, and `applyPatchPage` asks for both: the place of an upsert is compared with the
stored block, and a block is marked as changed after the base when it is stored. So a boundary can be
observed (`boundary_releases`).

It cannot when ids and places go together in everything that is stored or comes, and when the second
page replaces no block of the history that the first page has brought or removed. The proof runs the
second part of the one page, which works on the staged maps of the first part, beside the second page,
which works on the store that the first page has left. `Resumed` relates the two.
-/

namespace Centaeris.Web

open Except

variable {js : Js} {s t u : ViewStore} {g g' gP : Staging} {base : Nat}

/-! ### Conditions -/

/-- In a list of blocks, ids and places go together. -/
def OneKeyEach (l : List TranscriptBlock) : Prop :=
  ∀ a ∈ l, ∀ b ∈ l, a.blockId = b.blockId ↔ a.order = b.order

instance (l : List TranscriptBlock) : Decidable (OneKeyEach l) := by
  unfold OneKeyEach; infer_instance

/-- The blocks that are stored and those that come. -/
def ViewStore.knownBlocks (s : ViewStore) (patches : List TranscriptPatch) : List TranscriptBlock :=
  s.blocks.values ++ patches.flatMap (·.upserts)

/-- An upsert at or below the base, outside the tail, is not of a block that patches remove, and only
of a block that they upsert if it is stored. -/
def ViewStore.Untouched (s : ViewStore) (base : Nat) (patches : List TranscriptPatch)
    (item : TranscriptBlock) : Prop :=
  item.sourceSequence ≤ base → item.blockId ∉ s.tailBlockIds →
    item.blockId ∉ patches.flatMap (·.removals.map (·.blockId)) ∧
      (item.blockId ∈ patches.flatMap (·.upserts.map (·.blockId)) → s.blocks.has item.blockId = true)

instance (s : ViewStore) (base : Nat) (patches : List TranscriptPatch) (item : TranscriptBlock) :
    Decidable (s.Untouched base patches item) := by
  unfold ViewStore.Untouched; infer_instance

/-! ### Marked blocks belong to the history -/

/-- Every marked block is stored at or below the base. -/
def MarkedBelow (s : ViewStore) (base : Nat) (marked : Finset String) : Prop :=
  ∀ id ∈ marked, ∃ b, s.blocks.get? id = some b ∧ b.sourceSequence ≤ base

theorem sourceSequence_congr {a b : TranscriptBlock} (h : a.order = b.order) :
    a.sourceSequence = b.sourceSequence :=
  congrArg (fun key : OrderKey ↦ (ofLex key).1) h

theorem MarkedBelow.withUpsert {item : TranscriptBlock}
    (h : MarkedBelow s base g.postBaseOverrideIds)
    (hplaced : ∀ b, s.blocks.get? item.blockId = some b → b.order = item.order) :
    MarkedBelow s base (s.withUpsert base g item).postBaseOverrideIds := by
  intro id hid
  have hid' : id ∈ if s.blocks.has item.blockId ∧ item.sourceSequence ≤ base then
      insert item.blockId g.postBaseOverrideIds else g.postBaseOverrideIds := hid
  split at hid'
  · rename_i hmarks
    rcases Finset.mem_insert.1 hid' with rfl | hid'
    · obtain ⟨b, hb⟩ := Option.isSome_iff_exists.1 hmarks.1
      exact ⟨b, hb, (sourceSequence_congr (hplaced b hb)).trans_le hmarks.2⟩
    · exact h id hid'
  · exact h id hid'

theorem MarkedBelow.stage (h : MarkedBelow s base s.postBaseOverrideIds)
    (patches : List TranscriptPatch) : MarkedBelow s base
      (patches.foldlM (s.stagePatch js base) s.staging).finalState.postBaseOverrideIds :=
  stagePatches_invariant (I := fun g ↦ MarkedBelow s base g.postBaseOverrideIds)
    (fun _ _ _ _ _ hg hable ↦ hg.withUpsert hable.placed) (fun _ _ _ _ _ hg _ ↦ hg) h

/-- The marked blocks of a store that is open. -/
def MarksHistory (s : ViewStore) : Prop :=
  ∀ identity, s.identity = some identity →
    MarkedBelow s identity.sourceHighWater s.postBaseOverrideIds

theorem MarksHistory.effect (h : MarksHistory s) (hs : StoreInv js s) {op : StoreOp}
    {answer : Except String StoreAnswer} (heffect : StoreEffect js s op t answer) :
    MarksHistory t := by
  cases heffect with
  | kept => exact h
  | opened _ hopened =>
    intro identity _ id hid
    rw [hopened.overrides] at hid
    cases hid
  | merged _ _ _ hmerged =>
    intro identity hidentity id hid
    rw [hmerged.frame] at hidentity hid
    obtain ⟨b, hb, hle⟩ := h identity hidentity id hid
    rw [hmerged.blocks]
    cases hin : incoming (s.revisions id) (blockOf _ id) with
    | none => exact ⟨b, hb, hle⟩
    | some b' =>
      exact ⟨b', rfl, (sourceSequence_congr (hmerged.placed id b' b hin hb)).symm.trans_le hle⟩
  | thrown hidentity' _ hfinal =>
    intro identity hidentity
    cases hidentity'.symm.trans hidentity
    exact hfinal ▸ (h _ hidentity).stage _
  | @patched _ _ identity' page g _ hidentity' _ hstage hpatched =>
    intro identity hidentity id hid
    obtain ⟨hid, hstaged⟩ := (hpatched.overrides id).1 hid
    rw [hpatched.frame] at hidentity
    cases hidentity'.symm.trans hidentity
    have hmarked : MarkedBelow s _ (page.patches.foldlM (s.stagePatch js identity'.sourceHighWater)
        s.staging).finalState.postBaseOverrideIds := (h _ hidentity).stage page.patches
    rw [hstage] at hmarked
    obtain ⟨b, hb, hle⟩ := hmarked id hid
    obtain ⟨b', hb', horder⟩ :=
      Option.map_eq_some_iff.1 ((stagingInv_ok hs hstage).order_eq hb hstaged)
    rw [hpatched.blocks]
    exact ⟨b', hb', (sourceSequence_congr horder).trans_le hle⟩
  | shown => exact h
  | hidden => exact h
  | cleared => exact nofun
  | released _ hreleased =>
    intro identity hidentity id hid
    rw [hreleased.frame] at hidentity hid
    obtain ⟨b, hb, hle⟩ := h identity hidentity id hid
    refine ⟨b, ?_, hle⟩
    have hover : id ∈ s.postBaseOverrideIds := hid
    rw [hreleased.blocks, hb]
    simp [Option.filter, ViewStore.releasable, hover]

theorem marksHistory_run (js : Js) (ops : List StoreOp) :
    MarksHistory (ViewStore.initial.run js ops) := by
  refine (ViewStore.run_invariant (I := fun s ↦ StoreInv js s ∧ MarksHistory s) ?_
    ⟨.initial, nofun⟩ ops).2
  rintro s op ⟨hs, h⟩
  exact ⟨hs.effect (exec_effect hs op), h.effect hs (exec_effect hs op)⟩

/-! ### Where staged blocks come from -/

/-- What is seen through the staged maps was stored, or it came. -/
theorem StagedFrom.current {patches : List TranscriptPatch} (h : StagedFrom patches g) {id : String}
    {b : TranscriptBlock} (hb : s.currentBlock g id = some b) : b ∈ s.knownBlocks patches := by
  rw [ViewStore.currentBlock, Option.getD_eq_iff] at hb
  rcases hb with hb | ⟨-, hb⟩
  · exact List.mem_append_right _ (h.upserted id b hb)
  · exact List.mem_append_left _ (Dict.mem_values.2 ⟨id, hb⟩)

/-- The places of what is seen are distinct, and so the indexes can be changed. -/
theorem exists_restructure_of_keys (hs : StoreInv js s) (hg : StagingInv s g)
    {patches : List TranscriptPatch} (hfrom : StagedFrom patches g)
    (hkeys : OneKeyEach (s.knownBlocks patches)) :
    ∃ ids owners, s.restructure g = .ok (ids, owners) := by
  refine exists_restructure hs hg fun id id' b b' hb hb' horder ↦ ?_
  have hid := (hkeys b (hfrom.current hb) b' (hfrom.current hb')).2 horder
  have hkeyed := hg.keyed_overlay hs
  rw [← get?_overlay_staged] at hb hb'
  rw [← hkeyed id b hb, ← hkeyed id' b' hb', hid]

/-! ### The second part beside the second page -/

/-- The one page has staged `g` on top of `gP`, the second of two pages has staged `g'` on top of the
store `t` that the first one has left. -/
structure Resumed (base : Nat) (s : ViewStore) (gP : Staging) (t : ViewStore) (g g' : Staging) :
    Prop where
  blocks : ∀ id, s.currentBlock g id = t.currentBlock g' id
  revisions : ∀ id, s.currentRevision g id = t.currentRevision g' id
  live : g.nextLive = g'.nextLive
  notice : g.noticeAffected = (gP.noticeAffected || g'.noticeAffected)
  /-- As long as the second page has not met a notice, the notices are those of the store. -/
  notices : g'.noticeAffected = false → ∀ id,
    (t.currentBlock g' id).filter (·.isNotice) = (t.blocks.get? id).filter (·.isNotice)
  marked : MarkedBelow s base g.postBaseOverrideIds
  /-- A block that the first patches leave is marked in both, or in none. -/
  kept : ∀ id ∉ s.tailBlockIds, gP.blocks.get? id ≠ some none →
    (id ∈ g.postBaseOverrideIds ↔ id ∈ g'.postBaseOverrideIds) ∧
      (g.blocks.get? id = some none ↔ g'.blocks.get? id = some none)
  /-- A block that the first patches remove does not come back into the history. -/
  gone : ∀ id ∉ s.tailBlockIds, gP.blocks.get? id = some none →
    id ∉ g'.postBaseOverrideIds ∧ (id ∈ g.postBaseOverrideIds → g.blocks.get? id = some none)

theorem Resumed.start {next : Nat} (hmarked : MarkedBelow s base gP.postBaseOverrideIds)
    (ht : Patched js gP next s t) : Resumed base s gP t gP t.staging where
  blocks := fun id ↦ (ht.blocks id).symm
  revisions := fun id ↦ (ht.revisions id).symm
  live := ht.live.symm
  notice := (Bool.or_false _).symm
  notices := fun _ _ ↦ rfl
  marked := hmarked
  kept := fun id _ hstaged ↦ by
    refine ⟨?_, fun h ↦ absurd h hstaged, nofun⟩
    show _ ↔ id ∈ t.postBaseOverrideIds
    rw [ht.overrides]
    exact ⟨fun h ↦ ⟨h, hstaged⟩, And.left⟩
  gone := fun id _ hstaged ↦ by
    refine ⟨fun hid ↦ ?_, fun _ ↦ hstaged⟩
    exact ((ht.overrides id).1 hid).2 hstaged

/-- The first patches have left the block, so it is stored afterwards just if it was before. -/
theorem has_of_untouched {P : List TranscriptPatch} {next : Nat} {item : TranscriptBlock}
    (hP : StagedFrom P gP) (hgP : StagingInv s gP) (ht : Patched js gP next s t)
    (huntouched : s.Untouched base P item) (hbase : item.sourceSequence ≤ base)
    (htail : item.blockId ∉ s.tailBlockIds) (hstaged : gP.blocks.get? item.blockId ≠ some none) :
    s.blocks.has item.blockId = t.blocks.has item.blockId := by
  rw [Dict.has, Dict.has, ht.blocks, ViewStore.currentBlock]
  cases hget : gP.blocks.get? item.blockId with
  | none => rfl
  | some o =>
    cases o with
    | none => exact absurd hget hstaged
    | some b =>
      refine (huntouched hbase htail).2 ?_
      obtain ⟨patch, hpatch, hb⟩ := List.mem_flatMap.1 (hP.upserted _ b hget)
      exact List.mem_flatMap.2 ⟨patch, hpatch, List.mem_map.2 ⟨b, hb, hgP.keyed _ b hget⟩⟩

theorem Resumed.withUpsert {P : List TranscriptPatch} {next : Nat} {item : TranscriptBlock}
    (h : Resumed base s gP t g g') (hP : StagedFrom P gP) (hgP : StagingInv s gP)
    (ht : Patched js gP next s t) (huntouched : s.Untouched base P item)
    (hplaced : ∀ b, s.blocks.get? item.blockId = some b → b.order = item.order) :
    Resumed base s gP t (s.withUpsert base g item) (t.withUpsert base g' item) where
  blocks := fun id ↦ by rw [currentBlock_withUpsert, currentBlock_withUpsert, h.blocks]
  revisions := fun id ↦ by rw [currentRevision_withUpsert, currentRevision_withUpsert, h.revisions]
  live := by
    show g.nextLive.filter _ = g'.nextLive.filter _
    rw [h.live]
  notice := by
    show (g.noticeAffected || _ || _) = (gP.noticeAffected || (g'.noticeAffected || _ || _))
    rw [h.notice, h.blocks, Bool.or_assoc, Bool.or_assoc, Bool.or_assoc]
  notices := fun haff id ↦ by
    have haff' : (g'.noticeAffected || (t.currentBlock g' item.blockId).any (·.isNotice) ||
        item.isNotice) = false := haff
    rw [Bool.or_eq_false_iff, Bool.or_eq_false_iff] at haff'
    obtain ⟨⟨haff', hprevious⟩, hitem⟩ := haff'
    rw [← h.notices haff' id, currentBlock_withUpsert]
    split
    · -- Neither the block nor the one before it is a notice.
      rename_i heq
      rw [← heq]
      cases hcurrent : t.currentBlock g' item.blockId with
      | none => simp [Option.filter, hitem]
      | some b =>
        rw [hcurrent] at hprevious
        have hb : b.isNotice = false := hprevious
        simp [Option.filter, hitem, hb]
    · rfl
  marked := h.marked.withUpsert hplaced
  kept := fun id htail hstaged ↦ by
    obtain ⟨hmarked, hremoved⟩ := h.kept id htail hstaged
    rw [mem_withUpsert, mem_withUpsert, hmarked]
    refine ⟨or_congr_right (and_congr_right fun heq ↦ and_congr_left fun hbase ↦ ?_), ?_⟩
    · subst heq
      rw [has_of_untouched hP hgP ht huntouched hbase htail hstaged]
    · rw [ViewStore.withUpsert, ViewStore.withUpsert, Dict.get?_set, Dict.get?_set]
      split
      · exact Iff.rfl
      · exact hremoved
  gone := fun id htail hstaged ↦ by
    obtain ⟨hunmarked, hremoved⟩ := h.gone id htail hstaged
    by_cases heq : item.blockId = id
    · -- It would be an upsert above the base, of a block that was below it.
      subst heq
      have habove : ¬item.sourceSequence ≤ base := fun hbase ↦
        (huntouched hbase htail).1 (hP.removed _ hstaged)
      rw [mem_withUpsert, mem_withUpsert]
      refine ⟨fun hid ↦ hid.elim hunmarked fun hid ↦ habove hid.2.2, fun hid ↦ ?_⟩
      have hid := hid.resolve_right fun hid ↦ habove hid.2.2
      obtain ⟨b, hb, hle⟩ := h.marked _ hid
      exact absurd ((sourceSequence_congr (hplaced b hb)).symm.trans_le hle) habove
    · rw [mem_withUpsert, mem_withUpsert, ViewStore.withUpsert, Dict.get?_set, if_neg heq]
      simp only [heq, false_and, or_false]
      exact ⟨hunmarked, hremoved⟩

theorem Resumed.withRemoval {removal : TranscriptRemoval} (h : Resumed base s gP t g g') :
    Resumed base s gP t (s.withRemoval g removal) (t.withRemoval g' removal) where
  blocks := fun id ↦ by rw [currentBlock_withRemoval, currentBlock_withRemoval, h.blocks]
  revisions := fun id ↦ by
    rw [currentRevision_withRemoval, currentRevision_withRemoval, h.revisions]
  live := by
    show g.nextLive.filter _ = g'.nextLive.filter _
    rw [h.live]
  notice := by
    show (g.noticeAffected || _) = (gP.noticeAffected || (g'.noticeAffected || _))
    rw [h.notice, h.blocks, Bool.or_assoc]
  notices := fun haff id ↦ by
    have haff' : (g'.noticeAffected || (t.currentBlock g' removal.blockId).any (·.isNotice)) =
        false := haff
    rw [Bool.or_eq_false_iff] at haff'
    rw [← h.notices haff'.1 id, currentBlock_withRemoval]
    split
    · rename_i heq
      rw [← heq]
      cases hcurrent : t.currentBlock g' removal.blockId with
      | none => rfl
      | some b =>
        have hb := haff'.2
        rw [hcurrent] at hb
        have hb : b.isNotice = false := hb
        simp [Option.filter, hb]
    · rfl
  marked := h.marked
  kept := fun id htail hstaged ↦ by
    obtain ⟨hmarked, hremoved⟩ := h.kept id htail hstaged
    refine ⟨hmarked, ?_⟩
    rw [ViewStore.withRemoval, ViewStore.withRemoval, Dict.get?_set, Dict.get?_set]
    split
    · exact Iff.rfl
    · exact hremoved
  gone := fun id htail hstaged ↦ by
    obtain ⟨hunmarked, hremoved⟩ := h.gone id htail hstaged
    refine ⟨hunmarked, fun hid ↦ ?_⟩
    rw [ViewStore.withRemoval, Dict.get?_set]
    split
    · rfl
    · exact hremoved hid

theorem OneKeyEach.mono {l l' : List TranscriptBlock} (h : OneKeyEach l) (hsub : ∀ b ∈ l', b ∈ l) :
    OneKeyEach l' :=
  fun a ha b hb ↦ h a (hsub a ha) b (hsub b hb)

/-- The patches `P` went into the store as a page of their own, and the patches `Q` come after
them. -/
structure Boundary (js : Js) (base : Nat) (P Q : List TranscriptPatch) (gP : Staging) (next : Nat)
    (s t : ViewStore) : Prop where
  inv : StoreInv js s
  marks : MarkedBelow s base s.postBaseOverrideIds
  keys : OneKeyEach (s.knownBlocks (P ++ Q))
  untouched : ∀ item ∈ Q.flatMap (·.upserts), s.Untouched base P item
  staged : P.foldlM (s.stagePatch js base) s.staging = .ok gP
  patched : Patched js gP next s t

namespace Boundary

variable {P Q : List TranscriptPatch} {next : Nat}

theorem mem_known (h : Boundary js base P Q gP next s t) {b : TranscriptBlock}
    (hb : b ∈ t.knownBlocks Q) : b ∈ s.knownBlocks (P ++ Q) := by
  rw [ViewStore.knownBlocks, List.flatMap_append, ← List.append_assoc]
  rcases List.mem_append.1 hb with hb | hb
  · obtain ⟨id, hb⟩ := Dict.mem_values.1 hb
    exact List.mem_append_left _ ((stagedFrom_ok h.staged).current ((h.patched.blocks id).symm.trans hb))
  · exact List.mem_append_right _ hb

/-- An upsert of the second part is where the block is stored, before and after the first part. -/
theorem placed (h : Boundary js base P Q gP next s t) {item : TranscriptBlock}
    (hitem : item ∈ Q.flatMap (·.upserts)) :
    (∀ b, s.blocks.get? item.blockId = some b → b.order = item.order) ∧
      ∀ b, t.blocks.get? item.blockId = some b → b.order = item.order := by
  have hknown : item ∈ s.knownBlocks (P ++ Q) :=
    h.mem_known (List.mem_append_right _ hitem)
  refine ⟨fun b hb ↦ ?_, fun b hb ↦ ?_⟩
  · have hb' : b ∈ s.knownBlocks (P ++ Q) :=
      List.mem_append_left _ (Dict.mem_values.2 ⟨_, hb⟩)
    exact (h.keys b hb' item hknown).1 (h.inv.keyed _ b hb)
  · have hb' : b ∈ s.knownBlocks (P ++ Q) :=
      h.mem_known (List.mem_append_left _ (Dict.mem_values.2 ⟨_, hb⟩))
    exact (h.keys b hb' item hknown).1 (h.patched.inv.keyed _ b hb)

end Boundary

theorem acceptUpsert_of_placed {item : TranscriptBlock}
    (hplaced : ∀ b, s.blocks.get? item.blockId = some b → b.order = item.order) :
    s.acceptUpsert base g item = .ok (s.withUpsert base g item) := by
  rw [ViewStore.acceptUpsert, require_pos]
  · rfl
  · cases hb : s.blocks.get? item.blockId with
    | none => rfl
    | some b => exact decide_eq_true (compareTranscriptBlocks_eq_zero.2 (hplaced b hb))

namespace Boundary

variable {P Q : List TranscriptPatch} {next : Nat}

theorem stageUpsert (h : Boundary js base P Q gP next s t) {item : TranscriptBlock}
    (hitem : item ∈ Q.flatMap (·.upserts)) (hg : Resumed base s gP t g g') :
    Rel (fun _ _ ↦ True) (Resumed base s gP t) (s.stageUpsert js base g item)
      (t.stageUpsert js base g' item) := by
  have hnext : Resumed base s gP t (s.withUpsert base g item) (t.withUpsert base g' item) :=
    hg.withUpsert (stagedFrom_ok h.staged) (stagingInv_ok h.inv h.staged) h.patched
      (h.untouched item hitem) (h.placed hitem).1
  rw [ViewStore.stageUpsert, ViewStore.stageUpsert, hg.revisions,
    acceptUpsert_of_placed (h.placed hitem).1, acceptUpsert_of_placed (h.placed hitem).2]
  split
  · exact .ok hnext
  · split_ifs
    · exact .ok hg
    · rw [require, require, hg.blocks]
      split
      · exact .ok hg
      · exact .error trivial
    · exact .ok hnext

theorem stageRemoval (removal : TranscriptRemoval) (hg : Resumed base s gP t g g') :
    Rel (fun _ _ ↦ True) (Resumed base s gP t) (s.stageRemoval g removal)
      (t.stageRemoval g' removal) := by
  rw [ViewStore.stageRemoval, ViewStore.stageRemoval, hg.revisions]
  split
  · exact .ok hg.withRemoval
  · split_ifs
    · exact .ok hg
    · rw [require, require, hg.blocks]
      split
      · exact .ok hg
      · exact .error trivial
    · exact .ok hg.withRemoval

/-- **The second part and the second page are staged alike.** -/
theorem stage (h : Boundary js base P Q gP next s t) :
    Rel (fun _ _ ↦ True) (Resumed base s gP t) (Q.foldlM (s.stagePatch js base) gP)
      (Q.foldlM (t.stagePatch js base) t.staging) := by
  have hmarked : MarkedBelow s base gP.postBaseOverrideIds := by
    have hmarked : MarkedBelow s base
        (P.foldlM (s.stagePatch js base) s.staging).finalState.postBaseOverrideIds := h.marks.stage P
    rw [h.staged] at hmarked
    exact hmarked
  refine Rel.foldlM (fun patch hpatch g g' hg ↦ ?_) (Resumed.start hmarked h.patched)
  refine (Rel.foldlM (fun item hitem g g' hg ↦ ?_) hg).bind fun g g' hg ↦ ?_
  · exact h.stageUpsert (List.mem_flatMap.2 ⟨patch, hpatch, hitem⟩) hg
  · exact Rel.foldlM (fun removal _ _ _ hg ↦ stageRemoval removal hg) hg

/-- What comes out is alike. -/
theorem alike (h : Boundary js base P Q gP next s t) {nextQ : Nat} {u v : ViewStore}
    (hg : Resumed base s gP t g g') (hu : Patched js g nextQ s u) (hv : Patched js g' nextQ t v) :
    Alike u v := by
  have ht := h.patched
  have hblocks : ∀ id, u.blocks.get? id = v.blocks.get? id := fun id ↦ by
    rw [hu.blocks, hv.blocks, hg.blocks]
  refine ⟨?_, ?_, hblocks, ?_, fun id hid ↦ ?_, ?_, ?_, ?_, ?_, ?_⟩
  · rw [hu.frame, hv.frame, ht.frame]
  · rw [hu.frame, hv.frame, ht.frame]
  · rw [hu.frame, hv.frame, ht.frame]
  · have htail : id ∉ s.tailBlockIds := by
      rw [hu.frame] at hid
      exact hid
    rw [hu.overrides, hv.overrides]
    by_cases hstaged : gP.blocks.get? id = some none
    · obtain ⟨hunmarked, hremoved⟩ := hg.gone id htail hstaged
      exact ⟨fun ⟨hid, hne⟩ ↦ absurd (hremoved hid) hne, fun ⟨hid, _⟩ ↦ absurd hid hunmarked⟩
    · obtain ⟨hmarked, hremoved⟩ := hg.kept id htail hstaged
      rw [hmarked, ne_eq, ne_eq, hremoved]
  · rw [hu.frame, hv.frame, ht.frame]
  · funext id
    rw [hu.revisions, hv.revisions, hg.revisions]
  · rw [hu.notice, hv.notice, ht.notice, hg.notice]
    cases haff : g'.noticeAffected with
    | true => simp [latestNoticeHighWater_congr hblocks]
    | false =>
      -- The second page has met no notice: the highest one is that of the store between.
      have hnotices : latestNoticeHighWater u.blocks = latestNoticeHighWater t.blocks := by
        refine latestNoticeHighWater_of_notices fun id ↦ ?_
        rw [hu.blocks, hg.blocks]
        exact hg.notices haff id
      simp [hnotices]
  · rw [hu.snapshot, hv.snapshot, ht.snapshot, listed_unique hblocks hu.inv.listed hv.inv.listed]
  · rw [hu.live, hv.live, hg.live]

end Boundary

/-! ### Pages -/

theorem validateTranscriptPatchPage_ok {rawPage : Json} {identity : TranscriptIdentity} {after : Nat}
    {page : TranscriptPatchPage}
    (h : validateTranscriptPatchPage js rawPage identity after = .ok page) : page.Follows after := by
  obtain ⟨page', -, h⟩ := okOr_bind.1 h
  obtain ⟨hfollows, h⟩ := require_bind.1 h
  cases h
  exact hfollows

/-- Where a page ends. -/
theorem TranscriptPatchPage.Follows.next_eq {page : TranscriptPatchPage} {after : Nat}
    (h : page.Follows after) :
    page.nextSourceHighWater = (page.patches.getLast?.map (·.sourceHighWater)).getD after := by
  obtain ⟨-, -, -, hlast⟩ := h
  cases hpatches : page.patches.getLast? with
  | none =>
    rw [hpatches] at hlast
    exact hlast.1.trans hlast.2.symm
  | some last =>
    rw [hpatches] at hlast
    exact hlast

/-- A page whose blocks have places of their own throws only while it is staged. -/
theorem patchPage_of_keys (hs : StoreInv js s) {page : TranscriptPatchPage}
    (hkeys : OneKeyEach (s.knownBlocks page.patches))
    (hstage : page.patches.foldlM (s.stagePatch js base) s.staging = .ok g) :
    ∃ t, s.patchPage js base page = (t, .ok true) ∧ Patched js g page.nextSourceHighWater s t := by
  obtain ⟨ids, owners, hindex⟩ :=
    exists_restructure_of_keys hs (stagingInv_ok hs hstage) (stagedFrom_ok hstage) hkeys
  exact patchPage_patched hs hstage hindex

theorem patchPage_of_throw {page : TranscriptPatchPage} {e : Staging × String}
    (hstage : page.patches.foldlM (s.stagePatch js base) s.staging = .error e) :
    (s.patchPage js base page).2 ≠ .ok true := by
  simp only [ViewStore.patchPage, hstage]
  rintro ⟨⟩

theorem applyPatchPage_eq {rawPage : Json} {epoch : Nat} {identity : TranscriptIdentity}
    {page : TranscriptPatchPage} (hcurrent : s.current? epoch = some identity)
    (hpage : validateTranscriptPatchPage js rawPage identity
      s.listSnapshot.appliedSourceHighWater = .ok page) :
    s.applyPatchPage js rawPage epoch = s.patchPage js identity.sourceHighWater page := by
  simp only [ViewStore.applyPatchPage, hcurrent, hpage]

section Pages

variable {epoch : Nat} {identity : TranscriptIdentity} {rawPage rawFirst rawSecond : Json}
  {page first second : TranscriptPatchPage}

end Pages

/-! ### Runs -/

/-- The page that a value is read as. -/
def readPage (rawPage : Json) (identity : TranscriptIdentity) (after : Nat) : TranscriptPatchPage :=
  (validateTranscriptPatchPage shortJs rawPage identity after).toOption.getD ⟨0, [], 0⟩

end Centaeris.Web
