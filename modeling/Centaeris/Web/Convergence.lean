import Centaeris.Web.Boundaries

/-!
# The client reaches the server's view

The server has the blocks of a transcript at a high water, cut into pages, and the patches after it,
cut into patch pages. A client opens the last page, and then loads the older pages, one after the
other, and applies the patch pages, one after the other; how the two sequences interleave is up to it.
In the end it has what the server has.

The two kinds of calls are different code, a merge of maps that is sorted again and a staged change of
the indexes. Both are read as one rule: the store has, for every id, the last patch that has come, and
if none has come the block of the base as far as its page is loaded (`Converging`). A page that is
loaded late does not go over a patch, because its blocks are in older revisions.
-/

namespace Centaeris.Web

open Except

variable {js : Js} {s t : ViewStore} {g : Staging}

/-! ### The server -/

/-- The high water after some patches. -/
def reached (high : Nat) (patches : List TranscriptPatch) : Nat :=
  (patches.getLast?.map (·.sourceHighWater)).getD high

theorem reached_append (high : Nat) (l l' : List TranscriptPatch) :
    reached high (l ++ l') = reached (reached high l) l' := by
  rw [reached, reached, reached, List.getLast?_append]
  cases l'.getLast? <;> rfl

theorem reached_sublist (high : Nat) (l l' : List TranscriptPatch) :
    (reached high l :: l'.map (·.sourceHighWater)).Sublist
      (high :: (l ++ l').map (·.sourceHighWater)) := by
  induction l using List.reverseRecOn with
  | nil => exact List.Sublist.refl _
  | append_singleton l patch _ =>
    have hlast : reached high (l ++ [patch]) = patch.sourceHighWater := by
      rw [reached, List.getLast?_concat]
      rfl
    rw [hlast, List.append_assoc, List.map_append]
    exact (List.sublist_append_right _ _).cons _

/-- The server's blocks at a high water, in order, and the patches after it. -/
structure ServerData where
  high : Nat
  base : List TranscriptBlock
  patches : List TranscriptPatch
  sorted : base.Pairwise fun a b ↦ a.order < b.order
  below : ∀ b ∈ base, b.sourceSequence ≤ high
  chain : (high :: patches.map (·.sourceHighWater)).Pairwise (· < ·)
  noRemovals : ∀ patch ∈ patches, patch.removals = []
  /-- Each block has one order key, and no two blocks have the same. -/
  keys : OneKeyEach (base ++ patches.flatMap (·.upserts))
  /-- A block comes in increasing revisions. -/
  revisions : (base ++ patches.flatMap (·.upserts)).Pairwise fun a b ↦
    a.blockId = b.blockId → a.blockRevision < b.blockRevision

namespace ServerData

variable (data : ServerData)

/-- All blocks, in the order in which the server has written them. -/
def written : List TranscriptBlock := data.base ++ data.patches.flatMap (·.upserts)

/-- The high water after the patches. -/
def final : Nat := reached data.high data.patches

/-- The server's blocks after the patches: a block replaces the one it has the id of. -/
def view : Dict String TranscriptBlock :=
  data.written.foldl (fun blocks b ↦ blocks.set b.blockId b) .empty

end ServerData

/-- The last block of a list under an id. -/
def lastOf (l : List TranscriptBlock) (id : String) : Option TranscriptBlock := blockOf l.reverse id

section LastOf

variable {l : List TranscriptBlock} {id : String} {b : TranscriptBlock}

theorem lastOf_mem (h : lastOf l id = some b) : b ∈ l ∧ b.blockId = id := by
  obtain ⟨hmem, hid⟩ := blockOf_mem h
  exact ⟨List.mem_reverse.1 hmem, hid⟩

theorem lastOf_concat (l : List TranscriptBlock) (b : TranscriptBlock) (id : String) :
    lastOf (l ++ [b]) id = if b.blockId = id then some b else lastOf l id := by
  rw [lastOf, List.reverse_append]
  exact blockOf_cons b l.reverse id

theorem lastOf_append (l l' : List TranscriptBlock) (id : String) :
    lastOf (l ++ l') id = (lastOf l' id).or (lastOf l id) := by
  rw [lastOf, lastOf, lastOf, List.reverse_append, blockOf, List.find?_append]
  rfl

theorem lastOf_of_nodup (hids : (l.map (·.blockId)).Nodup) : lastOf l id = blockOf l id := by
  cases h : blockOf l id with
  | none =>
    rw [lastOf, blockOf_eq_none, List.map_reverse, List.mem_reverse]
    exact blockOf_eq_none.1 h
  | some b =>
    obtain ⟨hmem, rfl⟩ := blockOf_mem h
    refine blockOf_of_mem ?_ (List.mem_reverse.2 hmem)
    rwa [List.map_reverse, List.nodup_reverse]

/-- What is set one after the other. -/
theorem get?_foldl_set (l : List TranscriptBlock) (d : Dict String TranscriptBlock) (id : String) :
    (l.foldl (fun blocks b ↦ blocks.set b.blockId b) d).get? id = (lastOf l id).or (d.get? id) := by
  induction l using List.reverseRecOn with
  | nil => rfl
  | append_singleton l b ih =>
    rw [List.foldl_append, List.foldl_cons, List.foldl_nil, Dict.get?_set, lastOf_concat, ih]
    split <;> rfl

end LastOf

namespace ServerData

variable {data : ServerData} {id : String} {b : TranscriptBlock}

theorem get?_view (data : ServerData) (id : String) : data.view.get? id = lastOf data.written id := by
  rw [view, get?_foldl_set]
  exact Option.or_none

theorem nodup_base (data : ServerData) : (data.base.map (·.blockId)).Nodup := by
  refine List.pairwise_map.2 (data.sorted.imp_of_mem fun {a b} ha hb hlt heq ↦ ?_)
  exact hlt.ne ((data.keys a (List.mem_append_left _ ha) b (List.mem_append_left _ hb)).1 heq)

end ServerData

/-! ### The client -/

/-- The client has loaded some blocks of the base, and some patches have come. -/
structure Converging (js : Js) (identity : TranscriptIdentity) (epoch : Nat)
    (loaded patched : List TranscriptBlock) (applied : Nat) (s : ViewStore) : Prop where
  inv : StoreInv js s
  current : s.current? epoch = some identity
  blocks : ∀ id, s.blocks.get? id = (lastOf patched id).or (blockOf loaded id)
  revisions : ∀ id, s.revisions id =
    ((lastOf patched id).or (blockOf loaded id)).map (·.blockRevision)
  applied : s.listSnapshot.appliedSourceHighWater = applied

/-- Places that are distinct can be sorted. -/
theorem exists_sortedIds {d : Dict String TranscriptBlock} (hd : Keyed d)
    (hdistinct : ∀ id id' b b', d.get? id = some b → d.get? id' = some b' → b.order = b'.order →
      id = id') : ∃ ids, sortedIds d = .ok ids := by
  refine ⟨_, if_pos ?_⟩
  have hvalues : d.values.Pairwise fun a b ↦ a.order ≠ b.order := by
    refine (List.pairwise_map.1 (nodup_values hd)).imp_of_mem fun {a b} ha hb hne heq ↦ ?_
    obtain ⟨id, ha⟩ := Dict.mem_values.1 ha
    obtain ⟨id', hb⟩ := Dict.mem_values.1 hb
    rw [hd id a ha, hd id' b hb] at hne
    exact hne (hdistinct id id' a b ha hb heq)
  refine (((List.perm_insertionSort _ _).pairwise_iff fun {a b} hne ↦ Ne.symm hne).2 hvalues).isChain.imp
    fun a b hne heq ↦ ?_
  exact hne (compareTranscriptBlocks_eq_zero.1 heq)

/-- Blocks that are new, or older than what is known, are merged without an error. -/
theorem exists_foldlM_mergeBlock {c : Candidate} {l : List TranscriptBlock}
    (hids : (l.map (·.blockId)).Nodup)
    (hl : ∀ b ∈ l, c.revisions b.blockId = none ∧ c.blocks.get? b.blockId = none ∨
      ∃ r, c.revisions b.blockId = some r ∧ b.blockRevision < r) :
    ∃ c', l.foldlM (mergeBlock js) c = .ok c' := by
  induction l generalizing c with
  | nil => exact ⟨c, rfl⟩
  | cons b l ih =>
    obtain ⟨hnew, hids⟩ := List.nodup_cons.1 hids
    obtain ⟨c₁, hc₁⟩ : ∃ c₁, mergeBlock js c b = .ok c₁ := by
      rw [mergeBlock]
      rcases hl b List.mem_cons_self with ⟨hr, hb⟩ | ⟨r, hr, hlt⟩
      · rw [hr, Candidate.accept, hb]
        exact ⟨_, rfl⟩
      · rw [hr]
        exact ⟨c, if_pos hlt⟩
    rw [List.foldlM_cons, hc₁]
    -- The others find what they would have found before.
    have htaken := mergeBlock_taken hc₁
    refine ih hids fun b' hb' ↦ ?_
    have hne : b.blockId ≠ b'.blockId := fun heq ↦ hnew (List.mem_map.2 ⟨b', hb', heq.symm⟩)
    have hnone : blockOf [b] b'.blockId = none := by
      rw [blockOf_cons, if_neg hne]
      rfl
    rw [htaken.revisions, htaken.blocks, hnone, incoming_none, Option.map_none, Option.none_or,
      Option.none_or]
    exact hl b' (List.mem_cons_of_mem _ hb')

/-- A block of the base under a patch and beside what is loaded. -/
theorem incoming_or {patch page rest : Option TranscriptBlock}
    (h : ∀ b, page = some b → rest = none ∧ ∀ u, patch = some u → b.blockRevision < u.blockRevision) :
    (incoming ((patch.or rest).map (·.blockRevision)) page).or (patch.or rest) =
      patch.or (page.or rest) := by
  cases page with
  | none => rfl
  | some b =>
    obtain ⟨rfl, hpatch⟩ := h b rfl
    cases patch with
    | none =>
      have hnew : incoming none (some b) = some b := incoming_eq_some.2 ⟨rfl, nofun⟩
      simp [hnew]
    | some u =>
      have hold := incoming_of_not_newer (hpatch u rfl).le
      simp [hold]

/-- What is seen has been written by the server. -/
theorem ServerData.mem_written {data : ServerData} {rest loaded patched more : List TranscriptBlock}
    (hbase : data.base = rest ++ loaded)
    (hpatched : data.patches.flatMap (·.upserts) = patched ++ more) {id : String}
    {b : TranscriptBlock} (hb : (lastOf patched id).or (blockOf loaded id) = some b) :
    b ∈ data.written ∧ b.blockId = id := by
  rcases Option.or_eq_some_iff.1 hb with hb | ⟨-, hb⟩
  · obtain ⟨hmem, hid⟩ := lastOf_mem hb
    refine ⟨List.mem_append_right _ ?_, hid⟩
    rw [hpatched]
    exact List.mem_append_left _ hmem
  · obtain ⟨hmem, hid⟩ := blockOf_mem hb
    refine ⟨List.mem_append_left _ ?_, hid⟩
    rw [hbase]
    exact List.mem_append_right _ hmem

/-- So no two blocks are at one place. -/
theorem ServerData.distinct {data : ServerData} {rest loaded patched more : List TranscriptBlock}
    (hbase : data.base = rest ++ loaded)
    (hpatched : data.patches.flatMap (·.upserts) = patched ++ more) {id id' : String}
    {b b' : TranscriptBlock} (hb : (lastOf patched id).or (blockOf loaded id) = some b)
    (hb' : (lastOf patched id').or (blockOf loaded id') = some b') (horder : b.order = b'.order) :
    id = id' := by
  obtain ⟨hmem, rfl⟩ := mem_written hbase hpatched hb
  obtain ⟨hmem', rfl⟩ := mem_written hbase hpatched hb'
  exact (data.keys b hmem b' hmem').2 horder

/-- A page of the server passes the checks on its order. -/
theorem ServerData.ordered {data : ServerData} {page : PageFields} {rest loaded : List TranscriptBlock}
    (hbase : data.base = rest ++ (page.blocks ++ loaded))
    (hhigh : page.identity.sourceHighWater = data.high) : page.Ordered := by
  have hsub : page.blocks.Sublist data.base := by
    rw [hbase]
    exact (List.sublist_append_left _ _).trans (List.sublist_append_right _ _)
  refine ⟨fun b hb ↦ ?_, ?_, ?_⟩
  · rw [hhigh]
    exact data.below b (hsub.subset hb)
  · exact ((data.sorted.sublist hsub).imp fun hlt ↦ compareTranscriptBlocks_neg.2 hlt).isChain
  · exact data.nodup_base.sublist (hsub.map _)

/-- **An older page is loaded.** -/
theorem Converging.prepend {data : ServerData} {identity : TranscriptIdentity} {epoch applied : Nat}
    {rest loaded patched more : List TranscriptBlock} {rawPage : Json} {page : PageFields}
    (h : Converging js identity epoch loaded patched applied s)
    (hbase : data.base = rest ++ (page.blocks ++ loaded))
    (hpatched : data.patches.flatMap (·.upserts) = patched ++ more)
    (hhigh : identity.sourceHighWater = data.high)
    (hread : readTranscriptPage js rawPage identity.sessionId = some page)
    (hidentity : page.identity = identity) :
    ∃ t, s.prependPage js rawPage epoch = (t, .ok true) ∧
      Converging js identity epoch (page.blocks ++ loaded) patched applied t := by
  have hordered : page.Ordered := ServerData.ordered hbase (hidentity ▸ hhigh)
  have hpage : validateTranscriptPage js rawPage identity.sessionId = .ok ⟨page, hordered⟩ := by
    rw [validateTranscriptPage, hread]
    exact dif_pos hordered
  have hids : ((page.blocks ++ loaded).map (·.blockId)).Nodup := by
    refine data.nodup_base.sublist (List.Sublist.map _ ?_)
    rw [hbase]
    exact List.sublist_append_right _ _
  -- A block of the page is not loaded, and a patch of it has a later revision.
  have hblock : ∀ id b, blockOf page.blocks id = some b → blockOf loaded id = none ∧
      ∀ u, lastOf patched id = some u → b.blockRevision < u.blockRevision := by
    intro id b hb
    obtain ⟨hmem, rfl⟩ := blockOf_mem hb
    refine ⟨blockOf_eq_none.2 fun hloaded ↦ ?_, fun u hu ↦ ?_⟩
    · rw [List.map_append] at hids
      exact List.disjoint_of_nodup_append hids (List.mem_map_of_mem hmem) hloaded
    · obtain ⟨humem, huid⟩ := lastOf_mem hu
      refine (List.pairwise_append.1 data.revisions).2.2 b ?_ u ?_ huid.symm
      · rw [hbase]
        exact List.mem_append_right _ (List.mem_append_left _ hmem)
      · rw [hpatched]
        exact List.mem_append_left _ humem
  obtain ⟨c, hc⟩ : ∃ c, page.blocks.foldlM (mergeBlock js) ⟨s.blocks, s.revisions, []⟩ = .ok c := by
    refine exists_foldlM_mergeBlock hordered.2.2 fun b hb ↦ ?_
    obtain ⟨hnone, hlater⟩ := hblock b.blockId b (blockOf_of_mem hordered.2.2 hb)
    show s.revisions b.blockId = none ∧ s.blocks.get? b.blockId = none ∨
      ∃ r, s.revisions b.blockId = some r ∧ _
    rw [h.revisions, h.blocks, hnone]
    cases hu : lastOf patched b.blockId with
    | none => exact .inl ⟨rfl, rfl⟩
    | some u => exact .inr ⟨u.blockRevision, rfl, hlater u hu⟩
  have htaken := foldlM_mergeBlock hordered.2.2 hc
  have hrule : ∀ id, (incoming (s.revisions id) (blockOf page.blocks id)).or (s.blocks.get? id) =
      (lastOf patched id).or (blockOf (page.blocks ++ loaded) id) := by
    intro id
    rw [h.revisions, h.blocks, incoming_or (hblock id), blockOf, blockOf, blockOf, List.find?_append]
  have hcblocks : ∀ id, c.blocks.get? id =
      (lastOf patched id).or (blockOf (page.blocks ++ loaded) id) :=
    fun id ↦ (htaken.blocks id).trans (hrule id)
  have hkeyed : Keyed c.blocks := fun id b hb ↦
    (ServerData.mem_written hbase hpatched ((hcblocks id).symm.trans hb)).2
  obtain ⟨ids, hsorted⟩ := exists_sortedIds hkeyed fun id id' b b' hb hb' ↦
    ServerData.distinct hbase hpatched ((hcblocks id).symm.trans hb) ((hcblocks id').symm.trans hb')
  obtain ⟨t, ht, hmerged⟩ := mergePage_merged h.inv
    (show (TranscriptPage.mk page hordered).blocks.foldlM (mergeBlock js) _ = _ from hc) hsorted
  refine ⟨t, ?_, hmerged.inv, ?_, fun id ↦ (hmerged.blocks id).trans (hrule id), fun id ↦ ?_, ?_⟩
  · simp only [ViewStore.prependPage, h.current, hpage]
    rw [if_neg]
    · exact ht
    · rw [hidentity]
      simp
  · rw [hmerged.frame]
    exact h.current
  · rw [← hrule, ← hmerged.blocks, hmerged.revisions, hmerged.blocks, Option.map_or, h.blocks,
      ← h.revisions]
  · rw [hmerged.snapshot]
    exact h.applied

/-! ### Patches -/

theorem stageUpsert_of_upsertable {base : Nat} {item : TranscriptBlock} (h : Upsertable s g item) :
    s.stageUpsert js base g item = .ok (s.withUpsert base g item) := by
  rw [ViewStore.stageUpsert, acceptUpsert_of_placed h.placed]
  split
  · rfl
  · rename_i r hr
    have hlt := h.newer r hr
    rw [if_neg (by omega), if_neg (by omega)]

/-- What is seen while patches are staged: the last of them, over what is loaded. -/
structure Seen (s : ViewStore) (g : Staging) (loaded patched : List TranscriptBlock) : Prop where
  blocks : ∀ id, s.currentBlock g id = (lastOf patched id).or (blockOf loaded id)
  revisions : ∀ id, s.currentRevision g id =
    ((lastOf patched id).or (blockOf loaded id)).map (·.blockRevision)

section Patches

variable {data : ServerData} {base : Nat} {rest loaded patched more : List TranscriptBlock}

/-- A patch is newer than what is seen under its id. -/
theorem Seen.newer (h : Seen s g loaded patched) {item : TranscriptBlock}
    (hbase : data.base = rest ++ loaded)
    (hpatched : data.patches.flatMap (·.upserts) = patched ++ item :: more) {r : Nat}
    (hr : s.currentRevision g item.blockId = some r) : r < item.blockRevision := by
  rw [h.revisions] at hr
  obtain ⟨u, hu, rfl⟩ := Option.map_eq_some_iff.1 hr
  have hwritten : data.base ++ data.patches.flatMap (·.upserts) =
      (data.base ++ patched) ++ item :: more := by rw [hpatched, List.append_assoc]
  have hpair := data.revisions
  rw [hwritten] at hpair
  rcases Option.or_eq_some_iff.1 hu with hu | ⟨-, hu⟩
  · obtain ⟨hmem, hid⟩ := lastOf_mem hu
    exact (List.pairwise_append.1 hpair).2.2 u (List.mem_append_right _ hmem) item List.mem_cons_self hid
  · obtain ⟨hmem, hid⟩ := blockOf_mem hu
    refine (List.pairwise_append.1 hpair).2.2 u (List.mem_append_left _ ?_) item List.mem_cons_self hid
    rw [hbase]
    exact List.mem_append_right _ hmem

theorem Seen.withUpsert (h : Seen s g loaded patched) (item : TranscriptBlock) :
    Seen s (s.withUpsert base g item) loaded (patched ++ [item]) where
  blocks := fun id ↦ by
    rw [currentBlock_withUpsert, lastOf_concat, h.blocks]
    split <;> rfl
  revisions := fun id ↦ by
    rw [currentRevision_withUpsert, lastOf_concat, h.revisions]
    split <;> rfl

/-- The upserts of a patch are staged, one after the other. -/
theorem Seen.exists_stageUpserts {l : List TranscriptBlock} (h : Seen s g loaded patched)
    (hbase : data.base = rest ++ loaded)
    (hpatched : data.patches.flatMap (·.upserts) = patched ++ (l ++ more))
    (hplaced : ∀ item ∈ l, ∀ b, s.blocks.get? item.blockId = some b → b.order = item.order) :
    ∃ g', l.foldlM (s.stageUpsert js base) g = .ok g' ∧ Seen s g' loaded (patched ++ l) := by
  induction l generalizing g patched with
  | nil => exact ⟨g, rfl, by rwa [List.append_nil]⟩
  | cons item l ih =>
    have hable : Upsertable s g item :=
      ⟨fun r hr ↦ h.newer hbase hpatched hr, hplaced item List.mem_cons_self⟩
    have hnext : Seen s (s.withUpsert base g item) loaded (patched ++ [item]) := h.withUpsert item
    obtain ⟨g', hg', hseen⟩ := ih hnext (by rw [hpatched, List.append_assoc]; rfl)
      fun item hitem ↦ hplaced item (List.mem_cons_of_mem _ hitem)
    refine ⟨g', ?_, ?_⟩
    · rw [List.foldlM_cons, stageUpsert_of_upsertable hable]
      exact hg'
    · rwa [List.append_assoc] at hseen

/-- Patches without removals are staged, one after the other. -/
theorem Seen.exists_stagePatches {patches : List TranscriptPatch} (h : Seen s g loaded patched)
    (hbase : data.base = rest ++ loaded)
    (hpatched : data.patches.flatMap (·.upserts) = patched ++ (patches.flatMap (·.upserts) ++ more))
    (hremovals : ∀ patch ∈ patches, patch.removals = [])
    (hplaced : ∀ item ∈ patches.flatMap (·.upserts), ∀ b,
      s.blocks.get? item.blockId = some b → b.order = item.order) :
    ∃ g', patches.foldlM (s.stagePatch js base) g = .ok g' ∧
      Seen s g' loaded (patched ++ patches.flatMap (·.upserts)) := by
  induction patches generalizing g patched with
  | nil => exact ⟨g, rfl, by rwa [List.flatMap_nil, List.append_nil]⟩
  | cons patch patches ih =>
    rw [List.flatMap_cons] at hpatched hplaced
    obtain ⟨g₁, hg₁, hseen₁⟩ := h.exists_stageUpserts hbase
      (by rw [hpatched, List.append_assoc]) fun item hitem ↦ hplaced item (List.mem_append_left _ hitem)
    obtain ⟨g', hg', hseen⟩ := ih hseen₁ (by rw [hpatched, List.append_assoc, List.append_assoc])
      (fun patch hpatch ↦ hremovals patch (List.mem_cons_of_mem _ hpatch))
      fun item hitem ↦ hplaced item (List.mem_append_right _ hitem)
    refine ⟨g', ?_, ?_⟩
    · have hpatch : s.stagePatch js base g patch = .ok g₁ := by
        rw [ViewStore.stagePatch, hg₁, hremovals patch List.mem_cons_self]
        rfl
      rw [List.foldlM_cons, hpatch]
      exact hg'
    · rwa [List.append_assoc, ← List.flatMap_cons] at hseen

end Patches

/-- A patch page of the server, for a client that has reached `after`. Only a page for a client that
has reached everything is empty. -/
structure TranscriptPatchPage.GoesOn (page : TranscriptPatchPage) (after : Nat) : Prop where
  next : page.nextSourceHighWater = reached after page.patches
  through : page.nextSourceHighWater ≤ page.throughSourceHighWater
  empty : page.patches = [] → page.throughSourceHighWater = after

/-- It passes the checks on its order. -/
theorem TranscriptPatchPage.GoesOn.follows {page : TranscriptPatchPage} {after : Nat}
    (h : page.GoesOn after)
    (hchain : (after :: page.patches.map (·.sourceHighWater)).Pairwise (· < ·)) :
    page.Follows after := by
  obtain ⟨hnext, hthrough, hempty⟩ := h
  rcases List.eq_nil_or_concat page.patches with hpatches | ⟨l, last, hpatches⟩
  · have heq : page.nextSourceHighWater = after := by rw [hnext, hpatches]; rfl
    have hend := hempty hpatches
    refine ⟨heq.ge, hchain.isChain, fun patch hpatch ↦ ?_, ?_⟩
    · rw [hpatches] at hpatch
      cases hpatch
    · rw [hpatches]
      exact ⟨heq.trans hend.symm, hend.symm⟩
  · rw [List.concat_eq_append] at hpatches
    have heq : page.nextSourceHighWater = last.sourceHighWater := by
      rw [hnext, reached, hpatches, List.getLast?_concat]
      rfl
    rw [heq] at hthrough
    rw [TranscriptPatchPage.Follows, heq]
    rw [hpatches, List.map_append] at hchain ⊢
    obtain ⟨hafter, hpair⟩ := List.pairwise_cons.1 hchain
    refine ⟨(hafter _ (List.mem_append_right _ List.mem_cons_self)).le, hchain.isChain,
      fun patch hpatch ↦ ?_, ?_⟩
    · rcases List.mem_append.1 hpatch with hpatch | hpatch
      · have hlt : patch.sourceHighWater < last.sourceHighWater :=
          (List.pairwise_append.1 hpair).2.2 _ (List.mem_map_of_mem hpatch) _ List.mem_cons_self
        omega
      · rw [List.mem_singleton.1 hpatch]
        exact hthrough
    · rw [List.getLast?_concat]

/-- **A patch page is applied.** -/
theorem Converging.patch {data : ServerData} {identity : TranscriptIdentity} {epoch : Nat}
    {rest loaded : List TranscriptBlock} {come more : List TranscriptPatch} {rawPage : Json}
    {page : TranscriptPatchPage}
    (h : Converging js identity epoch loaded (come.flatMap (·.upserts)) (reached data.high come) s)
    (hbase : data.base = rest ++ loaded) (hpatches : data.patches = come ++ (page.patches ++ more))
    (hread : readTranscriptPatchPage js rawPage identity = some page)
    (hpage : page.GoesOn (reached data.high come)) :
    ∃ t, s.applyPatchPage js rawPage epoch = (t, .ok true) ∧
      Converging js identity epoch loaded ((come ++ page.patches).flatMap (·.upserts))
        (reached data.high (come ++ page.patches)) t := by
  have hupserts : data.patches.flatMap (·.upserts) = come.flatMap (·.upserts) ++
      (page.patches.flatMap (·.upserts) ++ more.flatMap (·.upserts)) := by
    rw [hpatches, List.flatMap_append, List.flatMap_append]
  have hvalid : validateTranscriptPatchPage js rawPage identity
      s.listSnapshot.appliedSourceHighWater = .ok page := by
    refine okOr_bind.2 ⟨page, hread, require_bind.2 ⟨?_, rfl⟩⟩
    rw [h.applied]
    have hchain := data.chain
    rw [hpatches] at hchain
    have hsub := hchain.sublist (reached_sublist data.high come (page.patches ++ more))
    refine hpage.follows (hsub.sublist ?_)
    rw [List.map_append]
    exact (List.sublist_append_left _ _).cons_cons _
  have hseen : Seen s s.staging loaded (come.flatMap (·.upserts)) := ⟨h.blocks, h.revisions⟩
  have hplaced : ∀ item ∈ page.patches.flatMap (·.upserts), ∀ b,
      s.blocks.get? item.blockId = some b → b.order = item.order := by
    intro item hitem b hb
    obtain ⟨hmem, hid⟩ := ServerData.mem_written hbase hupserts ((h.blocks _).symm.trans hb)
    refine (data.keys b hmem item (List.mem_append_right _ ?_)).1 hid
    rw [hupserts]
    exact List.mem_append_right _ (List.mem_append_left _ hitem)
  obtain ⟨g, hstage, hseen⟩ := hseen.exists_stagePatches hbase hupserts
    (fun patch hpatch ↦ data.noRemovals patch (by simp [hpatches, hpatch])) hplaced
  rw [← List.flatMap_append] at hseen
  have hupserts' : data.patches.flatMap (·.upserts) =
      (come ++ page.patches).flatMap (·.upserts) ++ more.flatMap (·.upserts) := by
    rw [hupserts, List.flatMap_append, List.append_assoc]
  obtain ⟨ids, owners, hindex⟩ := exists_restructure h.inv (stagingInv_ok h.inv hstage)
    fun id id' b b' hb hb' ↦ ServerData.distinct hbase hupserts' ((hseen.blocks id).symm.trans hb)
      ((hseen.blocks id').symm.trans hb')
  obtain ⟨t, ht, hpatched⟩ := patchPage_patched h.inv hstage hindex
  refine ⟨t, (applyPatchPage_eq h.current hvalid).trans ht, hpatched.inv, ?_,
    fun id ↦ (hpatched.blocks id).trans (hseen.blocks id),
    fun id ↦ (hpatched.revisions id).trans (hseen.revisions id), ?_⟩
  · rw [hpatched.frame]
    exact h.current
  · rw [hpatched.snapshot, reached_append]
    exact hpage.next

/-! ### Interleavings -/

/-- A call of the client after it has opened the tail: an older page, or a patch page. It comes with
what the value of the page says. -/
inductive Load
  | older (rawPage : Json) (page : PageFields)
  | patches (rawPage : Json) (page : TranscriptPatchPage)

namespace Load

/-- The call. -/
def op (epoch : Nat) : Load → StoreOp
  | older rawPage _ => .prependPage rawPage epoch
  | patches rawPage _ => .applyPatchPage rawPage epoch

/-- The blocks of the base that it loads. -/
def blocks : Load → List TranscriptBlock
  | older _ page => page.blocks
  | patches _ _ => []

/-- The patches that come with it. -/
def come : Load → List TranscriptPatch
  | older _ _ => []
  | patches _ page => page.patches

/-- The value is a page of the projection, and a patch page is for a client that has reached
`after`. -/
def Valid (js : Js) (identity : TranscriptIdentity) (after : Nat) : Load → Prop
  | older rawPage page =>
    readTranscriptPage js rawPage identity.sessionId = some page ∧ page.identity = identity
  | patches rawPage page =>
    readTranscriptPatchPage js rawPage identity = some page ∧ page.GoesOn after

/-- All are, one after the other. -/
def AllValid (js : Js) (identity : TranscriptIdentity) : Nat → List Load → Prop
  | _, [] => True
  | after, load :: loads =>
    load.Valid js identity after ∧ AllValid js identity (reached after load.come) loads

end Load

/-- A call that is made and returns `true`. -/
def ViewStore.accepts (js : Js) (s : ViewStore) (op : StoreOp) : Prop :=
  (s.exec js op).2 = .ok (.flag true)

section Loads

variable {data : ServerData} {identity : TranscriptIdentity} {epoch : Nat}
  {rest loaded : List TranscriptBlock} {come more : List TranscriptPatch}

/-- One call, of either kind. -/
theorem Converging.load {load : Load}
    (h : Converging js identity epoch loaded (come.flatMap (·.upserts)) (reached data.high come) s)
    (hhigh : identity.sourceHighWater = data.high)
    (hbase : data.base = rest ++ (load.blocks ++ loaded))
    (hpatches : data.patches = come ++ (load.come ++ more))
    (hload : load.Valid js identity (reached data.high come)) :
    s.accepts js (load.op epoch) ∧
      Converging js identity epoch (load.blocks ++ loaded) ((come ++ load.come).flatMap (·.upserts))
        (reached data.high (come ++ load.come)) (s.exec js (load.op epoch)).1 := by
  cases load with
  | older rawPage page =>
    have hupserts : data.patches.flatMap (·.upserts) =
        come.flatMap (·.upserts) ++ more.flatMap (·.upserts) := by
      rw [hpatches, List.flatMap_append]
      rfl
    obtain ⟨t, ht, hnext⟩ := h.prepend hbase hupserts hhigh hload.1 hload.2
    simp only [ViewStore.accepts, Load.op, Load.come, ViewStore.exec, ht, List.append_nil]
    exact ⟨rfl, hnext⟩
  | patches rawPage page =>
    obtain ⟨t, ht, hnext⟩ := h.patch hbase hpatches hload.1 hload.2
    simp only [ViewStore.accepts, Load.op, ViewStore.exec, ht]
    exact ⟨rfl, hnext⟩

/-- **All calls, in the order in which they are made.** The induction is on the calls that are left,
which have the rest of the base and of the patches. -/
theorem Converging.loads {loads : List Load}
    (h : Converging js identity epoch loaded (come.flatMap (·.upserts)) (reached data.high come) s)
    (hhigh : identity.sourceHighWater = data.high)
    (hbase : data.base = loads.reverse.flatMap Load.blocks ++ loaded)
    (hpatches : data.patches = come ++ loads.flatMap Load.come)
    (hloads : Load.AllValid js identity (reached data.high come) loads) :
    s.Along js (ViewStore.accepts js) (loads.map (Load.op epoch)) ∧
      Converging js identity epoch data.base (data.patches.flatMap (·.upserts)) data.final
        (s.run js (loads.map (Load.op epoch))) := by
  induction loads generalizing s loaded come with
  | nil =>
    have hbase : data.base = loaded := hbase
    have hpatches : data.patches = come := hpatches.trans (List.append_nil come)
    rw [ServerData.final, hbase, hpatches]
    exact ⟨trivial, h⟩
  | cons load loads ih =>
    have hbase' : data.base = loads.reverse.flatMap Load.blocks ++ (load.blocks ++ loaded) := by
      rw [hbase, List.reverse_cons, List.flatMap_append, List.flatMap_singleton, List.append_assoc]
    obtain ⟨hload, hloads⟩ := hloads
    rw [← reached_append] at hloads
    obtain ⟨haccepts, hnext⟩ := h.load hhigh hbase' hpatches hload
    have hpatches' : data.patches = (come ++ load.come) ++ loads.flatMap Load.come := by
      rw [hpatches, List.flatMap_cons, List.append_assoc]
    obtain ⟨halong, hend⟩ := ih hnext hbase' hpatches' hloads
    exact ⟨⟨haccepts, halong⟩, hend⟩

end Loads

/-- The tail page is opened. -/
theorem exists_converging {data : ServerData} {identity : TranscriptIdentity}
    {rest : List TranscriptBlock} {rawTail : Json} {tail : PageFields} (s : ViewStore)
    (hbase : data.base = rest ++ tail.blocks) (hhigh : identity.sourceHighWater = data.high)
    (hsession : (rawTail.get? "sessionId").bind identifier? = some identity.sessionId)
    (hread : readTranscriptPage js rawTail identity.sessionId = some tail)
    (hidentity : tail.identity = identity) (hcursor : tail.resumeCursor.getD 0 = data.high) :
    ∃ t, s.openTail js rawTail = (t, .ok t.viewEpoch) ∧
      Converging js identity t.viewEpoch tail.blocks [] data.high t := by
  have htail : data.base = rest ++ (tail.blocks ++ []) := by rw [hbase, List.append_nil]
  have hordered : tail.Ordered := ServerData.ordered htail (hidentity ▸ hhigh)
  have hpage : validateTranscriptTailPage js rawTail = .ok ⟨tail, hordered⟩ := by
    refine okOr_bind.2 ⟨_, hsession, ?_⟩
    rw [validateTranscriptPage, hread]
    exact dif_pos hordered
  obtain ⟨t, ht, hopened⟩ := openPage_spec js s ⟨tail, hordered⟩
  refine ⟨t, ?_, hopened.inv, ?_, hopened.blocks, hopened.revisions, ?_⟩
  · simp only [ViewStore.openTail, hpage]
    exact ht
  · rw [ViewStore.current?, if_neg (fun hne ↦ hne rfl), hopened.identity]
    exact congrArg some hidentity
  · rw [hopened.snapshot]
    exact hcursor

/-- A client opens the tail page at a high water, in any store, and then loads the older pages and
applies the patch pages, in any interleaving of the two sequences and with any cut of the patches into
pages. All calls return, and are not refused. The client then has the server's blocks after all
patches, lists them in the order of their keys, and has reached the server's high water. -/
theorem client_converges (js : Js) (data : ServerData) (identity : TranscriptIdentity) (s : ViewStore)
    (rawTail : Json) (tail : PageFields) (loads : List Load)
    (hhigh : identity.sourceHighWater = data.high)
    (hsession : (rawTail.get? "sessionId").bind identifier? = some identity.sessionId)
    (hread : readTranscriptPage js rawTail identity.sessionId = some tail)
    (hidentity : tail.identity = identity) (hcursor : tail.resumeCursor.getD 0 = data.high)
    (hbase : data.base = loads.reverse.flatMap Load.blocks ++ tail.blocks)
    (hpatches : data.patches = loads.flatMap Load.come)
    (hloads : Load.AllValid js identity data.high loads) :
    ∃ t epoch, s.openTail js rawTail = (t, .ok epoch) ∧
      t.Along js (ViewStore.accepts js) (loads.map (Load.op epoch)) ∧
      let u := t.run js (loads.map (Load.op epoch))
      (∀ id, u.blocks.get? id = data.view.get? id) ∧ Listed data.view u.blockIds ∧
        u.listSnapshot.blockIds = u.blockIds ∧
        u.listSnapshot.appliedSourceHighWater = data.final := by
  obtain ⟨t, hopen, hstart⟩ := exists_converging s hbase hhigh hsession hread hidentity hcursor
  have hstart : Converging js identity t.viewEpoch tail.blocks
      (([] : List TranscriptPatch).flatMap (·.upserts)) (reached data.high []) t := hstart
  obtain ⟨halong, hend⟩ := hstart.loads hhigh hbase hpatches hloads
  refine ⟨t, t.viewEpoch, hopen, halong, ?_⟩
  intro u
  have hblocks : ∀ id, u.blocks.get? id = data.view.get? id := by
    intro id
    rw [ServerData.get?_view, ServerData.written, lastOf_append, lastOf_of_nodup data.nodup_base]
    exact hend.blocks id
  exact ⟨hblocks, hend.inv.listed.congr fun id ↦ by rw [hblocks], hend.inv.snapshot, hend.applied⟩

/-! ### A run -/

/-- The page that a value is read as. -/
def readOlder (rawPage : Json) : PageFields :=
  (readTranscriptPage shortJs rawPage "session").getD ⟨⟨"", "", "", 0⟩, [], none, none⟩

/-- The page that a value is read as. -/
def readPatches (rawPage : Json) : TranscriptPatchPage :=
  (readTranscriptPatchPage shortJs rawPage ⟨"session", projectionVersion, "generation", 2⟩).getD
    ⟨0, [], 0⟩

/-- The last page of two. -/
def lastPage : Json := pageValue "2" (.str "older") [blockValue "b" "1" "2"]

/-- The first page of two. -/
def firstPage : Json := pageValue "2" .null [blockValue "a" "1" "1"]

/-- A patch of the block on the first page. -/
def revisedPage : Json := patchPageValue "3" [patchValue "3" [blockValue "a" "2" "1"] []]

/-- A patch with a new block. -/
def addedPage : Json := patchPageValue "4" [patchValue "4" [blockValue "c" "1" "4"] []]

/-- Two pages of one block, and two patches. -/
def smallServer : ServerData where
  high := 2
  base := (readOlder firstPage).blocks ++ (readOlder lastPage).blocks
  patches := (readPatches revisedPage).patches ++ (readPatches addedPage).patches
  sorted := by decide +kernel
  below := by decide +kernel
  chain := by decide +kernel
  noRemovals := by decide +kernel
  keys := by decide +kernel
  revisions := by decide +kernel

/-- A block is patched before its page is loaded. -/
theorem client_converges_late :
    let loads := [Load.patches revisedPage (readPatches revisedPage),
      .older firstPage (readOlder firstPage), .patches addedPage (readPatches addedPage)]
    ∃ t epoch, ViewStore.initial.openTail shortJs lastPage = (t, .ok epoch) ∧
      t.Along shortJs (ViewStore.accepts shortJs) (loads.map (Load.op epoch)) ∧
      let u := t.run shortJs (loads.map (Load.op epoch))
      (∀ id, u.blocks.get? id = smallServer.view.get? id) ∧ Listed smallServer.view u.blockIds ∧
        u.listSnapshot.blockIds = u.blockIds ∧
        u.listSnapshot.appliedSourceHighWater = smallServer.final := by
  intro loads
  have hrevised : (readPatches revisedPage).GoesOn 2 :=
    ⟨by decide +kernel, by decide +kernel, by decide +kernel⟩
  have hadded : (readPatches addedPage).GoesOn 3 :=
    ⟨by decide +kernel, by decide +kernel, by decide +kernel⟩
  exact client_converges shortJs smallServer ⟨"session", projectionVersion, "generation", 2⟩
    .initial lastPage (readOlder lastPage) loads rfl (by decide +kernel) (by decide +kernel)
    (by decide +kernel) (by decide +kernel) (by decide +kernel) (by decide +kernel)
    ⟨⟨by decide +kernel, hrevised⟩, ⟨by decide +kernel, by decide +kernel⟩,
      ⟨by decide +kernel, hadded⟩, trivial⟩

end Centaeris.Web
