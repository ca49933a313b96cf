import Centaeris.Web.Operations

/-!
# Patch pages

A patch page is staged first: what it changes is collected in maps beside those of the store, and
`currentBlock` and `currentRevision` see the store through them. `stagePatches_invariant` is the
invariant rule for this part. It covers the end of a loop that throws as well, because a throw leaves
the staged overrides behind.

Then the indexes are changed (`restructure_ok`: they fit the store as it will be), and at last the
staged blocks go into the store, which cannot fail. `Patched` is what has become of the store.
-/

namespace Centaeris.Web

open Except

variable {js : Js} {s t : ViewStore} {g : Staging} {base : Nat}

section Current

variable {item : TranscriptBlock} {removal : TranscriptRemoval}

/-- One entry of a map that lies over another one. -/
theorem update_or (f : String → Option Nat) (k : String) (r : Nat) (below : Option Nat) (id : String) :
    (Function.update f k (some r) id).or below = if k = id then some r else (f id).or below := by
  split
  · rename_i heq
    rw [← heq, Function.update_self, Option.some_or]
  · rename_i hne
    rw [Function.update_of_ne (Ne.symm hne)]

@[simp] theorem currentBlock_staging (id : String) :
    s.currentBlock s.staging id = s.blocks.get? id := rfl

@[simp] theorem currentRevision_staging (id : String) :
    s.currentRevision s.staging id = s.revisions id := rfl

theorem currentBlock_withUpsert (id : String) : s.currentBlock (s.withUpsert base g item) id =
    if item.blockId = id then some item else s.currentBlock g id := by
  rw [ViewStore.currentBlock, ViewStore.withUpsert, Dict.get?_set]
  split <;> rfl

theorem currentRevision_withUpsert (id : String) : s.currentRevision (s.withUpsert base g item) id =
    if item.blockId = id then some item.blockRevision else s.currentRevision g id :=
  update_or g.revisions item.blockId item.blockRevision (s.revisions id) id

theorem currentBlock_withRemoval (id : String) : s.currentBlock (s.withRemoval g removal) id =
    if removal.blockId = id then none else s.currentBlock g id := by
  rw [ViewStore.currentBlock, ViewStore.withRemoval, Dict.get?_set]
  split <;> rfl

theorem currentRevision_withRemoval (id : String) :
    s.currentRevision (s.withRemoval g removal) id =
      if removal.blockId = id then some removal.blockRevision else s.currentRevision g id :=
  update_or g.revisions removal.blockId removal.blockRevision (s.revisions id) id

theorem mem_withUpsert {item : TranscriptBlock} {id : String} :
    id ∈ (s.withUpsert base g item).postBaseOverrideIds ↔
      id ∈ g.postBaseOverrideIds ∨
        item.blockId = id ∧ s.blocks.has item.blockId = true ∧ item.sourceSequence ≤ base := by
  show id ∈ (if _ then _ else _) ↔ _
  split
  · rename_i hmarks
    rw [Finset.mem_insert, or_comm, eq_comm]
    simp only [hmarks, and_self, and_true]
  · rename_i hmarks
    simp only [hmarks, and_false, or_false]

end Current

/-! ### Staging -/

/-- An upsert is newer than what is known, and it is where the stored block is. -/
structure Upsertable (s : ViewStore) (g : Staging) (item : TranscriptBlock) : Prop where
  newer : ∀ r, s.currentRevision g item.blockId = some r → r < item.blockRevision
  placed : ∀ b, s.blocks.get? item.blockId = some b → b.order = item.order

theorem acceptUpsert_cases (s : ViewStore) (base : Nat) (g : Staging) (item : TranscriptBlock)
    (hnewer : ∀ r, s.currentRevision g item.blockId = some r → r < item.blockRevision) :
    (s.acceptUpsert base g item).finalState = g ∨
      Upsertable s g item ∧ s.acceptUpsert base g item = .ok (s.withUpsert base g item) := by
  rw [ViewStore.acceptUpsert, require]
  split
  · rename_i hplaced
    refine .inr ⟨⟨hnewer, fun b hb ↦ ?_⟩, rfl⟩
    rw [hb] at hplaced
    exact compareTranscriptBlocks_eq_zero.1 (of_decide_eq_true hplaced)
  · exact .inl rfl

/-- An upsert is staged, or what is staged stays as it is. -/
theorem stageUpsert_cases (js : Js) (s : ViewStore) (base : Nat) (g : Staging)
    (item : TranscriptBlock) :
    (s.stageUpsert js base g item).finalState = g ∨
      Upsertable s g item ∧ s.stageUpsert js base g item = .ok (s.withUpsert base g item) := by
  rw [ViewStore.stageUpsert]
  split
  · rename_i hrevision
    exact acceptUpsert_cases s base g item fun r hr ↦ by rw [hrevision] at hr; cases hr
  · rename_i r hrevision
    split_ifs with hlt heq
    · exact .inl rfl
    · left
      rw [require]
      split <;> rfl
    · refine acceptUpsert_cases s base g item fun r' hr' ↦ ?_
      rw [hrevision] at hr'
      cases hr'
      omega

/-- A removal is staged, or what is staged stays as it is. -/
theorem stageRemoval_cases (s : ViewStore) (g : Staging) (removal : TranscriptRemoval) :
    (s.stageRemoval g removal).finalState = g ∨
      (∀ r, s.currentRevision g removal.blockId = some r → r < removal.blockRevision) ∧
        s.stageRemoval g removal = .ok (s.withRemoval g removal) := by
  rw [ViewStore.stageRemoval]
  split
  · rename_i hrevision
    refine .inr ⟨fun r hr ↦ ?_, rfl⟩
    rw [hrevision] at hr
    cases hr
  · rename_i r hrevision
    split_ifs with hlt heq
    · exact .inl rfl
    · left
      rw [require]
      split <;> rfl
    · refine .inr ⟨fun r' hr' ↦ ?_, rfl⟩
      rw [hrevision] at hr'
      cases hr'
      omega

/-- **Invariant rule for staging.** It holds where the loop ends, also when it throws. -/
theorem stagePatches_invariant {I : Staging → Prop} {patches : List TranscriptPatch}
    (hupsert : ∀ patch ∈ patches, ∀ item ∈ patch.upserts, ∀ g, I g → Upsertable s g item →
      I (s.withUpsert base g item))
    (hremoval : ∀ patch ∈ patches, ∀ removal ∈ patch.removals, ∀ g, I g →
      (∀ r, s.currentRevision g removal.blockId = some r → r < removal.blockRevision) →
      I (s.withRemoval g removal))
    (h0 : I g) : I (patches.foldlM (s.stagePatch js base) g).finalState := by
  refine finalState_foldlM (fun patch hpatch g hg ↦ ?_) h0
  refine finalState_bind ?_ fun g hg ↦ ?_
  · refine finalState_foldlM (fun item hitem g hg ↦ ?_) hg
    rcases stageUpsert_cases js s base g item with heq | ⟨hable, heq⟩
    · rwa [heq]
    · rw [heq]
      exact hupsert patch hpatch item hitem g hg hable
  · refine finalState_foldlM (fun removal hmem g hg ↦ ?_) hg
    rcases stageRemoval_cases s g removal with heq | ⟨hnewer, heq⟩
    · rwa [heq]
    · rw [heq]
      exact hremoval patch hpatch removal hmem g hg hnewer

/-- What is known of the staged maps. -/
structure StagingInv (s : ViewStore) (g : Staging) : Prop where
  keyed : ∀ id b, g.blocks.get? id = some (some b) → b.blockId = id
  /-- A block that replaces a stored one is at its place. -/
  placed : ∀ id b b', g.blocks.get? id = some (some b) → s.blocks.get? id = some b' →
    b'.order = b.order
  revised : ∀ id b, s.currentBlock g id = some b → s.currentRevision g id = some b.blockRevision
  notices : g.noticeAffected = false → ∀ id b, g.blocks.get? id = some (some b) → b.isNotice = false
  overrides : ∀ id ∈ g.postBaseOverrideIds, (s.blocks.get? id).isSome

theorem StagingInv.staging (hs : StoreInv js s) : StagingInv s s.staging where
  keyed := nofun
  placed := nofun
  revised := hs.revised
  notices := nofun
  overrides := hs.overrides

theorem StagingInv.withUpsert {item : TranscriptBlock} (h : StagingInv s g)
    (hable : Upsertable s g item) : StagingInv s (s.withUpsert base g item) := by
  have hget : ∀ id b, (s.withUpsert base g item).blocks.get? id = some (some b) →
      item.blockId = id ∧ item = b ∨ g.blocks.get? id = some (some b) := by
    intro id b hb
    rw [ViewStore.withUpsert, Dict.get?_set] at hb
    split at hb
    · rename_i heq
      exact .inl ⟨heq, Option.some.inj (Option.some.inj hb)⟩
    · exact .inr hb
  refine ⟨fun id b hb ↦ ?_, fun id b b' hb hb' ↦ ?_, fun id b hb ↦ ?_, fun haff id b hb ↦ ?_,
    fun id hid ↦ ?_⟩
  · rcases hget id b hb with ⟨heq, rfl⟩ | hb
    · exact heq
    · exact h.keyed id b hb
  · rcases hget id b hb with ⟨rfl, rfl⟩ | hb
    · exact hable.placed b' hb'
    · exact h.placed id b b' hb hb'
  · rw [currentBlock_withUpsert] at hb
    rw [currentRevision_withUpsert]
    split_ifs at hb ⊢
    · cases hb
      rfl
    · exact h.revised id b hb
  · have haff' : ((g.noticeAffected || _) || item.isNotice) = false := haff
    obtain ⟨haff', hitem⟩ := Bool.or_eq_false_iff.1 haff'
    rcases hget id b hb with ⟨-, rfl⟩ | hb
    · exact hitem
    · exact h.notices (Bool.or_eq_false_iff.1 haff').1 id b hb
  · have hid' : id ∈ if s.blocks.has item.blockId ∧ item.sourceSequence ≤ base then
        insert item.blockId g.postBaseOverrideIds else g.postBaseOverrideIds := hid
    split at hid'
    · rename_i hhas
      rcases Finset.mem_insert.1 hid' with rfl | hid'
      · exact hhas.1
      · exact h.overrides id hid'
    · exact h.overrides id hid'

theorem StagingInv.withRemoval {removal : TranscriptRemoval} (h : StagingInv s g) :
    StagingInv s (s.withRemoval g removal) := by
  have hget : ∀ id b, (s.withRemoval g removal).blocks.get? id = some (some b) →
      g.blocks.get? id = some (some b) := by
    intro id b hb
    rw [ViewStore.withRemoval, Dict.get?_set] at hb
    split at hb
    · cases hb
    · exact hb
  refine ⟨fun id b hb ↦ h.keyed id b (hget id b hb),
    fun id b b' hb ↦ h.placed id b b' (hget id b hb), fun id b hb ↦ ?_, fun haff id b hb ↦ ?_,
    h.overrides⟩
  · rw [currentBlock_withRemoval] at hb
    rw [currentRevision_withRemoval]
    split_ifs at hb ⊢
    exact h.revised id b hb
  · exact h.notices (Bool.or_eq_false_iff.1 haff).1 id b (hget id b hb)

/-- **Where staging ends**, whether it throws or not. -/
theorem stagingInv_final (hs : StoreInv js s) (patches : List TranscriptPatch) :
    StagingInv s (patches.foldlM (s.stagePatch js base) s.staging).finalState :=
  stagePatches_invariant (fun _ _ _ _ _ hg hable ↦ hg.withUpsert hable)
    (fun _ _ _ _ _ hg _ ↦ hg.withRemoval) (StagingInv.staging hs)

/-- What is staged comes from the patches. -/
structure StagedFrom (patches : List TranscriptPatch) (g : Staging) : Prop where
  upserted : ∀ id b, g.blocks.get? id = some (some b) → b ∈ patches.flatMap (·.upserts)
  removed : ∀ id, g.blocks.get? id = some none →
    id ∈ patches.flatMap (·.removals.map (·.blockId))

theorem stagedFrom_ok {patches : List TranscriptPatch}
    (hstage : patches.foldlM (s.stagePatch js base) s.staging = .ok g) : StagedFrom patches g := by
  have hfinal : StagedFrom patches
      (patches.foldlM (s.stagePatch js base) s.staging).finalState := by
    refine stagePatches_invariant (fun patch hpatch item hitem g hg _ ↦ ?_)
      (fun patch hpatch removal hmem g hg _ ↦ ?_) ⟨nofun, nofun⟩
    · refine ⟨fun id b hb ↦ ?_, fun id hid ↦ ?_⟩
      · rw [ViewStore.withUpsert, Dict.get?_set] at hb
        split at hb
        · cases hb
          exact List.mem_flatMap.2 ⟨patch, hpatch, hitem⟩
        · exact hg.upserted id b hb
      · rw [ViewStore.withUpsert, Dict.get?_set] at hid
        split at hid
        · cases hid
        · exact hg.removed id hid
    · refine ⟨fun id b hb ↦ ?_, fun id hid ↦ ?_⟩
      · rw [ViewStore.withRemoval, Dict.get?_set] at hb
        split at hb
        · cases hb
        · exact hg.upserted id b hb
      · rw [ViewStore.withRemoval, Dict.get?_set] at hid
        split at hid
        · rename_i heq
          exact List.mem_flatMap.2 ⟨patch, hpatch, List.mem_map.2 ⟨removal, hmem, heq⟩⟩
        · exact hg.removed id hid
  rw [hstage] at hfinal
  exact hfinal

/-- Revisions only grow while a page is staged. -/
def RevisionsGrow (s : ViewStore) (g : Staging) : Prop :=
  ∀ id r, s.revisions id = some r → ∃ r', s.currentRevision g id = some r' ∧ r ≤ r'

theorem RevisionsGrow.withUpsert {item : TranscriptBlock} (h : RevisionsGrow s g)
    (hable : Upsertable s g item) : RevisionsGrow s (s.withUpsert base g item) := by
  intro id r hr
  obtain ⟨r', hr', hle⟩ := h id r hr
  rw [currentRevision_withUpsert]
  split
  · rename_i heq
    exact ⟨_, rfl, hle.trans (hable.newer r' (heq ▸ hr')).le⟩
  · exact ⟨r', hr', hle⟩

theorem RevisionsGrow.withRemoval {removal : TranscriptRemoval} (h : RevisionsGrow s g)
    (hnewer : ∀ r, s.currentRevision g removal.blockId = some r → r < removal.blockRevision) :
    RevisionsGrow s (s.withRemoval g removal) := by
  intro id r hr
  obtain ⟨r', hr', hle⟩ := h id r hr
  rw [currentRevision_withRemoval]
  split
  · rename_i heq
    exact ⟨_, rfl, hle.trans (hnewer r' (heq ▸ hr')).le⟩
  · exact ⟨r', hr', hle⟩

theorem stagingInv_ok (hs : StoreInv js s) {patches : List TranscriptPatch}
    (hstage : patches.foldlM (s.stagePatch js base) s.staging = .ok g) : StagingInv s g := by
  have hfinal : StagingInv s (patches.foldlM (s.stagePatch js base) s.staging).finalState :=
    stagingInv_final hs patches
  rw [hstage] at hfinal
  exact hfinal

/-! ### The indexes -/

/-- The store as it will be. -/
theorem get?_overlay_staged (s : ViewStore) (g : Staging) (id : String) :
    (Dict.overlay s.blocks g.blocks).get? id = s.currentBlock g id :=
  Dict.get?_overlay s.blocks g.blocks id

theorem StagingInv.keyed_overlay (hs : StoreInv js s) (hg : StagingInv s g) :
    Keyed (Dict.overlay s.blocks g.blocks) := by
  intro id b hb
  rw [get?_overlay_staged, ViewStore.currentBlock] at hb
  cases hstaged : g.blocks.get? id with
  | none =>
    rw [hstaged] at hb
    exact hs.keyed id b hb
  | some o =>
    rw [hstaged] at hb
    exact hg.keyed id b (hstaged.trans (congrArg some hb))

/-- A stored block that is not removed is where it was. -/
theorem StagingInv.order_eq (hg : StagingInv s g) {id : String} {b : TranscriptBlock}
    (hb : s.blocks.get? id = some b) (hstaged : g.blocks.get? id ≠ some none) :
    (s.currentBlock g id).map (·.order) = some b.order := by
  rw [ViewStore.currentBlock]
  cases hget : g.blocks.get? id with
  | none =>
    rw [Option.getD_none, hb]
    rfl
  | some o =>
    cases o with
    | none => exact absurd hget hstaged
    | some b' =>
      rw [Option.getD_some, Option.map_some, hg.placed id b' b hget hb]

/-- Nothing appears and nothing disappears, so every place is what it was. -/
theorem StagingInv.order_congr (hg : StagingInv s g) (h : s.structuralChange g = false) (id : String) :
    (s.currentBlock g id).map (·.order) = (s.blocks.get? id).map (·.order) := by
  have hsame : ∀ o, g.blocks.get? id = some o → (s.blocks.get? id).isSome = o.isSome := by
    intro o ho
    have hmem := List.any_eq_false.1 h (id, o) (Dict.mem_rows.2 ho)
    exact not_not.1 fun hne ↦ hmem (decide_eq_true hne)
  cases hb : s.blocks.get? id with
  | some b =>
    rw [hg.order_eq hb fun hstaged ↦ ?_]
    · rfl
    · have := hsame none hstaged
      rw [hb] at this
      cases this
  | none =>
    rw [ViewStore.currentBlock]
    cases hget : g.blocks.get? id with
    | none => rw [Option.getD_none, hb]
    | some o =>
      have hnone := hsame o hget
      rw [hb] at hnone
      rw [Option.getD_some, Option.isSome_eq_false_iff.1 hnone.symm |> Option.isNone_iff_eq_none.1]

/-- The places of removed blocks are free, the others belong to whom they did. -/
theorem releasedOwners_eq (hs : StoreInv js s) (order : OrderKey) (id : String) :
    s.releasedOwners g order = some id ↔
      (s.blocks.get? id).map (·.order) = some order ∧ g.blocks.get? id ≠ some none := by
  have hfold : ∀ (rows : List (String × Option TranscriptBlock)) (owners : OrderKey → Option String),
      rows.foldl s.releaseOwner owners order = some id ↔
      owners order = some id ∧ ∀ id', (id', none) ∈ rows →
        (s.blocks.get? id').map (·.order) ≠ some order := by
    intro rows
    induction rows with
    | nil => simp
    | cons entry rows ih =>
      intro owners
      obtain ⟨id₀, o⟩ := entry
      rw [List.foldl_cons, ih, ViewStore.releaseOwner]
      cases o with
      | some b => cases s.blocks.get? id₀ <;> simp
      | none =>
        cases hb : s.blocks.get? id₀ with
        | none => simp [hb]
        | some b =>
          by_cases horder : b.order = order
          · simp [hb, horder]
          · simp [hb, horder, Function.update_of_ne (Ne.symm horder)]
  rw [ViewStore.releasedOwners, hfold, hs.owned]
  refine and_congr_right fun hplace ↦ ?_
  simp only [Dict.mem_rows]
  constructor
  · intro h hstaged
    exact h id hstaged hplace
  · intro h id' hstaged hplace'
    -- A place has one owner.
    have howner := ((hs.owned order id).2 hplace).symm.trans ((hs.owned order id').2 hplace')
    exact h (Option.some.inj howner ▸ hstaged)

theorem mem_additions {b : TranscriptBlock} : b ∈ s.additions g ↔
    ∃ id, g.blocks.get? id = some (some b) ∧ s.blocks.get? id = none := by
  rw [ViewStore.additions, (List.perm_insertionSort _ _).mem_iff, List.mem_filterMap]
  constructor
  · rintro ⟨⟨id, o⟩, hmem, h⟩
    refine ⟨id, ?_⟩
    by_cases hhas : s.blocks.has id = true
    · simp [hhas] at h
    · obtain rfl : o = some b := by simpa [hhas] using h
      exact ⟨Dict.mem_rows.1 hmem, by simpa [Dict.has] using hhas⟩
  · rintro ⟨id, hstaged, hnone⟩
    exact ⟨(id, some b), Dict.mem_rows.2 hstaged, by simp [Dict.has, hnone]⟩

/-- An addition is staged under its own id. -/
theorem StagingInv.of_mem_additions (hg : StagingInv s g) {b : TranscriptBlock}
    (hb : b ∈ s.additions g) :
    g.blocks.get? b.blockId = some (some b) ∧ s.blocks.get? b.blockId = none := by
  obtain ⟨id, hstaged, hnone⟩ := mem_additions.1 hb
  rw [hg.keyed id b hstaged]
  exact ⟨hstaged, hnone⟩

theorem StagingInv.nodup_additions (hg : StagingInv s g) :
    ((s.additions g).map (·.blockId)).Nodup := by
  refine ((List.perm_insertionSort _ _).map _).nodup_iff.2 ?_
  have hrows : g.blocks.rows.Pairwise fun e e' ↦ e.1 ≠ e'.1 := List.pairwise_map.1 g.blocks.nodup_keys
  refine List.pairwise_map.2 (List.pairwise_filterMap.2 (hrows.imp_of_mem ?_))
  rintro ⟨id, o⟩ ⟨id', o'⟩ hmem hmem' hne b hb b' hb' heq
  have hkey : ∀ id o b, (id, o) ∈ g.blocks.rows →
      (if s.blocks.has id = true then none else o) = some b → b.blockId = id := by
    intro id o b hmem hb
    split at hb
    · cases hb
    · exact hg.keyed id b (hb ▸ Dict.mem_rows.1 hmem)
  exact hne ((hkey id o b hmem hb).symm.trans (heq.trans (hkey id' o' b' hmem' hb')))

section MergeIds

variable {blocks d : Dict String TranscriptBlock} {retained ids : List String}
  {additions : List TranscriptBlock}

theorem mergeIds_cons_nil (blocks : Dict String TranscriptBlock) (id : String)
    (retained : List String) :
    mergeIds blocks (id :: retained) [] = (id :: ·) <$> mergeIds blocks retained [] := rfl

theorem mergeIds_cons_cons {id : String} {block : TranscriptBlock} (hblock : blocks.get? id = some block)
    (retained : List String) (addition : TranscriptBlock) (additions : List TranscriptBlock) :
    mergeIds blocks (id :: retained) (addition :: additions) =
      if block.order = addition.order then .error orderConflict
      else if block.order < addition.order then
        (id :: ·) <$> mergeIds blocks retained (addition :: additions)
      else (addition.blockId :: ·) <$> mergeIds blocks (id :: retained) additions := by
  rw [mergeIds, pushAdditions, hblock]
  simp only [okOr, ok_bind, compareTranscriptBlocks_eq_zero, compareTranscriptBlocks_neg]

/-- One id is before another one, in a map that has both. -/
def Before (d : Dict String TranscriptBlock) (i j : String) : Prop :=
  ∀ a b, d.get? i = some a → d.get? j = some b → a.order < b.order

/-- **The merged list.** It has the retained ids and the additions, in order. -/
theorem mergeIds_ok
    (hretained : ∀ id ∈ retained, ∃ b, blocks.get? id = some b ∧
      (d.get? id).map (·.order) = some b.order)
    (hadditions : ∀ b ∈ additions, d.get? b.blockId = some b)
    (hsorted : retained.Pairwise (Before d))
    (hsorted' : additions.Pairwise fun a b ↦ a.order < b.order)
    (h : mergeIds blocks retained additions = .ok ids) :
    ids.Perm (retained ++ additions.map (·.blockId)) ∧ ids.Pairwise (Before d) := by
  have hnew : ∀ l : List TranscriptBlock, (∀ b ∈ l, d.get? b.blockId = some b) →
      l.Pairwise (fun a b ↦ a.order < b.order) → (l.map (·.blockId)).Pairwise (Before d) := by
    intro l hl hpair
    refine List.pairwise_map.2 (hpair.imp_of_mem fun {a b} ha hb hlt a' b' ha' hb' ↦ ?_)
    rw [hl a ha] at ha'
    rw [hl b hb] at hb'
    cases ha'
    cases hb'
    exact hlt
  induction retained generalizing additions ids with
  | nil =>
    cases h
    exact ⟨.refl _, hnew additions hadditions hsorted'⟩
  | cons id retained ihr =>
    obtain ⟨block, hblock, hplace⟩ := hretained id List.mem_cons_self
    obtain ⟨a, ha, haorder⟩ := Option.map_eq_some_iff.1 hplace
    have hretained' := fun id' hid' ↦ hretained id' (List.mem_cons_of_mem _ hid')
    obtain ⟨hfirst, hrest⟩ := List.pairwise_cons.1 hsorted
    induction additions generalizing ids with
    | nil =>
      obtain ⟨ids', hids', rfl⟩ := map_eq_ok.1 h
      obtain ⟨hperm, hpair⟩ := ihr hretained' hadditions hrest .nil hids'
      refine ⟨hperm.cons id, List.pairwise_cons.2 ⟨fun x hx ↦ ?_, hpair⟩⟩
      exact hfirst x (by simpa using hperm.mem_iff.1 hx)
    | cons addition additions iha =>
      obtain ⟨hfirst', hrest'⟩ := List.pairwise_cons.1 hsorted'
      have haddition := hadditions addition List.mem_cons_self
      rw [mergeIds_cons_cons hblock] at h
      split_ifs at h with heq hlt
      · obtain ⟨ids', hids', rfl⟩ := map_eq_ok.1 h
        obtain ⟨hperm, hpair⟩ := ihr hretained' hadditions hrest hsorted' hids'
        refine ⟨hperm.cons id, List.pairwise_cons.2 ⟨fun x hx ↦ ?_, hpair⟩⟩
        rcases List.mem_append.1 (hperm.mem_iff.1 hx) with hx | hx
        · exact hfirst x hx
        · -- An addition: the first one is later than `id`, the others are later than it.
          obtain ⟨b, hb, rfl⟩ := List.mem_map.1 hx
          intro a' b' ha' hb'
          rw [hadditions b hb] at hb'
          rw [ha] at ha'
          cases ha'
          cases hb'
          rw [haorder]
          rcases List.mem_cons.1 hb with rfl | hb
          · exact hlt
          · exact hlt.trans (hfirst' b hb)
      · obtain ⟨ids', hids', rfl⟩ := map_eq_ok.1 h
        have hgt : addition.order < block.order := lt_of_le_of_ne (not_lt.1 hlt) (Ne.symm heq)
        obtain ⟨hperm, hpair⟩ := iha (fun b hb ↦ hadditions b (List.mem_cons_of_mem _ hb)) hrest' hids'
        refine ⟨(hperm.cons _).trans List.perm_middle.symm,
          List.pairwise_cons.2 ⟨fun x hx ↦ ?_, hpair⟩⟩
        intro a' b' ha' hb'
        rw [haddition] at ha'
        cases ha'
        rcases List.mem_append.1 (hperm.mem_iff.1 hx) with hx | hx
        · rcases List.mem_cons.1 hx with rfl | hx
          · rw [ha] at hb'
            cases hb'
            exact haorder ▸ hgt
          · exact hgt.trans (haorder ▸ hfirst x hx a b' ha hb')
        · obtain ⟨b, hb, rfl⟩ := List.mem_map.1 hx
          obtain rfl := Option.some.inj ((hadditions b (List.mem_cons_of_mem _ hb)).symm.trans hb')
          exact hfirst' _ hb

/-- The merge goes through when no addition is at a retained place. -/
theorem exists_mergeIds (hretained : ∀ id ∈ retained, ∃ b, blocks.get? id = some b ∧
      ∀ addition ∈ additions, b.order ≠ addition.order) :
    ∃ ids, mergeIds blocks retained additions = .ok ids := by
  induction retained generalizing additions with
  | nil => exact ⟨_, rfl⟩
  | cons id retained ihr =>
    obtain ⟨block, hblock, hne⟩ := hretained id List.mem_cons_self
    have hretained' := fun id' hid' ↦ hretained id' (List.mem_cons_of_mem _ hid')
    induction additions with
    | nil =>
      obtain ⟨ids, hids⟩ := ihr hretained'
      exact ⟨id :: ids, by rw [mergeIds_cons_nil, hids]; rfl⟩
    | cons addition additions iha =>
      rw [mergeIds_cons_cons hblock, if_neg (hne addition List.mem_cons_self)]
      split
      · obtain ⟨ids, hids⟩ := ihr hretained'
        exact ⟨id :: ids, by rw [hids]; rfl⟩
      · have hless : ∀ id' ∈ id :: retained, ∃ b, blocks.get? id' = some b ∧
            ∀ addition ∈ additions, b.order ≠ addition.order := by
          intro id' hid'
          obtain ⟨b, hb, hne⟩ := hretained id' hid'
          exact ⟨b, hb, fun a ha ↦ hne a (List.mem_cons_of_mem _ ha)⟩
        obtain ⟨ids, hids⟩ := iha hless (fun a ha ↦ hne a (List.mem_cons_of_mem _ ha))
          fun id' hid' ↦ hless id' (List.mem_cons_of_mem _ hid')
        exact ⟨addition.blockId :: ids, by rw [hids]; rfl⟩

end MergeIds

/-- The retained ids: those of the stored blocks that are not removed. -/
theorem mem_retained (hs : StoreInv js s) {id : String} :
    id ∈ s.blockIds.filter (fun id ↦ decide (g.blocks.get? id ≠ some none)) ↔
      (s.blocks.get? id).isSome ∧ g.blocks.get? id ≠ some none := by
  rw [List.mem_filter, hs.listed.mem, decide_eq_true_iff]

/-- The places of the store as it will be: those of retained blocks and of additions. -/
theorem StagingInv.order_iff (hg : StagingInv s g) {order : OrderKey} {id : String} :
    (s.currentBlock g id).map (·.order) = some order ↔
      ((s.blocks.get? id).map (·.order) = some order ∧ g.blocks.get? id ≠ some none) ∨
        ∃ b ∈ s.additions g, b.order = order ∧ b.blockId = id := by
  constructor
  · intro hplace
    cases hstored : s.blocks.get? id with
    | some b =>
      refine .inl ?_
      have hstaged : g.blocks.get? id ≠ some none := by
        intro hstaged
        rw [ViewStore.currentBlock, hstaged] at hplace
        cases hplace
      rw [hg.order_eq hstored hstaged] at hplace
      exact ⟨hplace, hstaged⟩
    | none =>
      refine .inr ?_
      obtain ⟨b, hb, rfl⟩ := Option.map_eq_some_iff.1 hplace
      rw [ViewStore.currentBlock, hstored, Option.getD_eq_iff] at hb
      rcases hb with hb | ⟨-, hb⟩
      · exact ⟨b, mem_additions.2 ⟨id, hb, hstored⟩, rfl, hg.keyed id b hb⟩
      · cases hb
  · rintro (⟨hplace, hstaged⟩ | ⟨b, hb, rfl, rfl⟩)
    · obtain ⟨b, hb, rfl⟩ := Option.map_eq_some_iff.1 hplace
      exact hg.order_eq hb hstaged
    · rw [ViewStore.currentBlock, (hg.of_mem_additions hb).1]
      rfl

/-- What is stored afterwards was retained, or it is an addition. -/
theorem StagingInv.stored_iff (hg : StagingInv s g) {id : String} :
    (s.currentBlock g id).isSome ↔
      ((s.blocks.get? id).isSome ∧ g.blocks.get? id ≠ some none) ∨
        id ∈ (s.additions g).map (·.blockId) := by
  have hsome : ∀ o : Option TranscriptBlock, o.isSome ↔ ∃ order, o.map (·.order) = some order := by
    intro o
    cases o with
    | none => simp
    | some b => exact ⟨fun _ ↦ ⟨b.order, rfl⟩, fun _ ↦ rfl⟩
  rw [hsome, hsome]
  constructor
  · rintro ⟨order, hplace⟩
    rcases hg.order_iff.1 hplace with ⟨hplace, hstaged⟩ | ⟨b, hb, -, rfl⟩
    · exact .inl ⟨⟨order, hplace⟩, hstaged⟩
    · exact .inr (List.mem_map_of_mem hb)
  · rintro (⟨⟨order, hplace⟩, hstaged⟩ | hmem)
    · exact ⟨order, hg.order_iff.2 (.inl ⟨hplace, hstaged⟩)⟩
    · obtain ⟨b, hb, rfl⟩ := List.mem_map.1 hmem
      exact ⟨b.order, hg.order_iff.2 (.inr ⟨b, hb, rfl, rfl⟩)⟩

/-- The retained ids are in order, as they were. -/
theorem StagingInv.retained_sorted (hs : StoreInv js s) (hg : StagingInv s g) :
    (s.blockIds.filter fun id ↦ decide (g.blocks.get? id ≠ some none)).Pairwise
      (Before (Dict.overlay s.blocks g.blocks)) := by
  have horder : ∀ id, id ∈ s.blockIds.filter (fun id ↦ decide (g.blocks.get? id ≠ some none)) →
      ∀ a, (Dict.overlay s.blocks g.blocks).get? id = some a →
        ∃ b, s.blocks.get? id = some b ∧ b.order = a.order := by
    intro id hid a ha
    obtain ⟨hstored, hstaged⟩ := (mem_retained hs).1 hid
    obtain ⟨b, hb⟩ := Option.isSome_iff_exists.1 hstored
    have hplace := hg.order_eq hb hstaged
    rw [← get?_overlay_staged, ha] at hplace
    exact ⟨b, hb, (Option.some.inj hplace).symm⟩
  refine (hs.listed.sorted.sublist List.filter_sublist).imp_of_mem ?_
  intro i j hi hj hlt a b ha hb
  obtain ⟨a', ha', haorder⟩ := horder i hi a ha
  obtain ⟨b', hb', hborder⟩ := horder j hj b hb
  rw [← haorder, ← hborder]
  exact hlt a' b' ha' hb'

/-- **The indexes fit the store as it will be.** -/
theorem restructure_ok (hs : StoreInv js s) (hg : StagingInv s g) {ids : List String}
    {owners : OrderKey → Option String} (h : s.restructure g = .ok (ids, owners)) :
    Listed (Dict.overlay s.blocks g.blocks) ids ∧ Owns (Dict.overlay s.blocks g.blocks) owners := by
  rw [ViewStore.restructure] at h
  split at h
  · obtain ⟨owners', howners, h⟩ := bind_eq_ok.1 h
    obtain ⟨ids', hids, h⟩ := bind_eq_ok.1 h
    cases h
    obtain ⟨hdistinct, hfree, hclaimed⟩ := claimOrders_ok hg.nodup_additions howners
    have hadditions : ∀ b ∈ s.additions g,
        (Dict.overlay s.blocks g.blocks).get? b.blockId = some b := by
      intro b hb
      rw [get?_overlay_staged, ViewStore.currentBlock, (hg.of_mem_additions hb).1]
      rfl
    have hretained : ∀ id ∈ s.blockIds.filter (fun id ↦ decide (g.blocks.get? id ≠ some none)),
        ∃ b, s.blocks.get? id = some b ∧
          ((Dict.overlay s.blocks g.blocks).get? id).map (·.order) = some b.order := by
      intro id hid
      obtain ⟨hstored, hstaged⟩ := (mem_retained hs).1 hid
      obtain ⟨b, hb⟩ := Option.isSome_iff_exists.1 hstored
      rw [get?_overlay_staged]
      exact ⟨b, hb, hg.order_eq hb hstaged⟩
    obtain ⟨hperm, hpair⟩ := mergeIds_ok hretained hadditions (hg.retained_sorted hs)
      (sorted_of_distinct (sort_pairwise _) hdistinct) hids
    refine ⟨⟨fun id ↦ ?_, hpair⟩, fun order id ↦ ?_⟩
    · rw [hperm.mem_iff, List.mem_append, mem_retained hs, get?_overlay_staged, hg.stored_iff]
    · rw [hclaimed, releasedOwners_eq hs, get?_overlay_staged, hg.order_iff, or_comm]
      refine or_congr_left ⟨And.left, fun hretains ↦ ⟨hretains, fun b hb heq ↦ ?_⟩⟩
      -- An addition at a retained place would have been refused.
      have howner := hfree b hb id ((releasedOwners_eq hs _ _).2 (heq ▸ hretains))
      have hnone := (hg.of_mem_additions hb).2
      rw [← howner] at hnone
      rw [hnone] at hretains
      cases hretains.1
  · rename_i hstructural
    cases h
    have hcongr := hg.order_congr (Bool.eq_false_iff.2 hstructural)
    refine ⟨hs.listed.congr fun id ↦ ?_, fun order id ↦ ?_⟩
    · rw [get?_overlay_staged, hcongr]
    · rw [get?_overlay_staged, hcongr]
      exact hs.owned order id

/-- **The indexes can be changed** when the places of the store as it will be are distinct. -/
theorem exists_restructure (hs : StoreInv js s) (hg : StagingInv s g)
    (hdistinct : ∀ id id' b b', s.currentBlock g id = some b → s.currentBlock g id' = some b' →
      b.order = b'.order → id = id') : ∃ ids owners, s.restructure g = .ok (ids, owners) := by
  have hadded : ∀ b ∈ s.additions g, s.currentBlock g b.blockId = some b := by
    intro b hb
    rw [ViewStore.currentBlock, (hg.of_mem_additions hb).1]
    rfl
  -- No addition is at the place of a block that stays.
  have hretained : ∀ id b, s.blocks.get? id = some b → g.blocks.get? id ≠ some none →
      ∀ addition ∈ s.additions g, b.order ≠ addition.order := by
    intro id b hb hstaged addition hmem heq
    obtain ⟨b', hb', horder⟩ := Option.map_eq_some_iff.1 (hg.order_eq hb hstaged)
    have hid := hdistinct _ _ _ _ hb' (hadded addition hmem) (horder.trans heq)
    rw [hid, (hg.of_mem_additions hmem).2] at hb
    cases hb
  have hpair : (s.additions g).Pairwise fun a b ↦ a.order ≠ b.order := by
    refine (List.pairwise_map.1 hg.nodup_additions).imp_of_mem fun {a b} ha hb hne heq ↦ ?_
    exact hne (hdistinct _ _ _ _ (hadded a ha) (hadded b hb) heq)
  have hfree : ∀ b ∈ s.additions g, s.releasedOwners g b.order = none := by
    intro b hb
    refine Option.eq_none_iff_forall_ne_some.2 fun id hid ↦ ?_
    obtain ⟨hplace, hstaged⟩ := (releasedOwners_eq hs _ _).1 hid
    obtain ⟨b', hb', horder⟩ := Option.map_eq_some_iff.1 hplace
    exact hretained id b' hb' hstaged b hb horder
  obtain ⟨owners, howners⟩ := exists_claimOrders hpair hfree
  obtain ⟨ids, hids⟩ : ∃ ids, mergeIds s.blocks
      (s.blockIds.filter fun id ↦ decide (g.blocks.get? id ≠ some none)) (s.additions g) = .ok ids := by
    refine exists_mergeIds fun id hid ↦ ?_
    obtain ⟨hstored, hstaged⟩ := (mem_retained hs).1 hid
    obtain ⟨b, hb⟩ := Option.isSome_iff_exists.1 hstored
    exact ⟨b, hb, hretained id b hb hstaged⟩
  rw [ViewStore.restructure]
  split
  · refine ⟨ids, owners, ?_⟩
    simp only [howners, hids, ok_bind, pure_eq_ok]
  · exact ⟨_, _, rfl⟩

/-! ### The staged blocks go into the store -/

/-- One staged block goes into the store. -/
theorem commitStaged_spec {id₀ : String} {o : Option TranscriptBlock} (hs : Accounted js s)
    (ht : s.commitStaged js (id₀, o) = t) :
    t = { s with blocks := t.blocks, blockBytes := t.blockBytes, managedBytes := t.managedBytes,
                 postBaseOverrideIds := t.postBaseOverrideIds } ∧
      Accounted js t ∧
      t.blocks = o.elim (s.blocks.erase id₀) (s.blocks.set id₀) ∧
      ∀ id, id ∈ t.postBaseOverrideIds ↔ id ∈ s.postBaseOverrideIds ∧ (id, none) ≠ (id₀, o) := by
  subst ht
  cases o with
  | none =>
    refine ⟨rfl, hs.replace (Dict.get?_erase s.blocks id₀) rfl rfl, rfl, fun id ↦ ?_⟩
    show id ∈ s.postBaseOverrideIds.erase id₀ ↔ _
    simp [Finset.mem_erase, and_comm]
  | some b =>
    refine ⟨?_, hs.replace (Dict.get?_set s.blocks id₀ b) rfl rfl, rfl, fun id ↦ ?_⟩
    · rw [ViewStore.commitStaged, replaceManagedBlock_eq]
    · show id ∈ s.postBaseOverrideIds ↔ _
      simp

/-- The loop that does it. -/
theorem foldl_commitStaged {rows : List (String × Option TranscriptBlock)} (hs : Accounted js s)
    (ht : rows.foldl (ViewStore.commitStaged js) s = t) :
    t = { s with blocks := t.blocks, blockBytes := t.blockBytes, managedBytes := t.managedBytes,
                 postBaseOverrideIds := t.postBaseOverrideIds } ∧
      Accounted js t ∧
      t.blocks = rows.foldl
        (fun d change ↦ change.2.elim (Dict.erase d change.1) (Dict.set d change.1)) s.blocks ∧
      ∀ id, id ∈ t.postBaseOverrideIds ↔ id ∈ s.postBaseOverrideIds ∧ (id, none) ∉ rows := by
  induction rows generalizing s with
  | nil =>
    subst ht
    exact ⟨rfl, hs, rfl, fun id ↦ by simp⟩
  | cons entry rows ih =>
    obtain ⟨id₀, o⟩ := entry
    obtain ⟨hframe₁, hacc₁, hblocks₁, hoverrides₁⟩ :=
      commitStaged_spec hs (rfl : s.commitStaged js (id₀, o) = _)
    obtain ⟨hframe, hacc, hblocks, hoverrides⟩ := ih hacc₁ ht
    refine ⟨hframe.trans (by rw [hframe₁]), hacc, ?_, fun id ↦ ?_⟩
    · rw [hblocks, hblocks₁]
      rfl
    · rw [hoverrides, hoverrides₁, List.mem_cons, not_or, and_assoc]

/-- The staged changes `g` went into the store `s`. -/
structure Patched (js : Js) (g : Staging) (next : Nat) (s t : ViewStore) : Prop where
  inv : StoreInv js t
  frame : t = { s with
    blocks := t.blocks, blockBytes := t.blockBytes, managedBytes := t.managedBytes,
    postBaseOverrideIds := t.postBaseOverrideIds, revisions := t.revisions,
    orderOwners := t.orderOwners, noticeHighWater := t.noticeHighWater, blockIds := t.blockIds,
    listSnapshot := t.listSnapshot, liveSnapshot := t.liveSnapshot }
  blocks : ∀ id, t.blocks.get? id = s.currentBlock g id
  revisions : ∀ id, t.revisions id = s.currentRevision g id
  overrides : ∀ id, id ∈ t.postBaseOverrideIds ↔
    id ∈ g.postBaseOverrideIds ∧ g.blocks.get? id ≠ some none
  notice : t.noticeHighWater =
    if g.noticeAffected then latestNoticeHighWater t.blocks else s.noticeHighWater
  snapshot : t.listSnapshot = { s.listSnapshot with
    blockIds := t.blockIds, appliedSourceHighWater := next }
  live : t.liveSnapshot = g.nextLive

/-- **The end of a patch page.** -/
theorem commitPatchPage_spec (hs : StoreInv js s) (hg : StagingInv s g) {ids : List String}
    {owners : OrderKey → Option String} (hindex : s.restructure g = .ok (ids, owners)) (next : Nat) :
    Patched js g next s
      (({ s with postBaseOverrideIds := g.postBaseOverrideIds } : ViewStore).commitPatchPage js g ids
        owners next) := by
  obtain ⟨hlisted, howns⟩ := restructure_ok hs hg hindex
  have hkeyed := hg.keyed_overlay hs
  rw [ViewStore.commitPatchPage]
  generalize hs₀ : ({ s with postBaseOverrideIds := g.postBaseOverrideIds } : ViewStore) = s₀
  have hacc₀ : Accounted js s₀ := by
    rw [← hs₀]
    exact ⟨hs.accounted.bytes, hs.accounted.managed⟩
  obtain ⟨hframe, hacc, hblocks, hoverrides⟩ := foldl_commitStaged hacc₀ rfl
  generalize g.blocks.rows.foldl (ViewStore.commitStaged js) s₀ = t at *
  rw [← hs₀] at hframe
  have hover : t.blocks = Dict.overlay s.blocks g.blocks := by
    rw [hblocks, ← hs₀]
    rfl
  have hget : ∀ id, t.blocks.get? id = s.currentBlock g id := by
    intro id
    rw [hover, get?_overlay_staged]
  have hrevision : ∀ id, (g.revisions id).or (t.revisions id) = s.currentRevision g id := by
    intro id
    rw [hframe]
    rfl
  have hoverride : ∀ id, id ∈ t.postBaseOverrideIds ↔
      id ∈ g.postBaseOverrideIds ∧ g.blocks.get? id ≠ some none := by
    intro id
    rw [hoverrides, ← hs₀, Dict.mem_rows]
  have hnotice : t.noticeHighWater = s.noticeHighWater := by rw [hframe]
  have hsnapshot : t.listSnapshot = s.listSnapshot := by rw [hframe]
  refine ⟨⟨?_, ?_, ?_, ⟨hacc.bytes, hacc.managed⟩, fun id b hb hisNotice ↦ ?_, fun id b hb ↦ ?_,
    fun id hid ↦ ?_, rfl⟩, ?_, hget, hrevision, hoverride, ?_, ?_, rfl⟩
  · show Keyed t.blocks
    exact hover ▸ hkeyed
  · show Listed t.blocks ids
    exact hover ▸ hlisted
  · show Owns t.blocks owners
    exact hover ▸ howns
  · -- Without a new notice the notices are old ones.
    show b.sourceSequence ≤ if g.noticeAffected then _ else t.noticeHighWater
    split
    · exact latestNoticeHighWater_le_iff.1 le_rfl id b hb hisNotice
    · rename_i haff
      rw [hnotice]
      have hb' : s.currentBlock g id = some b := (hget id).symm.trans hb
      rw [ViewStore.currentBlock, Option.getD_eq_iff] at hb'
      rcases hb' with hstaged | ⟨-, hb'⟩
      · rw [hg.notices (Bool.eq_false_iff.2 haff) id b hstaged] at hisNotice
        cases hisNotice
      · exact hs.notices id b hb' hisNotice
  · show (g.revisions id).or (t.revisions id) = _
    rw [hrevision]
    exact hg.revised id b ((hget id).symm.trans hb)
  · obtain ⟨hid, hstaged⟩ := (hoverride id).1 hid
    show (t.blocks.get? id).isSome
    rw [hget, hg.stored_iff]
    exact .inl ⟨hg.overrides id hid, hstaged⟩
  · rw [hframe]
  · show (if g.noticeAffected then latestNoticeHighWater t.blocks else t.noticeHighWater) = _
    rw [hnotice]
  · show ({ t.listSnapshot with blockIds := _, appliedSourceHighWater := _ } :
      TranscriptListSnapshot) = _
    rw [hsnapshot]

/-- A patch page is applied, once it is staged and the indexes are changed. -/
theorem patchPage_patched (hs : StoreInv js s) {page : TranscriptPatchPage}
    (hstage : page.patches.foldlM (s.stagePatch js base) s.staging = .ok g) {ids : List String}
    {owners : OrderKey → Option String} (hindex : s.restructure g = .ok (ids, owners)) :
    ∃ t, s.patchPage js base page = (t, .ok true) ∧ Patched js g page.nextSourceHighWater s t := by
  refine ⟨_, ?_, commitPatchPage_spec hs (stagingInv_ok hs hstage) hindex page.nextSourceHighWater⟩
  have hindex' : ({ s with postBaseOverrideIds := g.postBaseOverrideIds } : ViewStore).restructure g =
      .ok (ids, owners) := hindex
  simp only [ViewStore.patchPage, hstage, hindex']

/-- A patch page throws when the indexes cannot be changed. -/
theorem patchPage_conflict {page : TranscriptPatchPage}
    (hstage : page.patches.foldlM (s.stagePatch js base) s.staging = .ok g) {e : String}
    (hindex : s.restructure g = .error e) : s.patchPage js base page =
      ({ s with postBaseOverrideIds := g.postBaseOverrideIds }, .error e) := by
  have hindex' : ({ s with postBaseOverrideIds := g.postBaseOverrideIds } : ViewStore).restructure g =
      .error e := hindex
  simp only [ViewStore.patchPage, hstage, hindex']

/-- **A patch page is applied, or the store keeps everything but the overrides.** -/
theorem patchPage_cases (hs : StoreInv js s) (base : Nat) (page : TranscriptPatchPage) :
    (∃ g e, (page.patches.foldlM (s.stagePatch js base) s.staging).finalState = g ∧
      s.patchPage js base page =
        ({ s with postBaseOverrideIds := g.postBaseOverrideIds }, .error e)) ∨
    ∃ g t, page.patches.foldlM (s.stagePatch js base) s.staging = .ok g ∧
      s.patchPage js base page = (t, .ok true) ∧ Patched js g page.nextSourceHighWater s t := by
  cases hstage : page.patches.foldlM (s.stagePatch js base) s.staging with
  | error e =>
    refine .inl ⟨e.1, e.2, rfl, ?_⟩
    simp only [ViewStore.patchPage, hstage]
  | ok g =>
    cases hindex : s.restructure g with
    | error e => exact .inl ⟨g, e, rfl, patchPage_conflict hstage hindex⟩
    | ok indexes =>
      obtain ⟨t, heq, hpatched⟩ := patchPage_patched hs hstage hindex
      exact .inr ⟨g, t, rfl, heq, hpatched⟩

/-- A page that throws keeps the invariant. -/
theorem StoreInv.withOverrides (hs : StoreInv js s) (hg : StagingInv s g) :
    StoreInv js { s with postBaseOverrideIds := g.postBaseOverrideIds } :=
  ⟨hs.keyed, hs.listed, hs.owned, ⟨hs.accounted.bytes, hs.accounted.managed⟩, hs.notices, hs.revised,
    hg.overrides, hs.snapshot⟩

end Centaeris.Web
