import Centaeris.Web.Reachable

/-!
# Blocks do not go back

A block that was seen in one revision should not be seen in an older one later. Within what the store
remembers this is so, because an older revision is never taken (`RevisionsGrow`). Released history is
forgotten, together with its revisions, and can be loaded again from the pages of the base; that is
right as long as what is released *is* what these pages show. Blocks that were patched are marked and
kept, but a block is marked only when it is stored. A patch of a block that is not loaded yet stores
it unmarked, it is released like a block of the base, and the page of the base brings back the
revision before the patch (`released_patch_reverts`).

`no_stale_block` excludes this: a patch of a block of the history comes only while the block is stored,
or it is one of the tail.
-/

namespace Centaeris.Web

open Except

variable {js : Js} {s t : ViewStore} {g : Staging} {base : Nat}

/-- One server history: each block has one place, and one content for each revision. -/
structure ServerHistory where
  order : String → OrderKey
  content : String → Nat → Json

/-- The block is one of the history. -/
def ServerHistory.Has (h : ServerHistory) (b : TranscriptBlock) : Prop :=
  b.order = h.order b.blockId ∧ b.1 = h.content b.blockId b.blockRevision

instance (h : ServerHistory) (b : TranscriptBlock) : Decidable (h.Has b) := by
  unfold ServerHistory.Has; infer_instance

/-- A call after the store was opened, with a page of the history. -/
def served (h : ServerHistory) (js : Js) (s : ViewStore) : StoreOp → Bool
  | .openTail _ => false
  | .clear => false
  | op => (s.coming js op).all fun b ↦ decide (h.Has b)

/-- The pages of the base show each block in one revision, and a patch of a block of the history comes
only while the block is stored, unless it is one of the tail. -/
def patchesLoaded (shown : String → Nat) (js : Js) (s : ViewStore) : StoreOp → Bool
  | .prependPage rawPage epoch => (s.coming js (.prependPage rawPage epoch)).all fun b ↦
      decide (b.blockRevision = shown b.blockId)
  | .applyPatchPage rawPage epoch => (s.coming js (.applyPatchPage rawPage epoch)).all fun b ↦
      decide (s.base < b.sourceSequence) || s.blocks.has b.blockId ||
        decide (b.blockId ∈ s.tailBlockIds)
  | _ => true

/-! ### What can be released is what the base shows -/

/-- The stored blocks are where the history has them, and those that can be released are as the pages
of the base show them. -/
structure BaseInv (h : ServerHistory) (shown : String → Nat) (s : ViewStore) : Prop where
  placed : ∀ id b, s.blocks.get? id = some b → b.order = h.order id
  shown : ∀ id b, s.blocks.get? id = some b → s.releasable s.base id b = true →
    b.blockRevision = shown id

/-- What is staged of the history is marked if it replaces something. -/
structure MarksReplaced (base : Nat) (s : ViewStore) (g : Staging) : Prop where
  sub : s.postBaseOverrideIds ⊆ g.postBaseOverrideIds
  marked : ∀ id b, g.blocks.get? id = some (some b) → s.blocks.has id = true →
    b.sourceSequence ≤ base → id ∈ g.postBaseOverrideIds

theorem marksReplaced_final (patches : List TranscriptPatch) : MarksReplaced base s
    (patches.foldlM (s.stagePatch js base) s.staging).finalState := by
  refine stagePatches_invariant (fun _ _ item _ g hg _ ↦ ?_) (fun _ _ removal _ g hg _ ↦ ?_)
    ⟨Finset.Subset.refl _, nofun⟩
  · refine ⟨fun id hid ↦ mem_withUpsert.2 (.inl (hg.sub hid)), fun id b hb hhas hbase ↦ ?_⟩
    rw [ViewStore.withUpsert, Dict.get?_set] at hb
    split at hb
    · rename_i heq
      cases hb
      exact mem_withUpsert.2 (.inr ⟨heq, heq ▸ hhas, hbase⟩)
    · exact mem_withUpsert.2 (.inl (hg.marked id b hb hhas hbase))
  · refine ⟨hg.sub, fun id b hb ↦ ?_⟩
    rw [ViewStore.withRemoval, Dict.get?_set] at hb
    split at hb
    · cases hb
    · exact hg.marked id b hb

theorem releasable_eq_true {id : String} {b : TranscriptBlock} : s.releasable base id b = true ↔
    id ∉ s.tailBlockIds ∧ id ∉ s.postBaseOverrideIds ∧ b.sourceSequence ≤ base := by
  simp [ViewStore.releasable, and_assoc]

theorem has_of_coming {h : ServerHistory} {op : StoreOp} (hserved : served h js s op = true)
    {b : TranscriptBlock} (hb : b ∈ s.coming js op) : h.Has b := by
  cases op with
  | openTail => cases hserved
  | clear => cases hserved
  | _ => exact of_decide_eq_true (List.all_eq_true.1 hserved b hb)

theorem BaseInv.merged {h : ServerHistory} {shown : String → Nat} {page : TranscriptPage}
    (hinv : BaseInv h shown s) (hhas : ∀ b ∈ page.blocks, h.Has b)
    (hshown : ∀ b ∈ page.blocks, b.blockRevision = shown b.blockId) (hmerged : Merged js page s t) :
    BaseInv h shown t := by
  have hfrom : ∀ id b, t.blocks.get? id = some b →
      (b ∈ page.blocks ∧ b.blockId = id) ∨ s.blocks.get? id = some b := by
    intro id b hb
    rw [hmerged.blocks] at hb
    rcases Option.or_eq_some_iff.1 hb with hb | ⟨-, hb⟩
    · exact .inl (blockOf_mem (incoming_eq_some.1 hb).1)
    · exact .inr hb
  refine ⟨fun id b hb ↦ ?_, fun id b hb hrel ↦ ?_⟩
  · rcases hfrom id b hb with ⟨hmem, rfl⟩ | hb
    · exact (hhas b hmem).1
    · exact hinv.placed id b hb
  · rcases hfrom id b hb with ⟨hmem, rfl⟩ | hb
    · exact hshown b hmem
    · rw [hmerged.frame] at hrel
      exact hinv.shown id b hb hrel

theorem BaseInv.withOverrides {h : ServerHistory} {shown : String → Nat} (hinv : BaseInv h shown s)
    (hsub : s.postBaseOverrideIds ⊆ g.postBaseOverrideIds) :
    BaseInv h shown { s with postBaseOverrideIds := g.postBaseOverrideIds } := by
  refine ⟨hinv.placed, fun id b hb hrel ↦ hinv.shown id b hb ?_⟩
  obtain ⟨htail, hmarked, hbase⟩ := releasable_eq_true.1 hrel
  exact releasable_eq_true.2 ⟨htail, fun hid ↦ hmarked (hsub hid), hbase⟩

theorem BaseInv.patched {h : ServerHistory} {shown : String → Nat} {patches : List TranscriptPatch}
    {next : Nat} (hinv : BaseInv h shown s) (hs : StoreInv js s)
    (hstage : patches.foldlM (s.stagePatch js s.base) s.staging = .ok g)
    (hhas : ∀ b ∈ patches.flatMap (·.upserts), h.Has b)
    (hloaded : ∀ b ∈ patches.flatMap (·.upserts), b.sourceSequence ≤ s.base →
      s.blocks.has b.blockId = true ∨ b.blockId ∈ s.tailBlockIds)
    (hpatched : Patched js g next s t) : BaseInv h shown t := by
  have hfrom := stagedFrom_ok hstage
  have hmarks : MarksReplaced s.base s g := by
    have hfinal : MarksReplaced s.base s
        (patches.foldlM (s.stagePatch js s.base) s.staging).finalState := marksReplaced_final patches
    rw [hstage] at hfinal
    exact hfinal
  have hkeyed := (stagingInv_ok hs hstage).keyed
  have hsplit : ∀ id b, t.blocks.get? id = some b →
      g.blocks.get? id = some (some b) ∨ g.blocks.get? id = none ∧ s.blocks.get? id = some b := by
    intro id b hb
    rw [hpatched.blocks, ViewStore.currentBlock] at hb
    cases hget : g.blocks.get? id with
    | none =>
      rw [hget] at hb
      exact .inr ⟨rfl, hb⟩
    | some o =>
      rw [hget] at hb
      exact .inl (congrArg some hb)
  refine ⟨fun id b hb ↦ ?_, fun id b hb hrel ↦ ?_⟩
  · rcases hsplit id b hb with hb | ⟨-, hb⟩
    · rw [← hkeyed id b hb]
      exact (hhas b (hfrom.upserted id b hb)).1
    · exact hinv.placed id b hb
  · obtain ⟨htail, hmarked, hbase⟩ := releasable_eq_true.1 hrel
    rw [hpatched.overrides] at hmarked
    have htail' : id ∉ s.tailBlockIds := by
      rw [hpatched.frame] at htail
      exact htail
    have hbase' : b.sourceSequence ≤ s.base := by
      rw [hpatched.frame] at hbase
      exact hbase
    rcases hsplit id b hb with hb | ⟨hnone, hb⟩
    · -- A block of the history that was patched was stored, and so it is marked.
      have hhas : s.blocks.has id = true := by
        have hid := hkeyed id b hb
        rcases hloaded b (hfrom.upserted id b hb) hbase' with hhas | htail
        · exact hid ▸ hhas
        · exact absurd (hid ▸ htail) htail'
      exact absurd ⟨hmarks.marked id b hb hhas hbase', by simp [hb]⟩ hmarked
    · refine hinv.shown id b hb (releasable_eq_true.2 ⟨htail', fun hid ↦ hmarked ?_, hbase'⟩)
      exact ⟨hmarks.sub hid, by simp [hnone]⟩

theorem revisionsGrow_ok {patches : List TranscriptPatch}
    (hstage : patches.foldlM (s.stagePatch js base) s.staging = .ok g) : RevisionsGrow s g := by
  have hfinal : RevisionsGrow s (patches.foldlM (s.stagePatch js base) s.staging).finalState :=
    stagePatches_invariant (fun _ _ _ _ _ hg hable ↦ hg.withUpsert hable)
      (fun _ _ _ _ _ hg hnewer ↦ hg.withRemoval hnewer) fun _ r hr ↦ ⟨r, hr, le_rfl⟩
  rw [hstage] at hfinal
  exact hfinal

/-! ### What was seen is a floor -/

/-- No revision of the block below `r` can come any more: a later one is remembered, or the block is
released and the base shows a later one. -/
def Floor (h : ServerHistory) (shown : String → Nat) (id : String) (r : Nat) (s : ViewStore) : Prop :=
  (∃ r', s.revisions id = some r' ∧ r ≤ r') ∨
    s.blocks.get? id = none ∧ id ∉ s.tailBlockIds ∧ (ofLex (h.order id)).1 ≤ s.base ∧ r ≤ shown id

section Floor

variable {h : ServerHistory} {shown : String → Nat} {id : String} {r : Nat}

theorem Floor.merged {page : TranscriptPage} (hfloor : Floor h shown id r s)
    (hshown : ∀ b ∈ page.blocks, b.blockRevision = shown b.blockId) (hmerged : Merged js page s t) :
    Floor h shown id r t := by
  rw [Floor, hmerged.revisions, hmerged.blocks]
  cases hin : incoming (s.revisions id) (blockOf page.blocks id) with
  | none =>
    rw [hmerged.frame]
    exact hfloor
  | some b =>
    -- The page has a newer revision than the store remembers, or the one the base shows.
    obtain ⟨hof, hnewer⟩ := incoming_eq_some.1 hin
    obtain ⟨hmem, rfl⟩ := blockOf_mem hof
    refine .inl ⟨b.blockRevision, rfl, ?_⟩
    rcases hfloor with ⟨r', hr', hle⟩ | ⟨-, -, -, hle⟩
    · exact hle.trans (hnewer r' hr').le
    · exact hle.trans (hshown b hmem).ge

theorem Floor.patched {patches : List TranscriptPatch} {next : Nat} (hfloor : Floor h shown id r s)
    (hs : StoreInv js s) (hstage : patches.foldlM (s.stagePatch js s.base) s.staging = .ok g)
    (hhas : ∀ b ∈ patches.flatMap (·.upserts), h.Has b)
    (hloaded : ∀ b ∈ patches.flatMap (·.upserts), b.sourceSequence ≤ s.base →
      s.blocks.has b.blockId = true ∨ b.blockId ∈ s.tailBlockIds)
    (hpatched : Patched js g next s t) : Floor h shown id r t := by
  rcases hfloor with ⟨r', hr', hle⟩ | ⟨hnone, htail, hbase, hle⟩
  · obtain ⟨r'', hr'', hle'⟩ := revisionsGrow_ok hstage id r' hr'
    exact .inl ⟨r'', (hpatched.revisions id).trans hr'', hle.trans hle'⟩
  · refine .inr ⟨?_, ?_, ?_, hle⟩
    · -- A patch would have to find the block stored.
      rw [hpatched.blocks, ViewStore.currentBlock]
      cases hget : g.blocks.get? id with
      | none => exact hnone
      | some o =>
        cases o with
        | none => rfl
        | some b =>
          exfalso
          have hmem := (stagedFrom_ok hstage).upserted id b hget
          have hid := (stagingInv_ok hs hstage).keyed id b hget
          have hplace : b.sourceSequence ≤ s.base := by
            have horder := (hhas b hmem).1
            rw [hid] at horder
            rw [← horder] at hbase
            exact hbase
          rcases hloaded b hmem hplace with hstored | htail'
          · rw [hid, Dict.has, hnone] at hstored
            cases hstored
          · exact htail (hid ▸ htail')
    · rw [hpatched.frame]
      exact htail
    · rw [hpatched.frame]
      exact hbase

theorem Floor.released (hfloor : Floor h shown id r s) (hs : StoreInv js s)
    (hinv : BaseInv h shown s) (hreleased : Released js s.base s t) : Floor h shown id r t := by
  have hframe : t.tailBlockIds = s.tailBlockIds ∧ t.base = s.base := by
    rw [hreleased.frame]
    exact ⟨rfl, rfl⟩
  rw [Floor, hreleased.revisions, hreleased.blocks, hframe.1, hframe.2]
  cases hb : s.blocks.get? id with
  | none =>
    rcases hfloor with hknown | ⟨-, hgone⟩
    · exact .inl hknown
    · exact .inr ⟨rfl, hgone⟩
  | some b =>
    rcases hfloor with ⟨r', hr', hle⟩ | ⟨hnone, -⟩
    · cases hrel : s.releasable s.base id b with
      | false =>
        refine .inl ⟨r', ?_, hle⟩
        simpa [hrel] using hr'
      | true =>
        -- It goes, and the base shows what it was.
        obtain ⟨htail, -, hbase⟩ := releasable_eq_true.1 hrel
        have hrevision : r' = b.blockRevision := Option.some.inj (hr'.symm.trans (hs.revised id b hb))
        refine .inr ⟨by simp [Option.filter, hrel], htail, ?_, ?_⟩
        · rw [← hinv.placed id b hb]
          exact hbase
        · exact hle.trans (hrevision.trans (hinv.shown id b hb hrel)).le
    · rw [hnone] at hb
      cases hb

end Floor

/-! ### Along the calls -/

theorem BaseInv.effect {h : ServerHistory} {shown : String → Nat} {op : StoreOp}
    {answer : Except String StoreAnswer} (hinv : BaseInv h shown s) (hs : StoreInv js s)
    (hserved : served h js s op = true) (hpatches : patchesLoaded shown js s op = true)
    (heffect : StoreEffect js s op t answer) :
    BaseInv h shown t ∧ ∀ id r, Floor h shown id r s → Floor h shown id r t := by
  have hhas := fun b (hb : b ∈ s.coming js op) ↦ has_of_coming hserved hb
  cases heffect with
  | kept => exact ⟨hinv, fun _ _ ↦ id⟩
  | opened => cases hserved
  | cleared => cases hserved
  | shown => exact ⟨⟨hinv.placed, hinv.shown⟩, fun _ _ ↦ id⟩
  | hidden => exact ⟨⟨hinv.placed, hinv.shown⟩, fun _ _ ↦ id⟩
  | merged hidentity hpage _ hmerged =>
    rw [patchesLoaded, coming_prependPage hidentity hpage] at hpatches
    rw [coming_prependPage hidentity hpage] at hhas
    have hshown := fun b hb ↦ of_decide_eq_true (List.all_eq_true.1 hpatches b hb)
    exact ⟨hinv.merged hhas hshown hmerged, fun _ _ hfloor ↦ hfloor.merged hshown hmerged⟩
  | @thrown _ _ _ page _ _ _ _ hfinal =>
    have hmarks := hfinal ▸ marksReplaced_final page.patches
    exact ⟨hinv.withOverrides hmarks.sub, fun _ _ ↦ id⟩
  | @patched _ _ _ page _ _ hidentity hpage hstage hpatched =>
    rw [patchesLoaded, coming_applyPatchPage hidentity hpage] at hpatches
    rw [coming_applyPatchPage hidentity hpage] at hhas
    rw [← base_eq hidentity] at hstage
    have hloaded : ∀ b ∈ page.patches.flatMap (·.upserts), b.sourceSequence ≤ s.base →
        s.blocks.has b.blockId = true ∨ b.blockId ∈ s.tailBlockIds := by
      intro b hb hbase
      have hout := List.all_eq_true.1 hpatches b hb
      rw [decide_eq_false (Nat.not_lt.2 hbase), Bool.false_or, Bool.or_eq_true,
        decide_eq_true_iff] at hout
      exact hout
    exact ⟨hinv.patched hs hstage hhas hloaded hpatched,
      fun _ _ hfloor ↦ hfloor.patched hs hstage hhas hloaded hpatched⟩
  | released hidentity hreleased =>
    rw [← base_eq hidentity] at hreleased
    refine ⟨⟨fun id b hb ↦ ?_, fun id b hb hrel ↦ ?_⟩, fun _ _ hfloor ↦
      hfloor.released hs hinv hreleased⟩
    · rw [hreleased.blocks] at hb
      exact hinv.placed id b (Option.filter_eq_some_iff.1 hb).1
    · rw [hreleased.blocks] at hb
      rw [hreleased.frame] at hrel
      exact hinv.shown id b (Option.filter_eq_some_iff.1 hb).1 hrel

/-- The store has the block in a revision, or has removed it at this revision. -/
def HeldOrRemoved (s : ViewStore) (id : String) (r : Nat) : Prop :=
  (∃ b, s.blocks.get? id = some b ∧ b.blockRevision = r) ∨
    s.blocks.get? id = none ∧ s.revisions id = some r

theorem HeldOrRemoved.revision {id : String} {r : Nat} (h : HeldOrRemoved s id r)
    (hs : StoreInv js s) : s.revisions id = some r := by
  rcases h with ⟨b, hb, rfl⟩ | ⟨-, hr⟩
  · exact hs.revised id b hb
  · exact hr

/-- The invariants together. -/
theorem along_floor {h : ServerHistory} {shown : String → Nat} {ops : List StoreOp}
    (hs : StoreInv js s) (hinv : BaseInv h shown s)
    (hops : s.Along js (fun s op ↦ served h js s op = true ∧ patchesLoaded shown js s op = true) ops) :
    StoreInv js (s.run js ops) ∧ BaseInv h shown (s.run js ops) ∧
      ∀ id r, Floor h shown id r s → Floor h shown id r (s.run js ops) := by
  refine ViewStore.along_invariant (I := fun t ↦ StoreInv js t ∧ BaseInv h shown t ∧
    ∀ id r, Floor h shown id r s → Floor h shown id r t) ?_ ⟨hs, hinv, fun _ _ ↦ id⟩ hops
  rintro t op ⟨ht, hinv, hfloor⟩ ⟨hserved, hpatches⟩
  have heffect := exec_effect ht op
  obtain ⟨hinv', hfloor'⟩ := hinv.effect ht hserved hpatches heffect
  exact ⟨ht.effect heffect, hinv', fun id r h ↦ hfloor' id r (hfloor id r h)⟩

/-- A store that was just opened, with blocks of the history. -/
theorem BaseInv.opened {h : ServerHistory} {page : TranscriptPage} (shown : String → Nat)
    (hhas : ∀ b ∈ page.blocks, h.Has b) (hopened : Opened js page s t) : BaseInv h shown t := by
  refine ⟨fun id b hb ↦ ?_, fun id b hb hrel ↦ ?_⟩
  · rw [hopened.blocks] at hb
    obtain ⟨hmem, rfl⟩ := blockOf_mem hb
    exact (hhas b hmem).1
  · rw [hopened.blocks] at hb
    obtain ⟨hmem, rfl⟩ := blockOf_mem hb
    refine absurd ?_ (releasable_eq_true.1 hrel).1
    rw [hopened.tail, List.mem_toFinset]
    exact List.mem_map_of_mem hmem

theorem ViewStore.Along.split {P : ViewStore → StoreOp → Prop} {before after : List StoreOp}
    (h : s.Along js P (before ++ after)) :
    s.Along js P before ∧ (s.run js before).Along js P after := by
  induction before generalizing s with
  | nil => exact ⟨trivial, h⟩
  | cons op before ih => exact ⟨⟨h.1, (ih h.2).1⟩, (ih h.2).2⟩

/-- After a tail was opened, with calls whose pages and patches are of one server history: a block that
was held, or removed, in some revision is not held in an older one later. This is under the condition
that the pages of the base show each block in one revision, and that a patch of a block at or below the
base comes only while this block is stored, unless it is one of the tail. -/
theorem no_stale_block (js : Js) (h : ServerHistory) (shown : String → Nat) (opening : List StoreOp)
    {rawPage : Json} {page : TranscriptPage} {before after : List StoreOp} {id : String} {r : Nat}
    {b : TranscriptBlock} (hpage : validateTranscriptTailPage js rawPage = .ok page)
    (hhas : ∀ b ∈ page.blocks, h.Has b)
    (hops : (ViewStore.initial.run js (opening ++ [.openTail rawPage])).Along js
      (fun s op ↦ served h js s op = true ∧ patchesLoaded shown js s op = true) (before ++ after))
    (hseen : HeldOrRemoved
      ((ViewStore.initial.run js (opening ++ [.openTail rawPage])).run js before) id r)
    (hb : ((ViewStore.initial.run js (opening ++ [.openTail rawPage])).run js
      (before ++ after)).blocks.get? id = some b) : r ≤ b.blockRevision := by
  have hs := storeInv_run js (opening ++ [.openTail rawPage])
  have hinv : BaseInv h shown (ViewStore.initial.run js (opening ++ [.openTail rawPage])) := by
    obtain ⟨t, heq, hopened⟩ := openPage_spec js (ViewStore.initial.run js opening) page
    have hrun : ViewStore.initial.run js (opening ++ [.openTail rawPage]) = t := by
      rw [ViewStore.run, List.foldl_append]
      show (((ViewStore.initial.run js opening).openTail js rawPage)).1 = t
      rw [ViewStore.openTail, hpage]
      exact congrArg Prod.fst heq
    exact hrun ▸ BaseInv.opened shown hhas hopened
  generalize ViewStore.initial.run js (opening ++ [.openTail rawPage]) = s at *
  obtain ⟨hbefore, hafter⟩ := hops.split
  obtain ⟨hs₁, hinv₁, -⟩ := along_floor hs hinv hbefore
  obtain ⟨hs₂, -, hfloor⟩ := along_floor hs₁ hinv₁ hafter
  rw [ViewStore.run, List.foldl_append] at hb
  rcases hfloor id r (.inl ⟨r, hseen.revision hs₁, le_rfl⟩) with ⟨r', hr', hle⟩ | ⟨hnone, -⟩
  · exact hle.trans (Option.some.inj (hr'.symm.trans (hs₂.revised id b hb))).le
  · cases hnone.symm.trans hb

/-! ### Runs -/

/-- A history of one block, with two revisions. -/
def twoRevisions : ServerHistory where
  order := fun _ ↦ toLex (3, 0)
  content := fun _ r ↦ blockValue "a" (if r = 1 then "1" else "2") "3"

/-- The block is loaded, then patched; the history is released and loaded again. -/
theorem no_stale_block_loaded :
    ∃ b, (ViewStore.initial.run shortJs
        [.openTail (pageValue "5" (.str "older") []),
          .prependPage (pageValue "5" .null [blockValue "a" "1" "3"]) 1,
          .applyPatchPage (patchPageValue "6" [patchValue "6" [blockValue "a" "2" "3"] []]) 1,
          .releaseLoadedHistory,
          .prependPage (pageValue "5" .null [blockValue "a" "1" "3"]) 1]).blocks.get? "a" = some b ∧
      2 ≤ b.blockRevision := by
  have hstored : ((ViewStore.initial.run shortJs
      [.openTail (pageValue "5" (.str "older") []),
        .prependPage (pageValue "5" .null [blockValue "a" "1" "3"]) 1,
        .applyPatchPage (patchPageValue "6" [patchValue "6" [blockValue "a" "2" "3"] []]) 1,
        .releaseLoadedHistory,
        .prependPage (pageValue "5" .null [blockValue "a" "1" "3"]) 1]).blocks.get? "a").isSome := by
    decide +kernel
  obtain ⟨b, hb⟩ := Option.isSome_iff_exists.1 hstored
  have hread : (validateTranscriptTailPage shortJs (pageValue "5" (.str "older") [])).toOption.map
      (·.blocks) = some [] := by decide +kernel
  cases hpage : validateTranscriptTailPage shortJs (pageValue "5" (.str "older") []) with
  | error e =>
    rw [hpage] at hread
    cases hread
  | ok page =>
    rw [hpage] at hread
    have hblocks : page.blocks = [] := Option.some.inj hread
    have hseen : HeldOrRemoved ((ViewStore.initial.run shortJs
        ([] ++ [.openTail (pageValue "5" (.str "older") [])])).run shortJs
        [.prependPage (pageValue "5" .null [blockValue "a" "1" "3"]) 1,
          .applyPatchPage (patchPageValue "6" [patchValue "6" [blockValue "a" "2" "3"] []]) 1])
        "a" 2 := by
      refine .inl ?_
      rw [← Option.map_eq_some_iff (f := TranscriptBlock.blockRevision)]
      decide +kernel
    refine ⟨b, hb, no_stale_block shortJs twoRevisions (fun _ ↦ 1) [] hpage ?_ ?_ hseen hb⟩
    · rw [hblocks]
      exact nofun
    · simp only [ViewStore.Along, List.cons_append, List.nil_append]
      decide +kernel

/-- The block is patched before it is loaded. It is held in its second revision; the history is
released, the page of the base is loaded, and it is held in its first one. -/
theorem released_patch_reverts :
    let s := ViewStore.initial.run shortJs [.openTail (pageValue "5" (.str "older") [])]
    let before := [StoreOp.applyPatchPage
      (patchPageValue "6" [patchValue "6" [blockValue "a" "2" "3"] []]) 1]
    let after := [StoreOp.releaseLoadedHistory,
      .prependPage (pageValue "5" .null [blockValue "a" "1" "3"]) 1]
    s.Along shortJs (fun s op ↦ served twoRevisions shortJs s op = true) (before ++ after) ∧
      ((s.run shortJs before).blocks.get? "a").map (·.blockRevision) = some 2 ∧
      ((s.run shortJs (before ++ after)).blocks.get? "a").map (·.blockRevision) = some 1 := by
  intro s before after
  refine ⟨?_, by decide +kernel, by decide +kernel⟩
  simp only [before, after, ViewStore.Along, List.cons_append, List.nil_append]
  decide +kernel

end Centaeris.Web
