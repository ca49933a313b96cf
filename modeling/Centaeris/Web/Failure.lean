import Centaeris.Web.Observation

/-!
# Calls that throw

A call that throws should leave nothing behind. It does not: a patch page marks the stored blocks that
it replaces before it is known whether the page goes through, and a marked block is not released with
the history (`thrown_page_keeps_history`). Everything else is as before (`StoreEffect.thrown`), so that
a call that throws cannot be observed when all it would mark is marked already or belongs to the tail,
which is never released.
-/

namespace Centaeris.Web

open Except

variable {js : Js} {s t : ViewStore} {g : Staging}

theorem Alike.refl (s : ViewStore) : Alike s s :=
  ⟨rfl, rfl, fun _ ↦ rfl, rfl, fun _ _ ↦ Iff.rfl, rfl, rfl, rfl, rfl, rfl⟩

/-- An upsert that replaces a stored block of the history. -/
def ViewStore.replacesHistory (s : ViewStore) (item : TranscriptBlock) : Bool :=
  s.blocks.has item.blockId && decide (item.sourceSequence ≤ s.base) &&
    (s.revisions item.blockId).all fun r ↦ decide (r < item.blockRevision)

/-- The blocks of the history that a patch page replaces are in the tail, or they have been replaced
before. -/
def replacesKnown (js : Js) (s : ViewStore) : StoreOp → Bool
  | .applyPatchPage rawPage epoch => (s.coming js (.applyPatchPage rawPage epoch)).all fun item ↦
      !s.replacesHistory item || decide (item.blockId ∈ s.tailBlockIds) ||
        decide (item.blockId ∈ s.postBaseOverrideIds)
  | _ => true

/-- What has been marked: outside the tail nothing new. -/
structure MarksKnown (s : ViewStore) (g : Staging) : Prop where
  grow : RevisionsGrow s g
  sub : s.postBaseOverrideIds ⊆ g.postBaseOverrideIds
  known : ∀ id ∈ g.postBaseOverrideIds, id ∈ s.tailBlockIds ∨ id ∈ s.postBaseOverrideIds

theorem MarksKnown.withUpsert {item : TranscriptBlock} (h : MarksKnown s g)
    (hable : Upsertable s g item)
    (hitem : s.replacesHistory item = true →
      item.blockId ∈ s.tailBlockIds ∨ item.blockId ∈ s.postBaseOverrideIds) :
    MarksKnown s (s.withUpsert s.base g item) := by
  have hoverrides : (s.withUpsert s.base g item).postBaseOverrideIds =
      if s.blocks.has item.blockId ∧ item.sourceSequence ≤ s.base then
        insert item.blockId g.postBaseOverrideIds
      else g.postBaseOverrideIds := rfl
  refine ⟨h.grow.withUpsert hable, ?_, fun id hid ↦ ?_⟩
  · rw [hoverrides]
    split
    · exact h.sub.trans (Finset.subset_insert _ _)
    · exact h.sub
  · rw [hoverrides] at hid
    split at hid
    · rename_i hmarks
      rcases Finset.mem_insert.1 hid with rfl | hid
      · -- The block is newer than what is staged, and so than what is stored.
        refine hitem ?_
        rw [ViewStore.replacesHistory, hmarks.1, decide_eq_true hmarks.2]
        cases hr : s.revisions item.blockId with
        | none => rfl
        | some r =>
          obtain ⟨r', hr', hle⟩ := h.grow _ r hr
          exact decide_eq_true (hle.trans_lt (hable.newer r' hr'))
      · exact h.known id hid
    · exact h.known id hid

theorem marksKnown_final {identity : TranscriptIdentity} {rawPage : Json} {epoch : Nat}
    {page : TranscriptPatchPage} (hidentity : s.identity = some identity)
    (hpage : validateTranscriptPatchPage js rawPage identity
      s.listSnapshot.appliedSourceHighWater = .ok page)
    (hknown : replacesKnown js s (.applyPatchPage rawPage epoch) = true) :
    MarksKnown s
      (page.patches.foldlM (s.stagePatch js identity.sourceHighWater) s.staging).finalState := by
  rw [replacesKnown, coming_applyPatchPage hidentity hpage] at hknown
  rw [← base_eq hidentity]
  refine stagePatches_invariant (fun patch hpatch item hitem g hg hable ↦ ?_)
    (fun _ _ _ _ g hg hnewer ↦ ⟨hg.grow.withRemoval hnewer, hg.sub, hg.known⟩)
    ⟨fun id r hr ↦ ⟨r, hr, le_rfl⟩, Finset.Subset.refl _, fun _ ↦ .inr⟩
  refine hg.withUpsert hable fun hreplaces ↦ ?_
  have hout := List.all_eq_true.1 hknown item (List.mem_flatMap.2 ⟨patch, hpatch, hitem⟩)
  rw [hreplaces] at hout
  simpa using hout

end Centaeris.Web
