import Centaeris.Web.Reachable

/-!
# The live overlay beside the stored blocks

An overlay shows a message while it is being written. It has to go when the message is stored, and
when a notice is stored that is later than it. Three pieces of code see to that: an overlay is not
shown when what it shows is stored already, a patch that stores it takes the overlay away, and a new
tail starts without one. Older pages are prepended without a look at the overlay.

`Unsealed` is what is wanted. It holds along every sequence of calls in which no page is prepended
that has what the overlay shows, and it fails without this condition (`prepended_under_overlay`).
-/

namespace Centaeris.Web

open Except

variable {js : Js} {s t : ViewStore} {g : Staging}

/-- No stored block is what the overlay shows, and no stored notice is later than the overlay. -/
def Unsealed (s : ViewStore) : Prop :=
  ∀ live, s.liveSnapshot = some live → ∀ id b, s.blocks.get? id = some b →
    live.names id = false ∧ live.precedes b = false

/-- The same for what is staged; the overlay is the one of the store, if there is still one. -/
def StagedUnsealed (s : ViewStore) (g : Staging) : Prop :=
  ∀ live, g.nextLive = some live → ∀ id b, s.currentBlock g id = some b →
    live.names id = false ∧ live.precedes b = false

theorem StagedUnsealed.withUpsert {base : Nat} {item : TranscriptBlock} (h : StagedUnsealed s g) :
    StagedUnsealed s (s.withUpsert base g item) := by
  intro live hlive id b hb
  obtain ⟨hlive, hout⟩ := Option.filter_eq_some_iff.1 hlive
  rw [Bool.not_eq_true', Bool.or_eq_false_iff] at hout
  rw [currentBlock_withUpsert] at hb
  split at hb
  · rename_i heq
    cases hb
    exact heq ▸ hout
  · exact h live hlive id b hb

theorem StagedUnsealed.withRemoval {removal : TranscriptRemoval} (h : StagedUnsealed s g) :
    StagedUnsealed s (s.withRemoval g removal) := by
  intro live hlive id b hb
  obtain ⟨hlive, -⟩ := Option.filter_eq_some_iff.1 hlive
  rw [currentBlock_withRemoval] at hb
  split at hb
  · cases hb
  · exact h live hlive id b hb

theorem Unsealed.stage (h : Unsealed s) {base : Nat} {patches : List TranscriptPatch}
    (hstage : patches.foldlM (s.stagePatch js base) s.staging = .ok g) : StagedUnsealed s g := by
  have hfinal : StagedUnsealed s (patches.foldlM (s.stagePatch js base) s.staging).finalState :=
    stagePatches_invariant (fun _ _ _ _ _ hg _ ↦ hg.withUpsert) (fun _ _ _ _ _ hg _ ↦ hg.withRemoval) h
  rw [hstage] at hfinal
  exact hfinal

/-- An overlay that is accepted has nothing stored of what it shows. The notices are not looked at
one by one; they are below `noticeHighWater`. -/
theorem unsealed_of_sealed (hs : StoreInv js s) {next : TranscriptLiveOverlay}
    (hsealed : s.sealed next = false) {id : String} {b : TranscriptBlock}
    (hb : s.blocks.get? id = some b) : next.names id = false ∧ next.precedes b = false := by
  rw [ViewStore.sealed, Bool.or_eq_false_iff, Bool.or_eq_false_iff, decide_eq_false_iff_not] at hsealed
  obtain ⟨⟨hmessage, hreasoning⟩, hnotice⟩ := hsealed
  have hhas : ∀ id', s.blocks.has id' = false → id ≠ id' := by
    rintro id' hid' rfl
    rw [Dict.has, hb] at hid'
    cases hid'
  constructor
  · rw [TranscriptLiveOverlay.names, Bool.or_eq_false_iff, decide_eq_false_iff_not]
    refine ⟨hhas _ hmessage, ?_⟩
    cases hr : next.reasoning with
    | none => rfl
    | some r =>
      rw [hr] at hreasoning
      exact decide_eq_false (hhas _ hreasoning)
  · rw [TranscriptLiveOverlay.precedes]
    cases hkind : b.isNotice with
    | false => rfl
    | true =>
      have hle := hs.notices id b hb hkind
      rw [Bool.true_and, decide_eq_false_iff_not]
      omega

/-- No page is prepended that has what the overlay shows, or a notice that is later than it. -/
def prependsBeside (js : Js) (s : ViewStore) : StoreOp → Bool
  | .prependPage rawPage epoch => s.liveSnapshot.all fun live ↦
      (s.coming js (.prependPage rawPage epoch)).all fun b ↦
        !(live.names b.blockId || live.precedes b)
  | _ => true

theorem Unsealed.effect (h : Unsealed s) (hs : StoreInv js s) {op : StoreOp}
    {answer : Except String StoreAnswer} (hbeside : prependsBeside js s op = true)
    (heffect : StoreEffect js s op t answer) : Unsealed t := by
  cases heffect with
  | kept => exact h
  | opened _ hopened =>
    intro live hlive
    rw [hopened.live] at hlive
    cases hlive
  | merged hidentity hpage _ hmerged =>
    intro live hlive id b hb
    have hlive' : s.liveSnapshot = some live := by
      rw [hmerged.frame] at hlive
      exact hlive
    rw [hmerged.blocks] at hb
    rcases Option.or_eq_some_iff.1 hb with hb | ⟨-, hb⟩
    · -- The block is one of the page.
      obtain ⟨hmem, rfl⟩ := blockOf_mem (incoming_eq_some.1 hb).1
      rw [prependsBeside, hlive', coming_prependPage hidentity hpage] at hbeside
      have hout := List.all_eq_true.1 hbeside b hmem
      rwa [Bool.not_eq_true', Bool.or_eq_false_iff] at hout
    · exact h live hlive' id b hb
  | thrown => exact h
  | patched _ _ hstage hpatched =>
    intro live hlive id b hb
    rw [hpatched.live] at hlive
    rw [hpatched.blocks] at hb
    exact h.stage hstage live hlive id b hb
  | shown _ hsealed =>
    intro live hlive id b hb
    cases hlive
    exact unsealed_of_sealed hs hsealed hb
  | hidden => exact nofun
  | cleared => exact nofun
  | released _ hreleased =>
    intro live hlive id b hb
    rw [hreleased.frame] at hlive
    rw [hreleased.blocks] at hb
    exact h live hlive id b (Option.filter_eq_some_iff.1 hb).1

/-- Along every sequence of calls that prepends no page with what the overlay shows: while an overlay
is shown, no stored block has its message id or the id of its reasoning, and no stored notice has a
sequence above the one it comes after. -/
theorem overlay_unsealed {js : Js} {ops : List StoreOp}
    (h : ViewStore.initial.Along js (fun s op ↦ prependsBeside js s op = true) ops)
    (live : TranscriptLiveOverlay) (hlive : (ViewStore.initial.run js ops).liveSnapshot = some live)
    (b : TranscriptBlock) (hb : b ∈ (ViewStore.initial.run js ops).blocks.values) :
    b.blockId ≠ live.messageId ∧ (∀ r, live.reasoning = some r → b.blockId ≠ r.blockId) ∧
      (b.isNotice = true → b.sourceSequence ≤ live.afterSourceHighWater) := by
  have hinv : StoreInv js (ViewStore.initial.run js ops) ∧ Unsealed (ViewStore.initial.run js ops) := by
    refine ViewStore.along_invariant (I := fun s ↦ StoreInv js s ∧ Unsealed s) ?_
      ⟨.initial, nofun⟩ h
    rintro s op ⟨hs, hu⟩ hbeside
    have heffect := exec_effect hs op
    exact ⟨hs.effect heffect, hu.effect hs hbeside heffect⟩
  obtain ⟨id, hb⟩ := Dict.mem_values.1 hb
  obtain ⟨hnames, hprecedes⟩ := hinv.2 live hlive id b hb
  rw [← hinv.1.keyed id b hb, TranscriptLiveOverlay.names, Bool.or_eq_false_iff,
    decide_eq_false_iff_not] at hnames
  refine ⟨hnames.1, fun r hr ↦ ?_, fun hnotice ↦ ?_⟩
  · have hreasoning := hnames.2
    rw [hr] at hreasoning
    exact of_decide_eq_false hreasoning
  · rw [TranscriptLiveOverlay.precedes, hnotice, Bool.true_and, decide_eq_false_iff_not] at hprecedes
    omega

/-! ### Runs -/

/-- A block of an older page is prepended, and then a message is shown that is not stored. -/
theorem overlay_unsealed_beside :
    ∃ live, (ViewStore.initial.run shortJs
        [.openTail (pageValue "5" (.str "older") []),
          .prependPage (pageValue "5" .null [blockValue "other" "1" "3"]) 1,
          .applyLiveOverlay (overlayValue "message" "5") 1]).liveSnapshot = some live ∧
      ∀ b ∈ (ViewStore.initial.run shortJs
        [.openTail (pageValue "5" (.str "older") []),
          .prependPage (pageValue "5" .null [blockValue "other" "1" "3"]) 1,
          .applyLiveOverlay (overlayValue "message" "5") 1]).blocks.values,
        b.blockId ≠ live.messageId := by
  refine ⟨⟨"message", "turn", 5, 1, "text", none⟩, by decide +kernel, fun b hb ↦ ?_⟩
  exact (overlay_unsealed (by simp only [ViewStore.Along]; decide +kernel) _ (by decide +kernel) b hb).1

/-- The message is in an older page: the overlay is shown before the page is prepended, and it still
is afterwards. -/
theorem prepended_under_overlay :
    let t := ViewStore.initial.run shortJs
      [.openTail (pageValue "5" (.str "older") []),
        .applyLiveOverlay (overlayValue "message" "5") 1,
        .prependPage (pageValue "5" .null [blockValue "message" "1" "3"]) 1]
    ∃ live, t.liveSnapshot = some live ∧ ∃ b ∈ t.blocks.values, b.blockId = live.messageId := by
  refine ⟨⟨"message", "turn", 5, 1, "text", none⟩, by decide +kernel, ?_⟩
  decide +kernel

end Centaeris.Web
