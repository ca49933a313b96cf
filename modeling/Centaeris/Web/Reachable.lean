import Centaeris.Web.Patching

/-!
# The reachable view stores

`StoreEffect` says once what a call can do to the store, by the operation and by whether it went
through; invariants of the store are proved by its cases. The first of them is that the representation
stays right, for every sequence of calls with any arguments.
-/

namespace Centaeris.Web

open Except

variable {js : Js} {s t : ViewStore}

/-- What a call does to the store, and what it answers. -/
inductive StoreEffect (js : Js) (s : ViewStore) :
    StoreOp → ViewStore → Except String StoreAnswer → Prop
  /-- The call is refused, throws before anything happened, or there is nothing to do. -/
  | kept {op : StoreOp} {answer : Except String StoreAnswer} : StoreEffect js s op s answer
  | opened {rawPage : Json} {page : TranscriptPage} {t : ViewStore} :
    validateTranscriptTailPage js rawPage = .ok page → Opened js page s t →
    StoreEffect js s (.openTail rawPage) t (.ok (.epoch t.viewEpoch))
  | merged {rawPage : Json} {epoch : Nat} {identity : TranscriptIdentity} {page : TranscriptPage}
    {t : ViewStore} :
    s.identity = some identity → validateTranscriptPage js rawPage identity.sessionId = .ok page →
    page.identity.sourceHighWater = identity.sourceHighWater → Merged js page s t →
    StoreEffect js s (.prependPage rawPage epoch) t (.ok (.flag true))
  /-- A patch page throws: what it staged of the overrides stays. -/
  | thrown {rawPage : Json} {epoch : Nat} {identity : TranscriptIdentity} {page : TranscriptPatchPage}
    {g : Staging} {e : String} :
    s.identity = some identity →
    validateTranscriptPatchPage js rawPage identity s.listSnapshot.appliedSourceHighWater = .ok page →
    (page.patches.foldlM (s.stagePatch js identity.sourceHighWater) s.staging).finalState = g →
    StoreEffect js s (.applyPatchPage rawPage epoch)
      { s with postBaseOverrideIds := g.postBaseOverrideIds } (.error e)
  | patched {rawPage : Json} {epoch : Nat} {identity : TranscriptIdentity} {page : TranscriptPatchPage}
    {g : Staging} {t : ViewStore} :
    s.identity = some identity →
    validateTranscriptPatchPage js rawPage identity s.listSnapshot.appliedSourceHighWater = .ok page →
    page.patches.foldlM (s.stagePatch js identity.sourceHighWater) s.staging = .ok g →
    Patched js g page.nextSourceHighWater s t →
    StoreEffect js s (.applyPatchPage rawPage epoch) t (.ok (.flag true))
  | shown {raw : Json} {epoch : Nat} {next : TranscriptLiveOverlay} :
    parseTranscriptLiveOverlay raw = some next → s.sealed next = false →
    StoreEffect js s (.applyLiveOverlay raw epoch) { s with liveSnapshot := some next }
      (.ok (.flag true))
  | hidden {epoch : Nat} :
    StoreEffect js s (.clearLiveOverlay epoch) { s with liveSnapshot := none } (.ok (.flag true))
  | cleared : StoreEffect js s .clear s.clear (.ok .done)
  | released {identity : TranscriptIdentity} {t : ViewStore} :
    s.identity = some identity → Released js identity.sourceHighWater s t →
    StoreEffect js s .releaseLoadedHistory t (.ok .done)

/-! ### The blocks that a call brings -/

/-- The blocks of the page that a call brings, if the store takes the page for a valid one. -/
def ViewStore.coming (js : Js) (s : ViewStore) : StoreOp → List TranscriptBlock
  | .prependPage rawPage _ =>
    match s.identity with
    | none => []
    | some identity =>
      match validateTranscriptPage js rawPage identity.sessionId with
      | .error _ => []
      | .ok page => page.blocks
  | .applyPatchPage rawPage _ =>
    match s.identity with
    | none => []
    | some identity =>
      match validateTranscriptPatchPage js rawPage identity
        s.listSnapshot.appliedSourceHighWater with
      | .error _ => []
      | .ok page => page.patches.flatMap (·.upserts)
  | _ => []

/-- The high water of the pages that the store is opened with; history is what is not above it. -/
def ViewStore.base (s : ViewStore) : Nat := (s.identity.map (·.sourceHighWater)).getD 0

section Coming

variable {rawPage : Json} {epoch : Nat} {identity : TranscriptIdentity}

theorem base_eq (hidentity : s.identity = some identity) : s.base = identity.sourceHighWater := by
  rw [ViewStore.base, hidentity]
  rfl

theorem coming_prependPage {page : TranscriptPage} (hidentity : s.identity = some identity)
    (hpage : validateTranscriptPage js rawPage identity.sessionId = .ok page) :
    s.coming js (.prependPage rawPage epoch) = page.blocks := by
  simp only [ViewStore.coming, hidentity, hpage]

theorem coming_applyPatchPage {page : TranscriptPatchPage} (hidentity : s.identity = some identity)
    (hpage : validateTranscriptPatchPage js rawPage identity
      s.listSnapshot.appliedSourceHighWater = .ok page) :
    s.coming js (.applyPatchPage rawPage epoch) = page.patches.flatMap (·.upserts) := by
  simp only [ViewStore.coming, hidentity, hpage]

end Coming

/-! ### What a call can do -/

theorem current?_eq_some {epoch : Nat} {identity : TranscriptIdentity}
    (h : s.current? epoch = some identity) : epoch = s.viewEpoch ∧ s.identity = some identity := by
  rw [ViewStore.current?] at h
  split at h
  · cases h
  · rename_i hepoch
    exact ⟨not_not.1 hepoch, h⟩

theorem prependPage_effect (hs : StoreInv js s) (rawPage : Json) (epoch : Nat) :
    StoreEffect js s (.prependPage rawPage epoch) (s.prependPage js rawPage epoch).1
      (.flag <$> (s.prependPage js rawPage epoch).2) := by
  rw [ViewStore.prependPage]
  cases hcurrent : s.current? epoch with
  | none => exact .kept
  | some identity =>
    cases hpage : validateTranscriptPage js rawPage identity.sessionId with
    | error e =>
      simp only [hpage]
      exact .kept
    | ok page =>
      simp only [hpage]
      split
      · exact .kept
      · rename_i hidentity
        rw [not_or, not_or, not_not, not_not, not_not] at hidentity
        rcases mergePage_cases hs page with ⟨e, heq⟩ | ⟨t, heq, hmerged⟩
        · rw [heq]
          exact .kept
        · rw [heq]
          exact .merged (current?_eq_some hcurrent).2 hpage hidentity.2.2 hmerged

theorem applyPatchPage_effect (hs : StoreInv js s) (rawPage : Json) (epoch : Nat) :
    StoreEffect js s (.applyPatchPage rawPage epoch) (s.applyPatchPage js rawPage epoch).1
      (.flag <$> (s.applyPatchPage js rawPage epoch).2) := by
  rw [ViewStore.applyPatchPage]
  cases hcurrent : s.current? epoch with
  | none => exact .kept
  | some identity =>
    have hidentity := (current?_eq_some hcurrent).2
    cases hpage : validateTranscriptPatchPage js rawPage identity
      s.listSnapshot.appliedSourceHighWater with
    | error e =>
      simp only [hpage]
      exact .kept
    | ok page =>
      simp only [hpage]
      rcases patchPage_cases hs identity.sourceHighWater page with
        ⟨g, e, hfinal, heq⟩ | ⟨g, t, hstage, heq, hpatched⟩
      · rw [heq]
        exact .thrown hidentity hpage hfinal
      · rw [heq]
        exact .patched hidentity hpage hstage hpatched

theorem applyLiveOverlay_effect (js : Js) (s : ViewStore) (raw : Json) (epoch : Nat) :
    StoreEffect js s (.applyLiveOverlay raw epoch) (s.applyLiveOverlay raw epoch).1
      (.ok (.flag (s.applyLiveOverlay raw epoch).2)) := by
  rw [ViewStore.applyLiveOverlay]
  cases s.current? epoch with
  | none => exact .kept
  | some identity =>
    cases hparse : parseTranscriptLiveOverlay raw with
    | none => exact .kept
    | some next =>
      show StoreEffect js s _ (if _ then (s, false) else ({ s with liveSnapshot := some next }, true)).1
        (.ok (.flag (if _ then (s, false) else ({ s with liveSnapshot := some next }, true)).2))
      split
      · exact .kept
      · rename_i hopen
        rw [Bool.not_eq_true, Bool.or_eq_false_iff] at hopen
        exact .shown hparse hopen.2

/-- **What a call can do.** -/
theorem exec_effect (hs : StoreInv js s) (op : StoreOp) :
    StoreEffect js s op (s.exec js op).1 (s.exec js op).2 := by
  cases op with
  | openTail rawPage =>
    rw [ViewStore.exec, ViewStore.openTail]
    cases hpage : validateTranscriptTailPage js rawPage with
    | error e => exact .kept
    | ok page =>
      obtain ⟨t, heq, hopened⟩ := openPage_spec js s page
      simp only [heq]
      exact .opened hpage hopened
  | prependPage rawPage epoch => exact prependPage_effect hs rawPage epoch
  | applyPatchPage rawPage epoch => exact applyPatchPage_effect hs rawPage epoch
  | applyLiveOverlay raw epoch => exact applyLiveOverlay_effect js s raw epoch
  | clearLiveOverlay epoch =>
    show StoreEffect js s _ (s.clearLiveOverlay epoch).1 (.ok (.flag (s.clearLiveOverlay epoch).2))
    rw [ViewStore.clearLiveOverlay]
    split
    · exact .kept
    · exact .hidden
  | clear => exact .cleared
  | releaseLoadedHistory =>
    rw [ViewStore.exec]
    cases hidentity : s.identity with
    | none =>
      rw [ViewStore.releaseLoadedHistory, hidentity]
      exact .kept
    | some identity =>
      obtain ⟨t, heq, hreleased⟩ := releaseLoadedHistory_spec hs hidentity
      rw [heq]
      exact .released hidentity hreleased

/-! ### The representation -/

theorem StoreInv.effect (hs : StoreInv js s) {op : StoreOp} {answer : Except String StoreAnswer}
    (h : StoreEffect js s op t answer) : StoreInv js t := by
  cases h with
  | kept => exact hs
  | opened _ h => exact h.inv
  | merged _ _ _ h => exact h.inv
  | thrown _ _ hfinal => exact hs.withOverrides (hfinal ▸ stagingInv_final hs _)
  | patched _ _ _ h => exact h.inv
  | shown => exact hs.withLive _
  | hidden => exact hs.withLive _
  | cleared =>
    have h : StoreInv js ViewStore.initial := .initial
    exact ⟨h.keyed, h.listed, h.owned, ⟨h.accounted.bytes, h.accounted.managed⟩, h.notices, h.revised,
      h.overrides, rfl⟩
  | released _ h => exact h.inv

/-- **The invariant holds after every sequence of calls.** -/
theorem storeInv_run (js : Js) (ops : List StoreOp) : StoreInv js (ViewStore.initial.run js ops) :=
  ViewStore.run_invariant (fun _ op hs ↦ hs.effect (exec_effect hs op)) StoreInv.initial ops

/-- The representation of the store is right in every reachable state: `blockIds` are the ids of the
stored blocks, sorted, and no two of them compare equal; `orderOwners` has the owners of the places,
`managedBytes` the bytes of the blocks, and no stored notice is above `noticeHighWater`. -/
theorem representation_of_run (js : Js) (ops : List StoreOp) :
    let t := ViewStore.initial.run js ops
    t.blockIds = (t.blocks.values.insertionSort fun a b ↦ compareTranscriptBlocks a b ≤ 0).map
        (·.blockId) ∧
      t.blocks.values.Pairwise (fun a b ↦ compareTranscriptBlocks a b ≠ 0) ∧
      (∀ order id, t.orderOwners order = some id ↔
        ∃ b ∈ t.blocks.values, b.order = order ∧ b.blockId = id) ∧
      t.managedBytes = (t.blocks.values.map fun b ↦ (js.serializedBytes b.1 : Int)).sum ∧
      ∀ b ∈ t.blocks.values, b.isNotice = true → b.sourceSequence ≤ t.noticeHighWater := by
  intro t
  have h : StoreInv js t := storeInv_run js ops
  have hsorted := sortedIds_of_listed h.keyed h.listed
  refine ⟨?_, ?_, fun order id ↦ ?_, ?_, fun b hb hnotice ↦ ?_⟩
  · rw [sortedIds] at hsorted
    split at hsorted
    · exact (Except.ok.inj hsorted).symm
    · cases hsorted
  · obtain ⟨l, hperm, hlt, -⟩ := h.listed.exists_sorted h.keyed
    refine (hperm.pairwise_iff fun {a b} hne heq ↦ ?_).1 (hlt.imp fun hab heq ↦ ?_)
    · rw [compareTranscriptBlocks_eq_zero] at heq
      exact hne (compareTranscriptBlocks_eq_zero.2 heq.symm)
    · exact hab.ne (compareTranscriptBlocks_eq_zero.1 heq)
  · rw [h.owned, Option.map_eq_some_iff]
    constructor
    · rintro ⟨b, hb, rfl⟩
      exact ⟨b, Dict.mem_values.2 ⟨id, hb⟩, rfl, h.keyed id b hb⟩
    · rintro ⟨b, hb, rfl, rfl⟩
      obtain ⟨id, hb⟩ := Dict.mem_values.1 hb
      exact ⟨b, by rw [h.keyed id b hb, hb], rfl⟩
  · rw [h.accounted.total, Dict.total, Dict.values, List.map_map]
    rfl
  · obtain ⟨id, hb⟩ := Dict.mem_values.1 hb
    exact h.notices id b hb hnotice

end Centaeris.Web
