import Centaeris.Web.ViewStore
import Centaeris.Relational.Listing

/-!
# The representation of the view store

What is kept beside the blocks says what could be read off them: `blockIds` lists them in order,
`orderOwners` has the owner of every place, the byte counts add up, and `noticeHighWater` is not below
a stored notice. `StoreInv` is the invariant.

`sortedIds` and `indexOrders` build an index anew. A patch page changes the indexes it finds: the
owners of removed blocks are released and those of new blocks claimed, and the new ids are merged into
the old ones. Both are compared with `Listed` and `Owns`, the two relations between the blocks and
their indexes.
-/

namespace Centaeris.Web

open Except

/-! ### Sorting -/

instance : Std.Total fun a b : TranscriptBlock ↦ compareTranscriptBlocks a b ≤ 0 :=
  ⟨fun a b ↦ by simpa only [compareTranscriptBlocks_nonpos] using le_total a.order b.order⟩

instance : IsTrans TranscriptBlock fun a b ↦ compareTranscriptBlocks a b ≤ 0 :=
  ⟨fun a b c ↦ by simpa only [compareTranscriptBlocks_nonpos] using le_trans⟩

/-- The blocks are stored under their own ids. -/
def Keyed (d : Dict String TranscriptBlock) : Prop := ∀ id b, d.get? id = some b → b.blockId = id

/-- The ids of the stored blocks, in order. -/
abbrev Listed (d : Dict String TranscriptBlock) (ids : List String) : Prop :=
  d.Lists TranscriptBlock.order ids

variable {d : Dict String TranscriptBlock} {ids : List String}

theorem sort_pairwise (l : List TranscriptBlock) :
    (l.insertionSort fun a b ↦ compareTranscriptBlocks a b ≤ 0).Pairwise
      fun a b ↦ a.order ≤ b.order :=
  (List.pairwise_insertionSort _ l).imp compareTranscriptBlocks_nonpos.1

/-- A sorted list without two blocks at one place. -/
theorem sorted_of_distinct {l : List TranscriptBlock}
    (hsorted : l.Pairwise fun a b ↦ a.order ≤ b.order)
    (hdistinct : l.Pairwise fun a b ↦ a.order ≠ b.order) :
    l.Pairwise fun a b ↦ a.order < b.order :=
  hsorted.imp₂ (fun _ _ hle hne ↦ lt_of_le_of_ne hle hne) hdistinct

/-- Neighbours at different places are enough. -/
theorem sorted_of_isChain {l : List TranscriptBlock}
    (hsorted : l.Pairwise fun a b ↦ a.order ≤ b.order)
    (hchain : l.IsChain fun a b ↦ compareTranscriptBlocks a b ≠ 0) :
    l.Pairwise fun a b ↦ a.order < b.order := by
  have hlt : l.IsChain fun a b ↦ a.order < b.order := by
    induction l with
    | nil => exact .nil
    | cons a l ih =>
      cases l with
      | nil => exact .singleton a
      | cons b l =>
        obtain ⟨hne, hchain⟩ := List.isChain_cons_cons.1 hchain
        obtain ⟨hle, hsorted⟩ := List.pairwise_cons.1 hsorted
        refine List.isChain_cons_cons.2 ⟨?_, ih hsorted hchain⟩
        refine lt_of_le_of_ne (hle b List.mem_cons_self) fun heq ↦ hne ?_
        exact compareTranscriptBlocks_eq_zero.2 heq
  exact List.pairwise_map.1 ((List.isChain_map TranscriptBlock.order).2 hlt).pairwise

theorem listed_of_sortedIds (hd : Keyed d) (h : sortedIds d = .ok ids) : Listed d ids := by
  rw [sortedIds] at h
  split at h
  · rename_i hchain
    cases h
    refine Dict.lists_of_sorted hd (List.perm_insertionSort _ _) ?_
    exact sorted_of_isChain (sort_pairwise _) hchain
  · cases h

theorem sortedIds_of_listed (hd : Keyed d) (h : Listed d ids) : sortedIds d = .ok ids := by
  obtain ⟨l, hperm, hsorted, rfl⟩ := h.exists_sorted hd
  have heq : d.values.insertionSort (fun a b ↦ compareTranscriptBlocks a b ≤ 0) = l := by
    refine List.Perm.eq_of_pairwise (fun a b ha hb hab hba ↦ ?_) (sort_pairwise _)
      (hsorted.imp le_of_lt) ((List.perm_insertionSort _ _).trans hperm.symm)
    by_contra hne
    have hmem : a ∈ l := hperm.mem_iff.2 ((List.perm_insertionSort _ _).mem_iff.1 ha)
    have hsymm : Std.Symm fun a b : TranscriptBlock ↦ a.order ≠ b.order := ⟨fun _ _ ↦ Ne.symm⟩
    exact (hsorted.imp ne_of_lt).forall hmem hb hne (le_antisymm hab hba)
  rw [sortedIds, heq, if_pos]
  refine (hsorted.imp fun hlt heq ↦ ?_).isChain
  exact hlt.ne (compareTranscriptBlocks_eq_zero.1 heq)

/-! ### Owners -/

/-- The owners are those of the stored blocks. -/
def Owns (d : Dict String TranscriptBlock) (owners : OrderKey → Option String) : Prop :=
  ∀ order id, owners order = some id ↔ (d.get? id).map (·.order) = some order

variable {owners owners' : OrderKey → Option String} {l : List TranscriptBlock}

theorem claimOrder_ok {item : TranscriptBlock} (h : claimOrder owners item = .ok owners') :
    (∀ owner, owners item.order = some owner → owner = item.blockId) ∧
      owners' = Function.update owners item.order (some item.blockId) := by
  rw [claimOrder] at h
  split at h
  · cases h
  · rename_i hfree
    refine ⟨fun owner howner ↦ ?_, (Except.ok.inj h).symm⟩
    rw [howner] at hfree
    simpa using hfree

/-- **Blocks that took their places.** They are at different places, and none of them was taken by
another block. -/
theorem claimOrders_ok (hids : (l.map (·.blockId)).Nodup) (h : l.foldlM claimOrder owners = .ok owners') :
    l.Pairwise (fun a b ↦ a.order ≠ b.order) ∧
    (∀ b ∈ l, ∀ owner, owners b.order = some owner → owner = b.blockId) ∧
    ∀ order id, owners' order = some id ↔ (∃ b ∈ l, b.order = order ∧ b.blockId = id) ∨
      owners order = some id ∧ ∀ b ∈ l, b.order ≠ order := by
  induction l generalizing owners with
  | nil =>
    cases h
    simp
  | cons item l ih =>
    rw [List.foldlM_cons] at h
    obtain ⟨owners₁, hitem, h⟩ := bind_eq_ok.1 h
    obtain ⟨hfree, rfl⟩ := claimOrder_ok hitem
    obtain ⟨hnew, hids⟩ := List.nodup_cons.1 hids
    obtain ⟨hpair, hrest, howners⟩ := ih hids h
    -- The place of `item` is taken by now, and later blocks have other ids.
    have hne : ∀ b ∈ l, item.order ≠ b.order := by
      intro b hb heq
      have howner := hrest b hb item.blockId (by rw [← heq, Function.update_self])
      exact hnew (List.mem_map.2 ⟨b, hb, howner.symm⟩)
    refine ⟨List.pairwise_cons.2 ⟨hne, hpair⟩, ?_, fun order id ↦ ?_⟩
    · intro b hb owner howner
      rcases List.mem_cons.1 hb with rfl | hb
      · exact hfree owner howner
      · exact hrest b hb owner (by rwa [Function.update_of_ne (hne b hb).symm])
    · rw [howners]
      by_cases horder : item.order = order
      · subst horder
        rw [Function.update_self]
        constructor
        · rintro (⟨b, hb, heq, -⟩ | ⟨heq, -⟩)
          · exact absurd heq.symm (hne b hb)
          · exact .inl ⟨item, List.mem_cons_self, rfl, Option.some.inj heq⟩
        · rintro (⟨b, hb, heq, rfl⟩ | ⟨-, hnone⟩)
          · rcases List.mem_cons.1 hb with rfl | hb
            · exact .inr ⟨rfl, fun b hb heq ↦ hne b hb heq.symm⟩
            · exact absurd heq.symm (hne b hb)
          · exact absurd rfl (hnone item List.mem_cons_self)
      · rw [Function.update_of_ne (Ne.symm horder)]
        simp only [List.mem_cons, exists_eq_or_imp, forall_eq_or_imp, horder, false_and, false_or,
          ne_eq, not_false_eq_true, true_and]

/-- Blocks at different places that are free take them. -/
theorem exists_claimOrders (hpair : l.Pairwise fun a b ↦ a.order ≠ b.order)
    (hfree : ∀ b ∈ l, owners b.order = none) : ∃ owners', l.foldlM claimOrder owners = .ok owners' := by
  induction l generalizing owners with
  | nil => exact ⟨owners, rfl⟩
  | cons item l ih =>
    obtain ⟨hne, hpair⟩ := List.pairwise_cons.1 hpair
    have hclaim : claimOrder owners item =
        .ok (Function.update owners item.order (some item.blockId)) := by
      rw [claimOrder, hfree item List.mem_cons_self]
      rfl
    rw [List.foldlM_cons, hclaim]
    refine ih hpair fun b hb ↦ ?_
    rw [Function.update_of_ne (hne b hb).symm]
    exact hfree b (List.mem_cons_of_mem _ hb)

theorem nodup_values (hd : Keyed d) : (d.values.map (·.blockId)).Nodup := by
  have hkeys : d.values.map (·.blockId) = d.rows.map Prod.fst := by
    rw [Dict.values, List.map_map]
    exact List.map_congr_left fun entry hentry ↦ hd _ _ (Dict.mem_rows.1 hentry)
  exact hkeys ▸ d.nodup_keys

/-- **A listed map can be indexed.** -/
theorem exists_indexOrders (hd : Keyed d) (h : Listed d ids) :
    ∃ owners, indexOrders d = .ok owners ∧ Owns d owners := by
  have hpair : d.values.Pairwise fun a b ↦ a.order ≠ b.order := by
    obtain ⟨l, hperm, hsorted, -⟩ := h.exists_sorted hd
    have hsymm : Std.Symm fun a b : TranscriptBlock ↦ a.order ≠ b.order := ⟨fun _ _ ↦ Ne.symm⟩
    exact (hperm.pairwise_iff fun {_ _} ↦ Ne.symm).1 (hsorted.imp ne_of_lt)
  obtain ⟨owners, howners⟩ : ∃ owners, indexOrders d = .ok owners :=
    exists_claimOrders hpair fun _ _ ↦ rfl
  refine ⟨owners, howners, fun order id ↦ ?_⟩
  rw [(claimOrders_ok (nodup_values hd) howners).2.2, Option.map_eq_some_iff]
  constructor
  · rintro (⟨b, hb, rfl, rfl⟩ | ⟨hnone, -⟩)
    · obtain ⟨k, hk⟩ := Dict.mem_values.1 hb
      exact ⟨b, by rw [hd k b hk, hk], rfl⟩
    · cases hnone
  · rintro ⟨b, hb, rfl⟩
    exact .inl ⟨b, Dict.mem_values.2 ⟨id, hb⟩, rfl, hd id b hb⟩

/-! ### Bytes -/

/-- The bytes of every stored block are known, and they add up. -/
structure Accounted (js : Js) (s : ViewStore) : Prop where
  bytes : ∀ id, s.blockBytes.get? id = (s.blocks.get? id).map (·.bytes js)
  managed : s.managedBytes = Dict.total (fun n : Nat ↦ (n : Int)) s.blockBytes

variable {js : Js} {s t : ViewStore}

theorem replaceManagedBlock_eq (js : Js) (s : ViewStore) (id : String)
    (block : Option TranscriptBlock) :
    s.replaceManagedBlock js id block = { s with
      blockBytes := block.elim (s.blockBytes.erase id) fun b ↦ s.blockBytes.set id (b.bytes js)
      managedBytes := s.managedBytes - (s.blockBytes.get? id).getD 0 +
        block.elim 0 fun b ↦ (b.bytes js : Int) } := by
  cases block with
  | none => simp [ViewStore.replaceManagedBlock]
  | some b => rfl

/-- The bytes of one block are replaced, and the sum follows. -/
theorem replaceManagedBlock_bytes (id : String) (block : Option TranscriptBlock) (id' : String) :
    (s.replaceManagedBlock js id block).blockBytes.get? id' =
      if id = id' then block.map (·.bytes js) else s.blockBytes.get? id' := by
  rw [replaceManagedBlock_eq]
  cases block with
  | none => exact Dict.get?_erase _ _ _
  | some b => exact Dict.get?_set _ _ _ _

theorem replaceManagedBlock_managed
    (h : s.managedBytes = Dict.total (fun n : Nat ↦ (n : Int)) s.blockBytes) (id : String)
    (block : Option TranscriptBlock) :
    (s.replaceManagedBlock js id block).managedBytes =
      Dict.total (fun n : Nat ↦ (n : Int)) (s.replaceManagedBlock js id block).blockBytes := by
  have hold : (((s.blockBytes.get? id).getD 0 : Nat) : Int) =
      (s.blockBytes.get? id).elim 0 fun n ↦ (n : Int) := by
    cases s.blockBytes.get? id <;> rfl
  rw [replaceManagedBlock_eq]
  cases block with
  | none =>
    show s.managedBytes - _ + 0 = Dict.total _ (s.blockBytes.erase id)
    rw [Dict.total_erase, ← h, hold, add_zero]
  | some b =>
    show s.managedBytes - _ + (b.bytes js : Int) = Dict.total _ (s.blockBytes.set id (b.bytes js))
    rw [Dict.total_set, ← h, hold]

/-- One block is replaced, or removed, together with its bytes. -/
theorem Accounted.replace (h : Accounted js s) {id : String} {block : Option TranscriptBlock}
    (hblocks : ∀ id', t.blocks.get? id' = if id = id' then block else s.blocks.get? id')
    (hbytes : t.blockBytes = (s.replaceManagedBlock js id block).blockBytes)
    (hmanaged : t.managedBytes = (s.replaceManagedBlock js id block).managedBytes) :
    Accounted js t where
  bytes := fun id' ↦ by
    rw [hbytes, replaceManagedBlock_bytes, hblocks]
    split
    · rfl
    · exact h.bytes id'
  managed := by
    rw [hmanaged, hbytes]
    exact replaceManagedBlock_managed h.managed id block

/-- What the sum is about: the stored blocks. -/
theorem Accounted.total (h : Accounted js s) :
    s.managedBytes = Dict.total (fun b : TranscriptBlock ↦ (b.bytes js : Int)) s.blocks := by
  rw [h.managed]
  exact Dict.total_eq (·.bytes js) h.bytes fun _ ↦ rfl

/-! ### Notices -/

theorem foldl_raiseNotice_le {l : List TranscriptBlock} {k n : Nat} :
    l.foldl raiseNotice k ≤ n ↔ k ≤ n ∧ ∀ b ∈ l, b.isNotice = true → b.sourceSequence ≤ n := by
  induction l generalizing k with
  | nil => simp
  | cons item l ih =>
    have hitem : raiseNotice k item ≤ n ↔
        k ≤ n ∧ (item.isNotice = true → item.sourceSequence ≤ n) := by
      rw [raiseNotice]
      split
      · rename_i hnotice
        simp [hnotice]
      · rename_i hnotice
        simp [hnotice]
    rw [List.foldl_cons, ih, hitem, List.forall_mem_cons, and_assoc]

/-- The highest notice is the least bound of the notices. -/
theorem latestNoticeHighWater_le_iff {n : Nat} : latestNoticeHighWater d ≤ n ↔
    ∀ id b, d.get? id = some b → b.isNotice = true → b.sourceSequence ≤ n := by
  show d.values.foldl raiseNotice 0 ≤ n ↔ _
  rw [foldl_raiseNotice_le]
  constructor
  · rintro ⟨-, h⟩ id b hb
    exact h b (Dict.mem_values.2 ⟨id, hb⟩)
  · intro h
    refine ⟨Nat.zero_le n, fun b hb ↦ ?_⟩
    obtain ⟨id, hb⟩ := Dict.mem_values.1 hb
    exact h id b hb

/-! ### The invariant -/

/-- **The invariant of the store.** -/
structure StoreInv (js : Js) (s : ViewStore) : Prop where
  keyed : Keyed s.blocks
  listed : Listed s.blocks s.blockIds
  owned : Owns s.blocks s.orderOwners
  accounted : Accounted js s
  notices : ∀ id b, s.blocks.get? id = some b → b.isNotice = true →
    b.sourceSequence ≤ s.noticeHighWater
  revised : ∀ id b, s.blocks.get? id = some b → s.revisions id = some b.blockRevision
  overrides : ∀ id ∈ s.postBaseOverrideIds, (s.blocks.get? id).isSome
  snapshot : s.listSnapshot.blockIds = s.blockIds

theorem StoreInv.initial : StoreInv js ViewStore.initial where
  keyed := fun _ _ h ↦ by cases h
  listed := ⟨fun _ ↦ by simp [ViewStore.initial], .nil⟩
  owned := fun _ _ ↦ by simp [ViewStore.initial]
  accounted := ⟨fun _ ↦ rfl, rfl⟩
  notices := fun _ _ h ↦ by cases h
  revised := fun _ _ h ↦ by cases h
  overrides := fun _ h ↦ by cases h
  snapshot := rfl

/-- The overlay is not part of it. -/
theorem StoreInv.withLive (h : StoreInv js s) (live : Option TranscriptLiveOverlay) :
    StoreInv js { s with liveSnapshot := live } :=
  ⟨h.keyed, h.listed, h.owned, ⟨h.accounted.bytes, h.accounted.managed⟩, h.notices, h.revised,
    h.overrides, h.snapshot⟩

end Centaeris.Web
