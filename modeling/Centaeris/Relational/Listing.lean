import Centaeris.Relational.Dict
import Mathlib.Data.List.Pairwise
import Mathlib.Order.Basic

/-!
# Sorted listings of a map

`Dict.Lists f d ids`: the keys of the map `d`, in the order of `f` on their values, and no two values
at the same place. There is one such list (`Lists.unique`), and it only depends on the places of the
values (`Lists.congr`).

`exists_sorted` and `lists_of_sorted` go to the sorted list of the values and back, for a map whose
keys can be read off its values.
-/

namespace Dict

variable {κ ν α : Type} [DecidableEq κ] [LinearOrder α]

/-- The keys of the map, in the order of `f` on their values. -/
structure Lists (f : ν → α) (d : Dict κ ν) (ids : List κ) : Prop where
  mem : ∀ k, k ∈ ids ↔ (d.get? k).isSome
  sorted : ids.Pairwise fun i j ↦ ∀ a b, d.get? i = some a → d.get? j = some b → f a < f b

namespace Lists

variable {f : ν → α} {d e : Dict κ ν} {ids ids' : List κ}

theorem get?_of_mem (h : Lists f d ids) {k : κ} (hk : k ∈ ids) : ∃ v, d.get? k = some v :=
  Option.isSome_iff_exists.1 ((h.mem k).1 hk)

theorem nodup (h : Lists f d ids) : ids.Nodup := by
  refine (List.Pairwise.imp_of_mem (fun {i j} hi _ hlt heq ↦ ?_) h.sorted)
  obtain ⟨v, hv⟩ := h.get?_of_mem hi
  exact lt_irrefl _ (hlt v v hv (heq ▸ hv))

/-- The places of the values are all that matters. -/
theorem congr (h : Lists f d ids) (hmap : ∀ k, (e.get? k).map f = (d.get? k).map f) :
    Lists f e ids := by
  have hplace : ∀ k v, e.get? k = some v → ∃ w, d.get? k = some w ∧ f w = f v := by
    intro k v hv
    have hk := hmap k
    rw [hv, Option.map_some] at hk
    exact Option.map_eq_some_iff.1 hk.symm
  refine ⟨fun k ↦ ?_, h.sorted.imp fun hlt a b ha hb ↦ ?_⟩
  · rw [h.mem, ← Option.isSome_map (f := f), ← hmap, Option.isSome_map]
  · obtain ⟨a', ha', hfa⟩ := hplace _ _ ha
    obtain ⟨b', hb', hfb⟩ := hplace _ _ hb
    rw [← hfa, ← hfb]
    exact hlt a' b' ha' hb'

/-- A part of the map is listed by a part of the list. -/
theorem restrict (h : Lists f d ids) (hsub : ∀ k v, e.get? k = some v → d.get? k = some v) :
    Lists f e (ids.filter fun k ↦ (e.get? k).isSome) := by
  refine ⟨fun k ↦ ?_, ?_⟩
  · rw [List.mem_filter, h.mem]
    refine ⟨And.right, fun hk ↦ ⟨?_, hk⟩⟩
    obtain ⟨v, hv⟩ := Option.isSome_iff_exists.1 hk
    rw [hsub k v hv]
    rfl
  · refine (h.sorted.sublist List.filter_sublist).imp fun hlt a b ha hb ↦ ?_
    exact hlt a b (hsub _ a ha) (hsub _ b hb)

/-- **There is one listing.** -/
theorem unique (h : Lists f d ids) (h' : Lists f d ids') : ids = ids' := by
  have hperm : ids.Perm ids' :=
    (List.perm_ext_iff_of_nodup h.nodup h'.nodup).2 fun k ↦ by rw [h.mem, h'.mem]
  refine List.Perm.eq_of_pairwise (fun i j hi hj hij hji ↦ ?_) h.sorted h'.sorted hperm
  obtain ⟨a, ha⟩ := h.get?_of_mem hi
  obtain ⟨b, hb⟩ := h'.get?_of_mem hj
  exact absurd (hij a b ha hb) (hji b a hb ha).asymm

/-- The values, sorted. -/
theorem exists_sorted {key : ν → κ} (hkey : ∀ k v, d.get? k = some v → key v = k)
    (h : Lists f d ids) :
    ∃ l : List ν, l.Perm d.values ∧ l.Pairwise (fun a b ↦ f a < f b) ∧ ids = l.map key := by
  have hmem : ∀ v, v ∈ ids.filterMap d.get? ↔ v ∈ d.values := by
    intro v
    rw [List.mem_filterMap, mem_values]
    constructor
    · rintro ⟨k, -, hv⟩
      exact ⟨k, hv⟩
    · rintro ⟨k, hv⟩
      exact ⟨k, (h.mem k).2 (hv ▸ rfl), hv⟩
  have hsorted : (ids.filterMap d.get?).Pairwise fun a b ↦ f a < f b := by
    refine List.pairwise_filterMap.2 (h.sorted.imp fun hlt a ha b hb ↦ hlt a b ha hb)
  have hvalues : d.values.Nodup := by
    have hkeys : d.values.map key = d.rows.map Prod.fst := by
      rw [values, List.map_map]
      exact List.map_congr_left fun entry hentry ↦ hkey _ _ (mem_rows.1 hentry)
    exact (hkeys ▸ d.nodup_keys).of_map _
  refine ⟨_, (List.perm_ext_iff_of_nodup ?_ hvalues).2 hmem, hsorted, ?_⟩
  · exact hsorted.imp fun hlt heq ↦ absurd (heq ▸ hlt) (lt_irrefl _)
  · have hall : ∀ k ∈ ids, ∃ v, d.get? k = some v := fun k hk ↦ h.get?_of_mem hk
    clear hmem hsorted h
    induction ids with
    | nil => rfl
    | cons k ids ih =>
      obtain ⟨v, hv⟩ := hall k List.mem_cons_self
      rw [List.filterMap_cons_some hv, List.map_cons, hkey k v hv,
        ← ih fun k hk ↦ hall k (List.mem_cons_of_mem _ hk)]

end Lists

variable {f : ν → α} {d : Dict κ ν}

theorem lists_of_sorted {key : ν → κ} (hkey : ∀ k v, d.get? k = some v → key v = k) {l : List ν}
    (hperm : l.Perm d.values) (hsorted : l.Pairwise fun a b ↦ f a < f b) :
    Lists f d (l.map key) := by
  have hget : ∀ v ∈ l, d.get? (key v) = some v := by
    intro v hv
    obtain ⟨k, hk⟩ := mem_values.1 (hperm.mem_iff.1 hv)
    rw [hkey k v hk, hk]
  refine ⟨fun k ↦ ?_, ?_⟩
  · rw [List.mem_map, Option.isSome_iff_exists]
    constructor
    · rintro ⟨v, hv, rfl⟩
      exact ⟨v, hget v hv⟩
    · rintro ⟨v, hv⟩
      exact ⟨v, hperm.mem_iff.2 (mem_values.2 ⟨k, hv⟩), hkey k v hv⟩
  · refine List.pairwise_map.2 (List.Pairwise.imp_of_mem (fun {a b} ha hb hlt a' b' ha' hb' ↦ ?_)
      hsorted)
    rw [hget a ha] at ha'
    rw [hget b hb] at hb'
    cases ha'
    cases hb'
    exact hlt

end Dict
