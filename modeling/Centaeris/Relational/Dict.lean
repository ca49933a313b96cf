import Centaeris.Relational.Table
import Mathlib.Algebra.BigOperators.Group.List.Basic
import Mathlib.Data.List.Perm.Lattice
import Mathlib.Algebra.Ring.Int.Defs
import Mathlib.Algebra.Ring.Nat

/-!
# Insertion-ordered maps

`Map` of the client's language: entries in the order in which their keys were first set, a key set
again keeps its place. It is a table of pairs.

The order is there because a map can be iterated. Everything else is a function of `get?`: two maps
with the same answers have the same entries up to order (`perm_rows`), and what is summed over the
entries follows from the answers (`total_set`, `total_erase`, `total_eq`).
-/

/-- An insertion-ordered map. -/
abbrev Dict (κ ν : Type) : Type := Table (Prod.fst : κ × ν → κ)

namespace Dict

variable {κ ν μ : Type} [DecidableEq κ]

/-- `map.get(k)`. -/
def get? (d : Dict κ ν) (k : κ) : Option ν := (Table.get? d k).map Prod.snd

/-- `map.has(k)`. -/
def has (d : Dict κ ν) (k : κ) : Bool := (get? d k).isSome

/-- `map.set(k, v)`. -/
def set (d : Dict κ ν) (k : κ) (v : ν) : Dict κ ν :=
  Table.upsert d (k, v) (fun e ↦ (e.1, v)) fun _ ↦ rfl

/-- `map.delete(k)`. -/
def erase (d : Dict κ ν) (k : κ) : Dict κ ν := Table.delete d fun e ↦ decide (e.1 = k)

/-- `map.values()`. -/
def values (d : Dict κ ν) : List ν := d.rows.map Prod.snd

/-- The sum of `f` over the values. -/
def total (f : ν → Int) (d : Dict κ ν) : Int := (d.rows.map fun e ↦ f e.2).sum

variable {d e : Dict κ ν} {k : κ} {v : ν}

@[simp] theorem get?_empty (k : κ) : get? (Table.empty : Dict κ ν) k = none := rfl

omit [DecidableEq κ] in
@[simp] theorem values_empty : values (Table.empty : Dict κ ν) = [] := rfl

theorem get?_set (d : Dict κ ν) (k : κ) (v : ν) (k' : κ) :
    get? (set d k v) k' = if k = k' then some v else get? d k' := by
  rw [get?, set, Table.get?_upsert]
  by_cases h : k = k'
  · rw [if_pos h, if_pos h]
    cases Table.get? d k' <;> rfl
  · rw [if_neg h, if_neg h]
    rfl

theorem get?_erase (d : Dict κ ν) (k k' : κ) :
    get? (erase d k) k' = if k = k' then none else get? d k' := by
  rw [get?, erase, Table.get?_delete]
  cases h : Table.get? d k' with
  | none => simp [get?, h]
  | some entry =>
    have hkey : entry.1 = k' := Table.key_of_get? h
    by_cases hk : k = k'
    · simp [hkey, hk, Option.filter]
    · simp [get?, h, hkey, hk, Ne.symm hk, Option.filter]

theorem mem_rows : (k, v) ∈ d.rows ↔ get? d k = some v := by
  constructor
  · intro h
    have hrow := Table.get?_of_mem h
    rw [get?, hrow]
    rfl
  · intro h
    obtain ⟨⟨k', v'⟩, hrow, rfl⟩ := Option.map_eq_some_iff.1 h
    obtain rfl : k' = k := Table.key_of_get? hrow
    exact Table.mem_of_get? hrow

theorem mem_values : v ∈ values d ↔ ∃ k, get? d k = some v := by
  constructor
  · intro h
    obtain ⟨⟨k, v'⟩, hmem, rfl⟩ := List.mem_map.1 h
    exact ⟨k, mem_rows.1 hmem⟩
  · rintro ⟨k, h⟩
    exact List.mem_map.2 ⟨(k, v), mem_rows.2 h, rfl⟩

omit [DecidableEq κ] in
theorem nodup_rows (d : Dict κ ν) : d.rows.Nodup := d.nodup_keys.of_map _

/-- **The answers determine the entries.** -/
theorem perm_rows (h : ∀ k, get? d k = get? e k) : d.rows.Perm e.rows := by
  refine (List.perm_ext_iff_of_nodup d.nodup_rows e.nodup_rows).2 ?_
  rintro ⟨k, v⟩
  rw [mem_rows, mem_rows, h]

section Total

variable {f : ν → Int}

theorem total_congr (h : ∀ k, get? d k = get? e k) : total f d = total f e :=
  ((perm_rows h).map _).sum_eq

/-- An entry apart from the others. -/
theorem total_split (h : get? d k = some v) : total f d = f v + total f (erase d k) := by
  have hperm : d.rows.Perm ((k, v) :: (erase d k).rows) := by
    refine (List.perm_ext_iff_of_nodup d.nodup_rows ?_).2 ?_
    · refine List.nodup_cons.2 ⟨fun hmem ↦ ?_, nodup_rows _⟩
      rw [mem_rows, get?_erase, if_pos rfl] at hmem
      cases hmem
    · rintro ⟨k', v'⟩
      rw [List.mem_cons, mem_rows, mem_rows, get?_erase]
      by_cases hk : k = k'
      · subst hk
        simp [h, eq_comm]
      · simp [hk, Ne.symm hk]
  rw [total, (hperm.map _).sum_eq]
  rfl

theorem total_erase (f : ν → Int) (d : Dict κ ν) (k : κ) :
    total f (erase d k) = total f d - (get? d k).elim 0 f := by
  cases h : get? d k with
  | none =>
    rw [Option.elim_none, sub_zero]
    refine total_congr fun k' ↦ ?_
    rw [get?_erase]
    split
    · rename_i heq
      rw [← heq, h]
    · rfl
  | some v =>
    rw [total_split h, Option.elim_some]
    exact (add_sub_cancel_left _ _).symm

theorem total_set (f : ν → Int) (d : Dict κ ν) (k : κ) (v : ν) :
    total f (set d k v) = total f d - (get? d k).elim 0 f + f v := by
  have hself : get? (set d k v) k = some v := by rw [get?_set, if_pos rfl]
  have herase : ∀ k', get? (erase (set d k v) k) k' = get? (erase d k) k' := by
    intro k'
    rw [get?_erase, get?_erase, get?_set]
    split <;> rfl
  rw [total_split hself, total_congr herase, total_erase, add_comm]

/-- Two maps that go hand in hand have the same sums. -/
theorem total_eq {d : Dict κ ν} {e : Dict κ μ} {f : ν → Int} {g : μ → Int} (h : ν → μ)
    (hmap : ∀ k, get? e k = (get? d k).map h) (hf : ∀ v, g (h v) = f v) :
    total g e = total f d := by
  have hperm : e.rows.Perm (d.rows.map fun entry ↦ (entry.1, h entry.2)) := by
    refine (List.perm_ext_iff_of_nodup e.nodup_rows ?_).2 ?_
    · have hkeys : ((d.rows.map fun entry ↦ (entry.1, h entry.2)).map Prod.fst).Nodup := by
        rw [List.map_map]
        exact d.nodup_keys
      exact hkeys.of_map _
    · rintro ⟨k, m⟩
      rw [mem_rows, hmap, Option.map_eq_some_iff, List.mem_map]
      constructor
      · rintro ⟨v, hv, rfl⟩
        exact ⟨(k, v), mem_rows.2 hv, rfl⟩
      · rintro ⟨⟨k', v⟩, hmem, heq⟩
        cases heq
        exact ⟨v, mem_rows.1 hmem, rfl⟩
  rw [total, (hperm.map _).sum_eq, List.map_map, total]
  exact congrArg List.sum (List.map_congr_left fun entry _ ↦ hf entry.2)

end Total

/-! ### Staged changes -/

/-- The changes of a staged map, one after the other: `none` deletes. -/
def overlay (d : Dict κ ν) (changes : Dict κ (Option ν)) : Dict κ ν :=
  changes.rows.foldl (fun d change ↦ change.2.elim (erase d change.1) (set d change.1)) d

/-- **After the changes, a key has its change or what it had.** -/
theorem get?_overlay (d : Dict κ ν) (changes : Dict κ (Option ν)) (k : κ) :
    get? (overlay d changes) k = (get? changes k).getD (get? d k) := by
  obtain ⟨rows, hnodup⟩ := changes
  rw [overlay]
  induction rows generalizing d with
  | nil => rfl
  | cons change rows ih =>
    obtain ⟨k', o⟩ := change
    rw [List.map_cons, List.nodup_cons] at hnodup
    have hfirst : get? (⟨(k', o) :: rows, List.nodup_cons.2 hnodup⟩ : Dict κ (Option ν)) k =
        if k' = k then some o else get? (⟨rows, hnodup.2⟩ : Dict κ (Option ν)) k := by
      by_cases hk : k' = k <;> simp [get?, Table.get?, hk]
    have hstep : get? (o.elim (erase d k') (set d k')) k = if k' = k then o else get? d k := by
      cases o with
      | none => exact get?_erase d k' k
      | some v => exact get?_set d k' v k
    rw [List.foldl_cons, ih _ hnodup.2, hfirst, hstep]
    by_cases hk : k' = k
    · -- The key does not come again.
      subst hk
      have hnone : get? (⟨rows, hnodup.2⟩ : Dict κ (Option ν)) k' = none := by
        by_contra hsome
        obtain ⟨v, hv⟩ := Option.ne_none_iff_exists'.1 hsome
        exact hnodup.1 (List.mem_map.2 ⟨(k', v), mem_rows.2 hv, rfl⟩)
      rw [hnone, if_pos rfl, if_pos rfl]
      rfl
    · rw [if_neg hk, if_neg hk]

end Dict
