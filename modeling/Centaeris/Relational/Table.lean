import Mathlib.Data.List.Nodup
import Mathlib.Data.List.Sort
import Mathlib.Data.List.Perm.Subperm

/-!
# Tables with a primary key

The tables of a relational store as lists of rows. The primary key is a function of the row, and
the key constraint is a field of `Table`: a table in which two rows share a key cannot be built.

* `Table.get?` is the point query `SELECT … WHERE key = k`.
* `Table.insert?` is a plain `INSERT`; it fails on a taken key.
* `Table.insertIgnore` is `INSERT … ON CONFLICT DO NOTHING`.
* `Table.upsert` is `INSERT … ON CONFLICT DO UPDATE`.
* `Table.update` and `Table.delete` are the `WHERE` forms over all rows.

**One equation per statement.** Every statement has a lemma that says what `get?` returns
afterwards. A proof about a stored row cites that equation and never looks at the row list; the
list itself matters only where rows are counted, which is what `Table.count` is for.
-/

/-- Rows with a primary key; no two rows share a key. -/
@[ext]
structure Table {ρ κ : Type} (key : ρ → κ) where
  /-- The rows, in insertion order. -/
  rows : List ρ
  /-- The primary-key constraint. -/
  nodup_keys : (rows.map key).Nodup

namespace Table

variable {ρ κ : Type} {key : ρ → κ}

instance [DecidableEq ρ] : DecidableEq (Table key) := fun s t ↦
  decidable_of_iff (s.rows = t.rows) Table.ext_iff.symm

/-- The table without rows. -/
def empty : Table key := ⟨[], List.nodup_nil⟩

/-- Deletion of the rows that satisfy a predicate. -/
def delete (t : Table key) (p : ρ → Bool) : Table key :=
  ⟨t.rows.filter fun r ↦ !p r, (t.nodup_keys.sublist (List.filter_sublist.map key))⟩

/-- The number of rows that satisfy a predicate. -/
def count (t : Table key) (p : ρ → Bool) : Nat := t.rows.countP p

section Update

private theorem map_key_update (rows : List ρ) (p : ρ → Bool) (f : ρ → ρ)
    (hf : ∀ r, key (f r) = key r) :
    (rows.map fun r ↦ if p r then f r else r).map key = rows.map key := by
  rw [List.map_map]
  refine List.map_congr_left fun r _ ↦ ?_
  by_cases h : p r <;> simp [h, hf]

/-- `UPDATE … SET f WHERE p`, for an assignment that leaves the key alone. -/
def update (t : Table key) (p : ρ → Bool) (f : ρ → ρ) (hf : ∀ r, key (f r) = key r) :
    Table key :=
  ⟨t.rows.map fun r ↦ if p r then f r else r, by
    rw [map_key_update t.rows p f hf]; exact t.nodup_keys⟩

end Update

variable [DecidableEq κ]

/-- The row stored under a key. -/
def get? (t : Table key) (k : κ) : Option ρ := t.rows.find? fun r ↦ decide (key r = k)

theorem mem_of_get? {t : Table key} {k : κ} {r : ρ} (h : t.get? k = some r) : r ∈ t.rows :=
  List.mem_of_find?_eq_some h

theorem key_of_get? {t : Table key} {k : κ} {r : ρ} (h : t.get? k = some r) : key r = k := by
  simpa using List.find?_some h

/-- A stored row is the answer to the query for its own key. -/
theorem get?_of_mem {t : Table key} {r : ρ} (h : r ∈ t.rows) : t.get? (key r) = some r := by
  obtain ⟨r', h'⟩ : ∃ r', t.get? (key r) = some r' :=
    Option.isSome_iff_exists.1 (by simpa [get?] using ⟨r, h, rfl⟩)
  rw [h', List.inj_on_of_nodup_map t.nodup_keys (mem_of_get? h') h (key_of_get? h')]

theorem get?_eq_some_iff {t : Table key} {k : κ} {r : ρ} :
    t.get? k = some r ↔ r ∈ t.rows ∧ key r = k :=
  ⟨fun h ↦ ⟨mem_of_get? h, key_of_get? h⟩, fun ⟨h, hk⟩ ↦ hk ▸ get?_of_mem h⟩

theorem get?_eq_none_iff {t : Table key} {k : κ} :
    t.get? k = none ↔ ∀ r ∈ t.rows, key r ≠ k := by
  simp [get?]

@[simp] theorem get?_empty (k : κ) : (empty : Table key).get? k = none := rfl

/-! ### Updates and deletions -/

theorem get?_update (t : Table key) (p : ρ → Bool) (f : ρ → ρ) (hf : ∀ r, key (f r) = key r)
    (k : κ) : (t.update p f hf).get? k = (t.get? k).map fun r ↦ if p r then f r else r := by
  have hcomp : (fun r ↦ decide (key (if p r then f r else r) = k)) = fun r ↦ decide (key r = k) := by
    funext r
    by_cases h : p r <;> simp [h, hf]
  simp only [get?, update, List.find?_map, Function.comp_def, hcomp]

theorem get?_delete (t : Table key) (p : ρ → Bool) (k : κ) :
    (t.delete p).get? k = (t.get? k).filter fun r ↦ !p r := by
  cases h : t.get? k with
  | none =>
    refine get?_eq_none_iff.2 fun r hr ↦ ?_
    exact get?_eq_none_iff.1 h r (List.mem_of_mem_filter hr)
  | some r =>
    by_cases hp : p r
    · simp only [Option.filter, hp, Bool.not_true, Bool.false_eq_true, if_false]
      refine get?_eq_none_iff.2 fun r' hr' hk ↦ ?_
      obtain ⟨hmem, hp'⟩ := List.mem_filter.1 hr'
      have : r' = r := Option.some.inj ((hk ▸ get?_of_mem hmem : t.get? k = some r').symm.trans h)
      simp [this, hp] at hp'
    · simp only [Option.filter, hp, Bool.not_false, if_true]
      exact get?_eq_some_iff.2 ⟨List.mem_filter.2 ⟨mem_of_get? h, by simp [hp]⟩, key_of_get? h⟩

/-- A row that is not deleted is still found. -/
theorem get?_delete_of_not {t : Table key} {k : κ} {p : ρ → Bool}
    (h : ∀ r, t.get? k = some r → p r = false) : (t.delete p).get? k = t.get? k := by
  rw [get?_delete]
  cases hk : t.get? k with
  | none => rfl
  | some r => simp [Option.filter, h r hk]

/-! ### Counting -/

/-- **Counting rows by key.** Where every row that counts afterwards counted before or has its key
in a list, the count has grown by at most the length of the list. -/
theorem count_le_add {t t' : Table key} {p p' : ρ → Bool} (ks : List κ)
    (h : ∀ k r', t'.get? k = some r' → p' r' → (∃ r, t.get? k = some r ∧ p r) ∨ k ∈ ks) :
    t'.count p' ≤ t.count p + ks.length := by
  have hnodup : ((t'.rows.filter p').map key).Nodup :=
    t'.nodup_keys.sublist (List.filter_sublist.map key)
  have hsub : (t'.rows.filter p').map key ⊆ (t.rows.filter p).map key ++ ks := by
    intro k hk
    obtain ⟨r', hr', rfl⟩ := List.mem_map.1 hk
    obtain ⟨hmem, hp'⟩ := List.mem_filter.1 hr'
    rcases h (key r') r' (get?_of_mem hmem) hp' with ⟨r, hr, hp⟩ | hks
    · have hkey : key r = key r' := key_of_get? hr
      exact List.mem_append_left _
        (hkey ▸ List.mem_map_of_mem (List.mem_filter.2 ⟨mem_of_get? hr, hp⟩))
    · exact List.mem_append_right _ hks
  have hlen := (hnodup.subperm hsub).length_le
  simpa [count, List.countP_eq_length_filter] using hlen

/-! ### Insertions -/

/-- `INSERT`, under the condition that the key is free. -/
def append (t : Table key) (r : ρ) (h : t.get? (key r) = none) : Table key :=
  ⟨t.rows ++ [r], by
    rw [List.map_append, List.nodup_append]
    refine ⟨t.nodup_keys, by simp, fun k hk k' hk' ↦ ?_⟩
    obtain ⟨r', hr', rfl⟩ := List.mem_map.1 hk
    simp only [List.map_cons, List.map_nil, List.mem_singleton] at hk'
    exact hk' ▸ get?_eq_none_iff.1 h r' hr'⟩

/-- `INSERT`: `none` when the key is taken. -/
def insert? (t : Table key) (r : ρ) : Option (Table key) :=
  if h : t.get? (key r) = none then some (t.append r h) else none

/-- `INSERT … ON CONFLICT DO NOTHING`. -/
def insertIgnore (t : Table key) (r : ρ) : Table key := (t.insert? r).getD t

/-- `INSERT … ON CONFLICT DO UPDATE SET f`. -/
def upsert (t : Table key) (r : ρ) (f : ρ → ρ) (hf : ∀ r, key (f r) = key r) : Table key :=
  (t.insert? r).getD (t.update (fun x ↦ decide (key x = key r)) f hf)

theorem get?_append (t : Table key) (r : ρ) (h : t.get? (key r) = none) (k : κ) :
    (t.append r h).get? k = if key r = k then some r else t.get? k := by
  have hstep : (t.append r h).get? k = (t.get? k).or (if key r = k then some r else none) := by
    simp only [append, get?, List.find?_append, List.find?_cons, List.find?_nil]
    by_cases hk : key r = k <;> simp [hk]
  rw [hstep]
  by_cases hk : key r = k
  · subst hk
    simp [h]
  · simp [hk]

theorem insert?_eq_none_iff {t : Table key} {r : ρ} :
    t.insert? r = none ↔ (t.get? (key r)).isSome := by
  by_cases h : t.get? (key r) = none
  · simp [insert?, h]
  · simp [insert?, h, Option.isSome_iff_ne_none]

theorem insert?_eq_some_iff {t t' : Table key} {r : ρ} :
    t.insert? r = some t' ↔ t.get? (key r) = none ∧ t'.rows = t.rows ++ [r] := by
  by_cases h : t.get? (key r) = none
  · simp only [insert?, h, dif_pos, Option.some.injEq, true_and]
    exact ⟨fun e ↦ e ▸ rfl, fun e ↦ Table.ext e.symm⟩
  · simp [insert?, h]

theorem get?_of_insert? {t t' : Table key} {r : ρ} (h : t.insert? r = some t') (k : κ) :
    t'.get? k = if key r = k then some r else t.get? k := by
  obtain ⟨hfree, hrows⟩ := insert?_eq_some_iff.1 h
  have heq : t' = t.append r hfree := Table.ext hrows
  rw [heq, get?_append]

/-- An inserted row leaves the others. -/
theorem get?_of_insert?_of_some {t t' : Table key} {r r' : ρ} {k : κ} (h : t.insert? r = some t')
    (hget : t.get? k = some r') : t'.get? k = some r' := by
  have hne : key r ≠ k := by
    rintro rfl
    simp [(insert?_eq_some_iff.1 h).1] at hget
  rw [get?_of_insert? h, if_neg hne, hget]

theorem get?_insertIgnore (t : Table key) (r : ρ) (k : κ) :
    (t.insertIgnore r).get? k = (t.get? k).or (if key r = k then some r else none) := by
  rw [insertIgnore]
  cases h : t.insert? r with
  | none =>
    obtain ⟨r', hr'⟩ := Option.isSome_iff_exists.1 (insert?_eq_none_iff.1 h)
    by_cases hk : key r = k
    · subst hk
      simp [hr']
    · simp [hk]
  | some t' =>
    rw [Option.getD_some, get?_of_insert? h]
    by_cases hk : key r = k
    · subst hk
      simp [(insert?_eq_some_iff.1 h).1]
    · simp [hk]

theorem get?_upsert (t : Table key) (r : ρ) (f : ρ → ρ) (hf : ∀ r, key (f r) = key r) (k : κ) :
    (t.upsert r f hf).get? k =
      if key r = k then some ((t.get? k).elim r f) else t.get? k := by
  rw [upsert]
  cases h : t.insert? r with
  | none =>
    obtain ⟨r', hr'⟩ := Option.isSome_iff_exists.1 (insert?_eq_none_iff.1 h)
    rw [Option.getD_none, get?_update]
    by_cases hk : key r = k
    · subst hk
      simp [hr', key_of_get? hr']
    · cases hq : t.get? k with
      | none => simp [hk]
      | some q => simp [hk, key_of_get? hq, Ne.symm hk]
  | some t' =>
    rw [Option.getD_some, get?_of_insert? h]
    by_cases hk : key r = k
    · subst hk
      simp [(insert?_eq_some_iff.1 h).1]
    · simp [hk]

end Table
