import Mathlib.Data.Finset.Card
import Mathlib.Data.List.Sort
import Mathlib.Order.Interval.Finset.Nat

/-!
# Scanning a changing table by its key

A reader asks for the first rows after a key, remembers the key of the last one, and asks again, until it
is told that there are no more. Between two pages the table may change in any way. What stays in it is read
once, in order (`pass`): a row is passed over only by a cursor at or behind its key, and the cursor only
moves to the end of a page that began before the row.

The scan ends since its cursors increase, if there are finitely many keys.
-/

namespace Keyset

variable {ρ κ : Type*} [LinearOrder κ] (key : ρ → κ)

/-- The rows after a key, in order. -/
def rowsAfter (rows : List ρ) (after : Option κ) : List ρ :=
  (rows.filter fun r ↦ decide (∀ k ∈ after, k < key r)).insertionSort fun a b ↦ key a ≤ key b

/-- A page, and the key to go on after if there are more rows. -/
def page (limit : ℕ) (rows : List ρ) (after : Option κ) : List ρ × Option κ :=
  let found := (rowsAfter key rows after).take (limit + 1)
  (found.take limit, if limit < found.length then (found.take limit).getLast?.map key else none)

/-- The cursors of a scan whose `i`-th page is read of the `i`-th table. -/
def cursor (limit : ℕ) (tables : ℕ → List ρ) : ℕ → Option κ
  | 0 => none
  | i + 1 => (page key limit (tables i) (cursor limit tables i)).2

/-- The pages of a scan. -/
def read (limit : ℕ) (tables : ℕ → List ρ) (i : ℕ) : List ρ :=
  (page key limit (tables i) (cursor key limit tables i)).1

/-- What was read by the first pages. -/
def readBefore (limit : ℕ) (tables : ℕ → List ρ) (n : ℕ) : List ρ :=
  (List.range n).flatMap (read key limit tables)

variable {key}

theorem readBefore_succ (limit : ℕ) (tables : ℕ → List ρ) (n : ℕ) :
    readBefore key limit tables (n + 1) = readBefore key limit tables n ++ read key limit tables n := by
  rw [readBefore, List.range_succ, List.flatMap_append, readBefore]
  simp

variable {limit : ℕ} {rows : List ρ} {after : Option κ} {r : ρ}

theorem mem_rowsAfter : r ∈ rowsAfter key rows after ↔ r ∈ rows ∧ ∀ k ∈ after, k < key r := by
  rw [rowsAfter, List.mem_insertionSort, List.mem_filter, decide_eq_true_eq]

/-- The rows of a table have different keys. -/
def Distinct (key : ρ → κ) (rows : List ρ) : Prop := rows.Pairwise fun a b ↦ key a ≠ key b

theorem pairwise_rowsAfter (h : Distinct key rows) :
    (rowsAfter key rows after).Pairwise fun a b ↦ key a < key b := by
  have hsorted : (rowsAfter key rows after).Pairwise fun a b ↦ key a ≤ key b := by
    have htotal : Std.Total (fun a b : ρ ↦ key a ≤ key b) := ⟨fun a b ↦ le_total (key a) (key b)⟩
    have htrans : IsTrans ρ (fun a b ↦ key a ≤ key b) := ⟨fun a b c ↦ le_trans⟩
    exact List.pairwise_insertionSort _ _
  have hdistinct : (rowsAfter key rows after).Pairwise fun a b ↦ key a ≠ key b :=
    ((List.perm_insertionSort _ _).symm.pairwise_iff fun hne ↦ hne.symm).1 (h.filter _)
  exact hsorted.imp₂ (fun a b hle hne ↦ lt_of_le_of_ne hle hne) hdistinct

theorem page_fst : (page key limit rows after).1 = (rowsAfter key rows after).take limit := by
  simp [page, List.take_take]

theorem length_le_of_page_snd (hlimit : 1 ≤ limit) (h : (page key limit rows after).2 = none) :
    (rowsAfter key rows after).length ≤ limit := by
  by_contra hmore
  simp only [page, List.take_take, List.length_take, Nat.min_eq_left (Nat.le_succ limit)] at h
  rw [if_pos (by omega), Option.map_eq_none_iff, List.getLast?_eq_none_iff, List.take_eq_nil_iff] at h
  rcases h with rfl | hnil
  · omega
  · simp [hnil] at hmore

theorem page_snd_eq_some {next : κ} (h : (page key limit rows after).2 = some next) :
    ∃ l last, (page key limit rows after).1 = l ++ [last] ∧ key last = next := by
  rw [page_fst]
  simp only [page, List.take_take, Nat.min_eq_left (Nat.le_succ limit)] at h
  split at h
  · obtain ⟨last, hlast, rfl⟩ := Option.map_eq_some_iff.1 h
    obtain ⟨l, hl⟩ := List.getLast?_eq_some_iff.1 hlast
    exact ⟨l, last, hl, rfl⟩
  · simp at h

/-- **A page holds what it passes**: the rows after its cursor, up to the next one, or all of them if there
is no next one. -/
theorem mem_page (h : Distinct key rows) (hlimit : 1 ≤ limit) :
    r ∈ (page key limit rows after).1 ↔ (r ∈ rows ∧ ∀ k ∈ after, k < key r) ∧
      ∀ next ∈ (page key limit rows after).2, key r ≤ next := by
  rw [← mem_rowsAfter]
  have hsorted : (rowsAfter key rows after).Pairwise fun a b ↦ key a < key b := pairwise_rowsAfter h
  rcases hnext : (page key limit rows after).2 with - | next
  · simp [page_fst, List.take_of_length_le (length_le_of_page_snd hlimit hnext)]
  · obtain ⟨l, last, hpage, rfl⟩ := page_snd_eq_some hnext
    rw [page_fst] at hpage ⊢
    rw [← List.take_append_drop limit (rowsAfter key rows after), hpage] at hsorted
    obtain ⟨hbefore, -, hcross⟩ := List.pairwise_append.1 hsorted
    have hlast := (List.pairwise_append.1 hbefore).2.2
    have hsplit : rowsAfter key rows after = l ++ [last] ++ (rowsAfter key rows after).drop limit := by
      rw [← hpage, List.take_append_drop]
    rw [hpage, hsplit]
    simp only [Option.mem_some_iff, forall_eq', List.mem_append, List.mem_singleton]
    constructor
    · rintro (hr | rfl)
      · exact ⟨.inl (.inl hr), (hlast r hr last (by simp)).le⟩
      · exact ⟨.inl (.inr rfl), le_rfl⟩
    · rintro ⟨hr | hr, hle⟩
      · exact hr
      · exact absurd (hcross last (by simp) r hr) (not_lt.2 hle)

variable {tables : ℕ → List ρ}

/-- The next cursor is the key of a row of the page, after the last one. -/
theorem exists_of_cursor_succ {i : ℕ} {next : κ} (h : cursor key limit tables (i + 1) = some next) :
    ∃ r ∈ tables i, key r = next ∧ ∀ k ∈ cursor key limit tables i, k < next := by
  obtain ⟨l, last, hpage, rfl⟩ := page_snd_eq_some h
  have hlast : last ∈ rowsAfter key (tables i) (cursor key limit tables i) := by
    refine List.mem_of_mem_take (i := limit) ?_
    rw [← page_fst, hpage]
    simp
  obtain ⟨hmem, hafter⟩ := mem_rowsAfter.1 hlast
  exact ⟨last, hmem, rfl, hafter⟩

/-- What has been read after `n` pages of a pass: in order, up to the cursor, and no row that was there all
the time is missing before the cursor. -/
structure Passed (key : ρ → κ) (limit : ℕ) (tables : ℕ → List ρ) (n : ℕ) : Prop where
  inOrder : (readBefore key limit tables n).Pairwise fun a b ↦ key a < key b
  upTo : ∀ k ∈ cursor key limit tables n, ∀ r ∈ readBefore key limit tables n, key r ≤ k
  complete : ∀ r, (∀ i < n, r ∈ tables i) → 0 < n → (∀ k ∈ cursor key limit tables n, key r ≤ k) →
    r ∈ readBefore key limit tables n

theorem passed_zero : Passed key limit tables 0 where
  inOrder := .nil
  upTo := by simp [cursor]
  complete := by simp

/-- One more page, of a pass that has not ended. -/
theorem Passed.succ {n : ℕ} (h : Passed key limit tables n) (htables : ∀ i, Distinct key (tables i))
    (hlimit : 1 ≤ limit) (hgoing : 0 < n → cursor key limit tables n ≠ none) :
    Passed key limit tables (n + 1) := by
  have hmem (r : ρ) : r ∈ read key limit tables n ↔
      (r ∈ tables n ∧ ∀ k ∈ cursor key limit tables n, k < key r) ∧
        ∀ next ∈ cursor key limit tables (n + 1), key r ≤ next :=
    mem_page (htables n) hlimit
  -- What was read before lies up to the cursor, and the page after it.
  have hcross : ∀ a ∈ readBefore key limit tables n, ∀ b ∈ read key limit tables n, key a < key b := by
    intro a ha b hb
    rcases n.eq_zero_or_pos with rfl | hpos
    · simp [readBefore] at ha
    · obtain ⟨k, hk⟩ := Option.ne_none_iff_exists'.1 (hgoing hpos)
      exact (h.upTo k hk a ha).trans_lt (((hmem b).1 hb).1.2 k hk)
  refine ⟨?_, ?_, ?_⟩
  · rw [readBefore_succ, List.pairwise_append]
    refine ⟨h.inOrder, ?_, hcross⟩
    rw [read, page_fst]
    exact (pairwise_rowsAfter (htables n)).take
  · intro next hnext r hr
    rw [readBefore_succ, List.mem_append] at hr
    obtain ⟨l, last, hpage, rfl⟩ := page_snd_eq_some hnext
    have hle (b : ρ) (hb : b ∈ read key limit tables n) : key b ≤ key last := ((hmem b).1 hb).2 _ hnext
    rcases hr with hr | hr
    · have hlast : last ∈ read key limit tables n := by simp [read, hpage]
      exact (hcross r hr last hlast).le
    · exact hle r hr
  · intro r hstays _ hle
    rw [readBefore_succ, List.mem_append]
    -- The page passes the row, unless the cursor was behind it before.
    by_cases hafter : ∀ k ∈ cursor key limit tables n, k < key r
    · exact .inr ((hmem r).2 ⟨⟨hstays n n.lt_succ_self, hafter⟩, hle⟩)
    · push Not at hafter
      obtain ⟨k, hk, hrk⟩ := hafter
      have hpos : 0 < n := by
        rcases n.eq_zero_or_pos with rfl | hpos
        · simp [cursor] at hk
        · exact hpos
      refine .inl (h.complete r (fun i hi ↦ hstays i (hi.trans n.lt_succ_self)) hpos ?_)
      intro k' hk'
      rwa [Option.mem_unique hk' hk]

theorem passed_of_going (htables : ∀ i, Distinct key (tables i)) (hlimit : 1 ≤ limit) :
    ∀ n, (∀ i, 0 < i → i < n → cursor key limit tables i ≠ none) → Passed key limit tables n
  | 0, _ => passed_zero
  | n + 1, hgoing =>
    (passed_of_going htables hlimit n fun i hi hin ↦ hgoing i hi (hin.trans n.lt_succ_self)).succ htables
      hlimit fun hpos ↦ hgoing n hpos n.lt_succ_self

/-- The cursors of a pass increase. -/
theorem cursor_lt {n : ℕ} (hgoing : ∀ i, 0 < i → i ≤ n → cursor key limit tables i ≠ none) {i j : ℕ} (hi : 0 < i)
    (hij : i < j) (hj : j ≤ n) :
    ∀ k ∈ cursor key limit tables i, ∀ k' ∈ cursor key limit tables j, k < k' := by
  induction j, hij using Nat.le_induction with
  | base =>
    intro k hk k' hk'
    obtain ⟨r, -, rfl, hlt⟩ := exists_of_cursor_succ hk'
    exact hlt k hk
  | succ j hij ih =>
    intro k hk k' hk'
    obtain ⟨r, -, rfl, hlt⟩ := exists_of_cursor_succ hk'
    obtain ⟨m, hm⟩ := Option.ne_none_iff_exists'.1 (hgoing j (by omega) (by omega))
    exact (ih (by omega) k hk m hm).trans (hlt m hm)

/-- **A pass ends**, if there are finitely many keys. -/
theorem exists_cursor_eq_none {keys : Finset κ} (hkeys : ∀ i, ∀ r ∈ tables i, key r ∈ keys) :
    ∃ n ≤ keys.card, cursor key limit tables (n + 1) = none ∧
      ∀ i, 0 < i → i ≤ n → cursor key limit tables i ≠ none := by
  have hexists : ∃ n ≤ keys.card, cursor key limit tables (n + 1) = none := by
    by_contra! hnone
    -- Otherwise the cursors are more keys than there are.
    have hmaps (i : ℕ) (hi : i ∈ Finset.range (keys.card + 1)) :
        cursor key limit tables (i + 1) ∈ keys.map Function.Embedding.some := by
      obtain ⟨k, hk⟩ := Option.ne_none_iff_exists'.1 (hnone i (Nat.lt_succ_iff.1 (Finset.mem_range.1 hi)))
      obtain ⟨r, hr, rfl, -⟩ := exists_of_cursor_succ hk
      simpa [hk] using hkeys i r hr
    have hne (i j : ℕ) (hij : i < j) (hj : j ≤ keys.card) :
        cursor key limit tables (i + 1) ≠ cursor key limit tables (j + 1) := by
      intro heq
      have hgoing (m : ℕ) (hm : 0 < m) (hmle : m ≤ keys.card + 1) : cursor key limit tables m ≠ none := by
        obtain ⟨m, rfl⟩ := Nat.exists_eq_succ_of_ne_zero hm.ne'
        exact hnone m (by omega)
      obtain ⟨k, hk⟩ := Option.ne_none_iff_exists'.1 (hnone j hj)
      exact lt_irrefl k
        (cursor_lt hgoing i.succ_pos (Nat.succ_lt_succ hij) (by omega) k (heq.trans hk) k hk)
    have hinj : Set.InjOn (fun i ↦ cursor key limit tables (i + 1)) (Finset.range (keys.card + 1) : Set ℕ) := by
      intro i hi j hj heq
      simp only [Finset.coe_range, Set.mem_Iio, Nat.lt_succ_iff] at hi hj
      rcases lt_trichotomy i j with hlt | rfl | hlt
      · exact absurd heq (hne i j hlt hj)
      · rfl
      · exact absurd heq.symm (hne j i hlt hi)
    have hcard := Finset.card_le_card_of_injOn _ hmaps hinj
    rw [Finset.card_map] at hcard
    rw [Finset.card_range] at hcard
    omega
  -- The first of them.
  classical
  let n := Nat.find hexists
  obtain ⟨hle, hnone⟩ := Nat.find_spec hexists
  refine ⟨n, hle, hnone, fun i hi hin hstop ↦ ?_⟩
  obtain ⟨i, rfl⟩ := Nat.exists_eq_succ_of_ne_zero hi.ne'
  exact Nat.find_min hexists (m := i) hin ⟨by omega, hstop⟩

/-- After the end of a pass, another one begins. -/
theorem cursor_add {m : ℕ} (h : cursor key limit tables m = none) (i : ℕ) :
    cursor key limit tables (m + i) = cursor key limit (fun j ↦ tables (m + j)) i := by
  induction i with
  | zero => exact h
  | succ i ih => rw [← Nat.add_assoc, cursor, cursor, ih]

/-- **A pass reads what stays, once and in order**, and ends, however the table changes between its
pages. -/
theorem pass {keys : Finset κ} (htables : ∀ i, Distinct key (tables i)) (hlimit : 1 ≤ limit)
    (hkeys : ∀ i, ∀ r ∈ tables i, key r ∈ keys) :
    ∃ n ≤ keys.card, cursor key limit tables (n + 1) = none ∧
      (∀ i, 0 < i → i ≤ n → cursor key limit tables i ≠ none) ∧
      (readBefore key limit tables (n + 1)).Pairwise (fun a b ↦ key a < key b) ∧
      ∀ r, (∀ i ≤ n, r ∈ tables i) → r ∈ readBefore key limit tables (n + 1) := by
  obtain ⟨n, hn, hend, hgoing⟩ := @exists_cursor_eq_none _ _ _ key limit tables keys hkeys
  have hpassed := passed_of_going htables hlimit (n + 1) fun i hi hin ↦ hgoing i hi (Nat.lt_succ_iff.1 hin)
  refine ⟨n, hn, hend, hgoing, hpassed.inOrder, fun r hstays ↦ ?_⟩
  exact hpassed.complete r (fun i hi ↦ hstays i (Nat.lt_succ_iff.1 hi)) n.succ_pos (by simp [hend])

end Keyset
