import Mathlib.Data.List.Infix
import Mathlib.Data.List.Sort
import Mathlib.Order.Defs.LinearOrder

/-!
# Reading a numbered list from a position

A list whose entries carry strictly increasing keys is read in pieces: whoever has seen a beginning
of what lies after a position continues after the key of the last entry seen. Nothing here knows what
the entries are, or what kind of order their keys have.

* `after_eq_append`: what was seen, followed by what lies after its last key, is everything.
* `append_prefix`: what is read after the last key seen continues what was seen.
-/

namespace Sequenced

variable {ρ κ : Type*} (key : ρ → κ)

/-- Where a reader is that started at `n` and has seen `seen`. -/
def position (seen : List ρ) (n : κ) : κ := (seen.getLast?.map key).getD n

section Position

variable {key} {seen : List ρ} {n : κ}

@[simp] theorem position_nil (n : κ) : position key [] n = n := rfl

theorem position_concat (seen : List ρ) (r : ρ) (n : κ) : position key (seen ++ [r]) n = key r := by
  simp [position]

theorem position_mem (hne : seen ≠ []) : ∃ r ∈ seen, key r = position key seen n := by
  rcases List.eq_nil_or_concat seen with rfl | ⟨seen, last, rfl⟩
  · exact absurd rfl hne
  · refine ⟨last, by simp, ?_⟩
    rw [List.concat_eq_append, position_concat]

end Position

variable [LinearOrder κ]

/-- The entries after a position. -/
def after (l : List ρ) (n : κ) : List ρ := l.filter fun r ↦ decide (n < key r)

/-- The keys increase. -/
abbrev Increasing (l : List ρ) : Prop := l.Pairwise fun r r' ↦ key r < key r'

variable {key} {l seen more : List ρ} {n : κ}

theorem after_append (l l' : List ρ) (n : κ) :
    after key (l ++ l') n = after key l n ++ after key l' n := List.filter_append ..

theorem mem_after {r : ρ} : r ∈ after key l n ↔ r ∈ l ∧ n < key r := by
  simp [after]

theorem Increasing.after (h : Increasing key l) (n : κ) : Increasing key (after key l n) :=
  h.sublist List.filter_sublist

/-- The entries after `n` start at one place. -/
theorem after_eq_of_split (hlow : ∀ r ∈ seen, key r ≤ n) (hhigh : ∀ r ∈ more, n < key r) :
    after key (seen ++ more) n = more := by
  have hnone : after key seen n = [] := by
    refine List.filter_eq_nil_iff.2 fun r hr ↦ ?_
    rw [decide_eq_true_eq, not_lt]
    exact hlow r hr
  have hall : after key more n = more :=
    List.filter_eq_self.2 fun r hr ↦ decide_eq_true (hhigh r hr)
  rw [after_append, hnone, hall, List.nil_append]

theorem le_position (h : Increasing key seen) {r : ρ} (hr : r ∈ seen) :
    key r ≤ position key seen n := by
  rcases List.eq_nil_or_concat seen with rfl | ⟨seen, last, rfl⟩
  · cases hr
  · rw [List.concat_eq_append] at h hr ⊢
    rw [position_concat]
    rcases List.mem_append.1 hr with hr | hr
    · exact ((List.pairwise_append.1 h).2.2 r hr last (List.mem_singleton_self _)).le
    · rw [List.mem_singleton.1 hr]

/-- A reader does not go back. -/
theorem start_le_position (h : seen <+: after key l n) : n ≤ position key seen n := by
  by_cases hne : seen = []
  · rw [hne, position_nil]
  · obtain ⟨r, hr, hpos⟩ : ∃ r ∈ seen, key r = position key seen n := position_mem hne
    rw [← hpos]
    exact (mem_after.1 (h.subset hr)).2.le

/-- **Nothing is lost at the seam**: what was seen and what lies after it is everything. -/
theorem after_eq_append (hl : Increasing key l) (h : seen <+: after key l n) :
    after key l n = seen ++ after key l (position key seen n) := by
  have hstart := start_le_position h
  obtain ⟨rest, hrest⟩ := h
  have hinc : Increasing key (seen ++ rest) := hrest ▸ hl.after n
  have hafter : after key (after key l n) (position key seen n) = rest := by
    rw [← hrest]
    refine after_eq_of_split (fun r hr ↦ le_position (List.pairwise_append.1 hinc).1 hr) ?_
    intro r hr
    by_cases hne : seen = []
    · rw [hne, position_nil]
      exact (mem_after.1 (hrest ▸ List.mem_append_right _ hr)).2
    · obtain ⟨last, hlast, hpos⟩ : ∃ r ∈ seen, key r = position key seen n := position_mem hne
      rw [← hpos]
      exact (List.pairwise_append.1 hinc).2.2 last hlast r hr
  -- filtering twice is filtering at the later position
  have htwice : after key (after key l n) (position key seen n) =
      after key l (position key seen n) := by
    unfold after
    rw [List.filter_filter]
    refine List.filter_congr fun r _ ↦ ?_
    rw [← Bool.decide_and, decide_eq_decide]
    exact ⟨fun hr ↦ hr.1, fun hr ↦ ⟨hr, lt_of_le_of_lt hstart hr⟩⟩
  rw [← htwice, hafter, hrest]

/-- Reading on from where one is. -/
theorem append_prefix (hl : Increasing key l) (h : seen <+: after key l n)
    (hmore : more <+: after key l (position key seen n)) : seen ++ more <+: after key l n := by
  rw [after_eq_append hl h]
  exact (List.prefix_append_right_inj seen).2 hmore

end Sequenced
