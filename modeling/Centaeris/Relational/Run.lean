import Mathlib.Data.List.Induction
import Centaeris.Base.Except

/-!
# Labelled runs

A system is a step relation `σ → α → σ → Prop`; a run is a finite list of labels, the newest
last, together with the states it passes through. Histories grow at their end, so that a property
of the *past* of a state ("the most recent claim", "the number of accepted calls so far") is a
function of the label list, and a step extends the list by one.

* `Run.invariant` is the invariant rule.
* `Run.invariant_history` is the same rule for a property of the state and of its history.
* `Run.counter` is the rule for a number that counts the marked labels.
* `Run.trans` and `Run.split` compose and cut runs.
* `Run.of_exec`: what a partial step function executes is a run.
-/

/-- `Run step s l t`: the labels `l`, oldest first, lead from `s` to `t`. -/
inductive Run {σ α : Type*} (step : σ → α → σ → Prop) (s : σ) : List α → σ → Prop
  | nil : Run step s [] s
  | snoc {l : List α} {t u : σ} {a : α} : Run step s l t → step t a u → Run step s (l ++ [a]) u

namespace Run

variable {σ α τ β : Type*} {step : σ → α → σ → Prop} {s t u : σ} {l l' : List α}

/-- **Invariant rule over histories.** A property of state and history that holds at the start and
is kept by every step of a run holds at its end. -/
theorem invariant_history {I : List α → σ → Prop} (hinit : I [] s)
    (hstep : ∀ l t a u, Run step s l t → I l t → step t a u → I (l ++ [a]) u)
    (h : Run step s l t) : I l t := by
  induction h with
  | nil => exact hinit
  | snoc h ha ih => exact hstep _ _ _ _ h ih ha

/-- **Invariant rule.** -/
theorem invariant {I : σ → Prop} (hinit : I s)
    (hstep : ∀ t a u, I t → step t a u → I u) (h : Run step s l t) : I t :=
  h.invariant_history (I := fun _ t ↦ I t) hinit fun _ t a u _ hi ha ↦ hstep t a u hi ha

/-- **Counter rule.** A number that every step raises by one if its label is marked, and keeps
otherwise, counts the marked labels. -/
theorem counter {f : σ → ℕ} {p : α → Bool}
    (hstep : ∀ t a u, step t a u → f u = f t + (p a).toNat) (h : Run step s l t) :
    f t = f s + l.countP p := by
  refine h.invariant_history (I := fun l t ↦ f t = f s + l.countP p) rfl fun l t a u _ hcount ha ↦ ?_
  rw [hstep t a u ha, hcount, List.countP_append, List.countP_singleton, Nat.add_assoc]
  cases p a <;> rfl

theorem single {a : α} (h : step s a t) : Run step s [a] t := .snoc (l := []) .nil h

theorem trans (h : Run step s l t) (h' : Run step t l' u) : Run step s (l ++ l') u := by
  induction h' with
  | nil => simpa using h
  | snoc _ ha ih => rw [← List.append_assoc]; exact .snoc ih ha

theorem cons {a : α} (h : step s a t) (h' : Run step t l u) : Run step s (a :: l) u :=
  (single h).trans h'

/-- The last step of a run. -/
theorem of_concat {a : α} (h : Run step s (l ++ [a]) u) : ∃ t, Run step s l t ∧ step t a u := by
  generalize hm : l ++ [a] = m at h
  cases h with
  | nil => simp at hm
  | snoc h ha =>
    obtain ⟨rfl, he⟩ := List.append_inj' hm rfl
    obtain rfl := List.singleton_inj.1 he
    exact ⟨_, h, ha⟩

/-- A run over a concatenation passes through a state between the two parts. -/
theorem split (h : Run step s (l ++ l') u) : ∃ t, Run step s l t ∧ Run step t l' u := by
  induction l' using List.reverseRecOn generalizing u with
  | nil => exact ⟨u, by simpa using h, .nil⟩
  | append_singleton l' a ih =>
    rw [← List.append_assoc] at h
    obtain ⟨u', h, ha⟩ := h.of_concat
    obtain ⟨t, ht, ht'⟩ := ih h
    exact ⟨t, ht, .snoc ht' ha⟩

/-- The first step of a run. -/
theorem of_cons {a : α} (h : Run step s (a :: l) u) : ∃ t, step s a t ∧ Run step t l u := by
  obtain ⟨t, hfirst, hrest⟩ := (show Run step s ([a] ++ l) u from h).split
  obtain ⟨s', hnil, ha⟩ := Run.of_concat (l := []) hfirst
  generalize hm : ([] : List α) = m at hnil
  cases hnil with
  | nil => exact ⟨t, ha, hrest⟩
  | snoc _ _ => simp at hm

/-- What is executed is a run. -/
theorem of_exec {f : σ → α → Option σ} (h : l.foldlM f s = some t) :
    Run (fun s a t ↦ f s a = some t) s l t := by
  induction l generalizing s with
  | nil =>
    cases h
    exact .nil
  | cons a l ih =>
    rw [List.foldlM_cons] at h
    obtain ⟨u, hu, h⟩ := Option.bind_eq_some_iff.1 h
    exact .cons hu (ih h)

end Run
