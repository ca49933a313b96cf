import Centaeris.Relational.Pool
import Mathlib.Algebra.BigOperators.Group.Finset.Basic
import Mathlib.Algebra.Order.Group.Multiset

/-!
# Things that threads borrow

Each of finitely many threads has something of its own, and a total is taken over all of them. A step changes
one summand (`Pool.sum_step`), so a total is kept up with by looking at one thread.

Where a thread has at most one thing, all things that threads have are a multiset (`Pool.lent`). It has no
duplicates just if no two threads have the same thing.
-/

namespace Pool

variable {ι ℓ σ α ρ : Type} [Fintype ι] {own : ℓ → Option ρ} {p q : Pool ι ℓ σ} {c : ρ}

/-- What the threads have. -/
def lent (own : ℓ → Option ρ) (p : Pool ι ℓ σ) : Multiset ρ := ∑ i, (own (p.thread i)).elim 0 ({·})

theorem mem_lent : c ∈ p.lent own ↔ ∃ i, own (p.thread i) = some c := by
  rw [lent, Multiset.mem_sum]
  refine exists_congr fun i ↦ ?_
  cases own (p.thread i) <;> simp [eq_comm]

variable [DecidableEq ι] {f : ι → ℓ → σ → α → Option (ℓ × σ)} {a : ι × α}

/-- What one thread has, and what the others have. -/
theorem sum_eq {M : Type} [AddCommMonoid M] (g : ℓ → M) (p : Pool ι ℓ σ) (i : ι) :
    ∑ i, g (p.thread i) = g (p.thread i) + ∑ j ∈ Finset.univ.erase i, g (p.thread j) :=
  (Finset.add_sum_erase _ _ (Finset.mem_univ i)).symm

/-- **A step changes one summand.** -/
theorem sum_step {M : Type} [AddCommMonoid M] (g : ℓ → M) (h : Step f p a q) :
    ∑ i, g (q.thread i) = g (q.thread a.1) + ∑ j ∈ Finset.univ.erase a.1, g (p.thread j) := by
  rw [sum_eq g q a.1]
  refine congrArg _ (Finset.sum_congr rfl fun j hj ↦ ?_)
  rw [h.other (Finset.ne_of_mem_erase hj)]

/-- No two threads have the same thing. -/
theorem eq_of_lent {i j : ι} (h : (p.lent own).Nodup) (hi : own (p.thread i) = some c)
    (hj : own (p.thread j) = some c) : j = i := by
  by_contra hne
  rw [lent, sum_eq (fun l ↦ (own l).elim 0 ({·})) p i, Multiset.nodup_add] at h
  have hmem {k : ι} (hk : own (p.thread k) = some c) : c ∈ (own (p.thread k)).elim (0 : Multiset ρ) ({·}) := by
    simp [hk]
  refine Multiset.disjoint_left.1 h.2.2 (hmem hi) (Multiset.mem_sum.2 ⟨j, ?_, hmem hj⟩)
  exact Finset.mem_erase.2 ⟨hne, Finset.mem_univ j⟩

end Pool
