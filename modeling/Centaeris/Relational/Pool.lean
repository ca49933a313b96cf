import Mathlib.Data.Fintype.Basic
import Mathlib.Logic.Function.Basic
import Centaeris.Relational.Run

/-!
# Threads over a shared state

A pool is a family of threads, each with a local state, over one shared state. A thread is a partial
function of its local state, the shared state and an event; a step of the pool is a step of one of
its threads, so that a run of the pool is an interleaving of runs of the threads. Locks are data of
the shared state that name their holder.

**The invariant rule for threads** (`Pool.invariant`). What a thread relies on while it is at some
point is an assertion about its local state and the shared state. It has to be established by the
thread's own steps and kept by the steps of every other thread, and the latter is proved from a
relation that says what a step of a thread guarantees to the others. This is where a lock does its
work: the guarantee is "what another thread has locked stays as it is".
-/

/-- Threads and the state that they share. -/
structure Pool (ι ℓ σ : Type*) where
  shared : σ
  thread : ι → ℓ

namespace Pool

variable {ι ℓ σ α : Type*} [DecidableEq ι]

/-- One thread takes a step. -/
def next (f : ι → ℓ → σ → α → Option (ℓ × σ)) (p : Pool ι ℓ σ) (a : ι × α) : Option (Pool ι ℓ σ) :=
  (f a.1 (p.thread a.1) p.shared a.2).map fun r ↦ ⟨r.2, Function.update p.thread a.1 r.1⟩

/-- The steps of a pool. -/
def Step (f : ι → ℓ → σ → α → Option (ℓ × σ)) (p : Pool ι ℓ σ) (a : ι × α) (q : Pool ι ℓ σ) : Prop :=
  p.next f a = some q

/-- The pool after a list of steps, if each of them can be taken. -/
def exec (f : ι → ℓ → σ → α → Option (ℓ × σ)) (p : Pool ι ℓ σ) (l : List (ι × α)) :
    Option (Pool ι ℓ σ) :=
  l.foldlM (fun p a ↦ p.next f a) p

variable {f : ι → ℓ → σ → α → Option (ℓ × σ)} {p q : Pool ι ℓ σ} {l : List (ι × α)}

theorem step_iff {a : ι × α} :
    Step f p a q ↔ ∃ l' s', f a.1 (p.thread a.1) p.shared a.2 = some (l', s') ∧
      q = ⟨s', Function.update p.thread a.1 l'⟩ := by
  rw [Step, next, Option.map_eq_some_iff]
  constructor
  · rintro ⟨⟨l', s'⟩, hf, rfl⟩
    exact ⟨l', s', hf, rfl⟩
  · rintro ⟨l', s', hf, rfl⟩
    exact ⟨(l', s'), hf, rfl⟩

/-- What the thread of a step does. -/
theorem Step.act {a : ι × α} (h : Step f p a q) :
    f a.1 (p.thread a.1) p.shared a.2 = some (q.thread a.1, q.shared) := by
  obtain ⟨l', s', hf, rfl⟩ := step_iff.1 h
  simpa using hf

/-- The other threads stay where they are. -/
theorem Step.other {a : ι × α} (h : Step f p a q) {i : ι} (hi : i ≠ a.1) : q.thread i = p.thread i := by
  obtain ⟨l', s', -, rfl⟩ := step_iff.1 h
  exact Function.update_of_ne hi _ _

/-- What is executed is a run. -/
theorem run_of_exec (h : p.exec f l = some q) : Run (Step f) p l q := Run.of_exec h

/-- The shared state satisfies an invariant, and every thread what it relies on. -/
structure Safe (I : σ → Prop) (A : ι → ℓ → σ → Prop) (p : Pool ι ℓ σ) : Prop where
  shared : I p.shared
  thread : ∀ i, A i (p.thread i) p.shared

variable {I : σ → Prop} {A : ι → ℓ → σ → Prop} {G : ι → σ → σ → Prop}

theorem Safe.step (h : Safe I A p)
    (hown : ∀ i l s a l' s', I s → A i l s → f i l s a = some (l', s') →
      I s' ∧ A i l' s' ∧ G i s s')
    (hstable : ∀ i j l s s', i ≠ j → I s → A i l s → G j s s' → A i l s')
    {a : ι × α} (ha : Step f p a q) : Safe I A q := by
  obtain ⟨hshared, hmine, hguar⟩ := hown _ _ _ _ _ _ h.shared (h.thread a.1) ha.act
  refine ⟨hshared, fun i ↦ ?_⟩
  by_cases hi : i = a.1
  · subst hi
    exact hmine
  · rw [ha.other hi]
    exact hstable i a.1 _ _ _ hi h.shared (h.thread i) hguar

/-- **Invariant rule for threads.** If the steps of a thread keep the invariant, take the thread from
what it relies on to what it relies on next, and guarantee `G` to the other threads, and what a
thread relies on is kept by what the others guarantee, then all of this holds along every run. -/
theorem invariant (h : Safe I A p)
    (hown : ∀ i l s a l' s', I s → A i l s → f i l s a = some (l', s') →
      I s' ∧ A i l' s' ∧ G i s s')
    (hstable : ∀ i j l s s', i ≠ j → I s → A i l s → G j s s' → A i l s')
    (hrun : Run (Step f) p l q) : Safe I A q :=
  hrun.invariant h fun _ _ _ hsafe ha ↦ hsafe.step hown hstable ha

end Pool
