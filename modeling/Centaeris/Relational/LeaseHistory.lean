import Mathlib.Data.List.Induction

/-!
# Lease histories

What a lease is for, without any store: a resource is handed to one owner after another, and at
every moment its history says who may use it. `holder` reads that off the history, and
`holder_eq_some_iff` spells it out: the most recent claim issued `o`, and since then the lease was
neither released nor claimed again.

A store *implements* the history when its owner column is `holder` of it at every moment; the
fence of such a store, "the caller's owner equals the stored one", then lets exactly the current
holder through.
-/

/-- What can happen to a lease. -/
inductive LeaseEvent (ω : Type*)
  /-- The lease is issued to an owner. -/
  | claimed (owner : ω)
  /-- The lease is given up or taken back. -/
  | released
  /-- The resource is used or changed and the lease stays as it is. -/
  | kept
  deriving DecidableEq

namespace LeaseEvent

variable {ω : Type*}

/-- The holder after one more event. -/
def next (current : Option ω) : LeaseEvent ω → Option ω
  | claimed owner => some owner
  | released => none
  | kept => current

/-- The holder after a history, oldest event first. -/
def holder (history : List (LeaseEvent ω)) : Option ω := history.foldl next none

@[simp] theorem holder_nil : holder ([] : List (LeaseEvent ω)) = none := rfl

@[simp] theorem holder_snoc (l : List (LeaseEvent ω)) (e : LeaseEvent ω) :
    holder (l ++ [e]) = next (holder l) e := by
  simp [holder]

/-- `HeldSince o history`: the most recent claim issued `o` and nothing has released it since. -/
def HeldSince (o : ω) (history : List (LeaseEvent ω)) : Prop :=
  ∃ before after, history = before ++ claimed o :: after ∧ ∀ e ∈ after, e = kept

theorem heldSince_snoc {l : List (LeaseEvent ω)} {e : LeaseEvent ω} {o : ω} :
    HeldSince o (l ++ [e]) ↔ e = claimed o ∨ (e = kept ∧ HeldSince o l) := by
  constructor
  · rintro ⟨before, after, heq, hkept⟩
    rcases List.eq_nil_or_concat after with rfl | ⟨after, e', rfl⟩
    · exact .inl (List.singleton_inj.1 (List.append_inj' heq rfl).2)
    · rw [List.concat_eq_append, ← List.cons_append, ← List.append_assoc] at heq
      obtain ⟨hinit, hlast⟩ := List.append_inj' heq rfl
      obtain rfl := List.singleton_inj.1 hlast
      exact .inr ⟨hkept _ (by simp), before, after, hinit, fun e he ↦ hkept e (by simp [he])⟩
  · rintro (rfl | ⟨rfl, before, after, rfl, hkept⟩)
    · exact ⟨l, [], rfl, by simp⟩
    · refine ⟨before, after ++ [kept], by simp, fun e he ↦ ?_⟩
      rcases List.mem_append.1 he with he | he
      · exact hkept e he
      · exact List.mem_singleton.1 he

theorem holder_eq_some_iff {l : List (LeaseEvent ω)} {o : ω} :
    holder l = some o ↔ HeldSince o l := by
  induction l using List.reverseRecOn with
  | nil => simp [HeldSince]
  | append_singleton l e ih =>
    rw [holder_snoc, heldSince_snoc]
    cases e with
    | claimed owner => simp [next]
    | released => simp [next]
    | kept => simp [next, ih]

end LeaseEvent
