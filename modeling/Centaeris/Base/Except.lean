import Mathlib.Data.List.Basic
import Mathlib.Data.List.Forall2

/-!
# Computations that may fail

Inversion lemmas for `Except`: what a successful computation says about its parts. A proof about a
monadic function of the model takes the hypothesis "it returned `ok`" apart with these and never
unfolds `bind`.
-/

namespace Except

variable {ε α β : Type}

theorem bind_eq_ok {x : Except ε α} {f : α → Except ε β} {b : β} :
    x >>= f = .ok b ↔ ∃ a, x = .ok a ∧ f a = .ok b := by
  cases x with
  | error e => simp [bind, Except.bind]
  | ok a => simp [bind, Except.bind]

theorem map_eq_ok {x : Except ε α} {f : α → β} {b : β} :
    f <$> x = .ok b ↔ ∃ a, x = .ok a ∧ f a = b := by
  cases x with
  | error e => simp [Functor.map, Except.map]
  | ok a => simp [Functor.map, Except.map]

@[simp] theorem ok_bind (a : α) (f : α → Except ε β) : (.ok a : Except ε α) >>= f = f a := rfl

@[simp] theorem error_bind (e : ε) (f : α → Except ε β) :
    (.error e : Except ε α) >>= f = .error e := rfl

@[simp] theorem pure_eq_ok (a : α) : (pure a : Except ε α) = .ok a := rfl

@[simp] theorem throw_eq_error (e : ε) : (throw e : Except ε α) = .error e := rfl

/-- A check: `if !p { return Err(e) }`. -/
def require (p : Prop) [Decidable p] (e : ε) : Except ε Unit := if p then .ok () else .error e

/-- `Option::ok_or`. -/
def okOr (o : Option α) (e : ε) : Except ε α :=
  match o with
  | some a => .ok a
  | none => .error e

theorem require_eq_ok {p : Prop} [Decidable p] {e : ε} {u : Unit} : require p e = .ok u ↔ p := by
  by_cases h : p <;> simp [require, h]

theorem require_pos {p : Prop} [Decidable p] (h : p) (e : ε) : require p e = .ok () := if_pos h

theorem require_bind {p : Prop} [Decidable p] {e : ε} {f : Unit → Except ε β} {b : β} :
    require p e >>= f = .ok b ↔ p ∧ f () = .ok b := by
  by_cases h : p <;> simp [require, h]

theorem okOr_eq_ok {o : Option α} {e : ε} {a : α} : okOr o e = .ok a ↔ o = some a := by
  cases o <;> simp [okOr]

theorem okOr_bind {o : Option α} {e : ε} {f : α → Except ε β} {b : β} :
    okOr o e >>= f = .ok b ↔ ∃ a, o = some a ∧ f a = .ok b := by
  cases o <;> simp [okOr]

theorem mapError_eq_ok {ε' : Type} {x : Except ε α} {f : ε → ε'} {a : α} :
    x.mapError f = .ok a ↔ x = .ok a := by
  cases x <;> simp [Except.mapError]

/-- **Loop rule.** A property kept by every successful iteration holds after a successful loop. -/
theorem foldlM_invariant {I : β → Prop} {f : β → α → Except ε β} {l : List α} {b b' : β}
    (hstep : ∀ a ∈ l, ∀ c c', I c → f c a = .ok c' → I c') (h0 : I b)
    (h : l.foldlM f b = .ok b') : I b' := by
  induction l generalizing b with
  | nil => exact Except.ok.inj h ▸ h0
  | cons a l ih =>
    rw [List.foldlM_cons] at h
    obtain ⟨c, hc, hrest⟩ := bind_eq_ok.1 h
    exact ih (fun a ha ↦ hstep a (List.mem_cons_of_mem _ ha))
      (hstep a List.mem_cons_self b c h0 hc) hrest

/-- The state that a loop is in when it ends, for errors that carry the state. -/
def finalState {δ : Type} : Except (β × δ) β → β
  | .ok b => b
  | .error e => e.1

theorem finalState_bind {δ : Type} {I : β → Prop} {x : Except (β × δ) β}
    {f : β → Except (β × δ) β} (hx : I x.finalState) (hf : ∀ b, I b → I (f b).finalState) :
    I (x >>= f).finalState := by
  cases x with
  | error e => exact hx
  | ok b => exact hf b hx

/-- **Loop rule, with errors.** A property that every iteration leaves, whether it succeeds or not,
holds where the loop ends. -/
theorem finalState_foldlM {δ : Type} {I : β → Prop} {f : β → α → Except (β × δ) β} {l : List α}
    {b : β} (hstep : ∀ a ∈ l, ∀ c, I c → I (f c a).finalState) (h0 : I b) :
    I (l.foldlM f b).finalState := by
  induction l generalizing b with
  | nil => exact h0
  | cons a l ih =>
    have ha := hstep a List.mem_cons_self b h0
    rw [List.foldlM_cons]
    cases hf : f b a with
    | error e =>
      rw [hf] at ha
      exact ha
    | ok c =>
      rw [hf] at ha
      exact ih (fun a ha ↦ hstep a (List.mem_cons_of_mem _ ha)) ha

/-- A successful `mapM` succeeds item by item. -/
theorem mapM_eq_ok {f : α → Except ε β} {l : List α} {l' : List β} :
    l.mapM f = .ok l' ↔ List.Forall₂ (fun a b ↦ f a = .ok b) l l' := by
  induction l generalizing l' with
  | nil => cases l' <;> simp
  | cons a l ih =>
    rw [List.mapM_cons]
    constructor
    · intro h
      obtain ⟨b, hb, h⟩ := bind_eq_ok.1 h
      obtain ⟨bs, hbs, h⟩ := bind_eq_ok.1 h
      cases h
      exact .cons hb (ih.1 hbs)
    · rintro (_ | ⟨hb, hbs⟩)
      simp [hb, ih.2 hbs]

/-- Item by item, so every item on the right has one on the left. -/
theorem exists_of_forall₂ {R : α → β → Prop} {l : List α} {l' : List β} (h : List.Forall₂ R l l')
    {b : β} (hb : b ∈ l') : ∃ a ∈ l, R a b := by
  induction h with
  | nil => simp at hb
  | cons hab _ ih =>
    rcases List.mem_cons.1 hb with rfl | hb
    · exact ⟨_, List.mem_cons_self, hab⟩
    · obtain ⟨a, ha, h⟩ := ih hb
      exact ⟨a, List.mem_cons_of_mem _ ha, h⟩

@[simp] theorem toOption_ok (a : α) : (.ok a : Except ε α).toOption = some a := rfl

@[simp] theorem toOption_error (e : ε) : (.error e : Except ε α).toOption = none := rfl

/-- Two computations end alike: with related errors, or with related results. -/
inductive Rel {ε' : Type} (E : ε → ε' → Prop) (R : α → β → Prop) : Except ε α → Except ε' β → Prop
  | error {e : ε} {e' : ε'} : E e e' → Rel E R (.error e) (.error e')
  | ok {a : α} {b : β} : R a b → Rel E R (.ok a) (.ok b)

section Rel

variable {ε' γ δ : Type} {E : ε → ε' → Prop} {R : α → β → Prop}

theorem Rel.cases {x : Except ε α} {y : Except ε' β} (h : Rel E R x y) :
    (∃ e e', x = .error e ∧ y = .error e' ∧ E e e') ∨ ∃ a b, x = .ok a ∧ y = .ok b ∧ R a b := by
  cases h with
  | error h => exact .inl ⟨_, _, rfl, rfl, h⟩
  | ok h => exact .inr ⟨_, _, rfl, rfl, h⟩

theorem Rel.bind {S : γ → δ → Prop} {x : Except ε α} {y : Except ε' β} {f : α → Except ε γ}
    {f' : β → Except ε' δ} (h : Rel E R x y) (hf : ∀ a b, R a b → Rel E S (f a) (f' b)) :
    Rel E S (x >>= f) (y >>= f') := by
  cases h with
  | error h => exact .error h
  | ok h => exact hf _ _ h

/-- **Two loops over the same items** that stay related. -/
theorem Rel.foldlM {f : α → γ → Except ε α} {f' : β → γ → Except ε' β} {l : List γ} {a : α} {b : β}
    (hf : ∀ c ∈ l, ∀ a b, R a b → Rel E R (f a c) (f' b c)) (h : R a b) :
    Rel E R (l.foldlM f a) (l.foldlM f' b) := by
  induction l generalizing a b with
  | nil => exact .ok h
  | cons c l ih =>
    rw [List.foldlM_cons, List.foldlM_cons]
    refine (hf c List.mem_cons_self a b h).bind fun a b h ↦ ?_
    exact ih (fun c hc ↦ hf c (List.mem_cons_of_mem _ hc)) h

end Rel

end Except
