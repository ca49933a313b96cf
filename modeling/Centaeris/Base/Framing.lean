import Mathlib.Data.List.Basic

/-!
# Blocks of a stream

A reader of a stream holds back what it has not finished, and takes blocks off the front of it. What ends a
block is a `Cut`: it finds the first block of a sequence, and what comes after the sequence does not change
what it has found. `blocks` takes all of them off and leaves the rest. However the sequence arrives, the
blocks are the same (`blocks_append`): those of its start, and then those of what was left followed by the
new part.
-/

namespace Framing

variable {α β : Type*}

/-- How the first block is found. -/
structure Cut (α : Type*) (β : Type*) where
  /-- The first block, and what follows it. -/
  cut : List α → Option (β × List α)
  shorter {s r : List α} {b : β} : cut s = some (b, r) → r.length < s.length
  append {s r : List α} {b : β} (t : List α) : cut s = some (b, r) → cut (s ++ t) = some (b, r ++ t)

variable (c : Cut α β)

/-- The blocks that have ended, one after the other, and the rest. -/
def blocksFrom : Nat → List α → List β × List α
  | 0, s => ([], s)
  | fuel + 1, s =>
    match c.cut s with
    | none => ([], s)
    | some (b, r) => (b :: (blocksFrom fuel r).1, (blocksFrom fuel r).2)

/-- All the blocks of a sequence, and the rest. -/
def blocks (s : List α) : List β × List α := blocksFrom c s.length s

variable {c}

theorem blocksFrom_of_none {fuel : Nat} {s : List α} (h : c.cut s = none) : blocksFrom c fuel s = ([], s) := by
  cases fuel with
  | zero => rfl
  | succ fuel => rw [blocksFrom, h]

/-- Any fuel that reaches the length of the sequence is enough. -/
theorem blocksFrom_eq {m n : Nat} {s : List α} (hm : s.length ≤ m) (hn : s.length ≤ n) :
    blocksFrom c m s = blocksFrom c n s := by
  induction m generalizing n s with
  | zero =>
    obtain rfl := List.length_eq_zero_iff.1 (Nat.le_zero.1 hm)
    have hnone : c.cut ([] : List α) = none := by
      cases h : c.cut ([] : List α) with
      | none => rfl
      | some x => exact absurd (c.shorter h) (Nat.not_lt_zero _)
    rw [blocksFrom_of_none hnone, blocksFrom_of_none hnone]
  | succ m ih =>
    cases h : c.cut s with
    | none => rw [blocksFrom_of_none h, blocksFrom_of_none h]
    | some x =>
      have hlt := c.shorter h
      obtain ⟨n, rfl⟩ : ∃ k, n = k + 1 := ⟨n - 1, by omega⟩
      rw [blocksFrom, blocksFrom, h]
      simp only [ih (show x.2.length ≤ m by omega) (show x.2.length ≤ n by omega)]

theorem blocks_of_none {s : List α} (h : c.cut s = none) : blocks c s = ([], s) := blocksFrom_of_none h

theorem blocks_of_cut {s r : List α} {b : β} (h : c.cut s = some (b, r)) :
    blocks c s = (b :: (blocks c r).1, (blocks c r).2) := by
  have hlt := c.shorter h
  obtain ⟨n, hn⟩ : ∃ k, s.length = k + 1 := ⟨s.length - 1, by omega⟩
  rw [blocks, hn, blocksFrom, h]
  simp only [blocks, blocksFrom_eq (show r.length ≤ n by omega) (Nat.le_refl r.length)]

/-- What is left has no block. -/
theorem cut_rest (s : List α) : c.cut (blocks c s).2 = none := by
  induction hn : s.length using Nat.strongRecOn generalizing s with
  | ind n ih =>
    cases h : c.cut s with
    | none => rwa [blocks_of_none h]
    | some x =>
      rw [blocks_of_cut h]
      exact ih _ (hn ▸ c.shorter h) _ rfl

theorem blocks_rest (s : List α) : blocks c (blocks c s).2 = ([], (blocks c s).2) := blocks_of_none (cut_rest s)

/-- **The blocks do not depend on where the sequence is cut into parts.** -/
theorem blocks_append (s t : List α) :
    blocks c (s ++ t) = ((blocks c s).1 ++ (blocks c ((blocks c s).2 ++ t)).1,
      (blocks c ((blocks c s).2 ++ t)).2) := by
  induction hn : s.length using Nat.strongRecOn generalizing s with
  | ind n ih =>
    cases h : c.cut s with
    | none => rw [blocks_of_none h, List.nil_append]
    | some x =>
      rw [blocks_of_cut (c.append t h), ih _ (hn ▸ c.shorter h) x.2 rfl, blocks_of_cut h]
      rfl

section Double

variable [DecidableEq α] (x : α)

/-- The part before the first pair of two `x`, and the part after it. -/
def splitDouble : List α → Option (List α × List α)
  | [] => none
  | [_] => none
  | a :: b :: s =>
    if a = x ∧ b = x then some ([], s)
    else (splitDouble (b :: s)).map fun (l, r) ↦ (a :: l, r)

variable {x}

theorem eq_of_splitDouble {s l r : List α} (h : splitDouble x s = some (l, r)) : s = l ++ x :: x :: r := by
  induction s generalizing l with
  | nil => cases h
  | cons a s ih =>
    cases s with
    | nil => cases h
    | cons b s =>
      rw [splitDouble] at h
      split at h
      · next hab =>
        obtain ⟨rfl, rfl⟩ := Prod.mk.inj (Option.some.inj h)
        obtain ⟨rfl, rfl⟩ := hab
        rfl
      · obtain ⟨⟨l', r'⟩, hs, heq⟩ := Option.map_eq_some_iff.1 h
        obtain ⟨rfl, rfl⟩ := Prod.mk.inj heq
        rw [ih hs]
        rfl

theorem splitDouble_append {s l r : List α} (t : List α) (h : splitDouble x s = some (l, r)) :
    splitDouble x (s ++ t) = some (l, r ++ t) := by
  induction s generalizing l with
  | nil => cases h
  | cons a s ih =>
    cases s with
    | nil => cases h
    | cons b s =>
      rw [List.cons_append, List.cons_append, splitDouble]
      rw [splitDouble] at h
      split at h
      · next hab =>
        obtain ⟨rfl, rfl⟩ := Prod.mk.inj (Option.some.inj h)
        rw [if_pos hab]
      · next hab =>
        obtain ⟨⟨l', r'⟩, hs, heq⟩ := Option.map_eq_some_iff.1 h
        obtain ⟨rfl, rfl⟩ := Prod.mk.inj heq
        rw [if_neg hab, ← List.cons_append, ih hs]
        rfl

variable (x)

/-- Blocks that end with a pair of two `x`. -/
def double : Cut α (List α) where
  cut := splitDouble x
  shorter h := by
    rw [eq_of_splitDouble h, List.length_append, List.length_cons, List.length_cons]
    omega
  append := splitDouble_append

end Double

end Framing
