import Mathlib.Data.List.Basic
import Mathlib.Data.List.Count
import Centaeris.Base.Utf8

/-!
# The lines of a text

`str.splitlines` cuts a text after each of ten line ends, of which the newline is one. Elsewhere lines are
counted by their newlines. `pieces` are the lines with what ends each of them: put together they are the
text (`flatten_splitLinesKeep`), and where the newline is the only line end of a text, the lines before a place are as
many as the newlines before it (`count_newline_take`).
-/

namespace Lines

/-- The characters that end a line. -/
def lineEnds : List Char :=
  ['\n', '\r', '\x0b', '\x0c', '\x1c', '\x1d', '\x1e', '\u0085', '\u2028', '\u2029']

/-- The lines of a text, each with what ends it; a carriage return and a newline end a line together. -/
def pieces : List Char → List (List Char × List Char)
  | [] => []
  | '\r' :: '\n' :: t => ([], ['\r', '\n']) :: pieces t
  | c :: t =>
    if c ∈ lineEnds then ([], [c]) :: pieces t
    else
      match pieces t with
      | [] => [([c], [])]
      | (line, ending) :: rest => (c :: line, ending) :: rest

/-- `splitlines()`. -/
def splitLines (t : List Char) : List (List Char) := (pieces t).map Prod.fst

/-- `splitlines(keepends=True)`. -/
def splitLinesKeep (t : List Char) : List (List Char) := (pieces t).map fun p ↦ p.1 ++ p.2

theorem length_splitLines (t : List Char) : (splitLines t).length = (splitLinesKeep t).length := by
  rw [splitLines, splitLinesKeep, List.length_map, List.length_map]

/-- **The lines with their ends are the text.** -/
theorem flatten_splitLinesKeep (t : List Char) : (splitLinesKeep t).flatten = t := by
  rw [splitLinesKeep]
  fun_induction pieces t with
  | case1 => rfl
  | case2 t ih => simp [ih]
  | case3 c t _ hmem ih => simp [ih]
  | case4 c t _ hmem hnil ih =>
    rw [hnil] at ih
    simpa using ih
  | case5 c t _ hmem line ending rest hrest ih =>
    rw [hrest] at ih
    simpa using ih

/-- No line is without a character, if its end counts. -/
theorem ne_nil_of_mem_splitLinesKeep {t l : List Char} (h : l ∈ splitLinesKeep t) : l ≠ [] := by
  rw [splitLinesKeep] at h
  fun_induction pieces t with
  | case1 => cases h
  | case2 t ih =>
    rcases List.mem_cons.1 h with rfl | h
    · simp
    · exact ih h
  | case3 c t _ hmem ih =>
    rcases List.mem_cons.1 h with rfl | h
    · simp
    · exact ih h
  | case4 c t _ hmem hnil ih =>
    rcases List.mem_cons.1 h with rfl | h
    · simp
    · cases h
  | case5 c t _ hmem line ending rest hrest ih =>
    rw [hrest] at ih
    rcases List.mem_cons.1 h with rfl | h
    · simp
    · exact ih (List.mem_cons_of_mem _ h)

theorem intercalate_append {α : Type} {x : α} {l m : List (List α)} (hl : l ≠ []) (hm : m ≠ []) :
    [x].intercalate (l ++ m) = [x].intercalate l ++ x :: [x].intercalate m := by
  induction l with
  | nil => exact absurd rfl hl
  | cons a l ih =>
    cases l with
    | nil => rw [List.singleton_append, List.intercalate_cons_of_ne_nil hm]; simp
    | cons b l =>
      rw [List.cons_append, List.intercalate_cons_of_ne_nil (by simp), ih (by simp),
        List.intercalate_cons_of_ne_nil (l := a) (by simp : b :: l ≠ [])]
      simp

/-! ### Texts whose lines end in newlines -/

/-- The newline is the only line end. -/
def Plain (t : List Char) : Prop := ∀ c ∈ t, c ∈ lineEnds → c = '\n'

instance (t : List Char) : Decidable (Plain t) := inferInstanceAs (Decidable (∀ c ∈ t, _))

theorem Plain.of_cons {c : Char} {t : List Char} (h : Plain (c :: t)) : Plain t :=
  fun d hd ↦ h d (List.mem_cons_of_mem c hd)

/-- The lines of such a text have no newline but at their ends, and only the last may have none. -/
theorem pieces_of_plain {t : List Char} (h : Plain t) :
    (∀ p ∈ pieces t, '\n' ∉ p.1 ∧ (p.2 = ['\n'] ∨ p.2 = [])) ∧
      ∀ l p q r, pieces t = l ++ p :: q :: r → p.2 = ['\n'] := by
  fun_induction pieces t with
  | case1 => exact ⟨by simp, by simp⟩
  | case2 t ih => exact absurd (h '\r' (by simp) (by decide)) (by decide)
  | case3 c t _ hmem ih =>
    obtain ⟨hall, hlast⟩ := ih h.of_cons
    obtain rfl : c = '\n' := h c (by simp) hmem
    refine ⟨?_, ?_⟩
    · intro p hp
      rcases List.mem_cons.1 hp with rfl | hp
      · exact ⟨by simp, .inl rfl⟩
      · exact hall p hp
    · rintro (_ | ⟨a, l⟩) p q r heq
      · obtain ⟨rfl, -⟩ := List.cons.inj heq
        rfl
      · exact hlast l p q r (List.cons.inj heq).2
  | case4 c t _ hmem hnil ih =>
    have hc : c ≠ '\n' := fun hc ↦ hmem (hc ▸ by decide)
    refine ⟨?_, ?_⟩
    · intro p hp
      rw [List.mem_singleton.1 hp]
      exact ⟨by simpa using hc.symm, .inr rfl⟩
    · intro l p q r heq
      have := congrArg List.length heq
      simp only [List.length_cons, List.length_nil, List.length_append] at this
      omega
  | case5 c t _ hmem line ending rest hrest ih =>
    have hc : c ≠ '\n' := fun hc ↦ hmem (hc ▸ by decide)
    obtain ⟨hall, hlast⟩ := ih h.of_cons
    rw [hrest] at hall hlast
    refine ⟨?_, ?_⟩
    · intro p hp
      rcases List.mem_cons.1 hp with rfl | hp
      · obtain ⟨hline, hending⟩ := hall (line, ending) List.mem_cons_self
        exact ⟨by simp [hc.symm, hline], hending⟩
      · exact hall p (List.mem_cons_of_mem _ hp)
    · rintro (_ | ⟨a, l⟩) p q r heq
      · obtain ⟨rfl, hrest'⟩ := List.cons.inj heq
        exact hlast [] (line, ending) q r (by rw [hrest']; rfl)
      · exact hlast ((line, ending) :: l) p q r (by rw [(List.cons.inj heq).2]; rfl)

theorem count_newline_flatten {P : List (List Char × List Char)} {k : Nat}
    (hall : ∀ p ∈ P, '\n' ∉ p.1) (hlast : ∀ l p q r, P = l ++ p :: q :: r → p.2 = ['\n'])
    (hk : k < P.length) : ((P.map fun p ↦ p.1 ++ p.2).take k).flatten.count '\n' = k := by
  induction k generalizing P with
  | zero => simp
  | succ k ih =>
    match P, hk with
    | p :: q :: rest, hk =>
      have hp : p.2 = ['\n'] := hlast [] p q rest rfl
      have hrest := @ih (q :: rest) (fun p' hp' ↦ hall p' (List.mem_cons_of_mem _ hp'))
        (fun l p' q' r heq ↦ hlast (p :: l) p' q' r (by rw [heq]; rfl)) (by simpa using hk)
      rw [List.map_cons, List.take_succ_cons, List.flatten_cons, List.count_append, hrest, hp,
        List.count_append, List.count_eq_zero.2 (hall p List.mem_cons_self)]
      simp
      omega
    | [p], hk => simp at hk

/-- **Where the newline is the only line end, lines are counted by newlines.** -/
theorem count_newline_take {t : List Char} (h : Plain t) {k : Nat} (hk : k < (splitLinesKeep t).length) :
    ((splitLinesKeep t).take k).flatten.count '\n' = k := by
  obtain ⟨hall, hlast⟩ := pieces_of_plain h
  refine count_newline_flatten (fun p hp ↦ (hall p hp).1) hlast ?_
  rwa [splitLinesKeep, List.length_map] at hk

/-- A start of a list of lists ends inside one of them. -/
theorem exists_split_of_append {α : Type} {L : List (List α)} {p q : List α} (h : L.flatten = p ++ q)
    (hq : q ≠ []) : ∃ j, ∃ hj : j < L.length, ∃ p' q', p = (L.take j).flatten ++ p' ∧ L[j] = p' ++ q' ∧ q' ≠ [] := by
  induction L generalizing p with
  | nil => exact absurd (List.append_eq_nil_iff.1 h.symm).2 hq
  | cons a L ih =>
    rw [List.flatten_cons, List.append_eq_append_iff] at h
    obtain ⟨p', rfl, hrest⟩ | ⟨q', ha, hq'⟩ := h
    · obtain ⟨j, hj, p'', q'', hp, hline, hne⟩ := ih hrest
      exact ⟨j + 1, Nat.succ_lt_succ hj, p'', q'', by simp [hp], hline, hne⟩
    · by_cases hne : q' = []
      · subst hne
        obtain ⟨j, hj, p'', q'', hp, hline, hne⟩ := @ih [] hq'.symm
        obtain ⟨hnil, rfl⟩ := List.append_eq_nil_iff.1 hp.symm
        exact ⟨j + 1, Nat.succ_lt_succ hj, [], q'', by simp [ha, hnil], hline, hne⟩
      · exact ⟨0, Nat.succ_pos _, p, q', by simp, ha, hne⟩

/-- **The line of a place**: as many lines are before it as newlines are. -/
theorem line_of_append {p q : List Char} (h : Plain (p ++ q)) (hq : q ≠ []) :
    ∃ hk : p.count '\n' < (splitLinesKeep (p ++ q)).length, ∃ p' q',
      p = ((splitLinesKeep (p ++ q)).take (p.count '\n')).flatten ++ p' ∧
        (splitLinesKeep (p ++ q))[p.count '\n'] = p' ++ q' ∧ q' ≠ [] := by
  obtain ⟨j, hj, p', q', hp, hline, hne⟩ := exists_split_of_append (flatten_splitLinesKeep (p ++ q)) hq
  -- A newline is only at the end of a line, and the place is before that.
  have hnone : '\n' ∉ p' := by
    obtain ⟨piece, hpiece, heq⟩ := List.mem_map.1 (List.getElem_mem hj)
    obtain ⟨hfirst, hsecond⟩ := (pieces_of_plain h).1 piece hpiece
    rw [hline] at heq
    have hlength := congrArg List.length heq
    rw [List.length_append, List.length_append] at hlength
    have hpos := List.length_pos_iff.2 hne
    have hprefix : p' <+: piece.1 := by
      refine @List.prefix_of_prefix_length_le _ _ _ (p' ++ q') ⟨q', rfl⟩ ⟨piece.2, heq⟩ ?_
      obtain h2 | h2 := hsecond <;> rw [h2] at hlength <;> simp at hlength <;> omega
    exact fun hmem ↦ hfirst ( hprefix.subset hmem)
  have hcount : p.count '\n' = j := by
    conv_lhs => rw [hp]
    rw [List.count_append, count_newline_take h hj, List.count_eq_zero.2 hnone, Nat.add_zero]
  simp only [hcount]
  exact ⟨hj, p', q', hp, hline, hne⟩

/-- A text that does not end in a newline has one line more than newlines. -/
theorem length_splitLinesKeep {t : List Char} (h : Plain t) (ht : t ≠ []) (hlast : t.getLast? ≠ some '\n') :
    (splitLinesKeep t).length = t.count '\n' + 1 := by
  obtain ⟨p, c, rfl⟩ : ∃ p c, t = p ++ [c] := ⟨_, _, (List.dropLast_append_getLast ht).symm⟩
  rw [List.getLast?_concat, ne_eq, Option.some.injEq] at hlast
  obtain ⟨hk, p', q', hp, hline, hne⟩ := line_of_append h (List.cons_ne_nil c [])
  have hflatten := flatten_splitLinesKeep (p ++ [c])
  rw [← List.take_append_drop (p.count '\n') (splitLinesKeep (p ++ [c])), List.flatten_append,
    List.drop_eq_getElem_cons hk, List.flatten_cons, hline] at hflatten
  conv at hflatten => rhs; rw [hp, List.append_assoc]
  rw [List.append_cancel_left_eq, List.append_assoc, List.append_cancel_left_eq] at hflatten
  have hrest : (splitLinesKeep (p ++ [c])).drop (p.count '\n' + 1) = [] := by
    by_contra hcons
    obtain ⟨line, rest, heq⟩ := List.exists_cons_of_ne_nil hcons
    have hmem : line ∈ splitLinesKeep (p ++ [c]) := List.mem_of_mem_drop (heq ▸ List.mem_cons_self)
    have hpos := List.length_pos_iff.2 (ne_nil_of_mem_splitLinesKeep hmem)
    have hpos' := List.length_pos_iff.2 hne
    have hlength := congrArg List.length hflatten
    rw [heq] at hlength
    simp only [List.length_append, List.flatten_cons, List.length_singleton] at hlength
    omega
  have hle := List.drop_eq_nil_iff.1 hrest
  have hc : [c].count '\n' = 0 := by simp [hlast]
  rw [List.count_append, hc]
  omega

/-- Lines that others follow end in a newline. -/
theorem getLast?_flatten_take {t : List Char} (h : Plain t) {m : Nat} (hm : 0 < m)
    (hlt : m < (splitLinesKeep t).length) : ((splitLinesKeep t).take m).flatten.getLast? = some '\n' := by
  obtain ⟨m, rfl⟩ : ∃ n, m = n + 1 := ⟨m - 1, by omega⟩
  rw [splitLinesKeep, List.length_map] at hlt
  have hpieces : pieces t = (pieces t).take m ++ (pieces t)[m] :: (pieces t)[m + 1] :: (pieces t).drop (m + 1 + 1) := by
    rw [← List.drop_eq_getElem_cons, ← List.drop_eq_getElem_cons, List.take_append_drop]
  have hend := (pieces_of_plain h).2 _ _ _ _ hpieces
  rw [splitLinesKeep, List.take_add_one, List.flatten_append, List.getElem?_map, List.getElem?_eq_getElem (by omega)]
  simp [hend]

/-- Some lines of a text, without a newline at their end: the last ones, and one more than newlines. -/
theorem count_newline_window {t : List Char} (h : Plain t) {offset k : Nat} (hk : 0 < k)
    (hle : offset + k ≤ (splitLinesKeep t).length)
    (hlast : (((splitLinesKeep t).drop offset).take k).flatten.getLast? ≠ some '\n') :
    (((splitLinesKeep t).drop offset).take k).flatten.count '\n' + 1 = k := by
  have hne : (((splitLinesKeep t).drop offset).take k).flatten ≠ [] := by
    have hlt : offset < (splitLinesKeep t).length := by omega
    obtain ⟨j, rfl⟩ : ∃ j, k = j + 1 := ⟨k - 1, by omega⟩
    rw [List.drop_eq_getElem_cons hlt, List.take_succ_cons, List.flatten_cons]
    exact List.append_ne_nil_of_left_ne_nil (ne_nil_of_mem_splitLinesKeep (List.getElem_mem hlt)) _
  have htake : ((splitLinesKeep t).take (offset + k)).flatten = ((splitLinesKeep t).take offset).flatten ++
      (((splitLinesKeep t).drop offset).take k).flatten := by
    rw [List.take_add, List.flatten_append]
  have hall : offset + k = (splitLinesKeep t).length := by
    refine Nat.le_antisymm hle (Nat.not_lt.1 fun hlt ↦ hlast ?_)
    have := getLast?_flatten_take h (by omega) hlt
    rwa [htake, List.getLast?_append_of_ne_nil _ hne] at this
  have ht : t = ((splitLinesKeep t).take offset).flatten ++
      (((splitLinesKeep t).drop offset).take k).flatten := by
    rw [← htake, hall, List.take_length, flatten_splitLinesKeep]
  have hend : t.getLast? ≠ some '\n' := by
    have := congrArg List.getLast? ht
    rw [List.getLast?_append_of_ne_nil _ hne] at this
    rwa [this]
  have hlength := length_splitLinesKeep h (fun hnil ↦ hne (List.append_eq_nil_iff.1 (ht.symm.trans hnil)).2) hend
  have hcount := congrArg (List.count '\n') ht
  rw [List.count_append, count_newline_take h (by omega)] at hcount
  omega

end Lines
