import Centaeris.Base.Utf8Stream

/-!
# Texts cut at byte offsets

A byte offset into the bytes of a text is between two characters (`Cut`) or inside one. A start of the
bytes decodes exactly when it ends between two characters (`decode_take`), and the byte at an offset tells
which of the two it is (`isContinuation_iff`). The most of a text that has at most so many bytes is `fit`;
it stops less than four bytes before the limit, unless the text ends.
-/

namespace Utf8

/-- The UTF-8 bytes of some characters. -/
def encode (t : List Char) : List UInt8 := t.flatMap String.utf8EncodeChar

@[simp] theorem encode_nil : encode [] = [] := rfl

@[simp] theorem encode_cons (c : Char) (t : List Char) :
    encode (c :: t) = String.utf8EncodeChar c ++ encode t := List.flatMap_cons

@[simp] theorem encode_append (t u : List Char) : encode (t ++ u) = encode t ++ encode u :=
  List.flatMap_append

theorem bytes_eq_encode (s : String) : bytes s = encode s.toList := rfl

theorem decode_encode (t : List Char) : decode (encode t) = some (String.ofList t) := by
  have h := decode_bytes (String.ofList t)
  rwa [bytes_eq_encode, String.toList_ofList] at h

theorem encode_injective : Function.Injective encode := by
  intro t u h
  have hdecode := decode_encode t
  rw [h, decode_encode u] at hdecode
  exact (String.ofList_injective (Option.some.inj hdecode)).symm

theorem length_utf8EncodeChar (c : Char) :
    0 < (String.utf8EncodeChar c).length ∧ (String.utf8EncodeChar c).length ≤ 4 := by
  simp only [String.utf8EncodeChar]
  split
  · simp
  · split
    · simp
    · split <;> simp

theorem length_le_length_encode (t : List Char) : t.length ≤ (encode t).length := by
  have h := length_le_length_bytes (String.ofList t)
  rwa [bytes_eq_encode, String.toList_ofList] at h

theorem encode_eq_nil_iff {t : List Char} : encode t = [] ↔ t = [] := by
  constructor
  · intro h
    have hle := length_le_length_encode t
    rw [h] at hle
    exact List.length_eq_zero_iff.1 (Nat.le_zero.1 hle)
  · rintro rfl
    rfl

/-! ### Places between characters -/

/-- The offset is between two characters of the text, or at an end. -/
def Cut (t : List Char) (k : Nat) : Prop := ∃ p q, t = p ++ q ∧ (encode p).length = k

theorem cut_zero (t : List Char) : Cut t 0 := ⟨[], t, rfl, rfl⟩

theorem cut_append (p q : List Char) : Cut (p ++ q) (encode p).length := ⟨p, q, rfl, rfl⟩

theorem take_encode (p q : List Char) : (encode (p ++ q)).take (encode p).length = encode p := by
  rw [encode_append, List.take_left]

theorem drop_encode (p q : List Char) : (encode (p ++ q)).drop (encode p).length = encode q := by
  rw [encode_append, List.drop_left]

/-- A start of a character, not all of it, leaves the decoder inside. -/
theorem needed_of_proper {c : Char} {m m' : List UInt8} (h : String.utf8EncodeChar c = m ++ m')
    (hm : m ≠ []) (hm' : m' ≠ []) : ∃ p, run .idle m = some ([], p) ∧ p.needed ≠ 0 := by
  have hrun := run_utf8EncodeChar c
  rw [h] at hrun
  obtain ⟨cs, q, ds, hcs, hds, hc⟩ := run_of_append hrun
  by_cases hq : q.needed = 0
  · -- both parts would be texts, and one of them would be empty
    obtain ⟨hm₁, rfl⟩ := bytes_of_run hcs hq
    obtain ⟨hm₂, -⟩ := bytes_of_run hds rfl
    rw [bytes_eq_encode, String.toList_ofList] at hm₁ hm₂
    rcases List.singleton_eq_append_iff.1 hc with ⟨rfl, -⟩ | ⟨-, rfl⟩
    · exact absurd hm₁ hm
    · exact absurd hm₂ hm'
  · refine ⟨q, ?_, hq⟩
    -- the character comes with its last byte
    rcases List.singleton_eq_append_iff.1 hc with ⟨rfl, -⟩ | ⟨rfl, rfl⟩
    · exact hcs
    · obtain ⟨m₁, hm₁, hbegun⟩ := Begun.idle.run hcs
      have hlength := congrArg List.length hm₁
      have hall := congrArg List.length h
      have hpos := List.length_pos_iff.2 hm'
      simp only [List.nil_append, List.flatMap_cons, List.flatMap_nil, List.append_nil,
        List.length_append] at hlength hall
      omega

/-- A place inside a character. -/
theorem exists_inside {t : List Char} {k : Nat} (hk : k ≤ (encode t).length) (hcut : ¬ Cut t k) :
    ∃ p c q m m', t = p ++ c :: q ∧ String.utf8EncodeChar c = m ++ m' ∧ m ≠ [] ∧ m' ≠ [] ∧
      k = (encode p).length + m.length := by
  induction t generalizing k with
  | nil => exact absurd (Nat.le_zero.1 hk ▸ cut_zero []) hcut
  | cons c t ih =>
    rw [encode_cons, List.length_append] at hk
    by_cases hc : (String.utf8EncodeChar c).length ≤ k
    · obtain ⟨p, c', q, m, m', rfl, henc, hm, hm', hk'⟩ := ih (k := k - (String.utf8EncodeChar c).length)
        (by omega) fun ⟨p, q, hpq, hlength⟩ ↦ hcut ⟨c :: p, q, by rw [hpq]; rfl, by
          rw [encode_cons, List.length_append]
          omega⟩
      refine ⟨c :: p, c', q, m, m', rfl, henc, hm, hm', ?_⟩
      rw [encode_cons, List.length_append]
      omega
    · have hpos : k ≠ 0 := fun h ↦ hcut (h ▸ cut_zero _)
      refine ⟨[], c, t, (String.utf8EncodeChar c).take k, (String.utf8EncodeChar c).drop k, rfl,
        (List.take_append_drop _ _).symm, ?_, ?_, ?_⟩
      · rw [← List.length_pos_iff, List.length_take]
        omega
      · rw [← List.length_pos_iff, List.length_drop]
        omega
      · rw [List.length_take, encode_nil, List.length_nil]
        omega

/-- **A start of the bytes decodes exactly when it ends between two characters.** -/
theorem decode_take {t : List Char} {k : Nat} (hk : k ≤ (encode t).length) {s : String} :
    decode ((encode t).take k) = some s ↔ ∃ q, t = s.toList ++ q ∧ (encode s.toList).length = k := by
  constructor
  · intro h
    by_cases hcut : Cut t k
    · obtain ⟨p, q, rfl, rfl⟩ := hcut
      rw [take_encode, decode_encode] at h
      rw [← Option.some.inj h, String.toList_ofList]
      exact ⟨q, rfl, rfl⟩
    · obtain ⟨p, c, q, m, m', rfl, henc, hm, hm', rfl⟩ := exists_inside hk hcut
      obtain ⟨r, hr, hneeded⟩ := needed_of_proper henc hm hm'
      have htake : (encode (p ++ c :: q)).take ((encode p).length + m.length) = encode p ++ m := by
        rw [encode_append, encode_cons, henc, List.append_assoc, ← List.append_assoc,
          ← List.length_append, List.take_left]
      rw [htake] at h
      -- the bytes of a text leave the decoder between characters
      have hrun := run_bytes s
      rw [bytes_of_decode h, run_append_of_eq (l := encode p) (run_flatMap p) hr] at hrun
      exact absurd (congrArg Pending.needed (Prod.mk.inj (Option.some.inj hrun)).2) hneeded
  · rintro ⟨q, rfl, rfl⟩
    rw [take_encode, decode_encode, String.ofList_toList]

theorem decode_take_isSome {t : List Char} {k : Nat} (hk : k ≤ (encode t).length) :
    (decode ((encode t).take k)).isSome ↔ Cut t k := by
  rw [Option.isSome_iff_exists]
  simp only [decode_take hk]
  constructor
  · rintro ⟨s, q, ht, hlength⟩
    exact ⟨s.toList, q, ht, hlength⟩
  · rintro ⟨p, q, ht, hlength⟩
    exact ⟨String.ofList p, q, by rw [String.toList_ofList, ht], by rw [String.toList_ofList, hlength]⟩

/-! ### What the byte at an offset tells -/

/-- `b & 0xC0 == 0x80`: a byte that is not the first one of a character. -/
def isContinuation (b : UInt8) : Bool := b &&& 0xC0 == 0x80

theorem isContinuation_iff_toNat {b : UInt8} :
    isContinuation b = true ↔ 0x80 ≤ b.toNat ∧ b.toNat < 0xC0 := by
  have hall : ∀ n < 256, (isContinuation (UInt8.ofNat n) = true ↔ 0x80 ≤ n ∧ n < 0xC0) := by decide +kernel
  have h := hall b.toNat b.toNat_lt
  rwa [UInt8.ofNat_toNat] at h

/-- The first byte of a character, and the others. -/
theorem utf8EncodeChar_bytes (c : Char) : ∃ b bs, String.utf8EncodeChar c = b :: bs ∧
    isContinuation b = false ∧ ∀ b' ∈ bs, isContinuation b' = true := by
  have hc : c.val.toNat < 0x110000 := by
    have := c.valid
    simp only [UInt32.isValidChar, Nat.isValidChar] at this
    omega
  have htail {n : Nat} (h : n < 64) : isContinuation (UInt8.ofNat (n + 128)) = true := by
    rw [isContinuation_iff_toNat, toNat_ofNat (by omega)]
    omega
  have hlead {n : Nat} (h : n < 0x80 ∨ 0xC0 ≤ n) (hn : n < 256) :
      isContinuation (UInt8.ofNat n) = false := by
    rw [Bool.eq_false_iff, ne_eq, isContinuation_iff_toNat, toNat_ofNat hn]
    omega
  simp only [String.utf8EncodeChar]
  generalize c.val.toNat = v at hc
  split
  · exact ⟨_, _, rfl, hlead (by omega) (by omega), by simp⟩
  split
  · refine ⟨_, _, rfl, hlead (by omega) (by omega), ?_⟩
    simp only [List.mem_singleton, forall_eq]
    exact htail (by omega)
  split
  · refine ⟨_, _, rfl, hlead (by omega) (by omega), ?_⟩
    simp only [List.mem_cons, List.not_mem_nil, or_false, forall_eq_or_imp, forall_eq]
    exact ⟨htail (by omega), htail (by omega)⟩
  · refine ⟨_, _, rfl, hlead (by omega) (by omega), ?_⟩
    simp only [List.mem_cons, List.not_mem_nil, or_false, forall_eq_or_imp, forall_eq]
    exact ⟨htail (by omega), htail (by omega), htail (by omega)⟩

/-- A byte of the ASCII range is a character by itself. -/
theorem toNat_eq_of_mem {c : Char} {b : UInt8} (hb : b ∈ String.utf8EncodeChar c) (hlt : b.toNat < 0x80) :
    c.toNat = b.toNat := by
  have hc : c.val.toNat < 0x110000 := by
    have := c.valid
    simp only [UInt32.isValidChar, Nat.isValidChar] at this
    omega
  have hbyte {n : Nat} (h : b = UInt8.ofNat n) (hn : n < 256) : n = b.toNat := by rw [h, toNat_ofNat hn]
  rw [show c.toNat = c.val.toNat from rfl]
  simp only [String.utf8EncodeChar] at hb
  generalize c.val.toNat = v at hc hb
  split at hb
  · exact hbyte (List.mem_singleton.1 hb) (by omega)
  split at hb
  · simp only [List.mem_cons, List.not_mem_nil, or_false] at hb
    obtain hb | hb := hb <;> have := hbyte hb (by omega) <;> omega
  split at hb
  · simp only [List.mem_cons, List.not_mem_nil, or_false] at hb
    obtain hb | hb | hb := hb <;> have := hbyte hb (by omega) <;> omega
  · simp only [List.mem_cons, List.not_mem_nil, or_false] at hb
    obtain hb | hb | hb | hb := hb <;> have := hbyte hb (by omega) <;> omega

/-- Newlines are counted in the bytes as in the text. -/
theorem count_newline_encode (t : List Char) : (encode t).count 10 = t.count '\n' := by
  induction t with
  | nil => rfl
  | cons c t ih =>
    rw [encode_cons, List.count_append, ih, List.count_cons]
    by_cases hc : c = '\n'
    · subst hc
      rw [show (String.utf8EncodeChar '\n').count 10 = 1 from rfl]
      simp [Nat.add_comm]
    · have hnot : (10 : UInt8) ∉ String.utf8EncodeChar c := fun hmem ↦
        hc (Char.ext (UInt32.toNat_inj.1 (toNat_eq_of_mem hmem (by decide))))
      rw [List.count_eq_zero.2 hnot]
      simp [hc]

/-- **The byte at an offset tells whether it is between two characters.** -/
theorem isContinuation_iff {t : List Char} {k : Nat} {b : UInt8} (hb : (encode t)[k]? = some b) :
    isContinuation b = true ↔ ¬ Cut t k := by
  have hk : k < (encode t).length := (List.getElem?_eq_some_iff.1 hb).1
  by_cases hcut : Cut t k
  · obtain ⟨p, q, rfl, rfl⟩ := hcut
    cases q with
    | nil =>
      rw [List.append_nil] at hk
      exact absurd hk (Nat.lt_irrefl _)
    | cons c q =>
      obtain ⟨first, rest, henc, hfirst, -⟩ := utf8EncodeChar_bytes c
      rw [encode_append, encode_cons, henc, List.cons_append, List.getElem?_append_right (Nat.le_refl _),
        Nat.sub_self] at hb
      rw [← Option.some.inj hb, hfirst]
      exact iff_of_false (by simp) (not_not_intro (cut_append p (c :: q)))
  · obtain ⟨p, c, q, m, m', rfl, henc, hm, hm', rfl⟩ := exists_inside (Nat.le_of_lt hk) hcut
    refine iff_of_true ?_ hcut
    obtain ⟨first, rest, henc', -, hrest⟩ := utf8EncodeChar_bytes c
    obtain ⟨x, m, rfl⟩ := List.exists_cons_of_ne_nil hm
    obtain ⟨y, m', rfl⟩ := List.exists_cons_of_ne_nil hm'
    have hindex : (encode (p ++ c :: q))[(encode p).length + (x :: m).length]? = some y := by
      rw [encode_append, encode_cons, henc, List.getElem?_append_right (Nat.le_add_right _ _),
        Nat.add_sub_cancel_left, List.append_assoc, List.getElem?_append_right (Nat.le_refl _), Nat.sub_self]
      rfl
    rw [hindex] at hb
    rw [← Option.some.inj hb]
    rw [henc', List.cons_append] at henc
    exact hrest y ((List.cons.inj henc).2 ▸ by simp)

theorem decode_eq_none_of_isContinuation {b : UInt8} (hb : isContinuation b = true) (l : List UInt8) :
    decode (b :: l) = none := by
  by_contra h
  obtain ⟨s, hs⟩ := Option.ne_none_iff_exists'.1 h
  have hbytes := bytes_of_decode hs
  rw [bytes_eq_encode] at hbytes
  cases ht : s.toList with
  | nil => simp [ht] at hbytes
  | cons c t =>
    obtain ⟨first, rest, henc, hfirst, -⟩ := utf8EncodeChar_bytes c
    rw [ht, encode_cons, henc, List.cons_append, List.cons.injEq] at hbytes
    rw [← hbytes.1, hfirst] at hb
    cases hb

theorem run_eq_none_of_isContinuation {b : UInt8} (hb : isContinuation b = true) (l : List UInt8) :
    run .idle (b :: l) = none := by
  rw [isContinuation_iff_toNat] at hb
  have hlead : lead b.toNat = .reject := by
    rw [lead, if_neg (by omega), if_neg (by omega), if_neg (by omega), if_neg (by omega)]
  rw [run, react_idle, hlead]

/-! ### The most that fits -/

/-- The most of a text that has at most so many bytes. -/
def fit : List Char → Nat → List Char
  | [], _ => []
  | c :: t, k =>
    if (String.utf8EncodeChar c).length ≤ k then c :: fit t (k - (String.utf8EncodeChar c).length) else []

theorem fit_spec (t : List Char) (k : Nat) : ∃ q, t = fit t k ++ q ∧ (encode (fit t k)).length ≤ k ∧
    ∀ c r, q = c :: r → k < (encode (fit t k)).length + (String.utf8EncodeChar c).length := by
  induction t generalizing k with
  | nil => exact ⟨[], rfl, Nat.zero_le _, fun c r h ↦ by cases h⟩
  | cons c t ih =>
    rw [fit]
    split
    · next hle =>
      obtain ⟨q, ht, hlength, hmost⟩ := ih (k - (String.utf8EncodeChar c).length)
      refine ⟨q, by rw [List.cons_append, ← ht], ?_, fun c' r hq ↦ ?_⟩
      · rw [encode_cons, List.length_append]
        omega
      · have := hmost c' r hq
        rw [encode_cons, List.length_append]
        omega
    · next hgt =>
      refine ⟨c :: t, rfl, Nat.zero_le _, fun c' r hq ↦ ?_⟩
      obtain ⟨rfl, -⟩ := List.cons.inj hq
      simpa using hgt

/-- No place between two characters lies between the most that fits and the limit. -/
theorem le_of_cut {t : List Char} {j k : Nat} (hcut : Cut t j) (hj : j ≤ k) : j ≤ (encode (fit t k)).length := by
  obtain ⟨p, q, rfl, rfl⟩ := hcut
  induction p generalizing k with
  | nil => exact Nat.zero_le _
  | cons c p ih =>
    rw [encode_cons, List.length_append] at hj ⊢
    rw [List.cons_append, fit, if_pos (by omega), encode_cons, List.length_append]
    exact Nat.add_le_add_left (ih (by omega)) _

/-- There is only one longest prefix. -/
theorem fit_eq_of_append {p q : List Char} {k : Nat} (hp : (encode p).length ≤ k)
    (hq : ∀ c r, q = c :: r → k < (encode p).length + (String.utf8EncodeChar c).length) :
    fit (p ++ q) k = p := by
  induction p generalizing k with
  | nil =>
    cases q with
    | nil => rfl
    | cons c r => exact if_neg (by simpa using hq c r rfl)
  | cons c p ih =>
    rw [encode_cons, List.length_append] at hp
    rw [List.cons_append, fit, if_pos (by omega), ih (by omega)]
    intro d r hd
    have := hq d r hd
    rw [encode_cons, List.length_append] at this
    omega

theorem fit_of_length_le {t : List Char} {k : Nat} (h : (encode t).length ≤ k) : fit t k = t := by
  have := fit_eq_of_append (q := []) h (fun c r h ↦ by cases h)
  rwa [List.append_nil] at this

/-- Where no character ends, one byte more does not let another one fit. -/
theorem fit_succ_of_not_cut {t : List Char} {k : Nat} (h : ¬ Cut t (k + 1)) : fit t (k + 1) = fit t k := by
  obtain ⟨q, ht, hle, hnext⟩ := fit_spec t (k + 1)
  have hne : (encode (fit t (k + 1))).length ≠ k + 1 := fun heq ↦ h ⟨_, q, ht, heq⟩
  conv_rhs => rw [ht]
  refine (fit_eq_of_append (by omega) fun c r hq ↦ ?_).symm
  have := hnext c r hq
  omega

theorem fit_min (t : List Char) (k : Nat) : fit t (min k (encode t).length) = fit t k := by
  rcases Nat.le_total k (encode t).length with h | h
  · rw [Nat.min_eq_left h]
  · rw [Nat.min_eq_right h, fit_of_length_le h, fit_of_length_le (Nat.le_refl _)]

/-- Less than a character is left over, unless the text ends. -/
theorem lt_length_fit_add {t : List Char} {k : Nat} (hk : k ≤ (encode t).length) :
    k < (encode (fit t k)).length + 4 := by
  obtain ⟨q, ht, -, hnext⟩ := fit_spec t k
  cases q with
  | nil =>
    rw [List.append_nil] at ht
    rw [← ht]
    omega
  | cons c r =>
    have := hnext c r rfl
    have := (length_utf8EncodeChar c).2
    omega

/-- A start of the bytes leaves the decoder after the most that fits, and between two characters if that is
all of it. -/
theorem run_take {t : List Char} {k : Nat} (hk : k ≤ (encode t).length) :
    ∃ p, run .idle ((encode t).take k) = some (fit t k, p) ∧
      (p.needed = 0 ↔ (encode (fit t k)).length = k) := by
  obtain ⟨q, ht, hle, hnext⟩ := fit_spec t k
  generalize hf : fit t k = f at ht hle hnext
  subst ht
  rw [encode_append, List.length_append] at hk
  have htake : (encode (f ++ q)).take k = encode f ++ (encode q).take (k - (encode f).length) := by
    rw [encode_append, List.take_append, List.take_of_length_le hle]
  rw [htake]
  by_cases heq : (encode f).length = k
  · rw [heq, Nat.sub_self, List.take_zero, List.append_nil]
    exact ⟨_, run_flatMap f, iff_of_true rfl rfl⟩
  · cases q with
    | nil =>
      rw [encode_nil, List.length_nil] at hk
      omega
    | cons c r =>
      have hlt := hnext c r rfl
      have hshort : (encode (c :: r)).take (k - (encode f).length) =
          (String.utf8EncodeChar c).take (k - (encode f).length) := by
        rw [encode_cons, List.take_append_of_le_length (by omega)]
      obtain ⟨p, hrun, hneeded⟩ := needed_of_proper
        (List.take_append_drop (k - (encode f).length) (String.utf8EncodeChar c)).symm
        (by rw [← List.length_pos_iff, List.length_take]; omega)
        (by rw [← List.length_pos_iff, List.length_drop]; omega)
      rw [hshort, run_append_of_eq (l := encode f) (run_flatMap f) hrun, List.append_nil]
      exact ⟨p, rfl, iff_of_false hneeded heq⟩

/-- At least one character fits into four bytes. -/
theorem fit_ne_nil {t : List Char} {k : Nat} (ht : t ≠ []) (hk : 4 ≤ k) : fit t k ≠ [] := by
  obtain ⟨c, t, rfl⟩ := List.exists_cons_of_ne_nil ht
  rw [fit, if_pos (Nat.le_trans (length_utf8EncodeChar c).2 hk)]
  exact List.cons_ne_nil _ _

end Utf8
