import Mathlib.Data.List.GetD

/-!
# Base64 for URLs

Bytes as texts of sixty-four letters that a URL may hold, without padding. What `encode` writes, `decode`
reads back.
-/

namespace Base64

/-- The letters, in the order of their values. -/
def alphabet : List Char := "ABCDEFGHIJKLMNOPQRSTUVWXYZabcdefghijklmnopqrstuvwxyz0123456789-_".toList

/-- The letter of a value. -/
def letter (n : Nat) : Char := alphabet.getD n 'A'

/-- The value of a letter. -/
def value (c : Char) : Option Nat := alphabet.idxOf? c

theorem value_letter : ∀ n < 64, value (letter n) = some n := by decide +kernel

theorem letter_mem {n : Nat} (h : n < 64) : letter n ∈ alphabet := by
  rw [letter, List.getD_eq_getElem _ _ (show n < alphabet.length from h)]
  exact List.getElem_mem _

/-- Three bytes are four letters; the letters that a last group of one or two bytes does not reach are left
out. -/
def encode : List UInt8 → List Char
  | a :: b :: c :: rest =>
    letter (a.toNat / 4) :: letter (a.toNat % 4 * 16 + b.toNat / 16) ::
      letter (b.toNat % 16 * 4 + c.toNat / 64) :: letter (c.toNat % 64) :: encode rest
  | [a, b] => [letter (a.toNat / 4), letter (a.toNat % 4 * 16 + b.toNat / 16), letter (b.toNat % 16 * 4)]
  | [a] => [letter (a.toNat / 4), letter (a.toNat % 4 * 16)]
  | [] => []

/-- The bytes of some letters; the bits that a last group has too many are not looked at. -/
def decode : List Char → Option (List UInt8)
  | i :: j :: k :: l :: rest => do
    let i ← value i
    let j ← value j
    let k ← value k
    let l ← value l
    let bytes ← decode rest
    return UInt8.ofNat (i * 4 + j / 16) :: UInt8.ofNat (j % 16 * 16 + k / 4) ::
      UInt8.ofNat (k % 4 * 64 + l) :: bytes
  | [i, j, k] => do
    let i ← value i
    let j ← value j
    let k ← value k
    return [UInt8.ofNat (i * 4 + j / 16), UInt8.ofNat (j % 16 * 16 + k / 4)]
  | [i, j] => do
    let i ← value i
    let j ← value j
    return [UInt8.ofNat (i * 4 + j / 16)]
  | [_] => none
  | [] => some []

theorem ofNat_eq {a : UInt8} {n : Nat} (h : n = a.toNat) : UInt8.ofNat n = a := by rw [h, UInt8.ofNat_toNat]

/-- **Bytes are read back.** -/
theorem decode_encode (bytes : List UInt8) : decode (encode bytes) = some bytes := by
  match bytes with
  | [] => rfl
  | [a] =>
    have ha := a.toNat_lt
    rw [encode, decode, value_letter _ (by omega), value_letter _ (by omega)]
    simp only [Option.bind_eq_bind, Option.bind_some, Option.pure_def]
    rw [ofNat_eq (a := a) (by omega)]
  | [a, b] =>
    have ha := a.toNat_lt
    have hb := b.toNat_lt
    rw [encode, decode, value_letter _ (by omega), value_letter _ (by omega), value_letter _ (by omega)]
    simp only [Option.bind_eq_bind, Option.bind_some, Option.pure_def]
    rw [ofNat_eq (a := a) (by omega), ofNat_eq (a := b) (by omega)]
  | a :: b :: c :: rest =>
    have ha := a.toNat_lt
    have hb := b.toNat_lt
    have hc := c.toNat_lt
    rw [encode, decode, value_letter _ (by omega), value_letter _ (by omega), value_letter _ (by omega),
      value_letter _ (by omega), decode_encode rest]
    simp only [Option.bind_eq_bind, Option.bind_some, Option.pure_def]
    rw [ofNat_eq (a := a) (by omega), ofNat_eq (a := b) (by omega), ofNat_eq (a := c) (by omega)]

/-- Only letters are written. -/
theorem mem_alphabet {bytes : List UInt8} {x : Char} (h : x ∈ encode bytes) : x ∈ alphabet := by
  match bytes with
  | [] => cases h
  | [a] =>
    have ha := a.toNat_lt
    simp only [encode, List.mem_cons, List.not_mem_nil, or_false] at h
    rcases h with rfl | rfl <;> exact letter_mem (by omega)
  | [a, b] =>
    have ha := a.toNat_lt
    have hb := b.toNat_lt
    simp only [encode, List.mem_cons, List.not_mem_nil, or_false] at h
    rcases h with rfl | rfl | rfl <;> exact letter_mem (by omega)
  | a :: b :: c :: rest =>
    have ha := a.toNat_lt
    have hb := b.toNat_lt
    have hc := c.toNat_lt
    simp only [encode, List.mem_cons] at h
    rcases h with rfl | rfl | rfl | rfl | h
    · exact letter_mem (by omega)
    · exact letter_mem (by omega)
    · exact letter_mem (by omega)
    · exact letter_mem (by omega)
    · exact mem_alphabet h

end Base64
