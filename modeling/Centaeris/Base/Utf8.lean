import Mathlib.Data.String.Basic

/-!
# The bytes of a text

A text is compared by its UTF-8 bytes on one side and by its code points on the other. The two orders are
the same (`bytes_lt_bytes_iff`): the encodings of two different characters differ at some byte, and there
in the order of the characters (`below_utf8EncodeChar`).
-/

/-- A list of characters is gone through; there are too many characters to go through all of them. -/
instance (priority := high) Char.decidableForallMem {P : Char → Prop} [DecidablePred P] (l : List Char) :
    Decidable (∀ c ∈ l, P c) := List.decidableBAll P l

@[inherit_doc Char.decidableForallMem]
instance (priority := high) Char.decidableExistsMem {P : Char → Prop} [DecidablePred P] (l : List Char) :
    Decidable (∃ c ∈ l, P c) := List.decidableBEx P l

/-- Likewise for bytes. -/
instance (priority := high) UInt8.decidableForallMem {P : UInt8 → Prop} [DecidablePred P] (l : List UInt8) :
    Decidable (∀ b ∈ l, P b) := List.decidableBAll P l

namespace Utf8

/-- The UTF-8 bytes of a text. -/
def bytes (s : String) : List UInt8 := s.toList.flatMap String.utf8EncodeChar

/-- The text that has these bytes. -/
def decode (b : List UInt8) : Option String := String.fromUTF8? b.toByteArray

theorem toByteArray_bytes (s : String) : (bytes s).toByteArray = s.toByteArray := by
  conv_rhs => rw [← String.ofList_toList (s := s)]
  rw [String.toByteArray_ofList]
  rfl

@[simp] theorem decode_bytes (s : String) : decode (bytes s) = some s := by
  rw [decode, toByteArray_bytes, String.fromUTF8?, dif_pos s.isValidUTF8]
  rfl

theorem bytes_of_decode {b : List UInt8} {s : String} (h : decode b = some s) : bytes s = b := by
  rw [decode, String.fromUTF8?] at h
  split at h
  · have hs : s.toByteArray = b.toByteArray := by rw [← Option.some.inj h]; rfl
    rw [← toByteArray_bytes] at hs
    exact List.toByteArray_inj.mp hs
  · exact absurd h (by simp)

theorem bytes_injective : Function.Injective bytes := fun s t h ↦
  Option.some.inj (by rw [← decode_bytes s, h, decode_bytes])

theorem length_le_length_bytes (s : String) : s.toList.length ≤ (bytes s).length := by
  rw [bytes]
  generalize s.toList = l
  induction l with
  | nil => exact Nat.zero_le _
  | cons c l ih =>
    have := List.length_pos_iff.2 (String.utf8EncodeChar_ne_nil (c := c))
    rw [List.flatMap_cons, List.length_append, List.length_cons]
    omega

/-! ### The order of the bytes -/

/-- The two lists differ at a common position, where the first one is smaller. -/
inductive Below : List UInt8 → List UInt8 → Prop
  | head {x y : UInt8} {l l' : List UInt8} (h : x < y) : Below (x :: l) (y :: l')
  | tail {x : UInt8} {l l' : List UInt8} (h : Below l l') : Below (x :: l) (x :: l')

theorem Below.append_lt_append {l l' : List UInt8} (h : Below l l') (m m' : List UInt8) :
    l ++ m < l' ++ m' := by
  induction h with
  | head h => exact List.Lex.rel h
  | tail _ ih => exact List.Lex.cons ih

theorem below_cons {m n : Nat} {l l' : List UInt8} (hn : n < 256) (hle : m ≤ n)
    (h : m = n → Below l l') : Below (UInt8.ofNat m :: l) (UInt8.ofNat n :: l') := by
  rcases hle.lt_or_eq with hlt | rfl
  · refine .head ?_
    rw [UInt8.lt_iff_toNat_lt, UInt8.toNat_ofNat_of_lt' (hlt.trans hn), UInt8.toNat_ofNat_of_lt' hn]
    exact hlt
  · exact .tail (h rfl)

theorem below_utf8EncodeChar {c d : Char} (h : c < d) :
    Below (String.utf8EncodeChar c) (String.utf8EncodeChar d) := by
  have hlt : c.val.toNat < d.val.toNat := h
  have hd : d.val.toNat < 0x110000 := by
    rcases d.valid with h | h
    · exact Nat.lt_trans h (by decide)
    · exact h.2
  simp only [String.utf8EncodeChar]
  -- one case per pair of lengths; the longer encoding has the larger first byte, and two encodings
  -- of one length are compared byte by byte
  repeat' split
  all_goals first
    | omega
    | repeat' (first | (exfalso; omega) | refine below_cons (by omega) (by omega) fun h ↦ ?_)

theorem flatMap_lt_flatMap {s t : List Char} (h : s < t) :
    s.flatMap String.utf8EncodeChar < t.flatMap String.utf8EncodeChar := by
  induction h with
  | nil =>
    rw [List.flatMap_cons, List.flatMap_nil]
    obtain ⟨x, l, hx⟩ := List.exists_cons_of_ne_nil (String.utf8EncodeChar_ne_nil)
    rw [hx]
    exact List.Lex.nil
  | cons _ ih => exact List.append_left_lt ih
  | rel h => exact (below_utf8EncodeChar h).append_lt_append _ _

/-- Texts are in the order of their code points when their bytes are in order. -/
theorem bytes_lt_bytes_iff {s t : String} : bytes s < bytes t ↔ s < t := by
  refine ⟨fun h ↦ ?_, fun h ↦ flatMap_lt_flatMap (String.lt_iff.mp h)⟩
  rcases lt_trichotomy s t with hlt | rfl | hgt
  · exact hlt
  · exact absurd h (List.lt_irrefl _)
  · exact absurd h (List.lt_asymm (flatMap_lt_flatMap (String.lt_iff.mp hgt)))

end Utf8
