import Mathlib.Data.List.TakeWhile
import Centaeris.Base.Except
import Centaeris.Base.Json
import Centaeris.Base.Utf8

/-!
# Strings of the contract

The checks of `runtime_contract.py` on single strings, with the classes of characters that Rust and
Python use for the same purpose. `char::is_whitespace` is the property White_Space and `str.isspace`
has four control characters more; `char::is_control` is the category Cc, and the category test of
`validate_virtual_path` covers all of C.
-/

namespace Centaeris.Contract

/-! ### Classes of characters -/

/-- `char::is_control`: the category Cc. -/
def isControl (c : Char) : Bool := c.toNat < 0x20 || (0x7f ≤ c.toNat && c.toNat < 0xa0)

/-- `char::is_whitespace`: the property White_Space. -/
def isWhitespace (c : Char) : Bool :=
  (0x09 ≤ c.toNat && c.toNat ≤ 0x0d) || c.toNat == 0x20 || c.toNat == 0x85 || c.toNat == 0xa0 ||
    c.toNat == 0x1680 || (0x2000 ≤ c.toNat && c.toNat ≤ 0x200a) || c.toNat == 0x2028 ||
    c.toNat == 0x2029 || c.toNat == 0x202f || c.toNat == 0x205f || c.toNat == 0x3000

/-- `str.isspace`, of one character. -/
def isSpace (c : Char) : Bool := isWhitespace c || (0x1c ≤ c.toNat && c.toNat ≤ 0x1f)

/-- The Unicode tables that both languages read. -/
structure Unicode where
  /-- The normal form C of a text. -/
  nfc : String → String
  /-- `unicodedata.category(c).startswith("C")`. -/
  isOther : Char → Bool
  isOther_of_isControl : ∀ c, isControl c = true → isOther c = true

/-- The text without the characters of a class at its two ends: `str::trim`, `str.strip`. -/
def strip (p : Char → Bool) (s : String) : String :=
  String.ofList ((s.toList.dropWhile p).reverse.dropWhile p).reverse

theorem dropWhile_eq_self_iff {α : Type} {p : α → Bool} {l : List α} :
    l.dropWhile p = l ↔ ∀ a ∈ l.head?, p a = false := by
  cases l with
  | nil => simp
  | cons a l =>
    rcases hp : p a with _ | _
    · simp [hp]
    · refine ⟨fun h ↦ ?_, fun h ↦ absurd (h a rfl) (by simp [hp])⟩
      have hlength := congrArg List.length h
      have hle := (List.dropWhile_suffix p (l := l)).length_le
      rw [List.dropWhile_cons_of_pos hp, List.length_cons] at hlength
      omega

/-- A text stays when neither its first nor its last character is of the class. -/
theorem strip_eq_self_iff {p : Char → Bool} {s : String} : strip p s = s ↔
    (∀ c ∈ s.toList.head?, p c = false) ∧ ∀ c ∈ s.toList.getLast?, p c = false := by
  have hleft := List.dropWhile_suffix p (l := s.toList)
  have hright := List.dropWhile_suffix p (l := (s.toList.dropWhile p).reverse)
  constructor
  · intro h
    have hlist : ((s.toList.dropWhile p).reverse.dropWhile p).reverse = s.toList := by
      have := congrArg String.toList h
      rwa [strip, String.toList_ofList] at this
    have hlength := congrArg List.length hlist
    rw [List.length_reverse] at hlength
    have hle := hright.length_le
    have hle' := hleft.length_le
    rw [List.length_reverse] at hle
    -- nothing was dropped on either side
    have hdrop : s.toList.dropWhile p = s.toList := hleft.eq_of_length (by omega)
    refine ⟨dropWhile_eq_self_iff.1 hdrop, ?_⟩
    rw [← List.head?_reverse]
    rw [hdrop] at hright hlength
    exact dropWhile_eq_self_iff.1 (hright.eq_of_length (by rw [List.length_reverse]; omega))
  · rintro ⟨hhead, hlast⟩
    rw [← List.head?_reverse] at hlast
    rw [strip, dropWhile_eq_self_iff.2 hhead, dropWhile_eq_self_iff.2 hlast, List.reverse_reverse,
      String.ofList_toList]

theorem strip_isWhitespace_of_isSpace {s : String} (h : strip isSpace s = s) :
    strip isWhitespace s = s := by
  rw [strip_eq_self_iff] at h ⊢
  have himp (c : Char) (hc : isSpace c = false) : isWhitespace c = false :=
    (Bool.or_eq_false_iff.1 hc).1
  exact ⟨fun c hc ↦ himp c (h.1 c hc), fun c hc ↦ himp c (h.2 c hc)⟩

/-- Nothing is left of a text of such characters only. -/
theorem strip_eq_empty_iff {p : Char → Bool} {s : String} : strip p s = "" ↔ ∀ c ∈ s.toList, p c := by
  rw [strip, String.ofList_eq_empty_iff, List.reverse_eq_nil_iff, List.dropWhile_eq_nil_iff]
  simp only [List.mem_reverse]
  refine ⟨fun h ↦ ?_, fun h c hc ↦ h c ((List.dropWhile_suffix p).subset hc)⟩
  have hnil : s.toList.dropWhile p = [] := by
    by_contra hne
    have hhead := List.head_dropWhile_not p hne
    rw [h _ (List.head_mem hne)] at hhead
    cases hhead
  rwa [List.dropWhile_eq_nil_iff] at hnil

/-! ### `require_string` and `require_opaque_ref` -/

/-- `require_string`. -/
def requireString (u : Unicode) (name : String) : Json → Except String String
  | .str s => do
    Except.require (strip isSpace s ≠ "" ∧ s = strip isSpace s)
      (name ++ " is required without outer whitespace")
    Except.require (u.nfc s = s) (name ++ " must use NFC Unicode normalization")
    return s
  | _ => .error (name ++ " is required without outer whitespace")

theorem requireString_eq_ok {u : Unicode} {name s : String} {v : Json} :
    requireString u name v = .ok s ↔
      v = .str s ∧ s ≠ "" ∧ strip isSpace s = s ∧ u.nfc s = s := by
  cases v with
  | str t =>
    simp only [requireString, Except.require_bind, Except.pure_eq_ok, Except.ok.injEq,
      Json.str.injEq]
    constructor
    · rintro ⟨⟨hempty, hstrip⟩, hnfc, rfl⟩
      exact ⟨rfl, hstrip ▸ hempty, hstrip.symm, hnfc⟩
    · rintro ⟨rfl, hempty, hstrip, hnfc⟩
      exact ⟨⟨hstrip.symm ▸ hempty, hstrip.symm⟩, hnfc, rfl⟩
  | _ => simp [requireString]

/-! ### `require_sha256` -/

/-- What follows a given beginning. -/
def dropPrefix? (start s : List Char) : Option (List Char) :=
  if start.isPrefixOf s then some (s.drop start.length) else none

/-- The digits of a digest. -/
def hexDigits : List Char := "0123456789abcdef".toList

/-- `require_sha256`. -/
def requireSha256 (name : String) : Json → Except String String
  | .str s => do
    let digest ← Except.okOr (dropPrefix? "sha256:".toList s.toList)
      (name ++ " must use sha256:<hex> format")
    Except.require (digest.length = 64 ∧ ∀ c ∈ digest, c ∈ hexDigits)
      (name ++ " must contain 64 lowercase hexadecimal characters")
    return s
  | _ => .error (name ++ " must use sha256:<hex> format")

/-- `is_workspace_sha256` and `validate_snapshot_sha256`: the same format, byte by byte. -/
def isWorkspaceSha256 (value : String) : Bool :=
  decide ((Utf8.bytes value).length = 71) && (Utf8.bytes "sha256:").isPrefixOf (Utf8.bytes value) &&
    ((Utf8.bytes value).drop 7).all fun b ↦ (48 ≤ b && b ≤ 57) || (97 ≤ b && b ≤ 102)

/-- A text of the form `sha256:` and 64 lowercase hexadecimal digits. -/
def IsSha256 (s : String) : Prop :=
  ∃ digest : List Char, s.toList = "sha256:".toList ++ digest ∧ digest.length = 64 ∧
    ∀ c ∈ digest, c ∈ hexDigits

theorem dropPrefix?_eq_some {start s rest : List Char} :
    dropPrefix? start s = some rest ↔ s = start ++ rest := by
  rw [dropPrefix?]
  constructor
  · intro h
    split at h
    · next hp =>
      obtain ⟨t, rfl⟩ := List.isPrefixOf_iff_prefix.1 hp
      rw [← Option.some.inj h, List.drop_left]
    · exact absurd h (by simp)
  · rintro rfl
    rw [if_pos (List.isPrefixOf_iff_prefix.2 (List.prefix_append _ _)), List.drop_left]

theorem requireSha256_eq_ok {name s : String} {v : Json} :
    requireSha256 name v = .ok s ↔ v = .str s ∧ IsSha256 s := by
  cases v with
  | str t =>
    simp only [requireSha256, Except.okOr_bind, Except.require_bind, Except.pure_eq_ok,
      Except.ok.injEq, Json.str.injEq, dropPrefix?_eq_some]
    constructor
    · rintro ⟨digest, hs, hdigest, rfl⟩
      exact ⟨rfl, digest, hs, hdigest⟩
    · rintro ⟨rfl, digest, hs, hdigest⟩
      exact ⟨digest, hs, hdigest, rfl⟩
  | _ => simp [requireSha256]

theorem length_utf8EncodeChar_of_hexDigit :
    ∀ c ∈ hexDigits, (String.utf8EncodeChar c).length = 1 := by
  decide

theorem utf8EncodeChar_of_hexDigit : ∀ c ∈ hexDigits, ∀ b ∈ String.utf8EncodeChar c,
    ((48 ≤ b && b ≤ 57) || (97 ≤ b && b ≤ 102)) = true := by
  decide

/-- The byte format follows from the character format. -/
theorem IsSha256.isWorkspaceSha256 {s : String} (h : IsSha256 s) :
    isWorkspaceSha256 s = true := by
  obtain ⟨digest, hs, hlength, hhex⟩ := h
  have hbytes : Utf8.bytes s = Utf8.bytes "sha256:" ++ digest.flatMap String.utf8EncodeChar := by
    rw [Utf8.bytes, hs, List.flatMap_append]
    rfl
  have hdigest : (digest.flatMap String.utf8EncodeChar).length = 64 := by
    rw [List.length_flatMap, List.map_congr_left fun c hc ↦
      length_utf8EncodeChar_of_hexDigit c (hhex c hc)]
    simp [hlength]
  have hseven : (Utf8.bytes "sha256:").length = 7 := by decide
  simp only [Contract.isWorkspaceSha256, hbytes, Bool.and_eq_true, decide_eq_true_eq,
    List.length_append, hdigest, hseven, List.isPrefixOf_iff_prefix, List.all_eq_true]
  refine ⟨⟨trivial, List.prefix_append _ _⟩, fun b hb ↦ ?_⟩
  rw [List.drop_left' hseven, List.mem_flatMap] at hb
  obtain ⟨c, hc, hb⟩ := hb
  exact utf8EncodeChar_of_hexDigit c (hhex c hc) b hb

/-! ### `validate_virtual_path` -/

/-- The components of a path: `path.split('/')`. -/
def components (path : String) : List String := (path.toList.splitOn '/').map String.ofList

/-- A component that is missing, or that names the directory itself or its parent. -/
def isDotComponent (part : String) : Bool := part == "" || part == "." || part == ".."

/-- `validate_virtual_path`. -/
def validateVirtualPath (u : Unicode) (v : Json) : Except String String := do
  let s ← requireString u "virtualPath" v
  Except.require (¬ ('\\' ∈ s.toList ∨ ':' ∈ s.toList ∨ s.toList.head? = some '/'))
    "virtualPath must be a relative POSIX path"
  Except.require (∀ part ∈ components s, isDotComponent part = false)
    "virtualPath must not contain dot or parent components"
  Except.require (∀ c ∈ s.toList, u.isOther c = false)
    "virtualPath must not contain control characters"
  return s

theorem validateVirtualPath_eq_ok {u : Unicode} {v : Json} {s : String} :
    validateVirtualPath u v = .ok s ↔ v = .str s ∧ s ≠ "" ∧ strip isSpace s = s ∧ u.nfc s = s ∧
      '\\' ∉ s.toList ∧ ':' ∉ s.toList ∧ s.toList.head? ≠ some '/' ∧
      (∀ part ∈ components s, isDotComponent part = false) ∧
      ∀ c ∈ s.toList, u.isOther c = false := by
  simp only [validateVirtualPath, Except.bind_eq_ok, requireString_eq_ok, Except.require_eq_ok,
    Except.pure_eq_ok, Except.ok.injEq, not_or]
  constructor
  · rintro ⟨t, ⟨hv, hne, hstrip, hnfc⟩, -, ⟨hback, hcolon, hslash⟩, -, hparts, -, hother, rfl⟩
    exact ⟨hv, hne, hstrip, hnfc, hback, hcolon, hslash, hparts, hother⟩
  · rintro ⟨hv, hne, hstrip, hnfc, hback, hcolon, hslash, hparts, hother⟩
    exact ⟨s, ⟨hv, hne, hstrip, hnfc⟩, (), ⟨hback, hcolon, hslash⟩, (), hparts, (), hother, rfl⟩

/-- The first component of a path that starts with a slash is empty. -/
theorem components_of_head? {path : String} (h : path.toList.head? = some '/') :
    "" ∈ components path := by
  obtain ⟨rest, hrest⟩ := List.head?_eq_some_iff.1 h
  rw [components, hrest, List.splitOn, List.splitOnP_cons_eq_if_modifyHead, if_pos (by simp)]
  exact List.mem_cons_self

theorem components_empty : components "" = [""] := rfl

end Centaeris.Contract
