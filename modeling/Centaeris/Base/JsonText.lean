import Mathlib.Data.List.Basic
import Mathlib.Tactic.IntervalCases
import Centaeris.Base.Json
import Centaeris.Base.Utf8

/-!
# JSON texts

`render` writes a value without any whitespace, with the escaping of strings as a parameter, and
`parse` reads a text of the JSON grammar. What `render` writes, `parse` reads back
(`parse_render`), when the escaping of a character is read back as that character (`Escapes`).

The reader keeps the fields of an object as they stand in the text, a repeated name included; what
a repeated name means is for its caller to say (`dict` for a table in which the last one wins).
-/

namespace JsonText

section Render

/-- An integer in decimal. -/
def integer (z : Int) : List Char :=
  if z < 0 then '-' :: Nat.toDigits 10 z.natAbs else Nat.toDigits 10 z.natAbs

/-- A number; an exponent is written when it is not zero. -/
def number (mantissa exponent : Int) : List Char :=
  integer mantissa ++ if exponent = 0 then [] else 'e' :: integer exponent

variable (esc : Char → List Char)

/-- A string literal. -/
def quote (s : String) : List Char := '"' :: (s.toList.flatMap esc ++ ['"'])

mutual

/-- The text of a value, without whitespace. -/
def render : Json → List Char
  | .null => "null".toList
  | .bool true => "true".toList
  | .bool false => "false".toList
  | .num mantissa exponent => number mantissa exponent
  | .str s => quote esc s
  | .arr items => '[' :: (renderItems items ++ [']'])
  | .obj fields => '{' :: (renderFields fields ++ ['}'])

/-- The items of an array, with commas between them. -/
def renderItems : List Json → List Char
  | [] => []
  | [v] => render v
  | v :: w :: items => render v ++ ',' :: renderItems (w :: items)

/-- The fields of an object, with commas between them. -/
def renderFields : List (String × Json) → List Char
  | [] => []
  | [(k, v)] => quote esc k ++ ':' :: render v
  | (k, v) :: f :: fields => quote esc k ++ ':' :: (render v ++ ',' :: renderFields (f :: fields))

end

end Render

/-! ### Reading -/

/-- The value of a hexadecimal digit. -/
def hexValue (c : Char) : Option Nat :=
  if '0' ≤ c ∧ c ≤ '9' then some (c.toNat - '0'.toNat)
  else if 'a' ≤ c ∧ c ≤ 'f' then some (c.toNat - 'a'.toNat + 10)
  else if 'A' ≤ c ∧ c ≤ 'F' then some (c.toNat - 'A'.toNat + 10)
  else none

/-- Four hexadecimal digits. -/
def readHex : List Char → Option (Nat × List Char)
  | a :: b :: c :: d :: rest =>
    match hexValue a, hexValue b, hexValue c, hexValue d with
    | some a, some b, some c, some d => some (((a * 16 + b) * 16 + c) * 16 + d, rest)
    | _, _, _, _ => none
  | _ => none

/-- The character after `\u`: one code point, or a surrogate pair; a lone surrogate is no character. -/
def readUnicode (s : List Char) : Option (Char × List Char) :=
  match readHex s with
  | none => none
  | some (n, rest) =>
    if 0xD800 ≤ n ∧ n < 0xDC00 then
      match rest with
      | '\\' :: 'u' :: rest =>
        match readHex rest with
        | some (m, rest) =>
          if 0xDC00 ≤ m ∧ m < 0xE000 then
            some (Char.ofNat (0x10000 + (n - 0xD800) * 0x400 + (m - 0xDC00)), rest)
          else none
        | none => none
      | _ => none
    else if 0xDC00 ≤ n ∧ n < 0xE000 then none
    else some (Char.ofNat n, rest)

/-- The character that a backslash and this letter stand for. -/
def unescape : Char → Option Char
  | '"' => some '"'
  | '\\' => some '\\'
  | '/' => some '/'
  | 'b' => some '\x08'
  | 'f' => some '\x0c'
  | 'n' => some '\n'
  | 'r' => some '\r'
  | 't' => some '\t'
  | _ => none

/-- One character of a string literal. -/
def readChar : List Char → Option (Char × List Char)
  | [] => none
  | c :: s =>
    if c = '\\' then
      match s with
      | [] => none
      | e :: s => if e = 'u' then readUnicode s else (unescape e).map (·, s)
    else if c = '"' ∨ c.toNat < 0x20 then none
    else some (c, s)

/-- The rest of a string literal, up to its closing quote. -/
def readString : Nat → List Char → Option (List Char × List Char)
  | 0, _ => none
  | fuel + 1, s =>
    match s with
    | '"' :: rest => some ([], rest)
    | s =>
      match readChar s with
      | none => none
      | some (c, rest) => (readString fuel rest).map fun (t, rest) ↦ (c :: t, rest)

/-- A non-empty run of decimal digits. -/
def readDigits (s : List Char) : Option (List Char × List Char) :=
  if s.takeWhile Char.isDigit = [] then none
  else some (s.takeWhile Char.isDigit, s.dropWhile Char.isDigit)

/-- The fraction of a number; the digits after the point. -/
def readFraction : List Char → Option (List Char × List Char)
  | '.' :: s => readDigits s
  | s => some ([], s)

/-- A sign, where one may stand. -/
def readSign : List Char → Bool × List Char
  | '-' :: s => (true, s)
  | s => (false, s)

/-- An integer with its sign. -/
def signed (negative : Bool) (n : Nat) : Int := if negative then -n else n

/-- The sign of an exponent, which may be a plus. -/
def readExponentSign : List Char → Bool × List Char
  | '+' :: s => (false, s)
  | s => readSign s

/-- The exponent of a number. -/
def readExponent : List Char → Option (Int × List Char)
  | c :: s =>
    if c = 'e' ∨ c = 'E' then
      let (negative, s) := readExponentSign s
      (readDigits s).map fun (digits, rest) ↦
        (signed negative (Nat.ofDigitChars 10 digits 0), rest)
    else some (0, c :: s)
  | [] => some (0, [])

/-- A number; its first digit is no superfluous zero. -/
def readNumber (s : List Char) : Option (Json × List Char) :=
  let (negative, s) := readSign s
  match readDigits s with
  | none => none
  | some (digits, s) =>
    if digits.head? = some '0' ∧ 1 < digits.length then none
    else
      match readFraction s with
      | none => none
      | some (fraction, s) => (readExponent s).map fun (exponent, rest) ↦
        (.num (signed negative (Nat.ofDigitChars 10 (digits ++ fraction) 0))
          (exponent - fraction.length), rest)

/-- Whitespace of the grammar. -/
def isSpace (c : Char) : Bool := c == ' ' || c == '\t' || c == '\n' || c == '\r'

/-- The text from its first character that is not whitespace. -/
def skip (s : List Char) : List Char := s.dropWhile isSpace

/-- A fixed word. -/
def readWord (word : String) (v : Json) (s : List Char) : Option (Json × List Char) :=
  if word.toList.isPrefixOf s then some (v, s.drop word.toList.length) else none

mutual

/-- A value and what follows it. -/
def readValue : Nat → List Char → Option (Json × List Char)
  | 0, _ => none
  | fuel + 1, s =>
    match skip s with
    | [] => none
    | c :: rest =>
      if c = '"' then (readString rest.length rest).map fun (t, r) ↦ (.str (String.ofList t), r)
      else if c = '[' then
        match skip rest with
        | ']' :: rest => some (.arr [], rest)
        | rest => (readItems fuel rest).map fun (items, r) ↦ (.arr items, r)
      else if c = '{' then
        match skip rest with
        | '}' :: rest => some (.obj [], rest)
        | rest => (readFields fuel rest).map fun (fields, r) ↦ (.obj fields, r)
      else if c = 'n' then readWord "null" .null (c :: rest)
      else if c = 't' then readWord "true" (.bool true) (c :: rest)
      else if c = 'f' then readWord "false" (.bool false) (c :: rest)
      else readNumber (c :: rest)

/-- The items of a non-empty array, up to its closing bracket. -/
def readItems : Nat → List Char → Option (List Json × List Char)
  | 0, _ => none
  | fuel + 1, s =>
    match readValue fuel s with
    | none => none
    | some (v, rest) =>
      match skip rest with
      | ',' :: rest => (readItems fuel rest).map fun (items, r) ↦ (v :: items, r)
      | ']' :: rest => some ([v], rest)
      | _ => none

/-- The fields of a non-empty object, up to its closing brace. -/
def readFields : Nat → List Char → Option (List (String × Json) × List Char)
  | 0, _ => none
  | fuel + 1, s =>
    match skip s with
    | '"' :: rest =>
      match readString rest.length rest with
      | none => none
      | some (k, rest) =>
        match skip rest with
        | ':' :: rest =>
          match readValue fuel rest with
          | none => none
          | some (v, rest) =>
            match skip rest with
            | ',' :: rest => (readFields fuel rest).map fun (fields, r) ↦
              ((String.ofList k, v) :: fields, r)
            | '}' :: rest => some ([(String.ofList k, v)], rest)
            | _ => none
        | _ => none
    | _ => none

end

/-- A whole text: one value, with whitespace around it. -/
def parse (s : List Char) : Option Json :=
  match readValue (s.length + 1) s with
  | some (v, rest) => if skip rest = [] then some v else none
  | none => none

/-! ### Numbers are read back -/

theorem head?_toDigits_ne_zero {n : Nat} (hn : 0 < n) : (Nat.toDigits 10 n).head? ≠ some '0' := by
  induction n using Nat.strongRecOn with
  | ind n ih =>
    rw [Nat.toDigits_eq_if (by decide)]
    split
    · simp only [List.head?_cons, ne_eq, Option.some.injEq, Nat.digitChar_eq_zero]
      omega
    · rw [List.head?_append_of_ne_nil _ Nat.toDigits_ne_nil]
      exact ih _ (by omega) (by omega)

theorem isDigit_of_mem_toDigits {n : Nat} {c : Char} (h : c ∈ Nat.toDigits 10 n) : c.isDigit :=
  Nat.isDigit_of_mem_toDigits (by decide) (by decide) h

/-- What may follow a number: nothing that goes on with it. -/
def Stops (rest : List Char) : Prop :=
  ∀ c ∈ rest.head?, c.isDigit = false ∧ c ≠ '.' ∧ c ≠ 'e' ∧ c ≠ 'E'

theorem readDigits_toDigits (n : Nat) {rest : List Char}
    (h : ∀ c ∈ rest.head?, c.isDigit = false) :
    readDigits (Nat.toDigits 10 n ++ rest) = some (Nat.toDigits 10 n, rest) := by
  have htake : rest.takeWhile Char.isDigit = [] := by
    cases rest with
    | nil => rfl
    | cons c rest => simp [h c rfl]
  have hdrop : rest.dropWhile Char.isDigit = rest := by
    cases rest with
    | nil => rfl
    | cons c rest => simp [h c rfl]
  rw [readDigits, List.takeWhile_append_of_pos fun _ ↦ isDigit_of_mem_toDigits,
    List.dropWhile_append_of_pos fun _ ↦ isDigit_of_mem_toDigits, htake, hdrop, List.append_nil,
    if_neg Nat.toDigits_ne_nil]

theorem exists_toDigits_cons (n : Nat) : ∃ c t, Nat.toDigits 10 n = c :: t ∧ c.isDigit := by
  obtain ⟨c, t, h⟩ := List.exists_cons_of_ne_nil (Nat.toDigits_ne_nil (n := n) (b := 10))
  exact ⟨c, t, h, isDigit_of_mem_toDigits (h ▸ List.mem_cons_self)⟩

theorem readSign_toDigits (n : Nat) (rest : List Char) :
    readSign (Nat.toDigits 10 n ++ rest) = (false, Nat.toDigits 10 n ++ rest) := by
  obtain ⟨c, t, h, hc⟩ := exists_toDigits_cons n
  rw [h, List.cons_append, readSign]
  rintro _ ⟨⟩
  exact absurd hc (by decide)

theorem readSign_integer (z : Int) (rest : List Char) :
    readSign (integer z ++ rest) = (decide (z < 0), Nat.toDigits 10 z.natAbs ++ rest) := by
  rw [integer]
  split
  · next h => simp [readSign, h]
  · next h => simp [readSign_toDigits, h]

theorem signed_natAbs (z : Int) : signed (decide (z < 0)) z.natAbs = z := by
  rw [signed]
  split
  · next h => have := of_decide_eq_true h; omega
  · next h => have := of_decide_eq_false (Bool.eq_false_of_not_eq_true h); omega

theorem exists_integer_cons (z : Int) : ∃ c t, integer z = c :: t ∧ (c = '-' ∨ c.isDigit) := by
  rw [integer]
  split
  · exact ⟨'-', _, rfl, .inl rfl⟩
  · obtain ⟨c, t, h, hc⟩ := exists_toDigits_cons z.natAbs
    exact ⟨c, t, h, .inr hc⟩

theorem readExponentSign_integer (z : Int) (rest : List Char) :
    readExponentSign (integer z ++ rest) = readSign (integer z ++ rest) := by
  obtain ⟨c, t, h, hc⟩ := exists_integer_cons z
  rw [h, List.cons_append, readExponentSign]
  rintro _ ⟨⟩
  exact absurd hc (by decide)

theorem readExponent_integer (z : Int) {rest : List Char} (h : Stops rest) :
    readExponent ('e' :: (integer z ++ rest)) = some (z, rest) := by
  rw [readExponent, if_pos (.inl rfl), readExponentSign_integer, readSign_integer]
  simp only [readDigits_toDigits _ fun c hc ↦ (h c hc).1, Option.map_some,
    Nat.ofDigitChars_ten_toDigits, signed_natAbs]

theorem readExponent_of_stops {rest : List Char} (h : Stops rest) :
    readExponent rest = some (0, rest) := by
  cases rest with
  | nil => rfl
  | cons c rest =>
    obtain ⟨-, -, he, hE⟩ := h c rfl
    rw [readExponent, if_neg (by simp [he, hE])]

theorem readFraction_of_head? {rest : List Char} (h : ∀ c ∈ rest.head?, c ≠ '.') :
    readFraction rest = some ([], rest) := by
  cases rest with
  | nil => rfl
  | cons c rest =>
    rw [readFraction]
    rintro _ ⟨⟩
    exact h '.' rfl rfl

theorem readNumber_number (m e : Int) {rest : List Char} (h : Stops rest) :
    readNumber (number m e ++ rest) = some (.num m e, rest) := by
  -- the exponent part starts with a letter or is not there; either way it ends the digits
  obtain ⟨tail, htail, hread, hdigit, hpoint⟩ : ∃ tail, number m e ++ rest = integer m ++ tail ∧
      readExponent tail = some (e, rest) ∧ (∀ c ∈ tail.head?, c.isDigit = false) ∧
      ∀ c ∈ tail.head?, c ≠ '.' := by
    by_cases he : e = 0
    · subst he
      exact ⟨rest, by simp [number], readExponent_of_stops h, fun c hc ↦ (h c hc).1,
        fun c hc ↦ (h c hc).2.1⟩
    · refine ⟨'e' :: (integer e ++ rest), by simp [number, he], readExponent_integer e h, ?_, ?_⟩
      · rintro c ⟨⟩; rfl
      · rintro c ⟨⟩; decide
  have hzero : ¬ ((Nat.toDigits 10 m.natAbs).head? = some '0' ∧
      1 < (Nat.toDigits 10 m.natAbs).length) := by
    rintro ⟨hhead, hlength⟩
    rcases Nat.eq_zero_or_pos m.natAbs with hm | hm
    · simp [hm] at hlength
    · exact head?_toDigits_ne_zero hm hhead
  rw [htail, readNumber, readSign_integer]
  simp only [readDigits_toDigits _ hdigit, if_neg hzero, readFraction_of_head? hpoint, hread,
    Option.map_some, List.append_nil, Nat.ofDigitChars_ten_toDigits, signed_natAbs,
    List.length_nil, Nat.cast_zero, Int.sub_zero]

section Escapes

variable {esc : Char → List Char}

/-- An escaping whose characters the reader recognises, whatever follows. -/
def Escapes (esc : Char → List Char) : Prop :=
  ∀ c rest, readChar (esc c ++ rest) = some (c, rest)

theorem Escapes.exists_cons (hesc : Escapes esc) (c : Char) :
    ∃ d t, esc c = d :: t ∧ d ≠ '"' := by
  have h := hesc c []
  cases hc : esc c with
  | nil => simp [hc, readChar] at h
  | cons d t =>
    refine ⟨d, t, rfl, ?_⟩
    rintro rfl
    simp [hc, readChar] at h

theorem readString_flatMap (hesc : Escapes esc) (s rest : List Char) {fuel : Nat}
    (h : s.length < fuel) :
    readString fuel (s.flatMap esc ++ '"' :: rest) = some (s, rest) := by
  induction s generalizing fuel with
  | nil =>
    obtain ⟨fuel, rfl⟩ := Nat.exists_eq_add_one.mpr h
    simp [readString]
  | cons c s ih =>
    obtain ⟨fuel, rfl⟩ := Nat.exists_eq_add_one.mpr (Nat.zero_lt_of_lt h)
    obtain ⟨d, t, hd, hquote⟩ := hesc.exists_cons c
    rw [List.flatMap_cons, List.append_assoc, readString]
    · rw [hesc c]
      simp only [ih (Nat.lt_of_succ_lt_succ h), Option.map_some]
    · rw [hd]
      rintro _ ⟨⟩
      exact hquote rfl

theorem length_le_length_flatMap (hesc : Escapes esc) (s : List Char) :
    s.length ≤ (s.flatMap esc).length := by
  induction s with
  | nil => simp
  | cons c s ih =>
    obtain ⟨d, t, hd, -⟩ := hesc.exists_cons c
    simp only [List.flatMap_cons, List.length_cons, List.length_append, hd]
    omega

theorem readString_quote (hesc : Escapes esc) (s : String) (rest : List Char) :
    readString (s.toList.flatMap esc ++ '"' :: rest).length (s.toList.flatMap esc ++ '"' :: rest) =
      some (s.toList, rest) := by
  refine readString_flatMap hesc _ _ ?_
  have := length_le_length_flatMap hesc s.toList
  simp only [List.length_append, List.length_cons]
  omega

/-! ### Values are read back -/

theorem skip_cons {c : Char} (h : isSpace c = false) (s : List Char) : skip (c :: s) = c :: s := by
  simp [skip, h]

theorem ne_of_startsNumber {c d : Char} (hc : c = '-' ∨ c.isDigit) (hd : d ≠ '-')
    (hdigit : d.isDigit = false) : c ≠ d := by
  rintro rfl
  rcases hc with rfl | hc
  · exact hd rfl
  · exact absurd hc (by simp [hdigit])

theorem isSpace_of_startsNumber {c : Char} (hc : c = '-' ∨ c.isDigit) : isSpace c = false := by
  have hne := @ne_of_startsNumber c
  simp only [isSpace, Bool.or_eq_false_iff, beq_eq_false_iff_ne]
  exact ⟨⟨⟨hne hc (by decide) rfl, hne hc (by decide) rfl⟩, hne hc (by decide) rfl⟩,
    hne hc (by decide) rfl⟩

/-- A value starts with a character that ends nothing. -/
theorem exists_render_cons (esc : Char → List Char) (v : Json) :
    ∃ c t, render esc v = c :: t ∧ isSpace c = false ∧ c ≠ ']' := by
  match v with
  | .null => exact ⟨'n', "ull".toList, by rw [render]; rfl, by decide⟩
  | .bool true => exact ⟨'t', "rue".toList, by rw [render]; rfl, by decide⟩
  | .bool false => exact ⟨'f', "alse".toList, by rw [render]; rfl, by decide⟩
  | .str s => exact ⟨'"', _, by rw [render, quote], by decide⟩
  | .arr items => exact ⟨'[', _, by rw [render], by decide⟩
  | .obj fields => exact ⟨'\x7b', _, by rw [render], by decide⟩
  | .num m e =>
    obtain ⟨c, t, h, hc⟩ := exists_integer_cons m
    exact ⟨c, _, by rw [render, number, h, List.cons_append], isSpace_of_startsNumber hc,
      ne_of_startsNumber hc (by decide) rfl⟩

theorem readValue_number (m e : Int) (fuel : Nat) {rest : List Char} (h : Stops rest) :
    readValue (fuel + 1) (number m e ++ rest) = some (.num m e, rest) := by
  obtain ⟨c, t, hc, hstart⟩ := exists_integer_cons m
  have hcons : number m e ++ rest =
      c :: (t ++ ((if e = 0 then [] else 'e' :: integer e) ++ rest)) := by
    rw [number, hc, List.cons_append, List.cons_append, List.append_assoc]
  have hread := readNumber_number m e h
  rw [hcons] at hread ⊢
  rw [readValue, skip_cons (isSpace_of_startsNumber hstart)]
  have hne {d : Char} : d ≠ '-' → d.isDigit = false → c ≠ d := ne_of_startsNumber hstart
  simp only [if_neg (hne (d := '"') (by decide) rfl), if_neg (hne (d := '[') (by decide) rfl),
    if_neg (hne (d := '\x7b') (by decide) rfl), if_neg (hne (d := 'n') (by decide) rfl),
    if_neg (hne (d := 't') (by decide) rfl), if_neg (hne (d := 'f') (by decide) rfl)]
  exact hread

theorem exists_renderItems_cons (esc : Char → List Char) (v : Json) (items : List Json) :
    ∃ c t, renderItems esc (v :: items) = c :: t ∧ isSpace c = false ∧ c ≠ ']' := by
  obtain ⟨c, t, hc, h⟩ := exists_render_cons esc v
  cases items with
  | nil => exact ⟨c, t, by rw [renderItems, hc], h⟩
  | cons w items => exact ⟨c, _, by rw [renderItems, hc, List.cons_append], h⟩

theorem exists_renderFields_cons (esc : Char → List Char) (f : String × Json) (fields : List (String × Json)) :
    ∃ t, renderFields esc (f :: fields) = '"' :: t := by
  cases fields with
  | nil => exact ⟨_, by rw [renderFields, quote, List.cons_append]⟩
  | cons g fields => exact ⟨_, by rw [renderFields, quote, List.cons_append]⟩

theorem readValue_bracket (fuel : Nat) {c : Char} (hspace : isSpace c = false) (hclose : c ≠ ']')
    (s : List Char) : readValue (fuel + 1) ('[' :: c :: s) =
      (readItems fuel (c :: s)).map fun (items, rest) ↦ (.arr items, rest) := by
  rw [readValue, skip_cons (by decide)]
  show (match skip (c :: s) with
    | ']' :: rest => some (Json.arr [], rest)
    | rest => (readItems fuel rest).map fun (items, rest) ↦ (.arr items, rest)) = _
  rw [skip_cons hspace]
  split
  · next h => exact absurd (List.cons.inj h).1 hclose
  · rfl

theorem readValue_brace (fuel : Nat) (s : List Char) : readValue (fuel + 1) ('\x7b' :: '"' :: s) =
    (readFields fuel ('"' :: s)).map fun (fields, rest) ↦ (.obj fields, rest) := by
  rw [readValue, skip_cons (by decide)]
  rfl

/-- Every item of an array takes a character. -/
theorem length_le_length_renderItems (esc : Char → List Char) (items : List Json) :
    items.length ≤ (renderItems esc items).length := by
  match items with
  | [] => exact Nat.zero_le _
  | [v] =>
    obtain ⟨c, t, hc, -⟩ := exists_render_cons esc v
    simp [renderItems, hc]
  | v :: w :: items =>
    have := length_le_length_renderItems esc (w :: items)
    simp only [renderItems, List.length_append, List.length_cons] at this ⊢
    omega

/-- A character that may follow a number. -/
theorem stops_cons {c : Char} {rest : List Char}
    (h : c.isDigit = false ∧ c ≠ '.' ∧ c ≠ 'e' ∧ c ≠ 'E') : Stops (c :: rest) := by
  rintro d ⟨⟩
  exact h

mutual

theorem readValue_render (hesc : Escapes esc) (v : Json) (fuel : Nat) {rest : List Char}
    (hfuel : (render esc v).length ≤ fuel) (hrest : Stops rest) :
    readValue fuel (render esc v ++ rest) = some (v, rest) := by
  obtain ⟨c, t, hc, -⟩ := exists_render_cons esc v
  obtain ⟨fuel, rfl⟩ : ∃ n, fuel = n + 1 :=
    Nat.exists_eq_add_one.mpr (by rw [hc, List.length_cons] at hfuel; omega)
  match v with
  | .null => rw [render]; rfl
  | .bool true => rw [render]; rfl
  | .bool false => rw [render]; rfl
  | .num m e => rw [render]; exact readValue_number m e fuel hrest
  | .str s =>
    rw [render, quote, List.cons_append, List.append_assoc, List.singleton_append, readValue,
      skip_cons (by decide)]
    simp only [if_true, readString_quote hesc, Option.map_some, String.ofList_toList]
  | .arr [] => rw [render, renderItems]; rfl
  | .arr (v :: items) =>
    obtain ⟨d, u, hd, hspace, hclose⟩ := exists_renderItems_cons esc v items
    have hitems := readItems_render hesc (v :: items) fuel rest (by simp) (by
      simp only [render, List.length_cons, List.length_append] at hfuel
      omega)
    rw [hd, List.cons_append] at hitems
    rw [render, List.cons_append, List.append_assoc, List.singleton_append, hd, List.cons_append,
      readValue_bracket fuel hspace hclose, hitems]
    rfl
  | .obj [] => rw [render, renderFields]; rfl
  | .obj (f :: fields) =>
    obtain ⟨u, hu⟩ := exists_renderFields_cons esc f fields
    have hfields := readFields_render hesc (f :: fields) fuel rest (by simp) (by
      simp only [render, List.length_cons, List.length_append] at hfuel
      omega)
    rw [hu, List.cons_append] at hfields
    rw [render, List.cons_append, List.append_assoc, List.singleton_append, hu, List.cons_append,
      readValue_brace, hfields]
    rfl

theorem readItems_render (hesc : Escapes esc) (items : List Json) (fuel : Nat) (rest : List Char)
    (hne : items ≠ []) (hfuel : (renderItems esc items).length < fuel) :
    readItems fuel (renderItems esc items ++ ']' :: rest) = some (items, rest) := by
  obtain ⟨fuel, rfl⟩ := Nat.exists_eq_add_one.mpr (Nat.zero_lt_of_lt hfuel)
  match items with
  | [] => exact absurd rfl hne
  | [v] =>
    rw [renderItems] at hfuel ⊢
    rw [readItems, readValue_render hesc v _ (by omega) (stops_cons (by decide))]
    rfl
  | v :: w :: items =>
    rw [renderItems, List.length_append, List.length_cons] at hfuel
    rw [renderItems, List.append_assoc, List.cons_append, readItems,
      readValue_render hesc v _ (by omega) (stops_cons (by decide))]
    simp only [skip_cons (c := ',') (by decide),
      readItems_render hesc (w :: items) fuel _ (by simp) (by omega), Option.map_some]

theorem readFields_render (hesc : Escapes esc) (fields : List (String × Json)) (fuel : Nat)
    (rest : List Char) (hne : fields ≠ []) (hfuel : (renderFields esc fields).length < fuel) :
    readFields fuel (renderFields esc fields ++ '\x7d' :: rest) = some (fields, rest) := by
  obtain ⟨fuel, rfl⟩ := Nat.exists_eq_add_one.mpr (Nat.zero_lt_of_lt hfuel)
  match fields with
  | [] => exact absurd rfl hne
  | [(k, v)] =>
    rw [renderFields, List.length_append, List.length_cons] at hfuel
    rw [renderFields, quote, readFields]
    simp only [List.cons_append, List.append_assoc, List.nil_append,
      skip_cons (c := '"') (by decide), readString_quote hesc, skip_cons (c := ':') (by decide),
      readValue_render hesc v fuel (by omega) (stops_cons (c := '\x7d') (by decide)),
      skip_cons (c := '\x7d') (by decide), String.ofList_toList]
  | (k, v) :: g :: fields =>
    rw [renderFields, List.length_append, List.length_cons, List.length_append,
      List.length_cons] at hfuel
    rw [renderFields, quote, readFields]
    simp only [List.cons_append, List.append_assoc, List.nil_append,
      skip_cons (c := '"') (by decide), readString_quote hesc, skip_cons (c := ':') (by decide),
      readValue_render hesc v fuel (by omega) (stops_cons (c := ',') (by decide)),
      skip_cons (c := ',') (by decide), readFields_render hesc (g :: fields) fuel _ (by simp) (by omega),
      String.ofList_toList, Option.map_some]

end

/-- What is written is read back. -/
theorem parse_render (hesc : Escapes esc) (v : Json) : parse (render esc v) = some v := by
  have h : readValue _ (render esc v ++ []) = some (v, []) :=
    readValue_render hesc v _ (Nat.le_succ _) (by simp [Stops])
  rw [List.append_nil] at h
  rw [parse, h]
  rfl

end Escapes

/-! ### The escaping of two writers -/

/-- `json.dumps` with `ensure_ascii=False`: a table of seven characters, and four hexadecimal digits
for the other control characters. -/
def pyEscape : Char → List Char
  | '\\' => ['\\', '\\']
  | '"' => ['\\', '"']
  | '\x08' => ['\\', 'b']
  | '\x0c' => ['\\', 'f']
  | '\n' => ['\\', 'n']
  | '\r' => ['\\', 'r']
  | '\t' => ['\\', 't']
  | c => if c.toNat < 0x20 then '\\' :: 'u' :: (Nat.toDigits 16 c.toNat).leftpad 4 '0' else [c]

/-- `serde_json`: the letter of each byte in its table of escapes, where `u` stands for `\u00` and
the two halves of the byte. -/
def serdeEscape (c : Char) : List Char :=
  if 0x80 ≤ c.toNat then [c]
  else
    match c with
    | '\x08' => ['\\', 'b']
    | '\t' => ['\\', 't']
    | '\n' => ['\\', 'n']
    | '\x0c' => ['\\', 'f']
    | '\r' => ['\\', 'r']
    | '"' => ['\\', '"']
    | '\\' => ['\\', '\\']
    | c =>
      if c.toNat < 0x20 then
        ['\\', 'u', '0', '0', Nat.digitChar (c.toNat / 16), Nat.digitChar (c.toNat % 16)]
      else [c]

theorem eq_ofNat_toNat (c : Char) : c = Char.ofNat c.toNat := (Char.ofNat_toNat c).symm

theorem serdeEscape_of_le {c : Char} (h : 0x80 ≤ c.toNat) : serdeEscape c = [c] := if_pos h

theorem pyEscape_of_le {c : Char} (h : 0x80 ≤ c.toNat) : pyEscape c = [c] := by
  rw [pyEscape, if_neg (by omega)]
  all_goals rintro rfl; exact absurd h (by decide)

/-- Both writers escape the same characters, in the same way. -/
theorem pyEscape_eq_serdeEscape : pyEscape = serdeEscape := by
  funext c
  rcases Nat.lt_or_ge c.toNat 0x80 with h | h
  · -- the characters of one byte, one by one
    have hall : ∀ n < 0x80, pyEscape (Char.ofNat n) = serdeEscape (Char.ofNat n) := by decide +kernel
    rw [eq_ofNat_toNat c, hall _ h]
  · rw [pyEscape_of_le h, serdeEscape_of_le h]

theorem escapes_serdeEscape : Escapes serdeEscape := by
  intro c rest
  rcases Nat.lt_or_ge c.toNat 0x80 with h | h
  · obtain ⟨n, hn, rfl⟩ : ∃ n < 0x80, c = Char.ofNat n := ⟨_, h, eq_ofNat_toNat c⟩
    interval_cases n <;> rfl
  · have hslash : c ≠ '\\' := by rintro rfl; exact absurd h (by decide)
    have hquote : c ≠ '"' := by rintro rfl; exact absurd h (by decide)
    rw [serdeEscape_of_le h, List.singleton_append]
    simp only [readChar, if_neg hslash, hquote, false_or, if_neg (show ¬ c.toNat < 0x20 by omega)]

theorem escapes_pyEscape : Escapes pyEscape := pyEscape_eq_serdeEscape ▸ escapes_serdeEscape

/-! ### Control characters -/

/-- No control character of ASCII, so no line ends. -/
def Printable (s : List Char) : Prop := ∀ c ∈ s, 0x20 ≤ c.toNat

instance (s : List Char) : Decidable (Printable s) := inferInstanceAs (Decidable (∀ c ∈ s, _))

theorem printable_nil : Printable [] := fun _ h ↦ absurd h List.not_mem_nil

theorem printable_append {s t : List Char} : Printable (s ++ t) ↔ Printable s ∧ Printable t :=
  List.forall_mem_append

theorem printable_cons {c : Char} {s : List Char} : Printable (c :: s) ↔ 0x20 ≤ c.toNat ∧ Printable s :=
  List.forall_mem_cons

theorem printable_toDigits (n : Nat) : Printable (Nat.toDigits 10 n) := fun c hc ↦ by
  have hdigit := isDigit_of_mem_toDigits hc
  rw [Char.isDigit, Bool.and_eq_true, decide_eq_true_eq] at hdigit
  exact Nat.le_trans (by decide) (UInt32.le_iff_toNat_le.1 hdigit.1)

theorem printable_integer (z : Int) : Printable (integer z) := by
  rw [integer]
  split
  · exact printable_cons.2 ⟨by decide, printable_toDigits _⟩
  · exact printable_toDigits _

theorem printable_number (m e : Int) : Printable (number m e) := by
  rw [number, printable_append]
  refine ⟨printable_integer m, ?_⟩
  split
  · exact printable_nil
  · exact printable_cons.2 ⟨by decide, printable_integer e⟩

section Printable

variable {esc : Char → List Char}

theorem printable_quote (hesc : ∀ c, Printable (esc c)) (s : String) : Printable (quote esc s) := by
  rw [quote, printable_cons, printable_append]
  refine ⟨by decide, fun d hd ↦ ?_, printable_cons.2 ⟨by decide, printable_nil⟩⟩
  obtain ⟨c, -, hd⟩ := List.mem_flatMap.1 hd
  exact hesc c d hd

mutual

/-- A text that is written without control characters in its strings has none. -/
theorem printable_render (hesc : ∀ c, Printable (esc c)) (v : Json) : Printable (render esc v) := by
  match v with
  | .null | .bool true | .bool false =>
    rw [render, Printable]
    decide
  | .num m e => exact printable_number m e
  | .str s => exact printable_quote hesc s
  | .arr items =>
    rw [render, printable_cons, printable_append]
    exact ⟨by decide, printable_renderItems hesc items, printable_cons.2 ⟨by decide, printable_nil⟩⟩
  | .obj fields =>
    rw [render, printable_cons, printable_append]
    exact ⟨by decide, printable_renderFields hesc fields, printable_cons.2 ⟨by decide, printable_nil⟩⟩

theorem printable_renderItems (hesc : ∀ c, Printable (esc c)) (items : List Json) :
    Printable (renderItems esc items) := by
  match items with
  | [] => exact printable_nil
  | [v] => exact printable_render hesc v
  | v :: w :: items =>
    rw [renderItems, printable_append, printable_cons]
    exact ⟨printable_render hesc v, by decide, printable_renderItems hesc (w :: items)⟩

theorem printable_renderFields (hesc : ∀ c, Printable (esc c)) (fields : List (String × Json)) :
    Printable (renderFields esc fields) := by
  match fields with
  | [] => exact printable_nil
  | [(k, v)] =>
    rw [renderFields, printable_append, printable_cons]
    exact ⟨printable_quote hesc k, by decide, printable_render hesc v⟩
  | (k, v) :: f :: fields =>
    rw [renderFields, printable_append, printable_cons, printable_append, printable_cons]
    exact ⟨printable_quote hesc k, by decide, printable_render hesc v, by decide,
      printable_renderFields hesc (f :: fields)⟩

end

end Printable

theorem printable_pyEscape (c : Char) : Printable (pyEscape c) := by
  rcases Nat.lt_or_ge c.toNat 0x80 with h | h
  · have hall : ∀ n < 0x80, ∀ d ∈ pyEscape (Char.ofNat n), 0x20 ≤ d.toNat := by decide +kernel
    intro d hd
    rw [eq_ofNat_toNat c] at hd
    exact hall _ h d hd
  · rw [pyEscape_of_le h]
    exact printable_cons.2 ⟨by omega, printable_nil⟩

/-! ### Objects as tables -/

/-- The table that a list of fields gives: the last value of a name stays, at the place of the first
one. -/
def table (fields : List (String × Json)) : List (String × Json) :=
  fields.foldl (fun t f ↦ Json.Fields.insert f.1 f.2 t) []

mutual

/-- The value with the fields of each object as a table. -/
def dict : Json → Json
  | .arr items => .arr (dictItems items)
  | .obj fields => .obj (table (dictFields fields))
  | .null => .null
  | .bool b => .bool b
  | .num m e => .num m e
  | .str s => .str s

/-- The items of an array, with tables. -/
def dictItems : List Json → List Json
  | [] => []
  | v :: items => dict v :: dictItems items

/-- The fields of an object, with tables for their values. -/
def dictFields : List (String × Json) → List (String × Json)
  | [] => []
  | (k, v) :: fields => (k, dict v) :: dictFields fields

end

/-- `json.loads`: a text read into tables. -/
def loads (s : List Char) : Option Json := (parse s).map dict

theorem loads_render {esc : Char → List Char} (hesc : Escapes esc) {v : Json} (h : dict v = v) :
    loads (render esc v) = some v := by
  rw [loads, parse_render hesc, Option.map_some, h]

end JsonText
