import Mathlib.Order.Basic
import Mathlib.Tactic.IntervalCases
import Mathlib.Tactic.NormNum.Basic

/-!
# Times of day and their ISO texts

A reading of the clock in UTC to the microsecond, its ISO text, and the reader of such texts. The text says
everything (`fromIsoformat_isoformat`), also where the microseconds are left out for being zero.

The reader knows dates with times to the second, an optional fraction, and UTC as the only zone.
-/

namespace IsoTime

/-! ### Numbers of a fixed width -/

/-- The last digits of a number. -/
def pad : ℕ → ℕ → List Char
  | 0, _ => []
  | width + 1, n => pad width (n / 10) ++ [Nat.digitChar (n % 10)]

/-- A digit's value. -/
def digit (c : Char) : ℕ := c.toNat - '0'.toNat

/-- A number of so many digits at the head of a text. -/
def readPadded (width : ℕ) (s : List Char) : Option (ℕ × List Char) :=
  let digits := s.take width
  if digits.length = width ∧ digits.all Char.isDigit then
    some (digits.foldl (fun n c ↦ 10 * n + digit c) 0, s.drop width)
  else none

/-- One given character. -/
def readChar (c : Char) : List Char → Option (List Char)
  | [] => none
  | c' :: s => if c' = c then some s else none

theorem length_pad (width n : ℕ) : (pad width n).length = width := by
  induction width generalizing n with
  | zero => rfl
  | succ width ih => simp [pad, ih]

theorem digitChar_mod_ten (n : ℕ) :
    (Nat.digitChar (n % 10)).isDigit = true ∧ digit (Nat.digitChar (n % 10)) = n % 10 := by
  have h : n % 10 < 10 := Nat.mod_lt _ (by decide)
  generalize n % 10 = d at h
  interval_cases d <;> decide

theorem all_isDigit_pad (width n : ℕ) : (pad width n).all Char.isDigit = true := by
  induction width generalizing n with
  | zero => rfl
  | succ width ih => simp [pad, ih, (digitChar_mod_ten n).1]

theorem foldl_digit_pad {width n : ℕ} (h : n < 10 ^ width) :
    (pad width n).foldl (fun n c ↦ 10 * n + digit c) 0 = n := by
  induction width generalizing n with
  | zero => exact (Nat.lt_one_iff.1 h).symm
  | succ width ih =>
    rw [pad, List.foldl_append, ih (Nat.div_lt_of_lt_mul (by rwa [pow_succ, mul_comm] at h))]
    simp only [List.foldl_cons, List.foldl_nil, (digitChar_mod_ten n).2]
    exact Nat.div_add_mod n 10

theorem readPadded_pad {width n : ℕ} (h : n < 10 ^ width) (rest : List Char) :
    readPadded width (pad width n ++ rest) = some (n, rest) := by
  have htake : (pad width n ++ rest).take width = pad width n := by
    rw [List.take_append_of_le_length (length_pad width n).ge, List.take_of_length_le (length_pad width n).le]
  have hdrop : (pad width n ++ rest).drop width = rest := List.drop_left' (length_pad width n)
  simp only [readPadded, htake, hdrop, foldl_digit_pad h, length_pad, all_isDigit_pad]
  simp

/-! ### Times -/

/-- Leap years. -/
def isLeap (year : ℕ) : Bool := year % 4 == 0 && (year % 100 != 0 || year % 400 == 0)

/-- The days of a month. -/
def daysInMonth (year month : ℕ) : ℕ :=
  if month = 2 then if isLeap year then 29 else 28 else if month ∈ [4, 6, 9, 11] then 30 else 31

/-- What a clock can show. -/
def Shows (year month day hour minute second microsecond : ℕ) : Prop :=
  (1 ≤ year ∧ year ≤ 9999) ∧ (1 ≤ month ∧ month ≤ 12) ∧ (1 ≤ day ∧ day ≤ daysInMonth year month) ∧
    hour < 24 ∧ minute < 60 ∧ second < 60 ∧ microsecond < 1000000

instance (year month day hour minute second microsecond : ℕ) :
    Decidable (Shows year month day hour minute second microsecond) :=
  inferInstanceAs (Decidable (_ ∧ _))

end IsoTime

open IsoTime

/-- A time in UTC. -/
structure UtcTime where
  year : ℕ
  month : ℕ
  day : ℕ
  hour : ℕ
  minute : ℕ
  second : ℕ
  microsecond : ℕ
  shows : Shows year month day hour minute second microsecond
  deriving DecidableEq

namespace UtcTime

/-- Times in the order of a number. -/
def stamp (t : UtcTime) : ℕ :=
  (((((t.year * 13 + t.month) * 32 + t.day) * 24 + t.hour) * 60 + t.minute) * 60 + t.second) * 1000000
    + t.microsecond

theorem daysInMonth_le (year month : ℕ) : daysInMonth year month ≤ 31 := by
  unfold daysInMonth
  split
  · split <;> omega
  · split <;> omega

theorem stamp_injective : Function.Injective stamp := by
  rintro ⟨y, mo, d, h, mi, s, us, hshows⟩ ⟨y', mo', d', h', mi', s', us', hshows'⟩ heq
  simp only [stamp] at heq
  obtain ⟨-, ⟨-, hmo⟩, ⟨-, hd⟩, hh, hmi, hs, hus⟩ := hshows
  obtain ⟨-, ⟨-, hmo'⟩, ⟨-, hd'⟩, hh', hmi', hs', hus'⟩ := hshows'
  have hdays := daysInMonth_le y mo
  have hdays' := daysInMonth_le y' mo'
  -- One digit of the mixed radix at a time, from the last.
  obtain ⟨hrest, rfl⟩ : ((((y * 13 + mo) * 32 + d) * 24 + h) * 60 + mi) * 60 + s =
      ((((y' * 13 + mo') * 32 + d') * 24 + h') * 60 + mi') * 60 + s' ∧ us = us' := by omega
  obtain ⟨hrest, rfl⟩ : (((y * 13 + mo) * 32 + d) * 24 + h) * 60 + mi =
      (((y' * 13 + mo') * 32 + d') * 24 + h') * 60 + mi' ∧ s = s' := by omega
  obtain ⟨hrest, rfl⟩ : ((y * 13 + mo) * 32 + d) * 24 + h = ((y' * 13 + mo') * 32 + d') * 24 + h' ∧
      mi = mi' := by omega
  obtain ⟨hrest, rfl⟩ : (y * 13 + mo) * 32 + d = (y' * 13 + mo') * 32 + d' ∧ h = h' := by omega
  obtain ⟨hrest, rfl⟩ : y * 13 + mo = y' * 13 + mo' ∧ d = d' := by omega
  obtain ⟨rfl, rfl⟩ : y = y' ∧ mo = mo' := by omega
  rfl

/-! ### Texts -/

/-- `datetime.isoformat` of a time in UTC. -/
def isoformat (t : UtcTime) : List Char :=
  pad 4 t.year ++ '-' :: (pad 2 t.month ++ '-' :: (pad 2 t.day ++ 'T' :: (pad 2 t.hour ++ ':' ::
    (pad 2 t.minute ++ ':' :: (pad 2 t.second ++
      ((if t.microsecond = 0 then [] else '.' :: pad 6 t.microsecond) ++ "+00:00".toList))))))

/-- The fraction of a second, in microseconds: further digits are dropped. -/
def readFraction (s : List Char) : Option (ℕ × List Char) :=
  match s with
  | '.' :: s =>
    let digits := s.takeWhile Char.isDigit
    if digits = [] then none
    else some (((digits ++ List.replicate 6 '0').take 6).foldl (fun n c ↦ 10 * n + digit c) 0,
      s.dropWhile Char.isDigit)
  | s => some (0, s)

/-- The zone: UTC, or none at all. -/
def readZone (s : List Char) : Option Bool :=
  if s = [] then some false
  else if s ∈ ["Z".toList, "+00:00".toList, "-00:00".toList] then some true
  else none

/-- `datetime.fromisoformat`, with whether the time has a zone. -/
def fromIsoformat (s : List Char) : Option (UtcTime × Bool) := do
  let (year, s) ← readPadded 4 s
  let s ← readChar '-' s
  let (month, s) ← readPadded 2 s
  let s ← readChar '-' s
  let (day, s) ← readPadded 2 s
  -- Any character may separate the date from the time.
  let (hour, s) ← readPadded 2 s.tail
  let s ← readChar ':' s
  let (minute, s) ← readPadded 2 s
  let s ← readChar ':' s
  let (second, s) ← readPadded 2 s
  let (microsecond, s) ← readFraction s
  let aware ← readZone s
  if shows : Shows year month day hour minute second microsecond then
    some (⟨year, month, day, hour, minute, second, microsecond, shows⟩, aware)
  else none

@[simp] theorem readChar_cons (c : Char) (s : List Char) : readChar c (c :: s) = some s := by
  simp [readChar]

/-- The fraction is left out exactly when it is zero. -/
theorem readFraction_isoformat {n : ℕ} (h : n < 1000000) :
    readFraction ((if n = 0 then [] else '.' :: pad 6 n) ++ "+00:00".toList) = some (n, "+00:00".toList) := by
  split
  · subst n
    decide
  · have hdigits : (pad 6 n ++ "+00:00".toList).takeWhile Char.isDigit = pad 6 n := by
      rw [List.takeWhile_append_of_pos (by simpa using all_isDigit_pad 6 n)]
      simp
    have hrest : (pad 6 n ++ "+00:00".toList).dropWhile Char.isDigit = "+00:00".toList := by
      rw [List.dropWhile_append_of_pos (by simpa using all_isDigit_pad 6 n)]
      decide
    have hne : pad 6 n ≠ [] := List.ne_nil_of_length_pos (by rw [length_pad]; decide)
    have htake : (pad 6 n ++ List.replicate 6 '0').take 6 = pad 6 n := by
      rw [List.take_append_of_le_length (length_pad 6 n).ge, List.take_of_length_le (length_pad 6 n).le]
    simp only [List.cons_append, readFraction, hdigits, hrest, htake, if_neg hne]
    rw [foldl_digit_pad (by simpa using h)]

/-- **The text says the time.** -/
theorem fromIsoformat_isoformat (t : UtcTime) : fromIsoformat t.isoformat = some (t, true) := by
  obtain ⟨⟨-, hyear⟩, ⟨-, hmonth⟩, ⟨-, hday⟩, hhour, hminute, hsecond, hmicrosecond⟩ := t.shows
  have hdays := daysInMonth_le t.year t.month
  have hzone : readZone "+00:00".toList = some true := by decide
  simp only [fromIsoformat, isoformat, readPadded_pad (show t.year < 10 ^ 4 by omega),
    readPadded_pad (show t.month < 10 ^ 2 by omega), readPadded_pad (show t.day < 10 ^ 2 by omega),
    readPadded_pad (show t.hour < 10 ^ 2 by omega), readPadded_pad (show t.minute < 10 ^ 2 by omega),
    readPadded_pad (show t.second < 10 ^ 2 by omega), readChar_cons, List.tail_cons, Option.bind_eq_bind,
    Option.bind_some, readFraction_isoformat hmicrosecond, hzone, t.shows, dite_true]

end UtcTime
