import Mathlib.Data.Int.Order.Basic

/-!
# Machine integers and text, as the server's language has them

The few primitives of the source language that the model uses: 64-bit signed arithmetic that
saturates or is checked, the conversions `u64 → i64` and `i64 → u32`, and `str::trim`. Clocks and
counters are plain `Int` and `Nat` everywhere else; a bound appears exactly where the source has a
conversion that can fail.
-/

namespace Machine

/-- `i64::MAX`. -/
def i64Max : Int := 9223372036854775807

/-- `i64::MIN`. -/
def i64Min : Int := -9223372036854775808

/-- `u32::MAX`. -/
def u32Max : Nat := 4294967295

/-- `u64::MAX`. -/
def u64Max : Nat := 18446744073709551615

/-- `i64::saturating_add`. -/
def saturatingAdd (a b : Int) : Int := max i64Min (min i64Max (a + b))

/-- `i64::checked_add`. -/
def checkedAdd (a b : Int) : Option Int :=
  if i64Min ≤ a + b ∧ a + b ≤ i64Max then some (a + b) else none

/-- `i64::try_from` of an unsigned value. -/
def i64TryFrom (n : Nat) : Option Int := if (n : Int) ≤ i64Max then some n else none

/-- `u32::saturating_add`. -/
def u32SaturatingAdd (a b : Nat) : Nat := min u32Max (a + b)

/-- `usize::saturating_add`, on a 64-bit target. -/
def usizeSaturatingAdd (a b : Nat) : Nat := min u64Max (a + b)

/-- `u64::checked_add`. -/
def u64CheckedAdd (a b : Nat) : Option Nat := if a + b ≤ u64Max then some (a + b) else none

/-- A saturated counter goes on as the counter of everything so far. -/
theorem usizeSaturatingAdd_min (a b : Nat) :
    usizeSaturatingAdd (min u64Max a) b = min u64Max (a + b) := by
  rw [usizeSaturatingAdd]
  omega

/-- `char::is_whitespace`: the `White_Space` property. -/
def isWhitespace (c : Char) : Bool :=
  (9 ≤ c.toNat && c.toNat ≤ 13) || c.toNat == 0x20 || c.toNat == 0x85 || c.toNat == 0xA0 ||
  c.toNat == 0x1680 || (0x2000 ≤ c.toNat && c.toNat ≤ 0x200A) || c.toNat == 0x2028 ||
  c.toNat == 0x2029 || c.toNat == 0x202F || c.toNat == 0x205F || c.toNat == 0x3000

/-- `s.trim().is_empty()`. -/
def isBlank (s : String) : Bool := s.toList.all isWhitespace

/-- `char::is_control`: the category `Cc`. -/
def isControl (c : Char) : Bool := c.toNat ≤ 0x1F || (0x7F ≤ c.toNat && c.toNat ≤ 0x9F)

/-- `str::parse::<u64>`: decimal digits, after an optional plus sign. -/
def parseU64 (s : String) : Option Nat :=
  let digits := match s.toList with
    | '+' :: rest => rest
    | cs => cs
  let n := digits.foldl (fun n c ↦ 10 * n + (c.toNat - 48)) 0
  if !digits.isEmpty && digits.all Char.isDigit && decide (n ≤ u64Max) then some n else none

/-- `str::len`: the length in bytes. -/
def byteLen (s : String) : Nat := s.toList.foldl (fun n c ↦ n + c.utf8Size) 0

/-- `str::starts_with`. -/
def startsWith (s pre : String) : Bool := pre.toList.isPrefixOf s.toList

end Machine
