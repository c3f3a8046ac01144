import Mathlib.Data.Rat.Floor

/-!
# Doubles and their exact values

A Python `float` is an IEEE 754 binary64 pattern. Its value is read off the fields: a rational, an
infinity, or no number. `is_integer` and `int` are defined on the value.

* `number_of_isInteger`: the integer that an integral double is converted to is the value it has.
-/

namespace MessageService.Lib

/-- An extended rational, or not a number. -/
inductive Number where
  | finite (q : ℚ)
  | infinite (negative : Bool)
  | nan
  deriving DecidableEq

/-- A binary64 pattern. -/
abbrev Binary64 := BitVec 64

namespace Binary64

/-- The field of the exponent. -/
def exponentField (x : Binary64) : ℕ := x.toNat / 2 ^ 52 % 2 ^ 11

/-- The field of the fraction. -/
def fractionField (x : Binary64) : ℕ := x.toNat % 2 ^ 52

/-- The significand of a finite pattern: there is no hidden bit in a subnormal one. -/
def significand (x : Binary64) : ℕ :=
  if exponentField x = 0 then fractionField x else 2 ^ 52 + fractionField x

/-- The exponent that the significand is scaled by. -/
def scale (x : Binary64) : ℤ := max (exponentField x : ℤ) 1 - 1075

/-- The value of a finite pattern. -/
def value (x : Binary64) : ℚ :=
  (if x.msb then -1 else 1) * (significand x * 2 ^ scale x)

/-- What a pattern stands for. -/
def number (x : Binary64) : Number :=
  if exponentField x = 2047 then if fractionField x = 0 then .infinite x.msb else .nan
  else .finite (value x)

/-- `x.is_integer()`. -/
def isInteger (x : Binary64) : Bool :=
  decide (exponentField x ≠ 2047) && decide ((⌊value x⌋ : ℚ) = value x)

/-- `int(x)` of a finite pattern, which truncates. -/
def toInt (x : Binary64) : ℤ := if value x < 0 then ⌈value x⌉ else ⌊value x⌋

theorem isInteger_iff {x : Binary64} :
    isInteger x = true ↔ exponentField x ≠ 2047 ∧ (⌊value x⌋ : ℚ) = value x := by
  rw [isInteger, Bool.and_eq_true, decide_eq_true_eq, decide_eq_true_eq]

/-- Truncation does nothing to an integral value, zeros of either sign and large values included. -/
theorem toInt_of_isInteger {x : Binary64} (h : isInteger x = true) : (toInt x : ℚ) = value x := by
  obtain ⟨-, hfloor⟩ := isInteger_iff.mp h
  unfold toInt
  split_ifs with hneg
  · rw [← hfloor, Int.ceil_intCast]
  · exact hfloor

/-- **Conversion is exact.** -/
theorem number_of_isInteger {x : Binary64} (h : isInteger x = true) :
    number x = .finite (toInt x : ℚ) := by
  rw [number, if_neg (isInteger_iff.mp h).1, toInt_of_isInteger h]

end Binary64

end MessageService.Lib
