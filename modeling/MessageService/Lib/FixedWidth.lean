import Mathlib.Algebra.GroupWithZero.Nat
import Mathlib.Data.Char
import Mathlib.Data.List.Lex
import Mathlib.Tactic.Common

/-!
# Numerals of a fixed width

A natural number in a given number of decimal digits, the first ones zero where it is small. Among
the numbers that fit, such numerals are read back (`ofDigitChars_fixedWidth`) and **ordered as text
as the numbers are** (`fixedWidth_lt_iff`). Texts made of parts of fixed width are ordered by their
parts, the first one first (`append_lt_append_iff`).
-/

namespace MessageService.Lib

/-- `n` in `width` digits. -/
def fixedWidth : Nat → Nat → List Char
  | 0, _ => []
  | width + 1, n => fixedWidth width (n / 10) ++ [Nat.digitChar (n % 10)]

@[simp] theorem length_fixedWidth (width n : Nat) : (fixedWidth width n).length = width := by
  induction width generalizing n with
  | zero => rfl
  | succ width ih => rw [fixedWidth, List.length_append, ih, List.length_singleton]

theorem isDigit_of_mem_fixedWidth {width n : Nat} {c : Char} (h : c ∈ fixedWidth width n) :
    c.isDigit = true := by
  have hdigit : ∀ d < 10, (Nat.digitChar d).isDigit = true := by decide
  induction width generalizing n with
  | zero => cases h
  | succ width ih =>
    rcases List.mem_append.mp h with h | h
    · exact ih h
    · rw [List.mem_singleton.mp h]
      exact hdigit _ (Nat.mod_lt _ (by decide))

theorem fixedWidth_zero (width : Nat) : fixedWidth width 0 = List.replicate width '0' := by
  induction width with
  | zero => rfl
  | succ width ih => rw [fixedWidth, Nat.zero_div, ih, List.replicate_succ']; rfl

/-- **Reading back.** -/
theorem ofDigitChars_fixedWidth {width n : Nat} (h : n < 10 ^ width) :
    Nat.ofDigitChars 10 (fixedWidth width n) 0 = n := by
  induction width generalizing n with
  | zero =>
    have : n = 0 := by simpa using h
    simp [fixedWidth, this]
  | succ width ih =>
    have hdiv : n / 10 < 10 ^ width := by
      rw [Nat.pow_succ] at h
      omega
    rw [fixedWidth, Nat.ofDigitChars_append, ih hdiv,
      Nat.ofDigitChars_cons_digitChar_of_lt_ten (Nat.mod_lt _ (by decide)), Nat.ofDigitChars_nil]
    omega

/-- Padding the shortest numeral with zeros. -/
theorem replicate_append_toDigits {width n : Nat} (hw : 0 < width) (h : n < 10 ^ width) :
    List.replicate (width - (Nat.toDigits 10 n).length) '0' ++ Nat.toDigits 10 n =
      fixedWidth width n := by
  induction width generalizing n with
  | zero => cases hw
  | succ width ih =>
    by_cases hn : n < 10
    · rw [Nat.toDigits_of_lt_base hn, fixedWidth, Nat.div_eq_of_lt hn, Nat.mod_eq_of_lt hn,
        fixedWidth_zero]
      rfl
    · have hdiv : n / 10 < 10 ^ width := by
        rw [Nat.pow_succ] at h
        omega
      have hpos : 0 < width := by
        rcases Nat.eq_zero_or_pos width with rfl | hpos
        · simp at h
          omega
        · exact hpos
      rw [Nat.toDigits_of_base_le (by decide) (Nat.le_of_not_lt hn), fixedWidth, ← ih hpos hdiv,
        List.length_append, List.length_singleton, Nat.add_sub_add_right, List.append_assoc]

/-! ## Order -/

/-- **Texts of two parts**, the first ones of one length. -/
theorem append_lt_append_iff {a b c d : List Char} (h : a.length = b.length) :
    a ++ c < b ++ d ↔ a < b ∨ a = b ∧ c < d := by
  induction a generalizing b with
  | nil =>
    obtain rfl := List.length_eq_zero_iff.mp h.symm
    simp
  | cons x a ih =>
    cases b with
    | nil => cases h
    | cons y b =>
      rw [List.cons_append, List.cons_append, List.cons_lt_cons_iff, List.cons_lt_cons_iff,
        ih (Nat.succ.inj h), List.cons.injEq]
      tauto

/-- The same with a separator between the parts. -/
theorem append_cons_lt_append_cons_iff {a b c d : List Char} {s : Char}
    (h : a.length = b.length) : a ++ s :: c < b ++ s :: d ↔ a < b ∨ a = b ∧ c < d := by
  simp [append_lt_append_iff h]

theorem digitChar_lt_digitChar_iff {m n : Nat} (hm : m < 10) (hn : n < 10) :
    Nat.digitChar m < Nat.digitChar n ↔ m < n := by
  have h : ∀ m < 10, ∀ n < 10, (Nat.digitChar m < Nat.digitChar n ↔ m < n) := by decide
  exact h m hm n hn

theorem fixedWidth_inj {width m n : Nat} (hm : m < 10 ^ width) (hn : n < 10 ^ width) :
    fixedWidth width m = fixedWidth width n ↔ m = n := by
  constructor
  · intro h
    rw [← ofDigitChars_fixedWidth hm, h, ofDigitChars_fixedWidth hn]
  · rintro rfl
    rfl

/-- **Numerals of one width are ordered as their numbers are.** -/
theorem fixedWidth_lt_iff {width m n : Nat} (hm : m < 10 ^ width) (hn : n < 10 ^ width) :
    fixedWidth width m < fixedWidth width n ↔ m < n := by
  induction width generalizing m n with
  | zero =>
    have hm0 : m = 0 := by simpa using hm
    have hn0 : n = 0 := by simpa using hn
    simp [fixedWidth, hm0, hn0]
  | succ width ih =>
    rw [Nat.pow_succ] at hm hn
    have hm' : m / 10 < 10 ^ width := by omega
    have hn' : n / 10 < 10 ^ width := by omega
    have hlast : [Nat.digitChar (m % 10)] < [Nat.digitChar (n % 10)] ↔ m % 10 < n % 10 := by
      rw [List.cons_lt_cons_iff, digitChar_lt_digitChar_iff (Nat.mod_lt _ (by decide))
        (Nat.mod_lt _ (by decide))]
      simp
    rw [fixedWidth, fixedWidth, append_lt_append_iff (by simp), ih hm' hn',
      fixedWidth_inj hm' hn', hlast]
    omega

end MessageService.Lib
