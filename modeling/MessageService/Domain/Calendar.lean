import MessageService.Domain.Clock
import Mathlib.Data.Int.Basic

/-!
# The calendar

The proleptic Gregorian calendar of the `datetime` module, from dates to day numbers (`ymd2ord`),
beside `ord2ymd` of `Clock`, which goes the other way.

* `validDate_ord2ymd`, `ymd2ord_ord2ymd`: a day number is that of its date, which exists.
* `ymd2ord_lt`: **later dates have greater day numbers**.
-/

namespace MessageService.Domain

/-- `_is_leap`. -/
def isLeap (year : Nat) : Bool := year % 4 = 0 && (year % 100 ≠ 0 || year % 400 = 0)

/-- The days of a year before the month with index `i`, from 0. -/
def daysBefore (leap : Bool) (i : Nat) : Nat :=
  daysBeforeMonth.getD i 0 + if leap && 2 ≤ i then 1 else 0

/-- `_days_in_month`. -/
def daysInMonth (leap : Bool) (month : Nat) : Nat :=
  if month = 12 then 31 else daysBefore leap month - daysBefore leap (month - 1)

/-- The days of a year. -/
def daysInYear (leap : Bool) : Nat := if leap then 366 else 365

/-- `_days_before_year`. -/
def daysBeforeYear (year : Nat) : Nat :=
  (year - 1) * 365 + (year - 1) / 4 - (year - 1) / 100 + (year - 1) / 400

/-- `_ymd2ord`: the first day has the number 1. -/
def ymd2ord (year month day : Nat) : Nat :=
  daysBeforeYear year + daysBefore (isLeap year) (month - 1) + day

/-- What `date` asks of its fields, but for the last year. -/
structure ValidDate (year month day : Nat) : Prop where
  year_pos : 1 ≤ year
  month_pos : 1 ≤ month
  month_le : month ≤ 12
  day_pos : 1 ≤ day
  day_le : day ≤ daysInMonth (isLeap year) month

instance (year month day : Nat) : Decidable (ValidDate year month day) :=
  decidable_of_iff (1 ≤ year ∧ 1 ≤ month ∧ month ≤ 12 ∧ 1 ≤ day ∧
      day ≤ daysInMonth (isLeap year) month)
    ⟨fun ⟨a, b, c, d, e⟩ => ⟨a, b, c, d, e⟩, fun ⟨a, b, c, d, e⟩ => ⟨a, b, c, d, e⟩⟩

/-! ## Inside a year -/

/-- Month and day of a day of the year: they exist, and lead back. -/
theorem monthDay_spec (leap : Bool) {r : Nat} (h : r < daysInYear leap) :
    1 ≤ (monthDay leap r).1 ∧ (monthDay leap r).1 ≤ 12 ∧ 1 ≤ (monthDay leap r).2 ∧
      (monthDay leap r).2 ≤ daysInMonth leap (monthDay leap r).1 ∧
        daysBefore leap ((monthDay leap r).1 - 1) + (monthDay leap r).2 = r + 1 := by
  have hall : ∀ leap : Bool, ∀ r < daysInYear leap,
      1 ≤ (monthDay leap r).1 ∧ (monthDay leap r).1 ≤ 12 ∧ 1 ≤ (monthDay leap r).2 ∧
        (monthDay leap r).2 ≤ daysInMonth leap (monthDay leap r).1 ∧
          daysBefore leap ((monthDay leap r).1 - 1) + (monthDay leap r).2 = r + 1 := by
    decide +kernel
  exact hall leap r h

/-- The days of a month end where the next month begins. -/
theorem daysBefore_add_le (leap : Bool) {month next day : Nat} (hm : 1 ≤ month)
    (hlt : month < next) (hnext : next ≤ 12) (hd : day ≤ daysInMonth leap month) :
    daysBefore leap (month - 1) + day ≤ daysBefore leap (next - 1) := by
  have hall : ∀ leap : Bool, ∀ next ≤ 12, ∀ month < next, 1 ≤ month →
      daysBefore leap (month - 1) + daysInMonth leap month ≤ daysBefore leap (next - 1) := by
    decide
  have := hall leap next hnext month hlt hm
  omega

theorem daysBefore_add_le_year (leap : Bool) {month day : Nat} (hm : 1 ≤ month)
    (hle : month ≤ 12) (hd : day ≤ daysInMonth leap month) :
    daysBefore leap (month - 1) + day ≤ daysInYear leap := by
  have hall : ∀ leap : Bool, ∀ month ≤ 12, 1 ≤ month →
      daysBefore leap (month - 1) + daysInMonth leap month ≤ daysInYear leap := by
    decide
  have := hall leap month hle hm
  omega

/-! ## Over the years -/

/-- A year counts among the leap years by what divides it. -/
theorem daysInYear_isLeap (year : Nat) : daysInYear (isLeap year) + (if 100 ∣ year then 1 else 0) =
    365 + (if 4 ∣ year then 1 else 0) + if 400 ∣ year then 1 else 0 := by
  have h100 : 100 ∣ year → 4 ∣ year := Nat.dvd_trans (by decide)
  have h400 : 400 ∣ year → 100 ∣ year := Nat.dvd_trans (by decide)
  simp only [daysInYear, isLeap, Bool.and_eq_true, Bool.or_eq_true, decide_eq_true_eq, ne_eq,
    ← Nat.dvd_iff_mod_eq_zero]
  by_cases d4 : 4 ∣ year <;> by_cases d100 : 100 ∣ year <;> by_cases d400 : 400 ∣ year <;>
    simp_all

theorem daysBeforeYear_succ {year : Nat} (h : 1 ≤ year) :
    daysBeforeYear (year + 1) = daysBeforeYear year + daysInYear (isLeap year) := by
  obtain ⟨y, rfl⟩ := Nat.exists_eq_add_of_le' h
  have hdays := daysInYear_isLeap (y + 1)
  have hle (n : Nat) : n / 100 ≤ n / 4 := Nat.div_le_div_left (by decide) (by decide)
  have hnow := hle y
  have hnext := hle (y + 1)
  simp only [daysBeforeYear, Nat.add_sub_cancel, Nat.succ_div] at hnext ⊢
  omega

theorem daysBeforeYear_mono {year year' : Nat} (h : 1 ≤ year) (hle : year ≤ year') :
    daysBeforeYear year ≤ daysBeforeYear year' := by
  induction hle with
  | refl => exact Nat.le_refl _
  | @step m hm ih =>
    rw [daysBeforeYear_succ (Nat.le_trans h hm)]
    exact Nat.le_trans ih (Nat.le_add_right _ _)

/-- **Later dates have greater day numbers.** -/
theorem ymd2ord_lt {y m d y' m' d' : Nat} (h : ValidDate y m d) (h' : ValidDate y' m' d')
    (hlt : y < y' ∨ y = y' ∧ (m < m' ∨ m = m' ∧ d < d')) : ymd2ord y m d < ymd2ord y' m' d' := by
  unfold ymd2ord
  rcases hlt with hy | ⟨rfl, hm | ⟨rfl, hd⟩⟩
  · have hyear := daysBefore_add_le_year (isLeap y) h.month_pos h.month_le h.day_le
    have hnext := daysBeforeYear_succ h.year_pos
    have hmono := daysBeforeYear_mono (Nat.le_add_left 1 y) hy
    have hpos := h'.day_pos
    omega
  · have hmonth := daysBefore_add_le (isLeap y) h.month_pos hm h'.month_le h.day_le
    have hpos := h'.day_pos
    omega
  · omega

theorem ymd2ord_lt_iff {y m d y' m' d' : Nat} (h : ValidDate y m d) (h' : ValidDate y' m' d') :
    ymd2ord y m d < ymd2ord y' m' d' ↔ y < y' ∨ y = y' ∧ (m < m' ∨ m = m' ∧ d < d') := by
  refine ⟨fun hlt => ?_, ymd2ord_lt h h'⟩
  by_contra hn
  by_cases heq : y = y' ∧ m = m' ∧ d = d'
  · obtain ⟨rfl, rfl, rfl⟩ := heq
    exact Nat.lt_irrefl _ hlt
  · have := ymd2ord_lt h' h (by omega)
    omega

/-! ## There and back -/

/-- The days before a year, by the four cycles that `ord2ymd` counts. -/
theorem daysBeforeYear_cycles {a b c d : Nat} (hb : b < 4) (hc : c < 25) (hd : d < 4) :
    daysBeforeYear (a * 400 + b * 100 + c * 4 + d + 1) =
      a * 146097 + b * 36524 + c * 1461 + d * 365 := by
  unfold daysBeforeYear
  have h4 : (a * 400 + b * 100 + c * 4 + d) / 4 = a * 100 + b * 25 + c := by omega
  have h100 : (a * 400 + b * 100 + c * 4 + d) / 100 = a * 4 + b := by omega
  have h400 : (a * 400 + b * 100 + c * 4 + d) / 400 = a := by omega
  rw [Nat.add_sub_cancel, h4, h100, h400]
  omega

theorem isLeap_cycles {a b c d : Nat} (hb : b < 4) (hc : c < 25) (hd : d < 4) :
    isLeap (a * 400 + b * 100 + c * 4 + d + 1) = (d = 3 && (c ≠ 24 || b = 3)) := by
  have h4 : (a * 400 + b * 100 + c * 4 + d + 1) % 4 = 0 ↔ d = 3 := by omega
  have h100 : (a * 400 + b * 100 + c * 4 + d + 1) % 100 = 0 ↔ c = 24 ∧ d = 3 := by omega
  have h400 : (a * 400 + b * 100 + c * 4 + d + 1) % 400 = 0 ↔ b = 3 ∧ c = 24 ∧ d = 3 := by omega
  simp only [isLeap, ne_eq, h4, h100, h400]
  by_cases hd3 : d = 3 <;> by_cases hc24 : c = 24 <;> by_cases hb3 : b = 3 <;> simp [hd3, hc24, hb3]

theorem le_daysInYear (leap : Bool) : 365 ≤ daysInYear leap := by
  cases leap <;> decide

/-- The year of a day, and the day in it. -/
theorem ord2ymd_eq (n : Nat) : ∃ year r, 1 ≤ year ∧ r < daysInYear (isLeap year) ∧
    daysBeforeYear year + r = n ∧ ord2ymd n = (year, monthDay (isLeap year) r) := by
  have hlast : monthDay true 365 = (12, 31) := by decide
  -- the four cycles of `ord2ymd`
  obtain ⟨a, ha⟩ : ∃ a, a = n / 146097 := ⟨_, rfl⟩
  obtain ⟨b, hb⟩ : ∃ b, b = n % 146097 / 36524 := ⟨_, rfl⟩
  obtain ⟨c, hc⟩ : ∃ c, c = n % 146097 % 36524 / 1461 := ⟨_, rfl⟩
  obtain ⟨d, hd⟩ : ∃ d, d = n % 146097 % 36524 % 1461 / 365 := ⟨_, rfl⟩
  have hc25 : c < 25 := by omega
  simp only [ord2ymd, ← ha, ← hb, ← hc, ← hd]
  by_cases hb4 : b = 4
  · -- the last day of four hundred years
    have hyear : a * 400 + b * 100 + c * 4 + d + 1 - 1 = a * 400 + 3 * 100 + 24 * 4 + 3 + 1 := by
      omega
    have hleap : isLeap (a * 400 + 3 * 100 + 24 * 4 + 3 + 1) = true := by
      rw [isLeap_cycles (a := a) (b := 3) (c := 24) (d := 3) (by decide) (by decide) (by decide)]
      rfl
    have hdays := daysBeforeYear_cycles (a := a) (b := 3) (c := 24) (d := 3) (by decide)
      (by decide) (by decide)
    refine ⟨a * 400 + 3 * 100 + 24 * 4 + 3 + 1, 365, Nat.succ_pos _, ?_, by omega, ?_⟩
    · simp [hleap, daysInYear]
    · rw [hleap, hlast, hyear, if_pos (by simp [hb4])]
  · have hb3 : b < 4 := by omega
    by_cases hd4 : d = 4
    · -- the last day of four years
      have hyear : a * 400 + b * 100 + c * 4 + d + 1 - 1 = a * 400 + b * 100 + c * 4 + 3 + 1 := by
        omega
      have hc24 : c ≠ 24 := by omega
      have hleap : isLeap (a * 400 + b * 100 + c * 4 + 3 + 1) = true := by
        rw [isLeap_cycles hb3 hc25 (by decide)]
        simp [hc24]
      have hdays := daysBeforeYear_cycles (a := a) hb3 hc25 (show 3 < 4 by decide)
      refine ⟨a * 400 + b * 100 + c * 4 + 3 + 1, 365, Nat.succ_pos _, ?_, by omega, ?_⟩
      · simp [hleap, daysInYear]
      · rw [hleap, hlast, hyear, if_pos (by simp [hd4])]
    · have hd3 : d < 4 := by omega
      have hleap := isLeap_cycles (a := a) hb3 hc25 hd3
      have hdays := daysBeforeYear_cycles (a := a) hb3 hc25 hd3
      have hr : n % 146097 % 36524 % 1461 % 365 < 365 := Nat.mod_lt _ (by decide)
      refine ⟨a * 400 + b * 100 + c * 4 + d + 1, n % 146097 % 36524 % 1461 % 365,
        Nat.succ_pos _, Nat.lt_of_lt_of_le hr (le_daysInYear _), by omega, ?_⟩
      rw [hleap, if_neg (by simp [hb4, hd4])]

/-- The date of a day exists. -/
theorem validDate_ord2ymd (n : Nat) :
    ValidDate (ord2ymd n).1 (ord2ymd n).2.1 (ord2ymd n).2.2 := by
  obtain ⟨year, r, hyear, hr, -, he⟩ := ord2ymd_eq n
  obtain ⟨hm, hm12, hd, hdays, -⟩ := monthDay_spec (isLeap year) hr
  rw [he]
  exact ⟨hyear, hm, hm12, hd, hdays⟩

/-- **The day of a day's date is the day.** -/
theorem ymd2ord_ord2ymd (n : Nat) :
    ymd2ord (ord2ymd n).1 (ord2ymd n).2.1 (ord2ymd n).2.2 = n + 1 := by
  obtain ⟨year, r, -, hr, hn, he⟩ := ord2ymd_eq n
  have hspec := (monthDay_spec (isLeap year) hr).2.2.2.2
  rw [he]
  change daysBeforeYear year + daysBefore (isLeap year) ((monthDay (isLeap year) r).1 - 1) +
    (monthDay (isLeap year) r).2 = n + 1
  omega

/-- The last day that has a date of the `datetime` module. -/
theorem year_le_of_lt {n : Nat} (h : n < 3652059) : (ord2ymd n).1 ≤ 9999 := by
  by_contra hyear
  have hmono := daysBeforeYear_mono (by decide : 1 ≤ 10000) (by omega : 10000 ≤ (ord2ymd n).1)
  have hlast : daysBeforeYear 10000 = 3652059 := by decide
  have hn := ymd2ord_ord2ymd n
  have hday := (validDate_ord2ymd n).day_pos
  unfold ymd2ord at hn
  omega

end MessageService.Domain
