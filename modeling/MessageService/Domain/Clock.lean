import Mathlib.Tactic.Common

/-!
# Clock readings

A reading of the clock port (`application/ports/clock.py`, `Clock.now`) is a timezone-aware UTC
`datetime`. It is modelled as the number of microseconds since `0001-01-01T00:00:00Z`
(`datetime.min`), so that comparison and subtraction of `datetime`s are those of integers.

`isoZ` is `iso_z`, `isoformat` the method of that name and `isoDate` the same of a date, through the
calendar of the `datetime` module (`ord2ymd`).
-/

namespace MessageService.Domain

/-- A UTC `datetime`, in microseconds since `datetime.min`. -/
abbrev Instant := Int

/-- A `timedelta`, in microseconds. -/
abbrev Duration := Int

/-- `timedelta(seconds=n)`. -/
def seconds (n : Nat) : Duration := 1000000 * (n : Int)

theorem sub_seconds_lt (t : Instant) {n : Nat} (h : 1 ≤ n) : t - seconds n < t :=
  Int.sub_lt_self t (Int.mul_pos (by decide) (Int.natCast_pos.mpr h))

/-- The days before each month of a common year, from January. -/
def daysBeforeMonth : List Nat := [0, 31, 59, 90, 120, 151, 181, 212, 243, 273, 304, 334]

/-- Month and day of the `n`-th day (from 0) of a year. -/
def monthDay (leap : Bool) (n : Nat) : Nat × Nat :=
  let before (i : Nat) := daysBeforeMonth.getD i 0 + if leap && 2 ≤ i then 1 else 0
  let i := ((List.range 12).filter fun i => before i ≤ n).length - 1
  (i + 1, n - before i + 1)

/-- Year, month and day of the `n`-th day (from 0) of the proleptic Gregorian calendar
(`_ord2ymd`). -/
def ord2ymd (n : Nat) : Nat × Nat × Nat :=
  let n400 := n / 146097
  let r400 := n % 146097
  let n100 := r400 / 36524
  let r100 := r400 % 36524
  let n4 := r100 / 1461
  let r4 := r100 % 1461
  let n1 := r4 / 365
  let r1 := r4 % 365
  let year := n400 * 400 + n100 * 100 + n4 * 4 + n1 + 1
  -- the last day of a leap year closes its cycle
  if n1 = 4 || n100 = 4 then (year - 1, 12, 31)
  else
    let leap := n1 = 3 && (n4 ≠ 24 || n100 = 3)
    let (month, day) := monthDay leap r1
    (year, month, day)

/-- `n` in decimal, zero-padded to `width` characters. -/
def padded (width n : Nat) : String :=
  let digits := toString n
  String.ofList (List.replicate (width - digits.length) '0') ++ digits

/-- `.date().isoformat()`: `YYYY-MM-DD`. -/
def isoDate (t : Instant) : String :=
  let (year, month, day) := ord2ymd (t.toNat / 86400000000)
  padded 4 year ++ "-" ++ padded 2 month ++ "-" ++ padded 2 day

/-- `YYYY-MM-DDTHH:MM:SS`, and the microseconds. -/
def dateAndTime (t : Instant) : String × Nat :=
  let n := t.toNat
  let (year, month, day) := ord2ymd (n / 86400000000)
  let us := n % 86400000000
  (padded 4 year ++ "-" ++ padded 2 month ++ "-" ++ padded 2 day ++ "T" ++
    padded 2 (us / 3600000000) ++ ":" ++ padded 2 (us / 60000000 % 60) ++ ":" ++
    padded 2 (us / 1000000 % 60), us % 1000000)

/-- `iso_z`: `YYYY-MM-DDTHH:MM:SS.ffffffZ`, the microseconds always present. -/
def isoZ (t : Instant) : String :=
  let (text, us) := dateAndTime t
  text ++ "." ++ padded 6 us ++ "Z"

/-- `datetime.isoformat` of a UTC reading: the microseconds only when there are any. -/
def isoformat (t : Instant) : String :=
  let (text, us) := dateAndTime t
  text ++ (if us = 0 then "" else "." ++ padded 6 us) ++ "+00:00"

/-- `str` of a UTC reading: the ISO form with a blank in the place of its `T`. -/
def datetimeStr (t : Instant) : String :=
  String.ofList ((isoformat t).toList.map fun c => if c = 'T' then ' ' else c)

end MessageService.Domain
