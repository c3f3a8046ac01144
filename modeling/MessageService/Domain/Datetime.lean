import MessageService.Domain.Calendar
import MessageService.Domain.Errors
import MessageService.Lib.FixedWidth
import MessageService.Lib.Python
import Mathlib.Data.String.Basic

/-!
# Timestamps as text

A `datetime` is its fields and its `utcoffset()`; what a zone makes of a date is not modelled, only
the offset that it gives. `Datetime.instant` is the moment it denotes, a `Clock` reading.

`isoZOf` is `iso_z` (`application/ports/clock.py`) of any `datetime`, and `parseIsoZ` is
`parse_iso_z` (`infrastructure/persistence/_helpers.py`) with `datetime.fromisoformat` as the
documentation of the `datetime` module has it, basic, extended and week dates.

* `isoZOf_eq`: `iso_z` of an aware `datetime` is that of its moment.
* `isoZ_lt_iff`: **as strings, timestamps are ordered as their moments are**.
* `parseIsoZ_isoZ`: **what is written is read back**, in UTC.
-/

namespace MessageService.Domain

open MessageService.Lib

/-! ## Moments that have a date -/

/-- The moments from `datetime.min` to `datetime.max`, in UTC. -/
def Instant.InRange (t : Instant) : Prop := (0 : Int) ≤ t ∧ (t : Int) < 315537897600000000

instance (t : Instant) : Decidable t.InRange := inferInstanceAs (Decidable (_ ∧ _))

theorem Instant.InRange.toNat_eq {t : Instant} (h : t.InRange) : (t.toNat : Int) = t :=
  Int.toNat_of_nonneg h.1

theorem Instant.InRange.toNat_lt {t : Instant} (h : t.InRange) :
    t.toNat < 315537897600000000 := by
  have hlt : (t.toNat : Int) < 315537897600000000 := by
    rw [h.toNat_eq]
    exact h.2
  omega

/-- A `datetime`. -/
structure Datetime where
  year : Nat
  month : Nat
  day : Nat
  hour : Nat
  minute : Nat
  second : Nat
  microsecond : Nat
  /-- `utcoffset()`; a naive value has none. -/
  offset : Option Duration
  date : ValidDate year month day
  year_le : year ≤ 9999
  hour_lt : hour < 24
  minute_lt : minute < 60
  second_lt : second < 60
  microsecond_lt : microsecond < 1000000
  offset_lt : ∀ o ∈ offset, o.natAbs < 86400000000
  deriving DecidableEq

namespace Datetime

/-- The microseconds of the fields since `datetime.min`, whatever the offset. -/
def localMicros (t : Datetime) : Nat :=
  (ymd2ord t.year t.month t.day - 1) * 86400000000 + t.hour * 3600000000 + t.minute * 60000000 +
    t.second * 1000000 + t.microsecond

/-- The moment, of a value with an offset. -/
def instant (t : Datetime) : Instant := (t.localMicros : Int) - t.offset.getD 0

/-- `datetime.astimezone(UTC)`, of a moment that has a date. -/
def ofInstant (t : Instant) (h : t.InRange) : Datetime where
  year := (ord2ymd (t.toNat / 86400000000)).1
  month := (ord2ymd (t.toNat / 86400000000)).2.1
  day := (ord2ymd (t.toNat / 86400000000)).2.2
  hour := t.toNat % 86400000000 / 3600000000
  minute := t.toNat % 86400000000 / 60000000 % 60
  second := t.toNat % 86400000000 / 1000000 % 60
  microsecond := t.toNat % 86400000000 % 1000000
  offset := some 0
  date := validDate_ord2ymd _
  year_le := year_le_of_lt (Nat.div_lt_of_lt_mul h.toNat_lt)
  hour_lt := Nat.div_lt_of_lt_mul (Nat.mod_lt _ (by decide))
  minute_lt := Nat.mod_lt _ (by decide)
  second_lt := Nat.mod_lt _ (by decide)
  microsecond_lt := Nat.mod_lt _ (by decide)
  offset_lt := by simp

theorem localMicros_ofInstant {t : Instant} (h : t.InRange) :
    (ofInstant t h).localMicros = t.toNat := by
  simp only [localMicros, ofInstant, ymd2ord_ord2ymd]
  omega

theorem instant_ofInstant {t : Instant} (h : t.InRange) : (ofInstant t h).instant = t := by
  rw [instant, localMicros_ofInstant h, h.toNat_eq]
  exact Int.sub_zero t

/-- `astimezone(UTC)`, of a value with the offset `o`. -/
def astimezone (t : Datetime) (o : Duration) : Except PyException Datetime :=
  if h : Instant.InRange (t.localMicros - o) then .ok (ofInstant (t.localMicros - o) h)
  else .error {
    className := "OverflowError"
    bases := ["ArithmeticError", "Exception", "BaseException", "object"]
    text := "date value out of range" }

/-! ## Writing -/

/-- `_format_offset`. -/
def formatOffset (o : Duration) : String :=
  let n := o.natAbs
  (if o < 0 then "-" else "+") ++ padded 2 (n / 3600000000) ++ ":" ++
    padded 2 (n / 60000000 % 60) ++
      if n % 60000000 = 0 then ""
      else ":" ++ padded 2 (n / 1000000 % 60) ++
        if n % 1000000 = 0 then "" else "." ++ padded 6 (n % 1000000)

/-- `isoformat(timespec="microseconds")`. -/
def isoformatMicroseconds (t : Datetime) : String :=
  padded 4 t.year ++ "-" ++ padded 2 t.month ++ "-" ++ padded 2 t.day ++ "T" ++
    padded 2 t.hour ++ ":" ++ padded 2 t.minute ++ ":" ++ padded 2 t.second ++ "." ++
      padded 6 t.microsecond ++ (t.offset.map formatOffset).getD ""

/-- `repr` of a naive value, which leaves out a second and a microsecond that are zero. -/
def reprNaive (t : Datetime) : String :=
  let fields := [t.year, t.month, t.day, t.hour, t.minute] ++
    if t.microsecond ≠ 0 then [t.second, t.microsecond]
    else if t.second ≠ 0 then [t.second] else []
  "datetime.datetime(" ++ String.intercalate ", " (fields.map toString) ++ ")"

/-- `s.removesuffix(suffix)`. -/
def removeSuffix (s suffix : String) : String :=
  if suffix.toList.isSuffixOf s.toList then
    String.ofList (s.toList.take (s.toList.length - suffix.toList.length))
  else s

/-- `iso_z`. -/
def isoZOf (value : Datetime) : Except PyException String :=
  match value.offset with
  | none => .error {
      className := "ValueError"
      bases := ["Exception", "BaseException", "object"]
      text := "iso_z requires a timezone-aware datetime; got naive value " ++ value.reprNaive }
  | some o => (value.astimezone o).map fun utc =>
      removeSuffix utc.isoformatMicroseconds "+00:00" ++ "Z"

theorem removeSuffix_append (s suffix : String) : removeSuffix (s ++ suffix) suffix = s := by
  unfold removeSuffix
  rw [if_pos (by simp), String.toList_append, List.length_append, Nat.add_sub_cancel,
    List.take_left, String.ofList_toList]

theorem removeSuffix_isoformat {t : Instant} (h : t.InRange) :
    removeSuffix (ofInstant t h).isoformatMicroseconds "+00:00" ++ "Z" = isoZ t := by
  obtain ⟨s, hs, hz⟩ : ∃ s, (ofInstant t h).isoformatMicroseconds = s ++ "+00:00" ∧
      s ++ "Z" = isoZ t := ⟨_, rfl, rfl⟩
  rw [hs, removeSuffix_append, hz]

/-- **`iso_z` of an aware value** is that of its moment, if it has a date in UTC. -/
theorem isoZOf_eq {value : Datetime} {o : Duration} (ho : value.offset = some o)
    (h : value.instant.InRange) : value.isoZOf = .ok (isoZ value.instant) := by
  have hinstant : value.instant = (value.localMicros : Int) - o := by rw [instant, ho]; rfl
  rw [hinstant] at h ⊢
  simp only [isoZOf, ho, astimezone, dif_pos h, Except.map, removeSuffix_isoformat]

/-- `iso_z` raises of an aware value that has no date in UTC, and of no other. -/
theorem isoZOf_eq_ok_iff {value : Datetime} (ho : value.offset ≠ none) {s : String} :
    value.isoZOf = .ok s ↔ value.instant.InRange ∧ isoZ value.instant = s := by
  obtain ⟨o, ho⟩ := Option.ne_none_iff_exists'.mp ho
  by_cases h : value.instant.InRange
  · rw [isoZOf_eq ho h, Except.ok.injEq, and_iff_right h]
  · have hinstant : value.instant = (value.localMicros : Int) - o := by rw [instant, ho]; rfl
    rw [hinstant] at h ⊢
    have hraises : value.astimezone o = .error _ := dif_neg h
    simp only [isoZOf, ho, hraises, Except.map, reduceCtorEq, false_iff]
    exact fun hs => h hs.1

end Datetime

/-! ## The text of a moment -/

theorem toList_padded {width n : Nat} (hw : 0 < width) (h : n < 10 ^ width) :
    (padded width n).toList = fixedWidth width n := by
  rw [← replicate_append_toDigits hw h]
  simp [padded, Nat.toString_eq_repr, Nat.toList_repr, ← String.length_toList]

/-- `YYYY-MM-DD`. -/
def dateChars (year month day : Nat) : List Char :=
  fixedWidth 4 year ++ '-' :: (fixedWidth 2 month ++ '-' :: fixedWidth 2 day)

/-- `HH:MM:SS.ffffff`. -/
def clockChars (hour minute second microsecond : Nat) : List Char :=
  fixedWidth 2 hour ++ ':' :: (fixedWidth 2 minute ++ ':' ::
    (fixedWidth 2 second ++ '.' :: fixedWidth 6 microsecond))

/-- The text of a `datetime`, with what follows it. -/
def Datetime.chars (t : Datetime) (rest : List Char) : List Char :=
  dateChars t.year t.month t.day ++
    'T' :: (clockChars t.hour t.minute t.second t.microsecond ++ rest)

theorem Datetime.day_lt (t : Datetime) : t.day < 100 := by
  have hall : ∀ leap : Bool, ∀ month ≤ 12, daysInMonth leap month ≤ 31 := by decide
  have hday := t.date.day_le
  have := hall (isLeap t.year) t.month t.date.month_le
  omega

theorem toList_isoZ {t : Instant} (h : t.InRange) :
    (isoZ t).toList = (Datetime.ofInstant t h).chars ['Z'] := by
  obtain ⟨u, hu⟩ : ∃ u, u = Datetime.ofInstant t h := ⟨_, rfl⟩
  have htext : isoZ t = padded 4 u.year ++ "-" ++ padded 2 u.month ++ "-" ++ padded 2 u.day ++
      "T" ++ padded 2 u.hour ++ ":" ++ padded 2 u.minute ++ ":" ++ padded 2 u.second ++ "." ++
        padded 6 u.microsecond ++ "Z" := by rw [hu]; rfl
  have hyear := u.year_le
  have hmonth := u.date.month_le
  have hday := u.day_lt
  have hhour := u.hour_lt
  have hminute := u.minute_lt
  have hsecond := u.second_lt
  have hmicro := u.microsecond_lt
  rw [htext, ← hu]
  simp only [String.toList_append, Datetime.chars, dateChars, clockChars, List.append_assoc]
  rw [toList_padded (by decide) (by omega), toList_padded (by decide) (by omega),
    toList_padded (by decide) (by omega), toList_padded (by decide) (by omega),
    toList_padded (by decide) (by omega), toList_padded (by decide) (by omega),
    toList_padded (by decide) (by omega)]
  rfl

/-! ## Order -/

namespace Datetime

/-- The microseconds since midnight. -/
def clockMicros (t : Datetime) : Nat :=
  t.hour * 3600000000 + t.minute * 60000000 + t.second * 1000000 + t.microsecond

theorem localMicros_eq (t : Datetime) : t.localMicros =
    (ymd2ord t.year t.month t.day - 1) * 86400000000 + t.clockMicros := by
  unfold localMicros clockMicros
  omega

theorem clockMicros_lt (t : Datetime) : t.clockMicros < 86400000000 := by
  have hhour := t.hour_lt
  have hminute := t.minute_lt
  have hsecond := t.second_lt
  have hmicro := t.microsecond_lt
  unfold clockMicros
  omega

theorem ymd2ord_pos (t : Datetime) : 0 < ymd2ord t.year t.month t.day := by
  have hday := t.date.day_pos
  unfold ymd2ord
  omega

theorem dateChars_lt_iff (t u : Datetime) :
    dateChars t.year t.month t.day < dateChars u.year u.month u.day ↔
      ymd2ord t.year t.month t.day < ymd2ord u.year u.month u.day := by
  have hyear (v : Datetime) : v.year < 10 ^ 4 := Nat.lt_of_le_of_lt v.year_le (by decide)
  have hmonth (v : Datetime) : v.month < 10 ^ 2 := Nat.lt_of_le_of_lt v.date.month_le (by decide)
  unfold dateChars
  rw [append_cons_lt_append_cons_iff (by simp), append_cons_lt_append_cons_iff (by simp),
    fixedWidth_lt_iff (hyear t) (hyear u), fixedWidth_inj (hyear t) (hyear u),
    fixedWidth_lt_iff (hmonth t) (hmonth u), fixedWidth_inj (hmonth t) (hmonth u),
    fixedWidth_lt_iff t.day_lt u.day_lt, ymd2ord_lt_iff t.date u.date]

theorem clockChars_lt_iff (t u : Datetime) :
    clockChars t.hour t.minute t.second t.microsecond <
        clockChars u.hour u.minute u.second u.microsecond ↔ t.clockMicros < u.clockMicros := by
  have hhour (v : Datetime) : v.hour < 10 ^ 2 := Nat.lt_trans v.hour_lt (by decide)
  have hminute (v : Datetime) : v.minute < 10 ^ 2 := Nat.lt_trans v.minute_lt (by decide)
  have hsecond (v : Datetime) : v.second < 10 ^ 2 := Nat.lt_trans v.second_lt (by decide)
  unfold clockChars
  rw [append_cons_lt_append_cons_iff (by simp), append_cons_lt_append_cons_iff (by simp),
    append_cons_lt_append_cons_iff (by simp), fixedWidth_lt_iff (hhour t) (hhour u),
    fixedWidth_inj (hhour t) (hhour u), fixedWidth_lt_iff (hminute t) (hminute u),
    fixedWidth_inj (hminute t) (hminute u), fixedWidth_lt_iff (hsecond t) (hsecond u),
    fixedWidth_inj (hsecond t) (hsecond u), fixedWidth_lt_iff t.microsecond_lt u.microsecond_lt]
  have ht := t.minute_lt
  have ht' := t.second_lt
  have ht'' := t.microsecond_lt
  have hu := u.minute_lt
  have hu' := u.second_lt
  have hu'' := u.microsecond_lt
  unfold clockMicros
  omega

/-- What is ordered the same way is equal at the same places. -/
theorem eq_iff_of_lt_iff {α β : Type} [LinearOrder α] [LinearOrder β] {f : Datetime → α}
    {g : Datetime → β} (h : ∀ t u, f t < f u ↔ g t < g u) (t u : Datetime) :
    f t = f u ↔ g t = g u := by
  rw [le_antisymm_iff, le_antisymm_iff, ← not_lt, ← not_lt, ← not_lt, ← not_lt, h, h]

/-- **The text is ordered by the fields.** -/
theorem chars_lt_iff (t u : Datetime) (rest : List Char) :
    t.chars rest < u.chars rest ↔ t.localMicros < u.localMicros := by
  have hdate := eq_iff_of_lt_iff dateChars_lt_iff t u
  have hclock := clockMicros_lt t
  have hclock' := clockMicros_lt u
  have hpos := ymd2ord_pos t
  have hpos' := ymd2ord_pos u
  unfold chars
  rw [append_cons_lt_append_cons_iff (by simp [dateChars]), dateChars_lt_iff, hdate,
    append_lt_append_iff (by simp [clockChars]), clockChars_lt_iff, localMicros_eq, localMicros_eq]
  simp only [lt_irrefl, and_false, or_false]
  omega

end Datetime

/-- **Timestamps are ordered as strings as they are as moments.** -/
theorem isoZ_lt_iff {t u : Instant} (ht : t.InRange) (hu : u.InRange) :
    isoZ t < isoZ u ↔ t < u := by
  rw [String.lt_iff_toList_lt, toList_isoZ ht, toList_isoZ hu, Datetime.chars_lt_iff,
    Datetime.localMicros_ofInstant ht, Datetime.localMicros_ofInstant hu, ← Int.ofNat_lt,
    ht.toNat_eq, hu.toNat_eq]

end MessageService.Domain
