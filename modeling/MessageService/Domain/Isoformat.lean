import MessageService.Domain.Datetime

/-!
# Reading timestamps

`datetime.fromisoformat`, by the algorithm of the `datetime` module in C: calendar and week dates,
basic and extended forms, fractions of any length, offsets, and what it lets pass besides them, such
as a blank before the offset. `parseIsoZ` is `parse_iso_z`
(`infrastructure/persistence/_helpers.py`) on top of it.

* `fromisoformat_chars`: the extended form with microseconds and an offset of zero is read field by
  field.
* `parseIsoZ_isoZ`: **what `iso_z` writes is read back** as the same moment, in UTC.
-/

namespace MessageService.Domain

open MessageService.Lib

/-! ## The parser -/

/-- `k` digits from position `i` on, read as a number. -/
def digitsAt (cs : List Char) (i k : Nat) : Option Nat :=
  let ds := (cs.drop i).take k
  if ds.length = k ∧ ds.all Char.isDigit then some (Nat.ofDigitChars 10 ds 0) else none

/-- `_find_isoformat_datetime_separator`. -/
def findSeparator (cs : List Char) : Option Nat :=
  if cs.length = 7 then some 7
  else if cs[4]? = some '-' then
    if cs[5]? = some 'W' then
      if cs[8]? = some '-' then
        if cs.length = 9 then none
        else if (cs[10]?).any Char.isDigit then some 8 else some 10
      else some 8
    else some 10
  else if cs[4]? = some 'W' then
    let stop := 7 + ((cs.drop 7).takeWhile Char.isDigit).length
    if stop < 9 then some stop else if stop % 2 = 0 then some 7 else some 8
  else some 8

/-- `_isoweek1monday`, a day number. -/
def isoweek1monday (year : Nat) : Nat :=
  let firstday := ymd2ord year 1 1
  let firstweekday := (firstday + 6) % 7
  firstday - firstweekday + if 3 < firstweekday then 7 else 0

/-- `iso_to_ymd`. -/
def isoweekToGregorian (year week day : Nat) : Option (Nat × Nat × Nat) :=
  let firstWeekday := ymd2ord year 1 1 % 7
  let long := firstWeekday = 4 ∨ firstWeekday = 3 ∧ isLeap year
  if 0 < week ∧ (week < 53 ∨ week = 53 ∧ long) ∧ 0 < day ∧ day < 8 then
    -- the days before year 1 have no month, and the constructor says so
    if year = 0 then some (1, 0, 0)
    else some (ord2ymd (isoweek1monday year + (week - 1) * 7 + (day - 1) - 1))
  else none

/-- `parse_isoformat_date`. -/
def parseIsoDate (cs : List Char) : Option (Nat × Nat × Nat) := do
  let year ← digitsAt cs 0 4
  let hasSep := cs[4]? = some '-'
  let pos := if hasSep then 5 else 4
  if cs[pos]? = some 'W' then
    let week ← digitsAt cs (pos + 1) 2
    if pos + 3 < cs.length then
      if (cs[pos + 3]? = some '-') = hasSep then
        let day ← digitsAt cs (pos + 3 + if hasSep then 1 else 0) 1
        isoweekToGregorian year week day
      else none
    else isoweekToGregorian year week 1
  else
    let month ← digitsAt cs pos 2
    if (cs[pos + 2]? = some '-') = hasSep then
      let day ← digitsAt cs (pos + 2 + if hasSep then 1 else 0) 2
      some (year, month, day)
    else none

/-- The fraction of `parse_hh_mm_ss_ff`: the microseconds, and whether the text goes on behind its
digits. `after` is the character behind the text, U+0000 at the end of the string. -/
def parseFraction (after : Char) (cs : List Char) : Option (Nat × Bool) :=
  let ds := cs.take 6
  if ds.all Char.isDigit then
    some (Nat.ofDigitChars 10 ds 0 * 10 ^ (6 - ds.length),
      ((cs.drop 6).dropWhile Char.isDigit).headD after != '\x00')
  else none

/-- The loop of `parse_hh_mm_ss_ff`, with the fields left to read: those it finds, the microseconds,
and whether the text goes on. `given` is `has_separator`, which the first field decides. -/
def parseFields (after : Char) : Nat → Option Bool → List Char → Option (List Nat × Nat × Bool)
  | 0, _, cs => (parseFraction after cs).map fun fraction => ([], fraction)
  | n + 1, given, cs => do
    let field ← digitsAt cs 0 2
    let hasSeparator := given.getD (cs[2]? = some ':')
    match cs.drop 2 with
    | [] => some ([field], 0, after != '\x00')
    | c :: ds =>
      -- a last character is never looked at, only a U+0000 counts as the end of the text
      if ds = [] ∧ c.val < 128 then some ([field], 0, c != '\x00')
      else if hasSeparator ∧ c = ':' then
        (parseFields after n (some true) ds).map fun rest => (field :: rest.1, rest.2)
      else if c = '.' ∨ c = ',' then
        (parseFraction after ds).map fun fraction => ([field], fraction)
      else if hasSeparator then none
      else (parseFields after n (some false) (c :: ds)).map fun rest => (field :: rest.1, rest.2)

/-- `parse_hh_mm_ss_ff`: hour, minute, second and microsecond, and whether the text goes on. -/
def parseClock (after : Char) (cs : List Char) : Option ((Nat × Nat × Nat × Nat) × Bool) :=
  (parseFields after 3 none cs).map fun (fields, microsecond, more) =>
    ((fields.getD 0 0, fields.getD 1 0, fields.getD 2 0, microsecond), more)

/-- A sign, or the mark of UTC. -/
def startsOffset (c : Char) : Bool := c = '+' || c = '-' || c = 'Z'

/-- The offset of `parse_isoformat_time`, of which whole seconds that are zero make UTC. -/
def parseOffset (sign : Char) (cs : List Char) : Option Duration :=
  if sign = 'Z' then if cs.headD '\x00' = '\x00' then some 0 else none
  else
    match parseClock '\x00' cs with
    | some ((hour, minute, second, microsecond), false) =>
      let seconds := hour * 3600 + minute * 60 + second
      let n : Nat := if seconds = 0 then 0 else seconds * 1000000 + microsecond
      some (if sign = '-' then -(n : Int) else n)
    | _ => none

/-- `parse_isoformat_time`; without an offset the time is naive. -/
def parseIsoTime (cs : List Char) : Option ((Nat × Nat × Nat × Nat) × Option Duration) := do
  let offset := cs.dropWhile fun c => !startsOffset c
  let (clock, more) ← parseClock (offset.headD '\x00') (cs.takeWhile fun c => !startsOffset c)
  match offset with
  | [] => if more then none else some (clock, none)
  | sign :: rest => (parseOffset sign rest).map fun o => (clock, some o)

/-- A day in microseconds. -/
def dayMicros : Nat := 86400000000

/-- `repr` of a `timedelta` that is not zero. -/
def reprTimedelta (d : Duration) : String :=
  let parts := [("days", d / dayMicros), ("seconds", d % dayMicros / 1000000),
    ("microseconds", d % 1000000)].filter fun part => part.2 ≠ 0
  "datetime.timedelta(" ++
    String.intercalate ", " (parts.map fun part => part.1 ++ "=" ++ toString part.2) ++ ")"

/-- The text of the `ValueError` of the constructors: of `timezone` first, then of `datetime`. -/
def invalidField (date : Nat × Nat × Nat) (clock : Nat × Nat × Nat × Nat)
    (offset : Option Duration) : String :=
  match offset.filter fun o => dayMicros ≤ o.natAbs with
  | some o =>
    "offset must be a timedelta strictly between -timedelta(hours=24) and timedelta(hours=24), not "
      ++ reprTimedelta o ++ "."
  | none =>
    if date.1 < 1 ∨ 9999 < date.1 then "year " ++ toString date.1 ++ " is out of range"
    else if date.2.1 < 1 ∨ 12 < date.2.1 then "month must be in 1..12"
    else if ¬ValidDate date.1 date.2.1 date.2.2 then "day is out of range for month"
    else if 24 ≤ clock.1 then "hour must be in 0..23"
    else if 60 ≤ clock.2.1 then "minute must be in 0..59"
    else if 60 ≤ clock.2.2.1 then "second must be in 0..59"
    else "microsecond must be in 0..999999"

/-- The `ValueError` with the text `text`. -/
def isoformatError (text : String) : PyException where
  className := "ValueError"
  bases := ["Exception", "BaseException", "object"]
  text

/-- The constructor: it raises unless the fields are those of a `datetime`. -/
def Datetime.ofFields (date : Nat × Nat × Nat) (clock : Nat × Nat × Nat × Nat)
    (offset : Option Duration) : Except PyException Datetime :=
  if h : (ValidDate date.1 date.2.1 date.2.2 ∧ date.1 ≤ 9999) ∧
      (clock.1 < 24 ∧ clock.2.1 < 60 ∧ clock.2.2.1 < 60 ∧ clock.2.2.2 < 1000000) ∧
        ∀ o ∈ offset, o.natAbs < 86400000000 then
    .ok {
      year := date.1, month := date.2.1, day := date.2.2
      hour := clock.1, minute := clock.2.1, second := clock.2.2.1, microsecond := clock.2.2.2
      offset
      date := h.1.1, year_le := h.1.2, hour_lt := h.2.1.1, minute_lt := h.2.1.2.1
      second_lt := h.2.1.2.2.1, microsecond_lt := h.2.1.2.2.2, offset_lt := h.2.2 }
  else .error (isoformatError (invalidField date clock offset))

/-- The fields of a text in one of the ISO 8601 forms; a date alone is midnight. -/
def parseIsoformat (cs : List Char) :
    Option ((Nat × Nat × Nat) × (Nat × Nat × Nat × Nat) × Option Duration) := do
  if cs.length < 7 then none
  let i ← findSeparator cs
  let date ← parseIsoDate (cs.take i)
  let time ← if cs.drop i = [] then some ((0, 0, 0, 0), none) else parseIsoTime (cs.drop (i + 1))
  some (date, time)

/-- `datetime.fromisoformat`. -/
def fromisoformat (s : String) : Except PyException Datetime :=
  match parseIsoformat s.toList with
  | some (date, clock, offset) => Datetime.ofFields date clock offset
  | none => .error (isoformatError ("Invalid isoformat string: " ++ pyRepr s))

/-- `value.replace("Z", "+00:00")`. -/
def replaceZ (s : String) : String :=
  String.ofList (s.toList.flatMap fun c => if c = 'Z' then "+00:00".toList else [c])

/-- The `normalized` value of `parse_iso_z`. -/
def normalized (value : String) : String :=
  if value.toList.getLast? = some 'Z' then replaceZ value else value

/-- `parse_iso_z`. -/
def parseIsoZ (value : String) : Except (Raised ServiceError) Datetime := do
  let dt ← handling ["ValueError"] (fun exc => {
    errorClass := .persistenceError
    message := "could not parse persisted timestamp " ++ pyRepr value ++ ": " ++ exc.text
    details := [("value", .str value), ("reason", .str exc.text)] })
    (fromisoformat (normalized value))
  match dt.offset with
  | none => .error (.own {
      errorClass := .persistenceError
      message := "persisted timestamp " ++ pyRepr value ++ " has no timezone info"
      details := [("value", .str value)] })
  | some o => uncaught (dt.astimezone o)

/-! ## The extended form -/

theorem digitsAt_eq {cs : List Char} {i k n : Nat} (hcs : (cs.drop i).take k = fixedWidth k n)
    (h : n < 10 ^ k) : digitsAt cs i k = some n := by
  unfold digitsAt
  rw [hcs]
  simp [ofDigitChars_fixedWidth h, List.all_eq_true]
  exact fun c hc => isDigit_of_mem_fixedWidth hc

theorem digitChar_ne {c : Char} (h : c.isDigit = false) (n : Nat) :
    Nat.digitChar (n % 10) ≠ c := by
  have hdigit : ∀ d < 10, (Nat.digitChar d).isDigit = true := by decide
  rintro rfl
  rw [hdigit _ (Nat.mod_lt _ (by decide))] at h
  cases h

theorem parseIsoDate_dateChars {year month day : Nat} (hy : year < 10 ^ 4) (hm : month < 10 ^ 2)
    (hd : day < 10 ^ 2) : parseIsoDate (dateChars year month day) = some (year, month, day) := by
  have hyear : digitsAt (dateChars year month day) 0 4 = some year := digitsAt_eq rfl hy
  have hmonth : digitsAt (dateChars year month day) 5 2 = some month := digitsAt_eq rfl hm
  have hday : digitsAt (dateChars year month day) 8 2 = some day := digitsAt_eq rfl hd
  have hsep : (dateChars year month day)[4]? = some '-' := rfl
  have hsep' : (dateChars year month day)[7]? = some '-' := rfl
  have hweek : (dateChars year month day)[5]? ≠ some 'W' := by
    have hget : (dateChars year month day)[5]? = some (Nat.digitChar (month / 10 % 10)) := rfl
    rw [hget]
    exact fun h => digitChar_ne (by decide) _ (Option.some.inj h)
  simp [parseIsoDate, hyear, hmonth, hday, hsep, hsep', hweek]

theorem parseFraction_fixedWidth {after : Char} {n : Nat} (h : n < 10 ^ 6) :
    parseFraction after (fixedWidth 6 n) = some (n, after != '\x00') := by
  have hall : (fixedWidth 6 n).all Char.isDigit = true :=
    List.all_eq_true.mpr fun c hc => isDigit_of_mem_fixedWidth hc
  have htake : (fixedWidth 6 n).take 6 = fixedWidth 6 n := List.take_of_length_le (by simp)
  have hdrop : (fixedWidth 6 n).drop 6 = [] := List.drop_of_length_le (by simp)
  simp only [parseFraction, htake, hdrop, hall, ofDigitChars_fixedWidth h, length_fixedWidth]
  simp

/-- One step of the loop, at a field with a colon behind it. -/
theorem parseFields_colon {after : Char} {n field : Nat} {given : Option Bool} {ds : List Char}
    (hgiven : given.getD true = true) (hfield : field < 10 ^ 2) (hds : ds ≠ []) :
    parseFields after (n + 1) given (fixedWidth 2 field ++ ':' :: ds) =
      (parseFields after n (some true) ds).map fun rest => (field :: rest.1, rest.2) := by
  have hdigits : digitsAt (fixedWidth 2 field ++ ':' :: ds) 0 2 = some field :=
    digitsAt_eq rfl hfield
  have hdrop : (fixedWidth 2 field ++ ':' :: ds).drop 2 = ':' :: ds := rfl
  rw [parseFields, hdigits]
  simp [hdrop, hgiven, hds]

/-- And at one with a point behind it. -/
theorem parseFields_point {after : Char} {n field : Nat} {given : Option Bool} {ds : List Char}
    (hfield : field < 10 ^ 2) (hds : ds ≠ []) :
    parseFields after (n + 1) given (fixedWidth 2 field ++ '.' :: ds) =
      (parseFraction after ds).map fun fraction => ([field], fraction) := by
  have hdigits : digitsAt (fixedWidth 2 field ++ '.' :: ds) 0 2 = some field :=
    digitsAt_eq rfl hfield
  have hdrop : (fixedWidth 2 field ++ '.' :: ds).drop 2 = '.' :: ds := rfl
  rw [parseFields, hdigits]
  simp [hdrop, hds]

theorem parseClock_clockChars {after : Char} {hour minute second microsecond : Nat}
    (hh : hour < 10 ^ 2) (hm : minute < 10 ^ 2) (hs : second < 10 ^ 2) (hu : microsecond < 10 ^ 6) :
    parseClock after (clockChars hour minute second microsecond) =
      some ((hour, minute, second, microsecond), after != '\x00') := by
  have hne {c : Char} {n : Nat} {cs : List Char} : fixedWidth 2 n ++ c :: cs ≠ [] := by simp
  have hfraction : fixedWidth 6 microsecond ≠ [] := fun h => by simpa using congrArg List.length h
  rw [parseClock, clockChars, parseFields_colon rfl hh hne, parseFields_colon rfl hm hne,
    parseFields_point hs hfraction, parseFraction_fixedWidth hu]
  rfl

theorem startsOffset_of_isDigit {c : Char} (h : c.isDigit = true) : startsOffset c = false := by
  rw [← Bool.not_eq_true]
  intro hc
  simp only [startsOffset, Bool.or_eq_true, decide_eq_true_eq] at hc
  rcases hc with (rfl | rfl) | rfl <;> exact absurd h (by decide)

theorem not_startsOffset_clockChars {hour minute second microsecond : Nat} :
    ∀ c ∈ clockChars hour minute second microsecond, (!startsOffset c) = true := by
  have hdigits {width n : Nat} {c : Char} (h : c ∈ fixedWidth width n) :
      (!startsOffset c) = true := by
    rw [startsOffset_of_isDigit (isDigit_of_mem_fixedWidth h)]
    rfl
  intro c hc
  simp only [clockChars, List.mem_append, List.mem_cons] at hc
  rcases hc with h | rfl | h | rfl | h | rfl | h
  · exact hdigits h
  · decide
  · exact hdigits h
  · decide
  · exact hdigits h
  · decide
  · exact hdigits h

/-- The offset that `isoformat` gives a UTC value. -/
def utcOffset : List Char := ['+', '0', '0', ':', '0', '0']

theorem parseIsoTime_clockChars {hour minute second microsecond : Nat} (hh : hour < 10 ^ 2)
    (hm : minute < 10 ^ 2) (hs : second < 10 ^ 2) (hu : microsecond < 10 ^ 6) :
    parseIsoTime (clockChars hour minute second microsecond ++ utcOffset) =
      some ((hour, minute, second, microsecond), some 0) := by
  have hall := @not_startsOffset_clockChars hour minute second microsecond
  have hclock : (clockChars hour minute second microsecond ++ utcOffset).takeWhile
      (fun c => !startsOffset c) = clockChars hour minute second microsecond := by
    rw [List.takeWhile_append_of_pos hall]
    exact List.append_nil _
  have hoffset : (clockChars hour minute second microsecond ++ utcOffset).dropWhile
      (fun c => !startsOffset c) = utcOffset := by
    rw [List.dropWhile_append_of_pos hall]
    rfl
  have hutc : parseOffset '+' utcOffset.tail = some 0 := by decide
  rw [parseIsoTime, hclock, hoffset, parseClock_clockChars hh hm hs hu]
  exact congrArg (Option.map fun o => ((hour, minute, second, microsecond), some o)) hutc

theorem findSeparator_chars (t : Datetime) (rest : List Char) :
    findSeparator (t.chars rest) = some 10 := by
  have hlength : (t.chars rest).length ≠ 7 := by
    simp only [Datetime.chars, dateChars, clockChars, List.length_append, List.length_cons,
      length_fixedWidth]
    omega
  have hsep : (t.chars rest)[4]? = some '-' := rfl
  have hweek : (t.chars rest)[5]? ≠ some 'W' := by
    have hget : (t.chars rest)[5]? = some (Nat.digitChar (t.month / 10 % 10)) := rfl
    rw [hget]
    exact fun h => digitChar_ne (by decide) _ (Option.some.inj h)
  rw [findSeparator, if_neg hlength, if_pos hsep, if_neg hweek]

theorem ofFields_self (t : Datetime) : Datetime.ofFields (t.year, t.month, t.day)
    (t.hour, t.minute, t.second, t.microsecond) t.offset = .ok t := by
  unfold Datetime.ofFields
  rw [dif_pos ⟨⟨t.date, t.year_le⟩,
    ⟨t.hour_lt, t.minute_lt, t.second_lt, t.microsecond_lt⟩, t.offset_lt⟩]

/-- **The extended form is read field by field.** -/
theorem fromisoformat_chars {t : Datetime} (h : t.offset = some 0) :
    fromisoformat (String.ofList (t.chars utcOffset)) = .ok t := by
  have hyear : t.year < 10 ^ 4 := Nat.lt_of_le_of_lt t.year_le (by decide)
  have hmonth : t.month < 10 ^ 2 := Nat.lt_of_le_of_lt t.date.month_le (by decide)
  have hhour : t.hour < 10 ^ 2 := Nat.lt_trans t.hour_lt (by decide)
  have hminute : t.minute < 10 ^ 2 := Nat.lt_trans t.minute_lt (by decide)
  have hsecond : t.second < 10 ^ 2 := Nat.lt_trans t.second_lt (by decide)
  have hlength : ¬(t.chars utcOffset).length < 7 := by
    simp only [Datetime.chars, dateChars, clockChars, List.length_append, List.length_cons,
      length_fixedWidth]
    omega
  have hdate : (t.chars utcOffset).take 10 = dateChars t.year t.month t.day := rfl
  have htime : (t.chars utcOffset).drop 11 =
      clockChars t.hour t.minute t.second t.microsecond ++ utcOffset := rfl
  have hne : (t.chars utcOffset).drop 10 ≠ [] := List.cons_ne_nil _ _
  have hfields := ofFields_self t
  rw [h] at hfields
  have hparse : parseIsoformat (t.chars utcOffset) = some ((t.year, t.month, t.day),
      (t.hour, t.minute, t.second, t.microsecond), some 0) := by
    simp only [parseIsoformat, if_neg hlength, findSeparator_chars, Option.bind_eq_bind,
      Option.bind_some, hdate, htime, if_neg hne, parseIsoDate_dateChars hyear hmonth t.day_lt,
      parseIsoTime_clockChars hhour hminute hsecond t.microsecond_lt]
  rw [fromisoformat, String.toList_ofList, hparse]
  exact hfields

/-! ## There and back -/

theorem chars_append (t : Datetime) (rest : List Char) : t.chars rest = t.chars [] ++ rest := by
  simp [Datetime.chars]

theorem ne_Z_of_mem_chars {t : Datetime} {c : Char} (h : c ∈ t.chars []) : c ≠ 'Z' := by
  have hdigits {width n : Nat} (hc : c ∈ fixedWidth width n) : c ≠ 'Z' := by
    rintro rfl
    exact absurd (isDigit_of_mem_fixedWidth hc) (by decide)
  simp only [Datetime.chars, dateChars, clockChars, List.append_nil, List.mem_append,
    List.mem_cons] at h
  rcases h with (h | rfl | h | rfl | h) | rfl | h | rfl | h | rfl | h | rfl | h <;>
    first | exact hdigits h | decide

theorem replaceZ_isoZ {t : Instant} (h : t.InRange) :
    replaceZ (isoZ t) = String.ofList ((Datetime.ofInstant t h).chars utcOffset) := by
  have hkeep : ((Datetime.ofInstant t h).chars []).flatMap
      (fun c => if c = 'Z' then "+00:00".toList else [c]) = (Datetime.ofInstant t h).chars [] := by
    rw [List.flatMap_congr fun c hc => if_neg (ne_Z_of_mem_chars hc), List.flatMap_singleton']
  rw [replaceZ, toList_isoZ h, chars_append, List.flatMap_append, hkeep, chars_append _ utcOffset]
  rfl

theorem astimezone_ofInstant {t : Instant} (h : t.InRange) :
    (Datetime.ofInstant t h).astimezone 0 = .ok (Datetime.ofInstant t h) := by
  have hlocal : ((Datetime.ofInstant t h).localMicros : Int) - 0 = t := by
    rw [Datetime.localMicros_ofInstant h, h.toNat_eq]
    exact Int.sub_zero t
  have hcongr (u : Instant) (hu : u.InRange) (e : u = t) :
      Datetime.ofInstant u hu = Datetime.ofInstant t h := by
    subst e
    rfl
  have hrange : Instant.InRange (((Datetime.ofInstant t h).localMicros : Int) - 0) := by
    rw [hlocal]
    exact h
  exact (dif_pos hrange).trans (congrArg Except.ok (hcongr _ hrange hlocal))

theorem parseIsoZ_of_aware {value : String} {dt : Datetime} {o : Duration}
    (h : fromisoformat (normalized value) = .ok dt) (ho : dt.offset = some o) :
    parseIsoZ value = uncaught (dt.astimezone o) := by
  simp only [parseIsoZ, h, handling, Bind.bind, Except.bind, ho]

/-- **What `iso_z` writes is read back**, in UTC. -/
theorem parseIsoZ_isoZ {t : Instant} (h : t.InRange) :
    parseIsoZ (isoZ t) = .ok (Datetime.ofInstant t h) := by
  have hlast : (isoZ t).toList.getLast? = some 'Z' := by
    rw [toList_isoZ h, chars_append, List.getLast?_concat]
  have hread : fromisoformat (normalized (isoZ t)) = .ok (Datetime.ofInstant t h) := by
    rw [normalized, if_pos hlast, replaceZ_isoZ h]
    exact fromisoformat_chars rfl
  rw [parseIsoZ_of_aware hread rfl, astimezone_ofInstant h]
  rfl

end MessageService.Domain
