import Mathlib.Data.List.Basic

/-!
# Python's `str.format`

`str.format` with named string arguments: a format string is literal text and replacement fields
(`parseFormat`), a field has a name, a conversion and a format spec, which may hold fields of its
own one level down (`build`). What a field finds behind a dot or a bracket is not a string in general:
that part of the interpreter is a `Runtime`.

Results:
* `isSome_formatStr_iff`: whether a string can be formatted depends on the spec only.
* `exists_build_iff`: a format string that succeeds on one choice of arguments succeeds on another,
  with an output all of whose characters are allowed, exactly when its fields `Hold` there.
-/

namespace MessageService.Lib

/-- Every character is allowed. -/
def AllOk (ok : Char → Prop) (cs : List Char) : Prop := ∀ c ∈ cs, ok c

section

variable {ok : Char → Prop} {cs ds : List Char} {c : Char}

theorem AllOk.nil : AllOk ok [] := fun _ h => absurd h List.not_mem_nil

theorem AllOk.cons (hc : ok c) (h : AllOk ok cs) : AllOk ok (c :: cs) :=
  List.forall_mem_cons.mpr ⟨hc, h⟩

theorem AllOk.head (h : AllOk ok (c :: cs)) : ok c := (List.forall_mem_cons.mp h).1

theorem AllOk.tail (h : AllOk ok (c :: cs)) : AllOk ok cs := (List.forall_mem_cons.mp h).2

theorem AllOk.append (h : AllOk ok cs) (h' : AllOk ok ds) : AllOk ok (cs ++ ds) :=
  List.forall_mem_append.mpr ⟨h, h'⟩

theorem AllOk.take (h : AllOk ok cs) (n : Nat) : AllOk ok (cs.take n) :=
  fun d hd => h d (List.mem_of_mem_take hd)

theorem AllOk.replicate (hc : ok c) (n : Nat) : AllOk ok (List.replicate n c) :=
  fun _ hd => (List.eq_of_mem_replicate hd) ▸ hc

end

/-! ## Format strings -/

/-- The braces of a format string. -/
def openBrace : Char := '\x7b'

def closeBrace : Char := '\x7d'

/-- A replacement field. -/
structure FormatField where
  name : List Char
  conversion : Option Char
  spec : List Char
  deriving DecidableEq

/-- A part of a format string. -/
inductive FormatPiece where
  | text (cs : List Char)
  | field (f : FormatField)
  deriving DecidableEq

/-- What ends a run of literal text. -/
inductive TextEnd where
  | done
  /-- A single brace that opens no field. -/
  | single
  /-- A doubled brace; the run ends with one. -/
  | escaped (rest : List Char)
  | field (rest : List Char)

/-- Literal text, up to its end. -/
def scanText : List Char → List Char × TextEnd
  | [] => ([], .done)
  | c :: cs =>
    if c = openBrace ∨ c = closeBrace then
      if cs.head? = some c then ([c], .escaped cs.tail)
      else if c = openBrace ∧ cs ≠ [] then ([], .field cs)
      else ([], .single)
    else (c :: (scanText cs).1, (scanText cs).2)

/-- The name of a field, up to the closing brace, the colon or the exclamation mark that ends it,
which it returns. In brackets these end nothing. -/
def scanName (bracket : Bool) : List Char → Option (List Char × Char × List Char)
  | [] => none
  | c :: cs =>
    if bracket then (scanName (c ≠ ']') cs).map fun r => (c :: r.1, r.2)
    else if c = openBrace then none
    else if c = closeBrace ∨ c = ':' ∨ c = '!' then some ([], c, cs)
    else (scanName (c = '[') cs).map fun r => (c :: r.1, r.2)

/-- A format spec, up to the brace that closes the field; `depth` braces are open in it. -/
def scanSpec (depth : Nat) : List Char → Option (List Char × List Char)
  | [] => none
  | c :: cs =>
    if c = openBrace then (scanSpec (depth + 1) cs).map fun r => (c :: r.1, r.2)
    else if c = closeBrace then
      if depth = 0 then some ([], cs) else (scanSpec (depth - 1) cs).map fun r => (c :: r.1, r.2)
    else (scanSpec depth cs).map fun r => (c :: r.1, r.2)

/-- A conversion; a null character stands for none. -/
def conversionOf (c : Char) : Option Char := if c = Char.ofNat 0 then none else some c

/-- A field, behind its opening brace. -/
def parseField (cs : List Char) : Option (FormatField × List Char) := do
  let (name, c, cs) ← scanName false cs
  let withSpec (conversion : Option Char) (cs : List Char) : Option (FormatField × List Char) :=
    (scanSpec 0 cs).map fun r => (⟨name, conversion, r.1⟩, r.2)
  if c = closeBrace then some (⟨name, none, []⟩, cs)
  else if c = ':' then withSpec none cs
  else
    let conversion ← cs.head?
    let c ← cs.tail.head?
    if c = closeBrace then some (⟨name, conversionOf conversion, []⟩, cs.tail.tail)
    else if c = ':' then withSpec (conversionOf conversion) cs.tail.tail
    else none

/-- The pieces of a format string of at most `n` characters. -/
def parsePieces : Nat → List Char → Option (List FormatPiece)
  | 0, cs => if cs = [] then some [] else none
  | n + 1, cs =>
    match scanText cs with
    | (text, .done) => some [.text text]
    | (_, .single) => none
    | (text, .escaped rest) => (parsePieces n rest).map (.text text :: ·)
    | (text, .field rest) => do
      let (f, rest) ← parseField rest
      (parsePieces n rest).map (.text text :: .field f :: ·)

/-- The pieces of a format string: each turn reads a character at least. -/
def parseFormat (cs : List Char) : Option (List FormatPiece) := parsePieces (cs.length + 1) cs

/-! ## Format specs of strings -/

/-- A format spec for strings; the width is zero where none is given. -/
structure StrSpec where
  fill : Char
  align : Char
  width : Nat
  precision : Option Nat

/-- `PY_SSIZE_T_MAX`. -/
def maxSize : Nat := 9223372036854775807

section

variable (decimal : Char → Option Nat)

/-- `get_integer`: the digits read so far make `n`. -/
def scanInt (n : Nat) : List Char → Option (Nat × List Char)
  | [] => some (n, [])
  | c :: cs =>
    match decimal c with
    | none => some (n, c :: cs)
    | some d => if maxSize < n * 10 + d then none else scanInt (n * 10 + d) cs

/-- An alignment token. -/
def isAlign (c : Char) : Bool := c = '<' || c = '>' || c = '=' || c = '^'

/-- The fill and the alignment of a spec, each if it is there. -/
def scanAlign (spec : List Char) : Option Char × Option Char × List Char :=
  match spec with
  | c :: d :: cs =>
    if isAlign d then (some c, some d, cs)
    else if isAlign c then (none, some c, d :: cs)
    else (none, none, spec)
  | [c] => if isAlign c then (none, some c, []) else (none, none, [c])
  | [] => (none, none, [])

/-- The precision behind a point, if there is one. -/
def scanPrecision (spec : List Char) : Option (Option Nat × List Char) :=
  if spec.head? = some '.' then do
    let (n, rest) ← scanInt decimal 0 spec.tail
    if rest.length = spec.tail.length then none else some (some n, rest)
  else some (none, spec)

/-- The spec as one for strings, for which the alignment behind a sign, a sign, `z`, `#` and a
thousands separator are errors. -/
def parseStrSpec (spec : List Char) : Option StrSpec :=
  let (fill, align, cs) := scanAlign spec
  let zero : Bool := fill = none ∧ cs.head? = some '0'
  if align = some '=' ∨ cs.head?.any (fun c => c ∈ [' ', '+', '-', 'z', '#']) then none
  else
    (scanInt decimal 0 (if zero then cs.tail else cs)).bind fun (width, cs) =>
      if cs.head?.any fun c => c = ',' || c = '_' then none
      else
        (scanPrecision decimal cs).bind fun (precision, cs) =>
          if cs = [] ∨ cs = ['s'] then
            some {
              fill := fill.getD (if zero then '0' else ' ')
              align := align.getD '<'
              width
              precision }
          else none

end

/-- `format_string_internal`: cut to the precision, then filled to the width. -/
def StrSpec.apply (s : StrSpec) (value : List Char) : List Char :=
  let body := (s.precision.map value.take).getD value
  let padding := s.width - body.length
  let left := if s.align = '>' then padding else if s.align = '^' then padding / 2 else 0
  List.replicate left s.fill ++ body ++ List.replicate (padding - left) s.fill

/-! ## Formatting -/

/-- What `str.format` asks of the interpreter: the value of a decimal digit, `repr` and `ascii`, and
what lies behind the dots and brackets of a field that starts at a string. -/
structure Runtime where
  decimal : Char → Option Nat
  repr : List Char → List Char
  ascii : List Char → List Char
  Obj : Type
  /-- The object a path of accessors leads to. -/
  access : List Char → List Char → Option Obj
  convert : Char → Obj → Option (List Char)
  format : Obj → List Char → Option (List Char)

/-- The named arguments. -/
abbrev FormatArgs := List Char → Option (List Char)

/-- The field has a spec with fields of its own. -/
def FormatField.nested (f : FormatField) : Bool := f.spec.contains openBrace

/-- The argument a field starts at, and the accessors behind it. -/
def FormatField.first (f : FormatField) : List Char :=
  f.name.takeWhile fun c => c ≠ '.' ∧ c ≠ '['

def FormatField.accessors (f : FormatField) : List Char :=
  f.name.dropWhile fun c => c ≠ '.' ∧ c ≠ '['

/-- The format spec, its own fields replaced. -/
def FormatField.expanded (expand : List Char → Option (List Char)) (f : FormatField) :
    Option (List Char) :=
  if f.nested then expand f.spec else some f.spec

namespace Runtime

variable (R : Runtime)

/-- `do_conversion` of a string. -/
def convertStr (conversion : Option Char) (value : List Char) : Option (List Char) :=
  match conversion with
  | none => some value
  | some c =>
    if c = 's' then some value
    else if c = 'r' then some (R.repr value)
    else if c = 'a' then some (R.ascii value)
    else none

/-- `format(value, spec)` of a string. -/
def formatStr (value spec : List Char) : Option (List Char) :=
  (parseStrSpec R.decimal spec).map fun s => s.apply value

/-- `output_markup`. An argument that is not there is a `KeyError` or an `IndexError`. -/
def renderField (expand : List Char → Option (List Char)) (args : FormatArgs) (f : FormatField) :
    Option (List Char) := do
  let value ← args f.first
  let spec ← f.expanded expand
  if f.accessors = [] then
    let text ← R.convertStr f.conversion value
    R.formatStr text spec
  else
    let obj ← R.access value f.accessors
    match f.conversion with
    | none => R.format obj spec
    | some c => do
      let text ← R.convert c obj
      R.formatStr text spec

/-- One turn of `do_markup`. -/
def renderPiece (expand : List Char → Option (List Char)) (args : FormatArgs) :
    FormatPiece → Option (List Char)
  | .text cs => some cs
  | .field f => R.renderField expand args f

/-- `build_string`; `depth` levels of fields are left. -/
def build : Nat → FormatArgs → List Char → Option (List Char)
  | 0, _, _ => none
  | depth + 1, args, cs => do
    let pieces ← parseFormat cs
    let texts ← pieces.mapM (R.renderPiece (build depth args) args)
    some texts.flatten

/-- `str.format`. -/
def strFormat (args : FormatArgs) (cs : List Char) : Option (List Char) := R.build 2 args cs

end Runtime

/-! ## The characters of the pieces -/

section

variable {ok : Char → Prop}

theorem AllOk.scanText {cs : List Char} (h : AllOk ok cs) : AllOk ok (scanText cs).1 ∧
    (∀ rest, (Lib.scanText cs).2 = .escaped rest → AllOk ok rest) ∧
      ∀ rest, (Lib.scanText cs).2 = .field rest → AllOk ok rest := by
  induction cs with
  | nil => exact ⟨.nil, nofun, nofun⟩
  | cons c cs ih =>
    unfold Lib.scanText
    split_ifs
    · refine ⟨.cons h.head .nil, ?_, nofun⟩
      rintro _ ⟨⟩
      exact fun d hd => h.tail d (List.mem_of_mem_tail hd)
    · refine ⟨.nil, nofun, ?_⟩
      rintro _ ⟨⟩
      exact h.tail
    · exact ⟨.nil, nofun, nofun⟩
    · exact ⟨.cons h.head (ih h.tail).1, (ih h.tail).2⟩

theorem AllOk.scanName {bracket : Bool} {cs name rest : List Char} {c : Char} (h : AllOk ok cs)
    (hr : scanName bracket cs = some (name, c, rest)) : AllOk ok rest := by
  induction cs generalizing bracket name with
  | nil => cases hr
  | cons d cs ih =>
    unfold Lib.scanName at hr
    split_ifs at hr
    · obtain ⟨⟨_, _, _⟩, hrec, he⟩ := Option.map_eq_some_iff.mp hr
      cases he
      exact ih h.tail hrec
    · obtain ⟨-, hr⟩ := Prod.mk.inj (Option.some.inj hr)
      obtain ⟨-, rfl⟩ := Prod.mk.inj hr
      exact h.tail
    · obtain ⟨⟨_, _, _⟩, hrec, he⟩ := Option.map_eq_some_iff.mp hr
      cases he
      exact ih h.tail hrec

theorem AllOk.scanSpec {depth : Nat} {cs spec rest : List Char} (h : AllOk ok cs)
    (hr : scanSpec depth cs = some (spec, rest)) : AllOk ok spec ∧ AllOk ok rest := by
  induction cs generalizing depth spec with
  | nil => cases hr
  | cons d cs ih =>
    have hstep {n : Nat}
        (hr : (Lib.scanSpec n cs).map (fun r => (d :: r.1, r.2)) = some (spec, rest)) :
        AllOk ok spec ∧ AllOk ok rest := by
      obtain ⟨r, hrec, he⟩ := Option.map_eq_some_iff.mp hr
      cases he
      exact (ih h.tail hrec).imp_left (.cons h.head)
    unfold Lib.scanSpec at hr
    split_ifs at hr
    · exact hstep hr
    · obtain ⟨rfl, rfl⟩ := Prod.mk.inj (Option.some.inj hr)
      exact ⟨.nil, h.tail⟩
    · exact hstep hr
    · exact hstep hr

theorem AllOk.parseField {cs rest : List Char} {f : FormatField} (h : AllOk ok cs)
    (hr : parseField cs = some (f, rest)) : AllOk ok f.spec ∧ AllOk ok rest := by
  have hspec {name ds : List Char} {conversion : Option Char} (hds : AllOk ok ds)
      (hr : (Lib.scanSpec 0 ds).map (fun r => (FormatField.mk name conversion r.1, r.2)) =
        some (f, rest)) : AllOk ok f.spec ∧ AllOk ok rest := by
    obtain ⟨r, hscan, he⟩ := Option.map_eq_some_iff.mp hr
    cases he
    exact hds.scanSpec hscan
  unfold Lib.parseField at hr
  obtain ⟨⟨name, c, ds⟩, hname, hr⟩ := Option.bind_eq_some_iff.mp hr
  have hds := h.scanName hname
  have htail : AllOk ok ds.tail.tail :=
    fun d hd => hds d (List.mem_of_mem_tail (List.mem_of_mem_tail hd))
  dsimp only at hr
  split_ifs at hr
  · cases hr
    exact ⟨.nil, hds⟩
  · exact hspec hds hr
  · obtain ⟨conversion, -, hr⟩ := Option.bind_eq_some_iff.mp hr
    obtain ⟨d, -, hr⟩ := Option.bind_eq_some_iff.mp hr
    split_ifs at hr
    · cases hr
      exact ⟨.nil, htail⟩
    · exact hspec htail hr

/-- Every character of a format string's text and specs is allowed if every one of the string is. -/
def FormatPiece.AllOk (ok : Char → Prop) : FormatPiece → Prop
  | .text cs => Lib.AllOk ok cs
  | .field f => Lib.AllOk ok f.spec

theorem AllOk.parsePieces {n : Nat} {cs : List Char} {ps : List FormatPiece} (h : AllOk ok cs)
    (hr : parsePieces n cs = some ps) : ∀ p ∈ ps, p.AllOk ok := by
  induction n generalizing cs ps with
  | zero =>
    unfold Lib.parsePieces at hr
    split_ifs at hr
    cases hr
    exact fun p hp => absurd hp List.not_mem_nil
  | succ n ih =>
    obtain ⟨htext, hescaped, hfield⟩ := h.scanText
    unfold Lib.parsePieces at hr
    split at hr
    · next text heq =>
      cases hr
      rw [heq] at htext
      exact List.forall_mem_singleton.mpr htext
    · cases hr
    · next text rest heq =>
      rw [heq] at htext hescaped
      obtain ⟨qs, hqs, rfl⟩ := Option.map_eq_some_iff.mp hr
      exact List.forall_mem_cons.mpr ⟨htext, ih (hescaped rest rfl) hqs⟩
    · next text rest heq =>
      rw [heq] at htext hfield
      obtain ⟨⟨f, rest'⟩, hf, hr⟩ := Option.bind_eq_some_iff.mp hr
      obtain ⟨qs, hqs, rfl⟩ := Option.map_eq_some_iff.mp hr
      obtain ⟨hspec, hrest⟩ := (hfield rest rfl).parseField hf
      exact List.forall_mem_cons.mpr ⟨htext, List.forall_mem_cons.mpr ⟨hspec, ih hrest hqs⟩⟩

theorem ok_fill_of_parseStrSpec {decimal : Char → Option Nat} {spec : List Char} {s : StrSpec}
    (hblank : ok ' ') (hzero : ok '0') (h : AllOk ok spec)
    (hs : parseStrSpec decimal spec = some s) : ok s.fill := by
  have hfill : ∀ c, (scanAlign spec).1 = some c → ok c := by
    intro c hc
    unfold scanAlign at hc
    split at hc
    · split_ifs at hc
      obtain rfl := Option.some.inj hc
      exact h.head
    · split_ifs at hc
    · cases hc
  unfold parseStrSpec at hs
  generalize scanAlign spec = r at hs hfill
  obtain ⟨fill, align, cs⟩ := r
  obtain ⟨-, hs⟩ := Option.ite_none_left_eq_some.mp hs
  obtain ⟨⟨width, ds⟩, -, hs⟩ := Option.bind_eq_some_iff.mp hs
  obtain ⟨-, hs⟩ := Option.ite_none_left_eq_some.mp hs
  obtain ⟨⟨precision, es⟩, -, hs⟩ := Option.bind_eq_some_iff.mp hs
  obtain ⟨-, hs⟩ := Option.ite_none_right_eq_some.mp hs
  obtain rfl := Option.some.inj hs
  cases fill with
  | some c => exact hfill c rfl
  | none =>
    dsimp only
    rw [Option.getD_none]
    split_ifs
    · exact hzero
    · exact hblank

theorem StrSpec.allOk_apply {s : StrSpec} {value : List Char} (hfill : ok s.fill)
    (h : AllOk ok value) : AllOk ok (s.apply value) := by
  have hbody : AllOk ok ((s.precision.map value.take).getD value) := by
    cases s.precision with
    | none => exact h
    | some n => exact h.take n
  exact ((AllOk.replicate hfill _).append hbody).append (.replicate hfill _)

end

/-! ## When a format string succeeds -/

namespace Runtime

variable {R : Runtime} {ok : Char → Prop} {args args₀ : FormatArgs}
  {expand expand₀ : List Char → Option (List Char)}

/-- Whether a string can be formatted depends on the spec only. -/
theorem isSome_formatStr (value spec : List Char) :
    (R.formatStr value spec).isSome = (parseStrSpec R.decimal spec).isSome := by
  unfold formatStr
  rw [Option.isSome_map]

/-- The characters of the arguments, of the default fills and of every `repr` are allowed. -/
structure Allows (R : Runtime) (ok : Char → Prop) (args : FormatArgs) : Prop where
  blank : ok ' '
  zero : ok '0'
  arg (name value : List Char) : args name = some value → AllOk ok value
  repr (value : List Char) : AllOk ok value → AllOk ok (R.repr value)
  ascii (value : List Char) : AllOk ok value → AllOk ok (R.ascii value)

/-- What formats the values of `args₀` has an argument in `args` too. -/
def Covers (args₀ args : FormatArgs) : Prop := ∀ name, (args₀ name).isSome → (args name).isSome

theorem Allows.convertStr (h : Allows R ok args) {conversion : Option Char} {value text : List Char}
    (hvalue : AllOk ok value) (ht : R.convertStr conversion value = some text) :
    AllOk ok text := by
  unfold Runtime.convertStr at ht
  split at ht
  · cases ht
    exact hvalue
  · split_ifs at ht
    all_goals obtain rfl := Option.some.inj ht
    · exact hvalue
    · exact h.repr _ hvalue
    · exact h.ascii _ hvalue

theorem isSome_convertStr (conversion : Option Char) (value value' : List Char) :
    (R.convertStr conversion value).isSome = (R.convertStr conversion value').isSome := by
  unfold Runtime.convertStr
  split
  · rfl
  · split_ifs <;> rfl

/-- A field that is an argument itself. -/
theorem renderField_of_plain {f : FormatField} (hf : f.accessors = []) :
    R.renderField expand args f = (args f.first).bind fun value => (f.expanded expand).bind
      fun spec => (R.convertStr f.conversion value).bind fun text => R.formatStr text spec := by
  unfold renderField
  simp only [if_pos hf]
  rfl

/-- A field that is an argument itself succeeds wherever its spec is one for strings. -/
theorem exists_renderField_iff_of_plain (h : Allows R ok args) (hcovers : Covers args₀ args)
    {f : FormatField} (hf : f.accessors = [])
    (hspec : ∀ spec, f.expanded expand = some spec → AllOk ok spec)
    (h₀ : (R.renderField expand₀ args₀ f).isSome) :
    (∃ text, R.renderField expand args f = some text ∧ AllOk ok text) ↔
      ∃ spec, f.expanded expand = some spec ∧ (parseStrSpec R.decimal spec).isSome := by
  rw [renderField_of_plain hf] at h₀ ⊢
  obtain ⟨text₀, h₀⟩ := Option.isSome_iff_exists.mp h₀
  obtain ⟨value₀, hvalue₀, h₀⟩ := Option.bind_eq_some_iff.mp h₀
  obtain ⟨spec₀, -, h₀⟩ := Option.bind_eq_some_iff.mp h₀
  obtain ⟨conv₀, hconv₀, -⟩ := Option.bind_eq_some_iff.mp h₀
  obtain ⟨value, hvalue⟩ := Option.isSome_iff_exists.mp
    (hcovers f.first (Option.isSome_iff_exists.mpr ⟨value₀, hvalue₀⟩))
  obtain ⟨conv, hconv⟩ := Option.isSome_iff_exists.mp
    ((isSome_convertStr f.conversion value value₀).trans
      (Option.isSome_iff_exists.mpr ⟨conv₀, hconv₀⟩))
  simp only [hvalue, Option.bind_some, hconv]
  constructor
  · rintro ⟨text, ht, -⟩
    obtain ⟨spec, hs, ht⟩ := Option.bind_eq_some_iff.mp ht
    refine ⟨spec, hs, ?_⟩
    rw [← isSome_formatStr conv, ht]
    rfl
  · rintro ⟨spec, hs, hvalid⟩
    obtain ⟨s, hparse⟩ := Option.isSome_iff_exists.mp hvalid
    refine ⟨s.apply conv, ?_, StrSpec.allOk_apply ?_ ?_⟩
    · simp [hs, formatStr, hparse]
    · exact ok_fill_of_parseStrSpec h.blank h.zero (hspec spec hs) hparse
    · exact h.convertStr (h.arg _ _ hvalue) hconv

theorem allows_true (args : FormatArgs) : Allows R (fun _ => True) args :=
  ⟨trivial, trivial, fun _ _ _ _ _ => trivial, fun _ _ _ _ => trivial, fun _ _ _ _ => trivial⟩

/-- The spec of a plain field that succeeds is one for strings. -/
theorem valid_of_isSome {f : FormatField} (hf : f.accessors = [])
    (h₀ : (R.renderField expand₀ args₀ f).isSome) :
    ∃ spec, f.expanded expand₀ = some spec ∧ (parseStrSpec R.decimal spec).isSome := by
  obtain ⟨text, ht⟩ := Option.isSome_iff_exists.mp h₀
  exact (exists_renderField_iff_of_plain (allows_true args₀) (fun _ h => h) hf
    (fun _ _ _ _ => trivial) h₀).mp ⟨text, ht, fun _ _ => trivial⟩

theorem exists_mapM_iff {f : FormatPiece → Option (List Char)} {P : List Char → Prop}
    {ps : List FormatPiece} :
    (∃ texts, ps.mapM f = some texts ∧ ∀ t ∈ texts, P t) ↔ ∀ p ∈ ps, ∃ t, f p = some t ∧ P t := by
  induction ps with
  | nil => simp
  | cons p ps ih =>
    rw [List.forall_mem_cons, ← ih]
    simp only [List.mapM_cons, Option.bind_eq_bind, Option.bind_eq_some_iff, Option.pure_def,
      Option.some.injEq]
    constructor
    · rintro ⟨_, ⟨t, ht, texts, htexts, rfl⟩, h⟩
      obtain ⟨hP, h⟩ := List.forall_mem_cons.mp h
      exact ⟨⟨t, ht, hP⟩, texts, htexts, h⟩
    · rintro ⟨⟨t, ht, hP⟩, texts, htexts, h⟩
      exact ⟨_, ⟨t, ht, texts, htexts, rfl⟩, List.forall_mem_cons.mpr ⟨hP, h⟩⟩

/-- A format string succeeds when each piece does. -/
theorem exists_build_iff_of_pieces {depth : Nat} {cs : List Char} {ps : List FormatPiece}
    (hps : parseFormat cs = some ps) :
    (∃ out, R.build (depth + 1) args cs = some out ∧ AllOk ok out) ↔
      ∀ p ∈ ps, ∃ text, R.renderPiece (R.build depth args) args p = some text ∧
        AllOk ok text := by
  rw [← exists_mapM_iff]
  unfold build
  simp only [hps, Option.bind_eq_bind, Option.bind_some, Option.bind_eq_some_iff,
    Option.some.injEq]
  constructor
  · rintro ⟨_, ⟨texts, htexts, rfl⟩, h⟩
    exact ⟨texts, htexts, fun t ht c hc => h c (List.mem_flatten.mpr ⟨t, ht, hc⟩)⟩
  · rintro ⟨texts, htexts, h⟩
    refine ⟨_, ⟨texts, htexts, rfl⟩, fun c hc => ?_⟩
    obtain ⟨t, ht, hc⟩ := List.mem_flatten.mp hc
    exact h t ht c hc

/-- What a format string that succeeds is made of. -/
theorem pieces_of_isSome {depth : Nat} {cs : List Char}
    (h : (R.build (depth + 1) args cs).isSome) : ∃ ps, parseFormat cs = some ps ∧
      ∀ p ∈ ps, (R.renderPiece (R.build depth args) args p).isSome := by
  obtain ⟨out, hout⟩ := Option.isSome_iff_exists.mp h
  obtain ⟨ps, hps, -⟩ := Option.bind_eq_some_iff.mp hout
  refine ⟨ps, hps, fun p hp => ?_⟩
  have hall : ∃ out, R.build (depth + 1) args cs = some out ∧ AllOk (fun _ => True) out :=
    ⟨out, hout, fun _ _ => trivial⟩
  obtain ⟨text, ht, -⟩ := (exists_build_iff_of_pieces hps).mp hall p hp
  exact Option.isSome_iff_exists.mpr ⟨text, ht⟩

end Runtime

/-- Neither the field nor a field of its spec goes on behind its argument. -/
def FormatField.Plain (f : FormatField) : Prop :=
  f.accessors = [] ∧ ∀ ps, parseFormat f.spec = some ps → ∀ g, .field g ∈ ps → g.accessors = []

namespace Runtime

variable {R : Runtime} {ok : Char → Prop} {args args₀ : FormatArgs}

/-- The nested fields of a plain field succeed on any arguments if they do on some. -/
theorem exists_expanded_of_plain (h : Allows R ok args) (hcovers : Covers args₀ args)
    {f : FormatField} (hf : f.Plain) (hspec : AllOk ok f.spec)
    (h₀ : (R.renderField (R.build 1 args₀) args₀ f).isSome) :
    ∃ spec, f.expanded (R.build 1 args) = some spec ∧ AllOk ok spec := by
  obtain ⟨spec₀, hspec₀, -⟩ := valid_of_isSome hf.1 h₀
  unfold FormatField.expanded at hspec₀ ⊢
  split_ifs at hspec₀ ⊢
  · obtain ⟨ps, hps, hall⟩ := pieces_of_isSome (Option.isSome_iff_exists.mpr ⟨spec₀, hspec₀⟩)
    refine (exists_build_iff_of_pieces hps).mpr fun p hp => ?_
    have hp₀ := hall p hp
    have hok := hspec.parsePieces hps p hp
    cases p with
    | text cs => exact ⟨cs, rfl, hok⟩
    | field g =>
      have hg : g.accessors = [] := hf.2 ps hps g hp
      -- a third level of fields is too deep
      obtain ⟨spec, hexpanded, hvalid⟩ := valid_of_isSome hg hp₀
      have hflat : g.nested = false := by
        by_contra hnested
        simp [FormatField.expanded, hnested, build] at hexpanded
      have hexpanded' {args : FormatArgs} : g.expanded (R.build 0 args) = some g.spec := by
        simp [FormatField.expanded, hflat]
      obtain rfl : g.spec = spec := Option.some.inj (hexpanded'.symm.trans hexpanded)
      refine (exists_renderField_iff_of_plain h hcovers hg ?_ hp₀).mpr ⟨_, hexpanded', hvalid⟩
      intro spec hs
      obtain rfl : g.spec = spec := Option.some.inj (hexpanded'.symm.trans hs)
      exact hok
  · exact ⟨f.spec, rfl, hspec⟩

/-- When a field that succeeds on some arguments does on others. A plain one needs that its nested
fields leave a spec for strings; of another one it is what the interpreter makes of it. -/
structure Holds (R : Runtime) (ok : Char → Prop) (args : FormatArgs) (f : FormatField) : Prop where
  spec : f.Plain → f.nested = true → ∀ spec, R.build 1 args f.spec = some spec →
    (parseStrSpec R.decimal spec).isSome
  reached : ¬f.Plain → ∃ text, R.renderField (R.build 1 args) args f = some text ∧ AllOk ok text

/-- **When a format string that succeeds on some arguments does on others.** -/
theorem exists_strFormat_iff (h : Allows R ok args) (hcovers : Covers args₀ args) {cs : List Char}
    (hcs : AllOk ok cs) (h₀ : (R.strFormat args₀ cs).isSome) :
    (∃ out, R.strFormat args cs = some out ∧ AllOk ok out) ↔
      ∀ ps, parseFormat cs = some ps → ∀ f, .field f ∈ ps → R.Holds ok args f := by
  obtain ⟨ps, hps, hall⟩ := pieces_of_isSome h₀
  unfold strFormat
  rw [exists_build_iff_of_pieces hps]
  have hplain {f : FormatField} (hmem : .field f ∈ ps) (hf : f.Plain) :
      (∃ text, R.renderField (R.build 1 args) args f = some text ∧ AllOk ok text) ↔
        (f.nested = true → ∀ spec, R.build 1 args f.spec = some spec →
          (parseStrSpec R.decimal spec).isSome) := by
    have h₀ : (R.renderField (R.build 1 args₀) args₀ f).isSome := hall _ hmem
    obtain ⟨spec, hexpanded, hok⟩ :=
      exists_expanded_of_plain h hcovers hf (hcs.parsePieces hps _ hmem) h₀
    have hspec : ∀ spec', f.expanded (R.build 1 args) = some spec' → AllOk ok spec' := by
      intro spec' hs
      obtain rfl : spec = spec' := Option.some.inj (hexpanded.symm.trans hs)
      exact hok
    rw [exists_renderField_iff_of_plain h hcovers hf.1 hspec h₀]
    cases hnested : f.nested with
    | true =>
      have hbuild : R.build 1 args f.spec = some spec := by
        rw [← hexpanded, FormatField.expanded, if_pos hnested]
      simp [hexpanded, hbuild]
    | false =>
      obtain ⟨spec₀, hspec₀, hvalid⟩ := valid_of_isSome hf.1 h₀
      unfold FormatField.expanded at hspec₀ ⊢
      rw [if_neg (by simp [hnested])] at hspec₀ ⊢
      exact iff_of_true ⟨spec₀, hspec₀, hvalid⟩ nofun
  constructor
  · intro hpieces ps' hps' f hmem
    obtain rfl : ps = ps' := Option.some.inj (hps.symm.trans hps')
    have hf := hpieces _ hmem
    exact ⟨fun hplainf => (hplain hmem hplainf).mp hf, fun _ => hf⟩
  · intro hholds p hmem
    cases p with
    | text text => exact ⟨text, rfl, hcs.parsePieces hps _ hmem⟩
    | field f =>
      have hf := hholds ps hps f hmem
      by_cases hplainf : f.Plain
      · exact (hplain hmem hplainf).mpr (hf.spec hplainf)
      · exact hf.reached hplainf

end Runtime

end MessageService.Lib
