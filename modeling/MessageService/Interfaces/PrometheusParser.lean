import MessageService.Domain.Errors
import MessageService.Lib.PyText
import MessageService.Lib.Python

/-!
# The parser of the Prometheus text exposition format

Model of `interfaces/rest/prometheus_parser.py`. A regular expression is the function that takes its
match off the front of a text; each of the three has at most one match at a place, but for the label
block, which is greedy and ends at the last brace behind which a value stands (`labelBlock`).

Finite floats are a type `F` with `FloatText`: what the format writes for one, and what `float`
makes of a text. Whatever else `float` accepts, it reads back the text of a finite float.
-/

namespace MessageService.Interfaces

open MessageService.Domain MessageService.Lib

/-! ## Values -/

/-- A `float`. -/
inductive Value (F : Type) where
  | finite (x : F)
  | inf
  | negInf
  | nan
  deriving DecidableEq

/-- Texts of floats. -/
structure FloatText (F : Type) where
  /-- The text of a finite value. -/
  text : F → String
  /-- `float(s)`, or nothing when it raises `ValueError`. -/
  float : String → Option (Value F)
  float_text : ∀ x, float (text x) = some (.finite x)
  text_ne : ∀ x, text x ≠ ""
  mem_text : ∀ x, ∀ c ∈ (text x).toList, c.isDigit = true ∨ c ∈ ['+', '-', '.', 'e']

/-- `Sample`. -/
structure Sample (F : Type) where
  name : String
  labels : Dict String
  value : Value F

/-- `MetricFamily`. -/
structure MetricFamily (F : Type) where
  name : String
  type : String
  help : String
  samples : List (Sample F)

variable {F : Type} (floats : FloatText F)

/-- `_parse_value`. -/
def parseValue (raw : List Char) : Except PyException (Value F) :=
  let token := String.ofList (strip isSpace raw)
  let lowered := (strip isSpace raw).map Char.toLower
  if lowered = "+inf".toList ∨ lowered = "inf".toList then .ok .inf
  else if lowered = "-inf".toList then .ok .negInf
  else if lowered = "nan".toList then .ok .nan
  else
    match floats.float token with
    | some v => .ok v
    | none => .error {
        className := "ValueError"
        bases := ["Exception", "BaseException", "object"]
        text := "could not convert string to float: " ++ pyRepr token }

/-! ## Labels -/

/-- `_LABEL_ESCAPES`. -/
def labelEscapes : List (Char × Char) := [('\\', '\\'), ('"', '"'), ('n', '\n')]

/-- `_unescape_label_value`. -/
def unescape : List Char → List Char
  | [] => []
  | [c] => [c]
  | c :: d :: cs =>
    if c = '\\' ∧ d ≠ '\n' then
      match labelEscapes.find? fun e => e.1 = d with
      | some e => e.2 :: unescape cs
      | none => c :: d :: unescape cs
    else c :: unescape (d :: cs)

/-- The first character of a label name. -/
def isLabelStart (c : Char) : Bool := c.isAlpha || c = '_'

/-- A further character of a label name. -/
def isLabelChar (c : Char) : Bool := c.isAlphanum || c = '_'

/-- `((?:[^"\\]|\\.)*)"`: the value, and what is behind the quote. -/
def scanValue : List Char → Option (List Char × List Char)
  | [] => none
  | [c] => if c = '"' then some ([], []) else none
  | c :: d :: cs =>
    if c = '"' then some ([], d :: cs)
    else if c = '\\' then
      if d = '\n' then none else (scanValue cs).map fun r => (c :: d :: r.1, r.2)
    else (scanValue (d :: cs)).map fun r => (c :: r.1, r.2)

/-- A match of `_LABEL_RE`: the two groups, and what is behind it. -/
def matchLabel (cs : List Char) : Option ((List Char × List Char) × List Char) :=
  if cs.head?.any isLabelStart then
    match cs.dropWhile isLabelChar with
    | e :: q :: rest =>
      if e = '=' ∧ q = '"' then
        (scanValue rest).map fun r => ((cs.takeWhile isLabelChar, r.1), r.2)
      else none
    | _ => none
  else none

/-- `_LABEL_RE.findall`, with the length of the text as fuel. -/
def findLabels : Nat → List Char → List (List Char × List Char)
  | 0, _ => []
  | _, [] => []
  | n + 1, c :: cs =>
    match matchLabel (c :: cs) with
    | some (pair, rest) => pair :: findLabels n rest
    | none => findLabels n cs

/-- `_parse_labels`. -/
def parseLabels (raw : Option (List Char)) : Dict String :=
  let raw := raw.getD []
  (findLabels raw.length raw).foldl
    (fun d e => d.set (String.ofList e.1) (String.ofList (unescape e.2))) []

/-! ## Sample lines -/

/-- The first character of a metric name. -/
def isNameStart (c : Char) : Bool := isLabelStart c || c = ':'

/-- A further character of a metric name. -/
def isNameChar (c : Char) : Bool := isLabelChar c || c = ':'

/-- `\s+(?P<value>\S+)(?:\s+(?P<timestamp>\S+))?\s*$`: the value. -/
def matchTail (cs : List Char) : Option (List Char) :=
  if cs.head?.any isSpace then
    match splitMax isSpace 2 cs with
    | [value] | [value, _] => some value
    | _ => none
  else none

/-- `(?P<labels>.*)\}` and the tail: the longest block that a tail is behind. -/
def labelBlock : List Char → Option (List Char × List Char)
  | [] => none
  | c :: cs =>
    match if c = '\n' then none else labelBlock cs with
    | some r => some (c :: r.1, r.2)
    | none => if c = '\x7d' then (matchTail cs).map ([], ·) else none

/-- A match of `_SAMPLE_RE`. -/
structure SampleMatch where
  name : List Char
  labels : Option (List Char)
  value : List Char

/-- `_SAMPLE_RE.match`. -/
def matchSample (line : List Char) : Option SampleMatch :=
  if line.head?.any isNameStart then
    let name := line.takeWhile isNameChar
    match line.dropWhile isNameChar with
    | [] => none
    | c :: rest =>
      -- a brace is no space, so the block cannot be left out
      if c = '\x7b' then (labelBlock rest).map fun r => ⟨name, some r.1, r.2⟩
      else (matchTail (c :: rest)).map fun value => ⟨name, none, value⟩
  else none

/-! ## Families -/

/-- `_HISTOGRAM_SUFFIXES`. -/
def histogramSuffixes : List String := ["_bucket", "_sum", "_count"]

/-- `sample_name[:-len(suffix)]`, of a name that ends with the suffix. -/
def baseName (sampleName suffix : String) : Option String :=
  if suffix.toList.isSuffixOf sampleName.toList then
    some (String.ofList (sampleName.toList.take (sampleName.toList.length - suffix.toList.length)))
  else none

/-- `_family_for`. -/
def familyFor (sampleName : String) (types : Dict String) : Option String :=
  if (types.get? sampleName).isSome then some sampleName
  else histogramSuffixes.findSome? fun suffix =>
    (baseName sampleName suffix).filter fun base => types.get? base = some "histogram"

/-- The locals of `parse_exposition`. -/
structure ParseState (F : Type) where
  types : Dict String := []
  helps : Dict String := []
  order : List String := []
  samples : Dict (List (Sample F)) := []

namespace ParseState

variable (st : ParseState F)

/-- `samples.setdefault(name, []).append(sample)`. -/
def addSample (family : String) (sample : Sample F) : Dict (List (Sample F)) :=
  st.samples.set family ((st.samples.get? family).getD [] ++ [sample])

/-- A `# TYPE` line. -/
def declare (name metricType : String) : ParseState F where
  types := st.types.set name metricType
  helps := st.helps
  order := if (st.types.get? name).isSome then st.order else st.order ++ [name]
  samples := if (st.samples.get? name).isSome then st.samples else st.samples.set name []

/-- A comment line. -/
def comment (line : List Char) : ParseState F :=
  match splitMax isSpace 3 line with
  | [_, kind, name, text] =>
    if kind = "HELP".toList then
      { st with helps := st.helps.set (String.ofList name) (String.ofList text) }
    else if kind = "TYPE".toList then st.declare (String.ofList name) (String.ofList text)
    else st
  | _ => st

/-- A sample, in the family it belongs to or in an implicit one. -/
def add (sample : Sample F) : ParseState F :=
  match familyFor sample.name st.types with
  | some family => { st with samples := st.addSample family sample }
  | none =>
    let known := (st.samples.get? sample.name).isSome
    { st with
      order := if known then st.order else st.order ++ [sample.name]
      types := if known || (st.types.get? sample.name).isSome then st.types
        else st.types.set sample.name "untyped"
      samples := st.addSample sample.name sample }

/-- One round of the loop. -/
def step (rawLine : List Char) : Except PyException (ParseState F) :=
  let line := strip isSpace rawLine
  match line with
  | [] => .ok st
  | c :: _ =>
    if c = '#' then .ok (st.comment line)
    else
      match matchSample line with
      | none => .ok st
      | some m => do
        let value ← parseValue floats m.value
        pure (st.add { name := String.ofList m.name, labels := parseLabels m.labels, value })

/-- The family of a name. -/
def family (name : String) : MetricFamily F where
  name := name
  type := (st.types.get? name).getD "untyped"
  help := (st.helps.get? name).getD ""
  samples := (st.samples.get? name).getD []

end ParseState

/-- The loop. -/
def parseLines (st : ParseState F) : List (List Char) → Except PyException (ParseState F)
  | [] => .ok st
  | l :: ls => do
    let st ← st.step floats l
    parseLines st ls

/-- `parse_exposition`. -/
def parseExposition (text : String) : Except PyException (List (MetricFamily F)) := do
  let st ← parseLines floats {} (splitlines text.toList)
  pure (st.order.map st.family)

end MessageService.Interfaces
