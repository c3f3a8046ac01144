import MessageService.Interfaces.PrometheusParser

/-!
# The lines of an exposition

The text exposition format as it is written (`Exposition.text`): for each family its `# HELP` and
`# TYPE` lines, then a line for each sample, every line ended by a line feed. A label value escapes
the backslash, the double quote and the line feed, and nothing else.

* `step_sampleText`: a sample line that stands on one line adds its sample.
* `step_typeLine`, `step_helpLine`: a `# TYPE` line declares its family, a `# HELP` line changes the
  help texts at most.
-/

namespace MessageService.Interfaces

open MessageService.Domain MessageService.Lib

/-! ## Writing -/

variable {F : Type}

/-- A metric name. -/
def IsName (name : String) : Prop :=
  name.toList.head?.any isNameStart = true ∧ name.toList.all isNameChar = true

/-- A label name. -/
def IsLabelName (name : String) : Prop :=
  name.toList.head?.any isLabelStart = true ∧ name.toList.all isLabelChar = true

instance (name : String) : Decidable (IsName name) := inferInstanceAs (Decidable (_ ∧ _))

instance (name : String) : Decidable (IsLabelName name) := inferInstanceAs (Decidable (_ ∧ _))

/-- A character of a label value. -/
def escapeLabel (c : Char) : List Char :=
  if c = '\\' then ['\\', '\\'] else if c = '\n' then ['\\', 'n']
  else if c = '"' then ['\\', '"'] else [c]

/-- A character of a help text. -/
def escapeHelp (c : Char) : List Char :=
  if c = '\\' then ['\\', '\\'] else if c = '\n' then ['\\', 'n'] else [c]

/-- A label pair. -/
def labelText (l : String × String) : List Char :=
  l.1.toList ++ '=' :: '"' :: (l.2.toList.flatMap escapeLabel ++ ['"'])

/-- The label pairs, between the braces. -/
def labelsText : Dict String → List Char
  | [] => []
  | [l] => labelText l
  | l :: m :: ls => labelText l ++ ',' :: labelsText (m :: ls)

section

variable (floats : FloatText F)

/-- A value. -/
def valueText : Value F → List Char
  | .finite x => (floats.text x).toList
  | .inf => ['+', 'I', 'n', 'f']
  | .negInf => ['-', 'I', 'n', 'f']
  | .nan => ['N', 'a', 'N']

/-- The line of a sample. -/
def sampleText (s : Sample F) : List Char :=
  s.name.toList ++ ((if s.labels = [] then [] else '\x7b' :: (labelsText s.labels ++ ['\x7d'])) ++
    ' ' :: valueText floats s.value)

end

/-- `# HELP name help`. -/
def helpLine (f : MetricFamily F) : List Char :=
  ['#', ' ', 'H', 'E', 'L', 'P', ' '] ++ (f.name.toList ++ ' ' :: f.help.toList.flatMap escapeHelp)

/-- `# TYPE name type`. -/
def typeLine (f : MetricFamily F) : List Char :=
  ['#', ' ', 'T', 'Y', 'P', 'E', ' '] ++ (f.name.toList ++ ' ' :: f.type.toList)

/-- The types of the format. -/
def metricTypes : List String := ["counter", "gauge", "histogram", "summary", "untyped"]

/-- A sample belongs to the family `f`, and to no other one of the families. -/
def Belongs (families : List (MetricFamily F)) (f : MetricFamily F) (name : String) : Prop :=
  name = f.name ∨ f.type = "histogram" ∧ name ∉ families.map MetricFamily.name ∧
    ∃ suffix ∈ histogramSuffixes, name = f.name ++ suffix

/-- What can be exposed. The help texts are written in the code, on one line each. -/
structure Exposition (F : Type) where
  families : List (MetricFamily F)
  distinct : (families.map MetricFamily.name).Nodup
  names : ∀ f ∈ families, IsName f.name
  types : ∀ f ∈ families, f.type ∈ metricTypes
  helps : ∀ f ∈ families, ∀ c ∈ f.help.toList, isLineBoundary c = true → c = '\n'
  samples : ∀ f ∈ families, ∀ s ∈ f.samples, Belongs families f s.name
  labels : ∀ f ∈ families, ∀ s ∈ f.samples, (s.labels.map Prod.fst).Nodup
  labelNames : ∀ f ∈ families, ∀ s ∈ f.samples, ∀ l ∈ s.labels, IsLabelName l.1

/-- The lines of a family. -/
def familyLines (floats : FloatText F) (f : MetricFamily F) : List (List Char) :=
  helpLine f :: typeLine f :: f.samples.map (sampleText floats)

/-- The text of an exposition. -/
def Exposition.text (floats : FloatText F) (e : Exposition F) : String :=
  String.ofList ((e.families.flatMap (familyLines floats)).flatMap fun l => l ++ ['\n'])

/-! ## Characters -/

theorem toNat_of_isLabelChar {c : Char} (h : isLabelChar c = true) :
    48 ≤ c.toNat ∧ c.toNat ≤ 122 := by
  have hranges : isLabelChar c = ((decide (c.val ≥ 'A'.val ∧ c.val ≤ 'Z'.val) ||
      (decide (c.val ≥ 'a'.val) && decide (c.val ≤ 'z'.val)) ||
      (decide (c.val ≥ '0'.val) && decide (c.val ≤ '9'.val))) || decide (c = '_')) := rfl
  simp only [hranges, Bool.or_eq_true, Bool.and_eq_true, decide_eq_true_eq,
    UInt32.le_iff_toNat_le, ge_iff_le] at h
  have hA : 'A'.val.toNat = 65 := rfl
  have hZ : 'Z'.val.toNat = 90 := rfl
  have ha : 'a'.val.toNat = 97 := rfl
  have hz : 'z'.val.toNat = 122 := rfl
  have h0 : '0'.val.toNat = 48 := rfl
  have h9 : '9'.val.toNat = 57 := rfl
  have hnat : c.toNat = c.val.toNat := rfl
  rw [hnat]
  rcases h with ((h | h) | h) | rfl
  · exact ⟨by omega, by omega⟩
  · exact ⟨by omega, by omega⟩
  · exact ⟨by omega, by omega⟩
  · decide

/-- Characters of names. -/
theorem toNat_of_isNameChar {c : Char} (h : isNameChar c = true) :
    48 ≤ c.toNat ∧ c.toNat ≤ 122 := by
  rw [isNameChar, Bool.or_eq_true, decide_eq_true_eq] at h
  rcases h with h | rfl
  · exact toNat_of_isLabelChar h
  · decide

/-- Characters of finite values. -/
theorem toNat_of_number {c : Char} (h : c.isDigit = true ∨ c ∈ ['+', '-', '.', 'e']) :
    c.toLower ≠ 'n' ∧ 43 ≤ c.toNat ∧ c.toNat ≤ 101 := by
  have h0 : '0'.val.toNat = 48 := rfl
  have h9 : '9'.val.toNat = 57 := rfl
  have hnat : c.toNat = c.val.toNat := rfl
  rcases h with h | h
  · simp only [Char.isDigit, Bool.and_eq_true, decide_eq_true_eq, UInt32.le_iff_toNat_le,
      ge_iff_le] at h
    refine ⟨?_, by omega, by omega⟩
    unfold Char.toLower
    split
    · next hupper =>
      have hA : 'A'.val.toNat = 65 := rfl
      simp only [UInt32.le_iff_toNat_le, ge_iff_le] at hupper
      omega
    · rintro rfl
      revert h
      decide
  · simp only [List.mem_cons, List.not_mem_nil, or_false] at h
    rcases h with rfl | rfl | rfl | rfl <;> decide

theorem isSpace_space : isSpace ' ' = true := rfl

theorem breaks_space (cs : List Char) : Breaks isSpace (' ' :: cs) := by
  rintro c ⟨⟩
  exact isSpace_space

/-- No character between `+` and `z` is a space or ends a line. -/
theorem not_space_of_toNat {c : Char} (h : 43 ≤ c.toNat ∧ c.toNat ≤ 122) :
    isSpace c = false ∧ isLineBoundary c = false := by
  constructor
  · simp [isSpace]
    omega
  · simp [isLineBoundary]
    omega

/-! ## Values -/

section

variable (floats : FloatText F)

theorem toNat_of_mem_valueText {v : Value F} {c : Char} (h : c ∈ valueText floats v) :
    43 ≤ c.toNat ∧ c.toNat ≤ 122 := by
  cases v with
  | finite x =>
    have := toNat_of_number (floats.mem_text x c h)
    exact ⟨this.2.1, by omega⟩
  | inf | negInf | nan =>
    simp only [valueText, List.mem_cons, List.not_mem_nil, or_false] at h
    rcases h with rfl | rfl | rfl | rfl <;> decide

theorem valueText_ne_nil (v : Value F) : valueText floats v ≠ [] := by
  cases v with
  | finite x => exact fun h => floats.text_ne x (String.toList_eq_nil_iff.mp h)
  | inf | negInf | nan => exact List.cons_ne_nil _ _

/-- **Values are read back**, not-a-number and the infinities among them. -/
theorem parseValue_valueText (v : Value F) : parseValue floats (valueText floats v) = .ok v := by
  have hstrip : strip isSpace (valueText floats v) = valueText floats v :=
    strip_of_not_space fun c hc => (not_space_of_toNat (toNat_of_mem_valueText floats hc)).1
  unfold parseValue
  rw [hstrip]
  cases v with
  | finite x =>
    -- each of the special words has an `n` in it
    have hn : 'n' ∉ (floats.text x).toList.map Char.toLower := by
      intro h
      obtain ⟨c, hc, hlower⟩ := List.mem_map.mp h
      exact (toNat_of_number (floats.mem_text x c hc)).1 hlower
    have hne (w : List Char) (hw : 'n' ∈ w) : (floats.text x).toList.map Char.toLower ≠ w :=
      fun e => hn (e ▸ hw)
    have hinf := hne "inf".toList (by decide)
    have hplus := hne "+inf".toList (by decide)
    have hminus := hne "-inf".toList (by decide)
    have hnan := hne "nan".toList (by decide)
    simp only [valueText, hinf, hplus, hminus, hnan, or_self, if_false, String.ofList_toList,
      floats.float_text]
  | inf => rfl
  | negInf => rfl
  | nan => rfl

theorem matchTail_valueText (v : Value F) :
    matchTail (' ' :: valueText floats v) = some (valueText floats v) := by
  have hsplit : splitMax isSpace 2 (' ' :: valueText floats v) = [valueText floats v] := by
    rw [splitMax_space isSpace_space]
    exact splitMax_last (valueText_ne_nil floats v)
      (fun c hc => (not_space_of_toNat (toNat_of_mem_valueText floats hc)).1) 2
  have hspace : (' ' :: valueText floats v).head?.any isSpace = true :=
    isSpace_space
  rw [matchTail, if_pos hspace, hsplit]

end

/-! ## Labels -/

theorem unescape_cons {c : Char} (hc : c ≠ '\\') (cs : List Char) :
    unescape (c :: cs) = c :: unescape cs := by
  cases cs with
  | nil => rfl
  | cons d cs => rw [unescape, if_neg (fun h => hc h.1)]

/-- **Unescaping** undoes escaping, each escape on its own. -/
theorem unescape_escape (v : List Char) : unescape (v.flatMap escapeLabel) = v := by
  induction v with
  | nil => rfl
  | cons c v ih =>
    rw [List.flatMap_cons, escapeLabel]
    split_ifs with hbackslash hfeed hquote
    · subst hbackslash
      exact congrArg ('\\' :: ·) ih
    · subst hfeed
      exact congrArg ('\n' :: ·) ih
    · subst hquote
      exact congrArg ('"' :: ·) ih
    · rw [List.singleton_append, unescape_cons hbackslash, ih]

theorem scanValue_cons {c : Char} (hq : c ≠ '"') (hc : c ≠ '\\') (cs : List Char) :
    scanValue (c :: cs) = (scanValue cs).map fun r => (c :: r.1, r.2) := by
  cases cs with
  | nil => simp only [scanValue, if_neg hq, Option.map_none]
  | cons d cs => rw [scanValue, if_neg hq, if_neg hc]

/-- **A value is scanned** up to the quote behind it, whatever follows. -/
theorem scanValue_escape (v rest : List Char) :
    scanValue (v.flatMap escapeLabel ++ '"' :: rest) = some (v.flatMap escapeLabel, rest) := by
  induction v with
  | nil => cases rest <;> rfl
  | cons c v ih =>
    have hescape (d : Char) (hd : d ≠ '\n') :
        scanValue ('\\' :: d :: (v.flatMap escapeLabel ++ '"' :: rest)) =
          some ('\\' :: d :: v.flatMap escapeLabel, rest) := by
      rw [scanValue, if_neg (by decide), if_pos rfl, if_neg hd, ih]
      rfl
    rw [List.flatMap_cons, escapeLabel]
    split_ifs with hbackslash hfeed hquote
    · exact hescape '\\' (by decide)
    · exact hescape 'n' (by decide)
    · exact hescape '"' (by decide)
    · rw [List.singleton_append, List.cons_append, scanValue_cons hquote hbackslash, ih]
      rfl

/-- A name that ends where its text does not go on. -/
theorem takeWhile_name {p : Char → Bool} {name : List Char} (h : name.all p = true) {c : Char}
    (hc : p c = false) (rest : List Char) :
    (name ++ c :: rest).takeWhile p = name ∧ (name ++ c :: rest).dropWhile p = c :: rest := by
  have hname : ∀ d ∈ name, p d = true := List.all_eq_true.mp h
  rw [List.takeWhile_append_of_pos hname, List.dropWhile_append_of_pos hname,
    List.takeWhile_cons_of_neg (by simp [hc]), List.dropWhile_cons_of_neg (by simp [hc]),
    List.append_nil]
  exact ⟨rfl, rfl⟩

theorem head?_append_of_any {p : Char → Bool} {name : List Char} (h : name.head?.any p = true)
    (rest : List Char) : (name ++ rest).head?.any p = true := by
  cases name with
  | nil => cases h
  | cons c name => exact h

/-- **A label pair** matches up to its closing quote. -/
theorem matchLabel_labelText {l : String × String} (h : IsLabelName l.1) (rest : List Char) :
    matchLabel (labelText l ++ rest) =
      some ((l.1.toList, l.2.toList.flatMap escapeLabel), rest) := by
  have hvalue := scanValue_escape l.2.toList rest
  obtain ⟨htake, hdrop⟩ := takeWhile_name h.2 (show isLabelChar '=' = false by decide)
    ('"' :: (l.2.toList.flatMap escapeLabel ++ '"' :: rest))
  have htext : labelText l ++ rest =
      l.1.toList ++ '=' :: '"' :: (l.2.toList.flatMap escapeLabel ++ '"' :: rest) := by
    simp [labelText]
  rw [htext, matchLabel, if_pos (head?_append_of_any h.1 _), hdrop, htake]
  simp only [and_self, if_true, hvalue, Option.map_some]

theorem labelText_ne_nil (l : String × String) : labelText l ≠ [] := by
  simp [labelText]

theorem findLabels_match {cs rest : List Char} {pair : List Char × List Char}
    (h : matchLabel cs = some (pair, rest)) (n : Nat) :
    findLabels (n + 1) cs = pair :: findLabels n rest := by
  cases cs with
  | nil => cases h
  | cons c cs => rw [findLabels, h]

theorem findLabels_skip {c : Char} (hc : isLabelStart c = false) (n : Nat) (cs : List Char) :
    findLabels (n + 1) (c :: cs) = findLabels n cs := by
  have hmatch : matchLabel (c :: cs) = none := if_neg (by simp [hc])
  rw [findLabels, hmatch]

/-- **The label pairs are found**, in order. -/
theorem findLabels_labelsText {ls : Dict String} (h : ∀ l ∈ ls, IsLabelName l.1) {n : Nat}
    (hn : (labelsText ls).length ≤ n) :
    findLabels n (labelsText ls) =
      ls.map fun l => (l.1.toList, l.2.toList.flatMap escapeLabel) := by
  induction ls generalizing n with
  | nil => cases n <;> rfl
  | cons l ls ih =>
    obtain ⟨hl, hls⟩ := List.forall_mem_cons.mp h
    have hpos : 0 < (labelText l).length := List.length_pos_of_ne_nil (labelText_ne_nil l)
    cases ls with
    | nil =>
      have hmatch := matchLabel_labelText hl []
      rw [List.append_nil] at hmatch
      rw [labelsText] at hn
      obtain ⟨n, rfl⟩ : ∃ k, n = k + 1 := ⟨n - 1, by omega⟩
      rw [labelsText, findLabels_match hmatch]
      cases n <;> rfl
    | cons m ls =>
      rw [labelsText, List.length_append, List.length_cons] at hn
      obtain ⟨n, rfl⟩ : ∃ k, n = k + 2 := ⟨n - 2, by omega⟩
      rw [labelsText, findLabels_match (matchLabel_labelText hl _),
        -- the comma begins no pair
        findLabels_skip (by decide), ih hls (by omega)]
      rfl

/-- **A label block is read back.** -/
theorem parseLabels_labelsText {ls : Dict String} (h : ∀ l ∈ ls, IsLabelName l.1)
    (hn : (ls.map Prod.fst).Nodup) : parseLabels (some (labelsText ls)) = ls := by
  have hset : ls.foldl (fun (d : Dict String) e => d.set e.1 e.2) [] = ls :=
    @Dict.merge_of_nodup _ [] ls hn
  simp only [parseLabels, Option.getD_some, findLabels_labelsText h le_rfl, List.foldl_map,
    String.ofList_toList, unescape_escape, hset]

/-! ## Sample lines -/

/-- No label value has a line boundary in it, but for line feeds. -/
def OneLine (s : Sample F) : Prop :=
  ∀ l ∈ s.labels, ∀ c ∈ l.2.toList, isLineBoundary c = true → c = '\n'

/-- Escaping leaves line boundaries alone, but for the line feed. -/
theorem not_boundary_of_escapeLabel {c d : Char} (hc : isLineBoundary c = true → c = '\n')
    (hd : d ∈ escapeLabel c) : isLineBoundary d = false := by
  unfold escapeLabel at hd
  split_ifs at hd with hbackslash hfeed hquote
  · simp only [List.mem_cons, List.not_mem_nil, or_false, or_self] at hd
    subst hd
    decide
  · simp only [List.mem_cons, List.not_mem_nil, or_false] at hd
    rcases hd with rfl | rfl <;> decide
  · simp only [List.mem_cons, List.not_mem_nil, or_false] at hd
    rcases hd with rfl | rfl <;> decide
  · rw [List.mem_singleton.mp hd]
    exact Bool.eq_false_iff.mpr fun h => hfeed (hc h)

theorem not_boundary_of_escapeHelp {c d : Char} (hc : isLineBoundary c = true → c = '\n')
    (hd : d ∈ escapeHelp c) : isLineBoundary d = false := by
  unfold escapeHelp at hd
  split_ifs at hd with hbackslash hfeed
  · simp only [List.mem_cons, List.not_mem_nil, or_false, or_self] at hd
    subst hd
    decide
  · simp only [List.mem_cons, List.not_mem_nil, or_false] at hd
    rcases hd with rfl | rfl <;> decide
  · rw [List.mem_singleton.mp hd]
    exact Bool.eq_false_iff.mpr fun h => hfeed (hc h)

theorem mem_labelText {l : String × String} {c : Char} (hc : c ∈ labelText l) :
    c ∈ l.1.toList ∨ c ∈ ['=', '"'] ∨ c ∈ l.2.toList.flatMap escapeLabel := by
  simp only [labelText, List.mem_append, List.mem_cons, List.not_mem_nil, or_false] at hc ⊢
  tauto

theorem mem_labelsText {ls : Dict String} {c : Char} (hc : c ∈ labelsText ls) :
    c = ',' ∨ ∃ l ∈ ls, c ∈ labelText l := by
  induction ls with
  | nil => cases hc
  | cons l ls ih =>
    cases ls with
    | nil => exact .inr ⟨l, List.mem_cons_self, hc⟩
    | cons m ls =>
      rw [labelsText, List.mem_append, List.mem_cons] at hc
      rcases hc with hc | hc | hc
      · exact .inr ⟨l, List.mem_cons_self, hc⟩
      · exact .inl hc
      · obtain hc | ⟨k, hk, hc⟩ := ih hc
        · exact .inl hc
        · exact .inr ⟨k, List.mem_cons_of_mem _ hk, hc⟩

/-- **A label block is on one line**, if its values are. -/
theorem not_boundary_labelsText {s : Sample F} (hlabels : ∀ l ∈ s.labels, IsLabelName l.1)
    (hs : OneLine s) {c : Char} (hc : c ∈ labelsText s.labels) : isLineBoundary c = false := by
  obtain rfl | ⟨l, hl, hc⟩ := mem_labelsText hc
  · decide
  obtain hc | hc | hc := mem_labelText hc
  · have := toNat_of_isLabelChar (List.all_eq_true.mp (hlabels l hl).2 c hc)
    exact (not_space_of_toNat (by omega)).2
  · simp only [List.mem_cons, List.not_mem_nil, or_false] at hc
    rcases hc with rfl | rfl <;> decide
  · obtain ⟨d, hd, hc⟩ := List.mem_flatMap.mp hc
    exact not_boundary_of_escapeLabel (hs l hl d hd) hc

theorem labelBlock_none {cs : List Char} (h : '\x7d' ∉ cs) : labelBlock cs = none := by
  induction cs with
  | nil => rfl
  | cons c cs ih =>
    obtain ⟨hc, hcs⟩ := not_or.mp (mt List.mem_cons.mpr h)
    rw [labelBlock, ih hcs, ite_self]
    exact if_neg (Ne.symm hc)

/-- **The block ends at the last brace**, whatever braces the label values have in them. -/
theorem labelBlock_append {block tail value : List Char} (hblock : '\n' ∉ block)
    (htail : '\x7d' ∉ tail) (hvalue : matchTail tail = some value) :
    labelBlock (block ++ '\x7d' :: tail) = some (block, value) := by
  induction block with
  | nil =>
    rw [List.nil_append, labelBlock, labelBlock_none htail, ite_self]
    simp only [if_true, hvalue, Option.map_some]
  | cons c block ih =>
    obtain ⟨hc, hblock⟩ := not_or.mp (mt List.mem_cons.mpr hblock)
    rw [List.cons_append, labelBlock, if_neg (Ne.symm hc), ih hblock]

section

variable (floats : FloatText F)

/-- **A sample line is matched** as it was written. -/
theorem matchSample_sampleText {s : Sample F} (hname : IsName s.name)
    (hlabels : ∀ l ∈ s.labels, IsLabelName l.1) (hs : OneLine s) :
    matchSample (sampleText floats s) =
      some {
        name := s.name.toList
        labels := if s.labels = [] then none else some (labelsText s.labels)
        value := valueText floats s.value } := by
  have hvalue := matchTail_valueText floats s.value
  have hblock : '\n' ∉ labelsText s.labels := fun h =>
    absurd (not_boundary_labelsText hlabels hs h) (by decide)
  have hbrace : '\x7d' ∉ ' ' :: valueText floats s.value := by
    rw [List.mem_cons, not_or]
    refine ⟨by decide, fun h => ?_⟩
    have := (toNat_of_mem_valueText floats h).2
    exact absurd this (by decide)
  rw [matchSample, if_pos (by exact head?_append_of_any hname.1 _)]
  by_cases hempty : s.labels = []
  · obtain ⟨htake, hdrop⟩ := takeWhile_name hname.2 (show isNameChar ' ' = false by decide)
      (valueText floats s.value)
    have htext : sampleText floats s = s.name.toList ++ ' ' :: valueText floats s.value := by
      simp [sampleText, hempty]
    rw [htext, hdrop, htake]
    simp only [hvalue, hempty, if_true, Option.map_some]
    rfl
  · obtain ⟨htake, hdrop⟩ := takeWhile_name hname.2 (show isNameChar '\x7b' = false by decide)
      (labelsText s.labels ++ '\x7d' :: ' ' :: valueText floats s.value)
    have htext : sampleText floats s = s.name.toList ++ '\x7b' ::
        (labelsText s.labels ++ '\x7d' :: ' ' :: valueText floats s.value) := by
      simp [sampleText, hempty]
    rw [htext, hdrop, htake]
    simp only [labelBlock_append hblock hbrace hvalue, if_true, if_neg hempty, Option.map_some]

theorem sampleText_ne_nil (s : Sample F) : sampleText floats s ≠ [] := by
  simp [sampleText]

/-- The name at the front of a line is no space and no `#`. -/
theorem head?_sampleText {s : Sample F} (hname : IsName s.name) :
    ∃ c cs, sampleText floats s = c :: cs ∧ isSpace c = false ∧ c ≠ '#' := by
  obtain ⟨c, cs, hcs⟩ := List.exists_cons_of_ne_nil
    (show s.name.toList ≠ [] from fun h => by have := hname.1; rw [h] at this; cases this)
  have hc := toNat_of_isNameChar (List.all_eq_true.mp hname.2 c (hcs ▸ List.mem_cons_self))
  refine ⟨c, _, by rw [sampleText, hcs]; rfl, (not_space_of_toNat (by omega)).1, ?_⟩
  rintro rfl
  exact absurd hc.1 (by decide)

theorem strip_sampleText {s : Sample F} (hname : IsName s.name) :
    strip isSpace (sampleText floats s) = sampleText floats s := by
  obtain ⟨c, cs, hcs, hc, -⟩ := head?_sampleText floats hname
  refine strip_of_ends (sampleText_ne_nil floats s) ?_ fun d hd => ?_
  · rw [hcs]
    rintro d ⟨⟩
    exact hc
  · have hlast : (sampleText floats s).getLast? = (valueText floats s.value).getLast? := by
      simp only [sampleText]
      rw [← List.append_assoc, List.getLast?_append_of_ne_nil _ (List.cons_ne_nil _ _),
        ← List.singleton_append,
        List.getLast?_append_of_ne_nil _ (valueText_ne_nil floats s.value)]
    rw [hlast] at hd
    have := toNat_of_mem_valueText floats (List.mem_of_getLast? hd)
    exact (not_space_of_toNat (by omega)).1

/-- **A sample line adds its sample**: name, labels and value as they were written. -/
theorem step_sampleText (st : ParseState F) {s : Sample F} (hname : IsName s.name)
    (hlabels : ∀ l ∈ s.labels, IsLabelName l.1) (hnodup : (s.labels.map Prod.fst).Nodup)
    (hs : OneLine s) : st.step floats (sampleText floats s) = .ok (st.add s) := by
  have hparse : parseLabels (if s.labels = [] then none else some (labelsText s.labels)) =
      s.labels := by
    split_ifs with hempty
    · rw [hempty]
      rfl
    · exact parseLabels_labelsText hlabels hnodup
  obtain ⟨c, cs, hcs, -, hc⟩ := head?_sampleText floats hname
  have hmatch := matchSample_sampleText floats hname hlabels hs
  rw [ParseState.step, strip_sampleText floats hname]
  rw [hcs] at hmatch ⊢
  simp only [if_neg hc, hmatch, hparse, parseValue_valueText, String.ofList_toList]
  rfl

end

/-! ## Comment lines -/

theorem metricTypes_word {t : String} (h : t ∈ metricTypes) :
    t.toList ≠ [] ∧ ∀ c ∈ t.toList, isSpace c = false ∧ isLineBoundary c = false := by
  have hall : ∀ t ∈ metricTypes, t.toList ≠ [] ∧ t.toList.any isSpace = false ∧
      t.toList.any isLineBoundary = false := by decide
  obtain ⟨hne, hspace, hboundary⟩ := hall t h
  exact ⟨hne, fun c hc => ⟨forall_of_any hspace c hc, forall_of_any hboundary c hc⟩⟩

/-- The words of a comment line, and what is left behind the third. -/
theorem splitMax_comment {kind name rest : List Char} (hkind : kind ≠ [])
    (hkindWord : ∀ c ∈ kind, isSpace c = false) (hname : name ≠ [])
    (hnameWord : ∀ c ∈ name, isSpace c = false) (hrest : Breaks isSpace rest) :
    splitMax isSpace 3 ('#' :: ' ' :: (kind ++ ' ' :: (name ++ rest))) =
      ['#'] :: kind :: name :: splitMax isSpace 0 rest := by
  have hmark : ∀ c ∈ ['#'], isSpace c = false := forall_of_any rfl
  have hfirst := splitMax_word (List.cons_ne_nil '#' []) hmark
    (breaks_space (kind ++ ' ' :: (name ++ rest))) 2
  rw [List.singleton_append] at hfirst
  rw [hfirst, splitMax_space isSpace_space, splitMax_word hkind hkindWord (breaks_space _),
    splitMax_space isSpace_space, splitMax_word hname hnameWord hrest]

theorem IsName.ne_nil {name : String} (h : IsName name) : name.toList ≠ [] := by
  intro hnil
  have hhead := h.1
  rw [hnil] at hhead
  cases hhead

theorem IsName.not_space {name : String} (h : IsName name) {c : Char} (hc : c ∈ name.toList) :
    isSpace c = false ∧ isLineBoundary c = false := by
  have := toNat_of_isNameChar (List.all_eq_true.mp h.2 c hc)
  exact not_space_of_toNat (by omega)

section

variable (floats : FloatText F) (st : ParseState F)

/-- **A `# TYPE` line** declares its family. -/
theorem step_typeLine {f : MetricFamily F} (hname : IsName f.name) (htype : f.type ∈ metricTypes) :
    st.step floats (typeLine f) = .ok (st.declare f.name f.type) := by
  obtain ⟨hne, hword⟩ := metricTypes_word htype
  have hline : typeLine f =
      '#' :: ' ' :: (['T', 'Y', 'P', 'E'] ++ ' ' :: (f.name.toList ++ ' ' :: f.type.toList)) := rfl
  have hsplit : splitMax isSpace 3 (typeLine f) =
      [['#'], ['T', 'Y', 'P', 'E'], f.name.toList, f.type.toList] := by
    rw [hline, splitMax_comment (List.cons_ne_nil _ _) (forall_of_any rfl) hname.ne_nil
        (fun c hc => (hname.not_space hc).1) (breaks_space _),
      splitMax_space isSpace_space, splitMax_last hne fun c hc => (hword c hc).1]
  have hstrip : strip isSpace (typeLine f) = typeLine f := by
    refine strip_of_ends (List.cons_ne_nil _ _) (by rintro c ⟨⟩; decide) fun c hc => ?_
    have hlast : (typeLine f).getLast? = f.type.toList.getLast? := by
      rw [hline, ← List.singleton_append, ← List.singleton_append (l := f.type.toList)]
      simp only [← List.append_assoc, ← List.cons_append]
      exact List.getLast?_append_of_ne_nil _ hne
    rw [hlast] at hc
    exact (hword c (List.mem_of_getLast? hc)).1
  rw [ParseState.step, hstrip]
  have hcomment : st.comment (typeLine f) = st.declare f.name f.type := by
    rw [ParseState.comment, hsplit]
    simp only [String.ofList_toList]
    rfl
  rw [← hcomment]
  rfl

/-- **A `# HELP` line** changes the help texts at most. -/
theorem step_helpLine {f : MetricFamily F} (hname : IsName f.name) :
    ∃ helps, st.step floats (helpLine f) = .ok ⟨st.types, helps, st.order, st.samples⟩ := by
  -- what is left of the help text when the spaces at its end are gone
  let rest := (' ' :: f.help.toList.flatMap escapeHelp).rdropWhile isSpace
  have hrest : Breaks isSpace rest := by
    intro c hc
    obtain ⟨cs, hcs⟩ : ∃ cs, rest = c :: cs := List.head?_eq_some_iff.mp hc
    have hstart : rest <+: ' ' :: f.help.toList.flatMap escapeHelp := List.rdropWhile_prefix _ _
    rw [hcs, List.cons_prefix_cons] at hstart
    rw [hstart.1]
    exact isSpace_space
  have hstrip : strip isSpace (helpLine f) =
      '#' :: ' ' :: (['H', 'E', 'L', 'P'] ++ ' ' :: (f.name.toList ++ rest)) := by
    have hline : helpLine f = (['#', ' ', 'H', 'E', 'L', 'P', ' '] ++ f.name.toList) ++
        ' ' :: f.help.toList.flatMap escapeHelp := by
      rw [helpLine, List.append_assoc]
    rw [hline, strip_append (by simp) (by rintro c ⟨⟩; decide) fun c hc => ?_, List.append_assoc]
    · rfl
    · rw [List.getLast?_append_of_ne_nil _ hname.ne_nil] at hc
      exact (hname.not_space (List.mem_of_getLast? hc)).1
  have hsplit := splitMax_comment (List.cons_ne_nil 'H' ['E', 'L', 'P'])
    (forall_of_any (show ['H', 'E', 'L', 'P'].any isSpace = false by rfl)) hname.ne_nil
    (fun c hc => (hname.not_space hc).1) hrest
  -- a help text of spaces only leaves three words, and the line is skipped
  have hcomment : ∃ helps, st.comment (strip isSpace (helpLine f)) =
      ⟨st.types, helps, st.order, st.samples⟩ := by
    rw [ParseState.comment, hstrip, hsplit, splitMax]
    split_ifs with hempty
    · exact ⟨st.helps, rfl⟩
    · exact ⟨_, rfl⟩
  obtain ⟨helps, hhelps⟩ := hcomment
  refine ⟨helps, ?_⟩
  rw [ParseState.step, ← hhelps, hstrip]
  rfl

end

end MessageService.Interfaces
