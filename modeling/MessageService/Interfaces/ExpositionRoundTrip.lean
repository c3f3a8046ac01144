import MessageService.Interfaces.ExpositionLines

/-!
# The exposition round trip

* `parse_families`: what is written is read back family by family, if every sample stands on one
  line. The families that have been read are the invariant of the loop (`ParseState.Holds`).
* `oneLine_of_parse`: no parse returns a label value with a line boundary in it other than the line
  feed.
* `parse_text_iff`: so an exposition is **read back exactly if** its label values have none.
-/

namespace MessageService.Interfaces

open MessageService.Domain MessageService.Lib

variable {F : Type}

/-! ## The family of a sample -/

theorem eq_of_suffix {base : List Char} {suffix other : String} (h : suffix ∈ histogramSuffixes)
    (ho : other ∈ histogramSuffixes) (hsuffix : other.toList <:+ base ++ suffix.toList) :
    other = suffix := by
  have hapart : ∀ s ∈ histogramSuffixes, ∀ t ∈ histogramSuffixes,
      s.toList <:+ t.toList → s = t := by decide
  rcases List.suffix_or_suffix_of_suffix hsuffix (List.suffix_append _ _) with h' | h'
  · exact hapart other ho suffix h h'
  · exact (hapart suffix h other ho h').symm

theorem baseName_append (base suffix : String) : baseName (base ++ suffix) suffix = some base := by
  have hsuffix : suffix.toList.isSuffixOf (base ++ suffix).toList = true := by
    rw [List.isSuffixOf_iff_suffix, String.toList_append]
    exact List.suffix_append _ _
  rw [baseName, if_pos hsuffix, String.toList_append, List.length_append, Nat.add_sub_cancel,
    List.take_left, String.ofList_toList]

theorem findSome?_unique {α β : Type} {p : α → Option β} {l : List α} {a : α} {b : β} (ha : a ∈ l)
    (hb : p a = some b) (hother : ∀ x ∈ l, x ≠ a → p x = none) : l.findSome? p = some b := by
  classical
  induction l with
  | nil => cases ha
  | cons x l ih =>
    obtain ⟨hx, hl⟩ := List.forall_mem_cons.mp hother
    by_cases hxa : x = a
    · rw [hxa, List.findSome?_cons, hb]
    · rw [List.findSome?_cons, hx hxa]
      exact ih ((List.mem_cons.mp ha).resolve_left (Ne.symm hxa)) hl

/-- **A sample is put in its family**: the suffixes do not end one another, and a suffixed name is
no other family's. -/
theorem familyFor_of_belongs {families : List (MetricFamily F)} {f : MetricFamily F} {name : String}
    {types : Dict String} (h : Belongs families f name) (hf : types.get? f.name = some f.type)
    (hknown : ∀ n, (types.get? n).isSome = true → n ∈ families.map MetricFamily.name) :
    familyFor name types = some f.name := by
  unfold familyFor
  rcases h with rfl | ⟨hhistogram, hnew, suffix, hsuffix, rfl⟩
  · exact if_pos (by rw [hf]; rfl)
  · rw [if_neg fun hsome => hnew (hknown _ hsome)]
    refine findSome?_unique hsuffix ?_ fun other hother hne => ?_
    · rw [baseName_append, Option.filter_some, if_pos]
      rw [hf, hhistogram]
      exact decide_eq_true rfl
    · have hnot : ¬other.toList.isSuffixOf (f.name ++ suffix).toList = true := by
        rw [List.isSuffixOf_iff_suffix, String.toList_append]
        exact fun h => hne (eq_of_suffix hsuffix hother h)
      rw [baseName, if_neg hnot]
      rfl

/-! ## Reading the families -/

/-- **The families that have been read**, in the locals of the loop. -/
structure ParseState.Holds (st : ParseState F) (done : List (MetricFamily F)) : Prop where
  types : st.types = done.map fun f => (f.name, f.type)
  order : st.order = done.map MetricFamily.name
  samples : st.samples = done.map fun f => (f.name, f.samples)

namespace ParseState.Holds

variable {st : ParseState F} {done : List (MetricFamily F)} {f : MetricFamily F}

theorem get?_absent {α : Type} {g : MetricFamily F → α} (h : f.name ∉ done.map MetricFamily.name) :
    Dict.get? (done.map fun f => (f.name, g f)) f.name = none := by
  rw [Dict.get?_eq_none_iff, List.map_map]
  exact h

theorem get?_of_mem {α : Type} {g : MetricFamily F → α}
    (hn : (done.map MetricFamily.name).Nodup) (hf : f ∈ done) :
    Dict.get? (done.map fun f => (f.name, g f)) f.name = some (g f) := by
  have hkeys : ((done.map fun f => (f.name, g f)).map Prod.fst).Nodup := by
    rw [List.map_map]
    exact hn
  exact Dict.get?_of_mem hkeys (List.mem_map_of_mem hf)

/-- A declared family has no samples yet. -/
theorem declare (h : st.Holds done) (hnew : f.name ∉ done.map MetricFamily.name) :
    (st.declare f.name f.type).Holds (done ++ [{ f with samples := [] }]) := by
  have htypes : st.types.get? f.name = none := by
    rw [h.types]
    exact get?_absent hnew
  have hsamples : st.samples.get? f.name = none := by
    rw [h.samples]
    exact get?_absent hnew
  constructor
  · rw [ParseState.declare, Dict.set_of_absent htypes, h.types, List.map_append]
    rfl
  · simp only [ParseState.declare, htypes, h.order, List.map_append]
    rfl
  · rw [ParseState.declare, hsamples, Dict.set_of_absent hsamples, h.samples, List.map_append]
    rfl

/-- A sample of the last family goes behind the ones it has. -/
theorem add {s : Sample F} {read : List (Sample F)}
    (h : st.Holds (done ++ [{ f with samples := read }]))
    (hnew : f.name ∉ done.map MetricFamily.name)
    (hfamily : familyFor s.name st.types = some f.name) :
    (st.add s).Holds (done ++ [{ f with samples := read ++ [s] }]) := by
  have hsamples : st.samples = done.map (fun f => (f.name, f.samples)) ++ [(f.name, read)] := by
    rw [h.samples, List.map_append]
    rfl
  have hlast : st.samples.get? f.name = some read := by
    rw [hsamples, Dict.get?_last (get?_absent hnew)]
  have hset : st.addSample f.name s =
      done.map (fun f => (f.name, f.samples)) ++ [(f.name, read ++ [s])] := by
    rw [ParseState.addSample, hlast, hsamples, Dict.set_last (get?_absent hnew)]
    rfl
  have hadd : st.add s = { st with samples := st.addSample f.name s } := by
    rw [ParseState.add, hfamily]
  rw [hadd, hset]
  constructor
  · rw [h.types, List.map_append, List.map_append]
    rfl
  · rw [h.order, List.map_append, List.map_append]
    rfl
  · rw [List.map_append]
    rfl

end ParseState.Holds

theorem Belongs.isName {families : List (MetricFamily F)} {f : MetricFamily F} {name : String}
    (h : Belongs families f name) (hf : IsName f.name) : IsName name := by
  rcases h with rfl | ⟨-, -, suffix, hsuffix, rfl⟩
  · exact hf
  · have hchars : ∀ t ∈ histogramSuffixes, t.toList.all isNameChar = true := by decide
    constructor
    · rw [String.toList_append]
      exact head?_append_of_any hf.1 _
    · rw [String.toList_append, List.all_append, hf.2, hchars suffix hsuffix]
      rfl

section

variable (floats : FloatText F) (e : Exposition F)

/-- **The sample lines of a family** are read into it, in order. -/
theorem parse_samples {f : MetricFamily F} (hf : f ∈ e.families)
    (hline : ∀ s ∈ f.samples, OneLine s) {done : List (MetricFamily F)}
    (hdone : ∀ g ∈ done, g ∈ e.families) (hnew : f.name ∉ done.map MetricFamily.name)
    {ss : List (Sample F)} (hss : ∀ s ∈ ss, s ∈ f.samples) {st : ParseState F}
    {read : List (Sample F)} (h : st.Holds (done ++ [{ f with samples := read }]))
    (rest : List (List Char)) :
    ∃ st' : ParseState F, st'.Holds (done ++ [{ f with samples := read ++ ss }]) ∧
      parseLines floats st (ss.map (sampleText floats) ++ rest) = parseLines floats st' rest := by
  induction ss generalizing st read with
  | nil =>
    rw [List.append_nil]
    exact ⟨st, h, rfl⟩
  | cons s ss ih =>
    obtain ⟨hs, hss⟩ := List.forall_mem_cons.mp hss
    have hbelongs := e.samples f hf s hs
    have hstep := step_sampleText floats st (hbelongs.isName (e.names f hf))
      (e.labelNames f hf s hs) (e.labels f hf s hs) (hline s hs)
    have htypes : st.types = done.map (fun g => (g.name, g.type)) ++ [(f.name, f.type)] := by
      rw [h.types, List.map_append]
      rfl
    have htype : st.types.get? f.name = some f.type := by
      rw [htypes, Dict.get?_last (ParseState.Holds.get?_absent hnew)]
    have hknown : ∀ n, (st.types.get? n).isSome = true →
        n ∈ e.families.map MetricFamily.name := by
      intro n hn
      obtain ⟨t, ht⟩ := Option.isSome_iff_exists.mp hn
      have hmem := Dict.mem_of_get? ht
      rw [htypes, List.mem_append, List.mem_singleton] at hmem
      rcases hmem with hmem | hmem
      · obtain ⟨g, hg, heq⟩ := List.mem_map.mp hmem
        cases heq
        exact List.mem_map_of_mem (hdone g hg)
      · cases hmem
        exact List.mem_map_of_mem hf
    obtain ⟨st', hst', hparse⟩ :=
      ih hss (h.add hnew (familyFor_of_belongs hbelongs htype hknown))
    refine ⟨st', ?_, ?_⟩
    · rwa [List.append_assoc] at hst'
    · rw [List.map_cons, List.cons_append, parseLines, hstep]
      exact hparse

/-- **The families are read** one behind the other. -/
theorem parse_families (hline : ∀ f ∈ e.families, ∀ s ∈ f.samples, OneLine s)
    {done rest : List (MetricFamily F)} (he : done ++ rest = e.families) {st : ParseState F}
    (h : st.Holds done) :
    ∃ st' : ParseState F, st'.Holds e.families ∧
      parseLines floats st (rest.flatMap (familyLines floats)) = .ok st' := by
  induction rest generalizing done st with
  | nil =>
    rw [List.append_nil] at he
    exact ⟨st, he ▸ h, rfl⟩
  | cons f rest ih =>
    have hf : f ∈ e.families := he ▸ List.mem_append_right _ List.mem_cons_self
    have hdone : ∀ g ∈ done, g ∈ e.families := fun g hg => he ▸ List.mem_append_left _ hg
    have hnew : f.name ∉ done.map MetricFamily.name := by
      have hdistinct := e.distinct
      rw [← he, List.map_append, List.map_cons, List.nodup_append] at hdistinct
      exact fun hmem => hdistinct.2.2 _ hmem _ List.mem_cons_self rfl
    obtain ⟨helps, hhelp⟩ := step_helpLine floats st (e.names f hf)
    have hread : ParseState.Holds ⟨st.types, helps, st.order, st.samples⟩ done :=
      ⟨h.types, h.order, h.samples⟩
    obtain ⟨st₁, h₁, hsamples⟩ := parse_samples floats e hf (hline f hf) hdone hnew
      (fun s hs => hs) (hread.declare hnew) (rest.flatMap (familyLines floats))
    rw [List.nil_append] at h₁
    obtain ⟨st₂, h₂, hrest⟩ := ih (by rw [← he, List.append_assoc]; rfl) h₁
    refine ⟨st₂, h₂, ?_⟩
    rw [List.flatMap_cons, familyLines, List.cons_append, List.cons_append, parseLines, hhelp]
    show parseLines floats _ (typeLine f :: _) = _
    rw [parseLines, step_typeLine floats _ (e.names f hf) (e.types f hf)]
    exact hsamples.trans hrest

/-- Name, type and samples of a family. -/
def MetricFamily.core (f : MetricFamily F) : String × String × List (Sample F) :=
  (f.name, f.type, f.samples)

theorem not_boundary_familyLines {f : MetricFamily F} (hf : f ∈ e.families)
    (hline : ∀ s ∈ f.samples, OneLine s) {l : List Char} (hl : l ∈ familyLines floats f) {c : Char}
    (hc : c ∈ l) : isLineBoundary c = false := by
  have hname := e.names f hf
  have hspace : isLineBoundary ' ' = false := by decide
  -- both comment lines: what they begin with, the name, a space and a text
  have hcomment {mark text : List Char} (hmark : ∀ c ∈ mark, isLineBoundary c = false)
      (htext : ∀ c ∈ text, isLineBoundary c = false)
      (hc : c ∈ mark ++ (f.name.toList ++ ' ' :: text)) : isLineBoundary c = false := by
    rw [List.mem_append, List.mem_append, List.mem_cons] at hc
    rcases hc with hc | hc | rfl | hc
    · exact hmark c hc
    · exact (hname.not_space hc).2
    · exact hspace
    · exact htext c hc
  rcases List.mem_cons.mp hl with rfl | hl
  · refine hcomment (forall_of_any rfl) (fun d hd => ?_) hc
    obtain ⟨d', hd', hd⟩ := List.mem_flatMap.mp hd
    exact not_boundary_of_escapeHelp (e.helps f hf d' hd') hd
  rcases List.mem_cons.mp hl with rfl | hl
  · exact hcomment (forall_of_any rfl) (fun d hd => ((metricTypes_word (e.types f hf)).2 d hd).2) hc
  · obtain ⟨s, hs, rfl⟩ := List.mem_map.mp hl
    rw [sampleText, List.mem_append, List.mem_append, List.mem_cons] at hc
    rcases hc with hc | hc | rfl | hc
    · exact (((e.samples f hf s hs).isName hname).not_space hc).2
    · split_ifs at hc with hempty
      · cases hc
      rw [List.mem_cons, List.mem_append, List.mem_singleton] at hc
      rcases hc with rfl | hc | rfl
      · decide
      · exact not_boundary_labelsText (e.labelNames f hf s hs) (hline s hs) hc
      · decide
    · exact hspace
    · have := toNat_of_mem_valueText floats hc
      exact (not_space_of_toNat (by omega)).2

/-- **What is written is read back**, if every sample stands on one line. -/
theorem parse_text (hline : ∀ f ∈ e.families, ∀ s ∈ f.samples, OneLine s) :
    ∃ out, parseExposition floats (e.text floats) = .ok out ∧
      out.map MetricFamily.core = e.families.map MetricFamily.core := by
  have hlines : splitlines (e.text floats).toList = e.families.flatMap (familyLines floats) := by
    rw [Exposition.text, String.toList_ofList]
    refine splitlines_write fun l hl c hc => ?_
    obtain ⟨f, hf, hl⟩ := List.mem_flatMap.mp hl
    exact not_boundary_familyLines floats e hf (hline f hf) hl hc
  have hempty : ParseState.Holds ({} : ParseState F) [] := ⟨rfl, rfl, rfl⟩
  obtain ⟨st, hst, hparse⟩ := parse_families floats e hline (List.nil_append _) hempty
  refine ⟨st.order.map st.family, ?_, ?_⟩
  · rw [parseExposition, hlines, hparse]
    rfl
  · rw [hst.order, List.map_map, List.map_map]
    refine List.map_congr_left fun f hf => ?_
    simp only [Function.comp_apply, MetricFamily.core, ParseState.family, hst.types, hst.samples,
      ParseState.Holds.get?_of_mem e.distinct hf, Option.getD_some]

end

/-! ## What a parse can return -/

theorem eq_of_scanValue {cs : List Char} {r : List Char × List Char} (h : scanValue cs = some r) :
    cs = r.1 ++ '"' :: r.2 := by
  fun_induction scanValue cs generalizing r with
  | case1 => cases h
  | case2 => cases h; rfl
  | case3 => cases h
  | case4 => cases h; rfl
  | case5 => cases h
  | case6 d cs _ hd ih =>
    obtain ⟨r', hr', rfl⟩ := Option.map_eq_some_iff.mp h
    rw [ih hr']
    rfl
  | case7 c d cs _ _ ih =>
    obtain ⟨r', hr', rfl⟩ := Option.map_eq_some_iff.mp h
    rw [ih hr']
    rfl

theorem eq_of_matchLabel {cs rest : List Char} {pair : List Char × List Char}
    (h : matchLabel cs = some (pair, rest)) :
    cs = pair.1 ++ '=' :: '"' :: (pair.2 ++ '"' :: rest) := by
  unfold matchLabel at h
  split_ifs at h with hstart
  split at h
  · next e q rest' hdrop =>
    split_ifs at h with heq
    obtain ⟨rfl, rfl⟩ := heq
    obtain ⟨r, hr, hpair⟩ := Option.map_eq_some_iff.mp h
    cases hpair
    rw [← eq_of_scanValue hr, ← hdrop, List.takeWhile_append_dropWhile]
  · cases h

theorem mem_of_findLabels {n : Nat} {cs : List Char} {pair : List Char × List Char}
    (h : pair ∈ findLabels n cs) : ∀ c ∈ pair.2, c ∈ cs := by
  fun_induction findLabels n cs with
  | case1 => cases h
  | case2 => cases h
  | case3 n c cs p rest hmatch ih =>
    have heq := eq_of_matchLabel hmatch
    intro d hd
    rw [heq]
    rcases List.mem_cons.mp h with rfl | h
    · simp [hd]
    · simp [ih h d hd]
  | case4 n c cs hmatch ih => exact fun d hd => List.mem_cons_of_mem _ (ih h d hd)

/-- Unescaping adds line feeds at most. -/
theorem mem_of_unescape {cs : List Char} {x : Char} (h : x ∈ unescape cs) : x ∈ cs ∨ x = '\n' := by
  have hescapes : ∀ e ∈ labelEscapes, e.2 = e.1 ∨ e.2 = '\n' := by decide
  fun_induction unescape cs with
  | case1 => cases h
  | case2 c => exact .inl h
  | case3 c d cs _ e he ih =>
    rcases List.mem_cons.mp h with rfl | h
    · have hd : e.1 = d := by simpa using List.find?_some he
      rcases hescapes e (List.mem_of_find?_eq_some he) with heq | heq
      · left
        rw [heq, hd]
        exact List.mem_cons_of_mem _ List.mem_cons_self
      · exact .inr heq
    · exact (ih h).imp_left fun h => List.mem_cons_of_mem _ (List.mem_cons_of_mem _ h)
  | case4 c d cs _ _ ih =>
    rcases List.mem_cons.mp h with rfl | h
    · exact .inl List.mem_cons_self
    rcases List.mem_cons.mp h with rfl | h
    · exact .inl (List.mem_cons_of_mem _ List.mem_cons_self)
    · exact (ih h).imp_left fun h => List.mem_cons_of_mem _ (List.mem_cons_of_mem _ h)
  | case5 c d cs _ ih =>
    rcases List.mem_cons.mp h with rfl | h
    · exact .inl List.mem_cons_self
    · exact (ih h).imp_left (List.mem_cons_of_mem _)

theorem eq_of_labelBlock {cs block value : List Char} (h : labelBlock cs = some (block, value)) :
    ∃ tail, cs = block ++ '\x7d' :: tail := by
  induction cs generalizing block with
  | nil => cases h
  | cons c cs ih =>
    rw [labelBlock] at h
    split at h
    · next r hr =>
      cases h
      rw [Option.ite_none_left_eq_some] at hr
      obtain ⟨tail, htail⟩ := ih hr.2
      exact ⟨tail, by rw [htail]; rfl⟩
    · split_ifs at h with hc
      obtain ⟨v, -, hv⟩ := Option.map_eq_some_iff.mp h
      cases hv
      exact ⟨cs, by rw [hc]; rfl⟩

theorem mem_of_matchSample {line raw : List Char} {m : SampleMatch}
    (h : matchSample line = some m) (hm : m.labels = some raw) : ∀ c ∈ raw, c ∈ line := by
  unfold matchSample at h
  split_ifs at h with hstart
  split at h
  · cases h
  · next c rest hdrop =>
    have hsuffix : rest <:+ line := by
      have := List.dropWhile_suffix (l := line) isNameChar
      rw [hdrop] at this
      exact (List.suffix_cons c rest).trans this
    split_ifs at h with hc
    · obtain ⟨r, hr, rfl⟩ := Option.map_eq_some_iff.mp h
      cases hm
      obtain ⟨tail, htail⟩ := eq_of_labelBlock hr
      intro d hd
      refine hsuffix.subset ?_
      rw [htail]
      exact List.mem_append_left _ hd
    · obtain ⟨v, -, rfl⟩ := Option.map_eq_some_iff.mp h
      cases hm

theorem oneLine_of_parseLabels {line : List Char} (hline : ∀ c ∈ line, isLineBoundary c = false)
    {raw : Option (List Char)} (hraw : ∀ cs ∈ raw, ∀ c ∈ cs, c ∈ line) (name : String)
    (value : Value F) : OneLine { name, labels := parseLabels raw, value } := by
  have hpairs : ∀ pair ∈ findLabels (raw.getD []).length (raw.getD []), ∀ c ∈ pair.2,
      isLineBoundary c = false := by
    intro pair hpair c hc
    have hmem := mem_of_findLabels hpair c hc
    cases raw with
    | none => cases hmem
    | some cs => exact hline c (hraw cs rfl c hmem)
  unfold OneLine
  simp only [parseLabels]
  generalize findLabels (raw.getD []).length (raw.getD []) = pairs at hpairs
  induction pairs using List.reverseRecOn with
  | nil => exact fun l hl => absurd hl List.not_mem_nil
  | append_singleton pairs pair ih =>
    rw [List.foldl_concat]
    intro l hl c hc hboundary
    rcases Dict.mem_set hl with hl | rfl
    · exact ih (fun p hp => hpairs p (List.mem_append_left _ hp)) l hl c hc hboundary
    · rw [String.toList_ofList] at hc
      refine (mem_of_unescape hc).resolve_left fun hmem => ?_
      have := hpairs pair (List.mem_append_right _ List.mem_cons_self) c hmem
      rw [this] at hboundary
      cases hboundary

/-- The samples that have been read stand on one line each. -/
def ParseState.OneLines (st : ParseState F) : Prop := ∀ e ∈ st.samples, ∀ s ∈ e.2, OneLine s

namespace ParseState.OneLines

variable {st : ParseState F}

theorem declare (h : st.OneLines) (name metricType : String) :
    (st.declare name metricType).OneLines := by
  unfold ParseState.OneLines ParseState.declare
  simp only
  split_ifs with hknown
  · exact h
  · intro e he
    rcases Dict.mem_set he with he | rfl
    · exact h e he
    · exact fun s hs => absurd hs List.not_mem_nil

theorem comment (h : st.OneLines) (line : List Char) : (st.comment line).OneLines := by
  unfold ParseState.comment
  split
  · split_ifs with hhelp htype
    · exact h
    · exact h.declare _ _
    · exact h
  · exact h

theorem addSample (h : st.OneLines) {s : Sample F} (hs : OneLine s) (family : String) :
    ∀ e ∈ st.addSample family s, ∀ t ∈ e.2, OneLine t := by
  intro e he
  rcases Dict.mem_set he with he | rfl
  · exact h e he
  · intro t ht
    rcases List.mem_append.mp ht with ht | ht
    · cases hfamily : st.samples.get? family with
      | none => rw [hfamily] at ht; cases ht
      | some read =>
        rw [hfamily] at ht
        exact h _ (Dict.mem_of_get? hfamily) t ht
    · rwa [List.mem_singleton.mp ht]

theorem add (h : st.OneLines) {s : Sample F} (hs : OneLine s) : (st.add s).OneLines := by
  unfold ParseState.add
  split
  · exact h.addSample hs _
  · exact h.addSample hs _

end ParseState.OneLines

section

variable (floats : FloatText F)

theorem ParseState.OneLines.step {st st' : ParseState F} (h : st.OneLines) {rawLine : List Char}
    (hline : ∀ c ∈ rawLine, isLineBoundary c = false)
    (hstep : st.step floats rawLine = .ok st') : st'.OneLines := by
  unfold ParseState.step at hstep
  simp only at hstep
  split at hstep
  · cases hstep
    exact h
  · split_ifs at hstep with hmark
    · cases hstep
      exact h.comment _
    · split at hstep
      · cases hstep
        exact h
      · next m hm =>
        obtain ⟨value, -, hstep⟩ := bind_eq_ok_iff.mp hstep
        cases hstep
        refine h.add (oneLine_of_parseLabels hline (fun cs hcs c hc => ?_) _ value)
        exact mem_of_mem_strip (mem_of_matchSample hm hcs c hc)

theorem ParseState.OneLines.parseLines {st st' : ParseState F} (h : st.OneLines)
    {lines : List (List Char)} (hlines : ∀ l ∈ lines, ∀ c ∈ l, isLineBoundary c = false)
    (hparse : Interfaces.parseLines floats st lines = .ok st') : st'.OneLines := by
  induction lines generalizing st with
  | nil =>
    cases hparse
    exact h
  | cons l lines ih =>
    obtain ⟨hl, hlines⟩ := List.forall_mem_cons.mp hlines
    obtain ⟨st₁, hstep, hrest⟩ := bind_eq_ok_iff.mp hparse
    exact ih (h.step floats hl hstep) hlines hrest

/-- **What a parse returns** has no line boundary in a label value, but for line feeds. -/
theorem oneLine_of_parse {text : String} {out : List (MetricFamily F)}
    (h : parseExposition floats text = .ok out) :
    ∀ f ∈ out, ∀ s ∈ f.samples, OneLine s := by
  obtain ⟨st, hparse, hout⟩ := bind_eq_ok_iff.mp h
  cases hout
  have hempty : ParseState.OneLines ({} : ParseState F) := fun e he => absurd he List.not_mem_nil
  have hst := hempty.parseLines floats
    (fun l hl => not_isLineBoundary_of_mem_splitlines hl) hparse
  intro f hf s hs
  obtain ⟨name, -, rfl⟩ := List.mem_map.mp hf
  simp only [ParseState.family] at hs
  cases hsamples : st.samples.get? name with
  | none => rw [hsamples] at hs; cases hs
  | some read =>
    rw [hsamples] at hs
    exact hst _ (Dict.mem_of_get? hsamples) s hs

/-- **An exposition is read back** exactly if no label value has a line boundary in it other than
the line feed. -/
theorem parse_text_iff (e : Exposition F) :
    (∃ out, parseExposition floats (e.text floats) = .ok out ∧
        out.map MetricFamily.core = e.families.map MetricFamily.core) ↔
      ∀ f ∈ e.families, ∀ s ∈ f.samples, ∀ l ∈ s.labels, ∀ c ∈ l.2.toList,
        isLineBoundary c = true → c = '\n' := by
  refine ⟨fun ⟨out, hout, hcore⟩ f hf s hs => ?_, parse_text floats e⟩
  have hmem : f.core ∈ out.map MetricFamily.core := hcore ▸ List.mem_map_of_mem hf
  obtain ⟨g, hg, hgf⟩ := List.mem_map.mp hmem
  have hsamples : g.samples = f.samples := congrArg (fun x => x.2.2) hgf
  exact oneLine_of_parse floats hout g hg s (hsamples ▸ hs)

end

/-- One finite value. -/
def oneText : FloatText Unit where
  text _ := "1.0"
  float s := if s = "1.0" then some (.finite ()) else none
  float_text _ := rfl
  text_ne _ := by decide
  mem_text _ := by simp [Char.isDigit]

/-- A gauge with one sample, whose label value has a line separator in it. -/
def tornGauge : Exposition Unit where
  families := [{
    name := "m", type := "gauge", help := "h"
    samples := [{ name := "m", labels := [("l", "x\u2028y")], value := .finite () }] }]
  distinct := by simp
  names := by decide
  types := by decide
  helps := by simp [isLineBoundary]
  samples := by simp [Belongs]
  labels := by simp
  labelNames := by decide

/-- The sample of `tornGauge` is dropped: neither half of its line is a sample line. -/
theorem tornGauge_dropped :
    parseExposition oneText (tornGauge.text oneText) =
        .ok [{ name := "m", type := "gauge", help := "h", samples := [] }] ∧
      ¬∃ out, parseExposition oneText (tornGauge.text oneText) = .ok out ∧
        out.map MetricFamily.core = tornGauge.families.map MetricFamily.core := by
  have hparse : parseExposition oneText (tornGauge.text oneText) =
      .ok [{ name := "m", type := "gauge", help := "h", samples := [] }] := rfl
  refine ⟨hparse, fun ⟨out, hout, hcore⟩ => ?_⟩
  rw [hparse] at hout
  cases hout
  simp [tornGauge, MetricFamily.core] at hcore

end MessageService.Interfaces
