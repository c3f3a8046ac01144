import MessageService.Application.AttachmentNames
import MessageService.Lib.StrFormat

/-!
# Subject templates

Model of `PipelinesConfig._validate_subject_templates` (`config/schema.py`) and of the subject that
`build_subject` makes of an accepted configuration. Both call `str.format`: the validator with empty
strings, the delivery with the sanitized pipeline type and the run id.

Result:
* `accepted_subject_iff`: when the subject of a run is there and a single line.
-/

namespace MessageService.Application

open MessageService.Domain MessageService.Lib

/-- `PipelinesConfig`, as far as subjects go. -/
structure PipelinesConfig where
  registered : List String
  subjectTemplates : List (String × String)

/-- The keyword arguments of both calls. -/
def subjectArgs (pipelineType runId : String) : FormatArgs := fun name =>
  if name = "pipeline_type".toList then some pipelineType.toList
  else if name = "run_id".toList then some runId.toList
  else none

section

variable (R : Runtime)

/-- `_validate_subject_templates` returns. -/
def PipelinesConfig.accepts (cfg : PipelinesConfig) : Bool :=
  cfg.subjectTemplates.all fun (pipelineType, template) =>
    cfg.registered.contains pipelineType && isSingleLine template &&
      (R.strFormat (subjectArgs "" "") template.toList).isSome

/-- `template.format(pipeline_type=…, run_id=…)`. What it raises is no domain error. -/
def formatTemplate (template : String) : SubjectTemplate := fun pipelineType runId =>
  match R.strFormat (subjectArgs pipelineType runId) template.toList with
  | some subject => .ok (String.ofList subject)
  | none => .error { errorClass := .valueError, message := "str.format" }

/-- The template of a pipeline, if it has one. -/
def PipelinesConfig.subjectTemplate (cfg : PipelinesConfig) (pipelineType : String) :
    Option SubjectTemplate :=
  (cfg.subjectTemplates.lookup pipelineType).map (formatTemplate R)

/-- The subject is there and a single line. -/
def HasSubject (cfg : PipelinesConfig) (pipelineType : String) (runId : RunId) : Prop :=
  ∃ subject, buildSubject pipelineType runId (cfg.subjectTemplate R pipelineType) = .ok subject ∧
    isSingleLine subject = true

/-- The character is no CR or LF. -/
def IsInline (c : Char) : Prop := c ≠ '\n' ∧ c ≠ '\r'

instance : DecidablePred IsInline := fun _ => inferInstanceAs (Decidable (_ ∧ _))

/-- `repr` and `ascii` escape line breaks. -/
structure EscapesLines : Prop where
  repr (value : List Char) : AllOk IsInline (R.repr value)
  ascii (value : List Char) : AllOk IsInline (R.ascii value)

end

theorem isSingleLine_iff_allOk {s : String} :
    isSingleLine s = true ↔ AllOk IsInline s.toList := by
  rw [isSingleLine_iff]
  constructor
  · exact fun h c hc => ⟨ne_of_mem_of_not_mem hc h.1, ne_of_mem_of_not_mem hc h.2⟩
  · exact fun h => ⟨fun hc => (h _ hc).1 rfl, fun hc => (h _ hc).2 rfl⟩

theorem IsSafeName.allOk {cs : List Char} (h : IsSafeName cs) : AllOk IsInline cs := by
  intro c hc
  have hsafe := h c hc
  constructor
  · rintro rfl
    cases hsafe
  · rintro rfl
    cases hsafe

section

variable {R : Runtime} {cfg : PipelinesConfig} {pipelineType : String} {runId : RunId}

theorem covers_subjectArgs (p r p' r' : String) :
    Runtime.Covers (subjectArgs p r) (subjectArgs p' r') := by
  intro name h
  unfold subjectArgs at h ⊢
  split_ifs at h ⊢ <;> trivial

theorem allows_subjectArgs (hR : EscapesLines R) (hid : isCanonicalUuid runId.toList = true) :
    Runtime.Allows R IsInline (subjectArgs (sanitizeFilenameComponent pipelineType) runId) where
  blank := ⟨by decide, by decide⟩
  zero := ⟨by decide, by decide⟩
  arg name value h := by
    unfold subjectArgs at h
    split_ifs at h
    · cases h
      exact (isSafeName_sanitize _).allOk
    · cases h
      exact (isSafeName_of_isCanonicalUuid hid).allOk
  repr value _ := hR.repr value
  ascii value _ := hR.ascii value

/-- The default subject is a single line. -/
theorem allOk_defaultSubject (hid : isCanonicalUuid runId.toList = true) :
    AllOk IsInline ("[" ++ sanitizeFilenameComponent pipelineType ++ "] run " ++ runId).toList := by
  simp only [String.toList_append]
  have hopen : AllOk IsInline "[".toList := isSingleLine_iff_allOk.mp rfl
  have hrun : AllOk IsInline "] run ".toList := isSingleLine_iff_allOk.mp rfl
  exact ((hopen.append (isSafeName_sanitize _).allOk).append hrun).append
    (isSafeName_of_isCanonicalUuid hid).allOk

/-- **When an accepted configuration has a subject for a run.** Each field of the pipeline's
template holds on the sanitized pipeline type and the run id. -/
theorem accepted_subject_iff (hR : EscapesLines R) (haccepts : cfg.accepts R = true)
    (hid : isCanonicalUuid runId.toList = true) :
    HasSubject R cfg pipelineType runId ↔
      ∀ template, cfg.subjectTemplates.lookup pipelineType = some template →
        ∀ ps, parseFormat template.toList = some ps → ∀ f, .field f ∈ ps →
          R.Holds IsInline (subjectArgs (sanitizeFilenameComponent pipelineType) runId) f := by
  unfold HasSubject PipelinesConfig.subjectTemplate buildSubject
  cases htemplate : cfg.subjectTemplates.lookup pipelineType with
  | none =>
    exact iff_of_true ⟨_, rfl, isSingleLine_iff_allOk.mpr (allOk_defaultSubject hid)⟩ nofun
  | some template =>
    obtain ⟨before, after, hmem, -⟩ := List.lookup_eq_some_iff.mp htemplate
    have hvalid := List.all_eq_true.mp haccepts (pipelineType, template) (by simp [hmem])
    simp only [Bool.and_eq_true] at hvalid
    obtain ⟨⟨-, hline⟩, h₀⟩ := hvalid
    have hiff := Runtime.exists_strFormat_iff (allows_subjectArgs hR hid)
      (covers_subjectArgs "" "" (sanitizeFilenameComponent pipelineType) runId)
      (isSingleLine_iff_allOk.mp hline) h₀
    simp only [Option.map_some, Option.some.injEq, forall_eq']
    rw [← hiff]
    unfold formatTemplate
    constructor
    · rintro ⟨subject, hsubject, hline⟩
      split at hsubject
      · next out hout =>
        obtain rfl := Except.ok.inj hsubject
        rw [isSingleLine_iff_allOk, String.toList_ofList] at hline
        exact ⟨out, hout, hline⟩
      · cases hsubject
    · rintro ⟨out, hout, hline⟩
      refine ⟨String.ofList out, by rw [hout], ?_⟩
      rwa [isSingleLine_iff_allOk, String.toList_ofList]

/-- `repr` of a text. -/
def reprChars (value : List Char) : List Char := (pyRepr (String.ofList value)).toList

/-- Strings as `str.format` has them, without what lies behind their dots and brackets. -/
def asciiRuntime : Runtime where
  decimal c := if '0' ≤ c ∧ c ≤ '9' then some (c.toNat - 48) else none
  repr := reprChars
  ascii := reprChars
  Obj := Empty
  access _ _ := none
  convert _ _ := none
  format _ _ := none

theorem isInline_digitChar : ∀ n < 16, IsInline (Nat.digitChar n) := by
  decide

/-- `repr` writes a line break as an escape. -/
theorem allOk_reprChars (value : List Char) : AllOk IsInline (reprChars value) := by
  unfold reprChars pyRepr
  extract_lets single double backslash quote escape
  have hbackslash : IsInline backslash := ⟨by decide, by decide⟩
  have hpair {c : Char} (hc : IsInline c) : AllOk IsInline [backslash, c] :=
    .cons hbackslash (.cons hc .nil)
  have hquote : IsInline quote := by
    unfold quote
    split
    · exact ⟨by decide, by decide⟩
    · exact ⟨by decide, by decide⟩
  have hescape (c : Char) : AllOk IsInline (escape c) := by
    unfold escape
    split_ifs with h1 h2 h3 h4 h5
    · simp only [Bool.or_eq_true, decide_eq_true_eq] at h1
      rcases h1 with rfl | rfl
      · exact hpair hbackslash
      · exact hpair hquote
    · exact hpair ⟨by decide, by decide⟩
    · exact hpair ⟨by decide, by decide⟩
    · exact hpair ⟨by decide, by decide⟩
    · simp only [Bool.or_eq_true, decide_eq_true_eq] at h5
      have hhigh : c.toNat / 16 < 16 := by omega
      have hlow : c.toNat % 16 < 16 := by omega
      exact .cons hbackslash (.cons ⟨by decide, by decide⟩
        (.cons (isInline_digitChar _ hhigh) (.cons (isInline_digitChar _ hlow) .nil)))
    · exact .cons ⟨h2, h3⟩ .nil
  rw [String.toList_ofList]
  refine .append (.cons hquote fun d hd => ?_) (.cons hquote .nil)
  obtain ⟨c, -, hd⟩ := List.mem_flatMap.mp hd
  exact hescape c d hd

theorem escapesLines_asciiRuntime : EscapesLines asciiRuntime where
  repr value := by
    dsimp only [asciiRuntime]
    exact allOk_reprChars value
  ascii value := by
    dsimp only [asciiRuntime]
    exact allOk_reprChars value

/-- A pipeline with a padded subject. -/
def paddedConfig : PipelinesConfig where
  registered := ["etl"]
  subjectTemplates := [("etl", "[{pipeline_type!r}] {run_id:>40}")]

theorem accepted_subject_iff_sample :
    HasSubject asciiRuntime paddedConfig "etl" "2f0e6b1c-5d5e-4c1a-9a55-0d3c2b1a4f60" ↔
      ∀ template, paddedConfig.subjectTemplates.lookup "etl" = some template →
        ∀ ps, parseFormat template.toList = some ps → ∀ f, .field f ∈ ps →
          asciiRuntime.Holds IsInline (subjectArgs (sanitizeFilenameComponent "etl")
            "2f0e6b1c-5d5e-4c1a-9a55-0d3c2b1a4f60") f :=
  accepted_subject_iff escapesLines_asciiRuntime (by decide +kernel) (by decide)

/-- A pipeline whose subject is as wide as the name of the pipeline says. -/
def nestedConfig : PipelinesConfig where
  registered := ["etl"]
  subjectTemplates := [("etl", "{run_id:{pipeline_type}}")]

/-- The validator accepts it, with an empty width, and the delivery raises. -/
theorem accepted_template_raises : nestedConfig.accepts asciiRuntime = true ∧
    ¬HasSubject asciiRuntime nestedConfig "etl" "2f0e6b1c-5d5e-4c1a-9a55-0d3c2b1a4f60" := by
  refine ⟨by decide +kernel, ?_⟩
  rintro ⟨subject, hsubject, -⟩
  have hraises : asciiRuntime.strFormat (subjectArgs (sanitizeFilenameComponent "etl")
      "2f0e6b1c-5d5e-4c1a-9a55-0d3c2b1a4f60") "{run_id:{pipeline_type}}".toList = none := by
    decide +kernel
  change formatTemplate asciiRuntime _ _ _ = _ at hsubject
  unfold formatTemplate at hsubject
  rw [hraises] at hsubject
  cases hsubject

end

end MessageService.Application
