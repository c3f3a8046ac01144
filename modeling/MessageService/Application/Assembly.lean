import MessageService.Application.Mail
import MessageService.Lib.Attempt
import Mathlib.Data.List.Sort

/-!
# Assembling the e-mail of a run

Model of the rendering half of `assemble_and_deliver.py`: `_load_and_render_stages` from the loaded
rows on, `_build_attachments` and `_render_email_body`. First delivery and resend share it.

The `TemplateRenderer` port is a function of the call site, the template and the context, so that
two calls with the same arguments may end differently. What it raises is a `RenderError`.

`assemble_error_iff`: an assembly fails with what the first of its render calls to raise raised
(`FirstRaised`).
-/

namespace MessageService.Application

open MessageService.Domain MessageService.Lib

/-! ## The renderer port -/

/-- The exceptions `TemplateRenderer.render` declares. -/
inductive RenderFailure where
  | unknownTemplate
  | contextSizeExceeded
  | contextSchemaViolation
  | renderedSizeExceeded
  | templateRender
  deriving DecidableEq, Repr

/-- Their classes. -/
def RenderFailure.errorClass : RenderFailure → ErrorClass
  | unknownTemplate => .unknownTemplateError
  | contextSizeExceeded => .contextSizeExceededError
  | contextSchemaViolation => .contextSchemaViolationError
  | renderedSizeExceeded => .renderedSizeExceededError
  | templateRender => .templateRenderError

/-- An exception of the renderer. -/
structure RenderError where
  failure : RenderFailure
  message : String
  details : Dict Json
  unreserved : Unreserved details

/-- The exception as the use cases let it through. -/
def RenderError.toServiceError (e : RenderError) : ServiceError :=
  { errorClass := e.failure.errorClass, message := e.message, details := e.details }

/-- The call sites of `render`. -/
inductive RenderCall where
  /-- The `i`-th stage's report template. -/
  | stage (i : Nat)
  | aggregation
  | body
  deriving DecidableEq, Repr

/-- `TemplateRenderer.render`. -/
abbrev TemplateRenderer := RenderCall → TemplateRef → Json → Except RenderError String

/-- The configuration assembly reads. -/
structure BodyTemplates where
  emailBodyTemplateRef : TemplateRef
  emailBodyTemplateOverrides : String → Option TemplateRef

/-! ## Fragments -/

/-- `_RenderedFragment`. -/
structure RenderedFragment where
  stageId : StageId
  stageOrder : Nat
  renderedHtml : String
  emailBodyContext : Option (Dict Json)
  emailBodyPosition : Option EmailBodyPosition

/-- `is_empty`. -/
def RenderedFragment.isEmpty (f : RenderedFragment) : Bool := f.renderedHtml.toList.all isSpace

/-- The states of the stages that take part in a report. -/
def includedStates : List StageState := [.submitted, .accepted, .retried]

/-- `stage_order_by_id.get(stage_id, 0)`. -/
def stageOrderOf (run : RunRow) (stageId : StageId) : Nat :=
  ((run.declaredStages.find? fun ds => ds.stageId = stageId).map DeclaredStage.stageOrder).getD 0

/-- The stages of the report, by stage order and then by stage id. -/
def submittedSorted (run : RunRow) (stages : List Stage) : List Stage :=
  (stages.filter fun s => s.state ∈ includedStates).insertionSort fun a b =>
    stageOrderOf run a.stageId < stageOrderOf run b.stageId ∨
      (stageOrderOf run a.stageId = stageOrderOf run b.stageId ∧ a.stageId ≤ b.stageId)

/-- One turn of the rendering loop. -/
def renderStage (render : TemplateRenderer) (run : RunRow) (stage : Stage) (i : Nat) :
    Except RenderError RenderedFragment :=
  let rendered : Except RenderError String := match stage.reportContext with
    | none => .ok ""
    | some context => render (.stage i) stage.reportTemplateRef (.obj context)
  rendered.map fun html => {
    stageId := stage.stageId
    stageOrder := stageOrderOf run stage.stageId
    renderedHtml := html
    emailBodyContext := stage.emailBodyContext
    emailBodyPosition := stage.emailBodyPosition }

/-- `_load_and_render_stages`, from the loaded rows on. -/
def renderStages (render : TemplateRenderer) (run : RunRow) (stages : List Stage) :
    Except RenderError (List RenderedFragment) :=
  (submittedSorted run stages).zipIdx.mapM fun (stage, i) => renderStage render run stage i

/-! ## Attachments and body -/

/-- The `run_metadata` of both contexts. -/
def runMetadata (run : RunRow) : Json :=
  .obj [("tags", .arr (run.tags.elems.map .str)), ("created_at", .str (isoZ run.createdAt))]

/-- The context of the aggregation template. -/
def aggregationContext (run : RunRow) (fragments : List RenderedFragment) : Json :=
  .obj [("run_id", .str run.runId), ("pipeline_type", .str run.pipelineType),
    ("run_metadata", runMetadata run),
    ("stages", .arr (fragments.map fun f => .obj [("stage_id", .str f.stageId),
      ("stage_order", .int f.stageOrder), ("rendered_html", .str f.renderedHtml)]))]

/-- An attachment of rendered HTML. -/
def htmlAttachment (run : RunRow) (stageId : Option StageId) (html : String) : EmailAttachment where
  filename := buildAttachmentFilename run.pipelineType run.runId stageId
  contentType := "text/html; charset=utf-8"
  content := html

/-- `_build_attachments`. That the aggregation template is there is an invariant of `Run`. -/
def buildAttachments (render : TemplateRenderer) (run : Run) (fragments : List RenderedFragment) :
    Except RenderError (List EmailAttachment) :=
  if h : run.attachmentMode = .singleAggregated then
    (render .aggregation (run.aggregationTemplateRef.get (Option.isSome_iff_ne_none.mpr
      (run.aggregated h))) (aggregationContext run.toRunRow fragments)).map
        fun html => [htmlAttachment run.toRunRow none html]
  else .ok ((fragments.filter fun f => !f.isEmpty).map fun f =>
    htmlAttachment run.toRunRow (some f.stageId) f.renderedHtml)

/-- `_bucket`. -/
def bucket (fragments : List RenderedFragment) (position : EmailBodyPosition) : Json :=
  .arr ((fragments.filter fun f => f.emailBodyPosition = some position).map fun f =>
    .obj [("stage_id", .str f.stageId), ("stage_order", .int f.stageOrder),
      ("context", (f.emailBodyContext.map Json.obj).getD .null)])

/-- The context of the body template. -/
def bodyContext (run : RunRow) (fragments : List RenderedFragment) : Json :=
  .obj [("run_id", .str run.runId), ("pipeline_type", .str run.pipelineType),
    ("run_metadata", runMetadata run),
    ("stages", .arr (fragments.map fun f => .obj [("stage_id", .str f.stageId),
      ("stage_order", .int f.stageOrder), ("had_content", .bool (!f.isEmpty))])),
    ("attachment_mode", .str run.attachmentMode.value),
    ("before_contributions", bucket fragments .beforeStagesSummary),
    ("after_contributions", bucket fragments .afterStagesSummary)]

/-- `_render_email_body`. -/
def renderEmailBody (templates : BodyTemplates) (render : TemplateRenderer) (run : RunRow)
    (fragments : List RenderedFragment) : Except RenderError String :=
  render .body ((templates.emailBodyTemplateOverrides run.pipelineType).getD
    templates.emailBodyTemplateRef) (bodyContext run fragments)

/-! ## The whole e-mail -/

/-- A body and its attachments. -/
structure Assembled where
  bodyHtml : String
  attachments : List EmailAttachment
  deriving DecidableEq

section

variable (templates : BodyTemplates) (render : TemplateRenderer) (run : Run) (declaring : RunRow)
  (stages : List Stage)

/-- The rendering of an e-mail, from the loaded rows on: the stages in the order `declaring` has
them, the attachments, the body. -/
def assemble : Except RenderError Assembled := do
  let fragments ← renderStages render declaring stages
  let attachments ← buildAttachments render run fragments
  let body ← renderEmailBody templates render run.toRunRow fragments
  pure { bodyHtml := body, attachments := attachments }

/-- `e` is what the first render call to raise raises: every call before it returns. -/
inductive FirstRaised : RenderError → Prop
  | stage {e : RenderError} {before after : List (Stage × Nat)} {s : Stage} {i : Nat}
      (place : (submittedSorted declaring stages).zipIdx = before ++ (s, i) :: after)
      (returned : ∀ p ∈ before, ∃ f, renderStage render declaring p.1 p.2 = .ok f)
      (raised : renderStage render declaring s i = .error e) : FirstRaised e
  | aggregation {e : RenderError} {fragments : List RenderedFragment}
      (returned : renderStages render declaring stages = .ok fragments)
      (raised : buildAttachments render run fragments = .error e) : FirstRaised e
  | body {e : RenderError} {fragments : List RenderedFragment} {attachments : List EmailAttachment}
      (stagesReturned : renderStages render declaring stages = .ok fragments)
      (returned : buildAttachments render run fragments = .ok attachments)
      (raised : renderEmailBody templates render run.toRunRow fragments = .error e) : FirstRaised e

end

variable {templates : BodyTemplates} {render : TemplateRenderer} {run : Run} {declaring : RunRow}
  {stages : List Stage} {e : RenderError}

theorem renderStages_error_iff : renderStages render declaring stages = .error e ↔
    ∃ before after s i, (submittedSorted declaring stages).zipIdx = before ++ (s, i) :: after ∧
      (∀ p ∈ before, ∃ f, renderStage render declaring p.1 p.2 = .ok f) ∧
      renderStage render declaring s i = .error e := by
  unfold renderStages
  rw [mapM_eq_error_iff]
  constructor
  · rintro ⟨before, ⟨s, i⟩, after, place, returned, raised⟩
    exact ⟨before, after, s, i, place, returned, raised⟩
  · rintro ⟨before, after, s, i, place, returned, raised⟩
    exact ⟨before, (s, i), after, place, returned, raised⟩

/-- **An assembly fails with its first failing render call.** -/
theorem assemble_error_iff : assemble templates render run declaring stages = .error e ↔
    FirstRaised templates render run declaring stages e := by
  unfold assemble
  simp only [bind_eq_error_iff]
  constructor
  · rintro (h | ⟨fragments, hf, h | ⟨attachments, ha, h | ⟨body, -, h⟩⟩⟩)
    · obtain ⟨before, after, s, i, place, returned, raised⟩ := renderStages_error_iff.mp h
      exact .stage place returned raised
    · exact .aggregation hf h
    · exact .body hf ha h
    · cases h
  · rintro (⟨place, returned, raised⟩ | ⟨returned, raised⟩ | ⟨stagesReturned, returned, raised⟩)
    · exact .inl (renderStages_error_iff.mpr ⟨_, _, _, _, place, returned, raised⟩)
    · exact .inr ⟨_, returned, .inl raised⟩
    · exact .inr ⟨_, stagesReturned, .inr ⟨_, returned, .inl raised⟩⟩

/-- A renderer that always returns raises nothing. -/
theorem not_firstRaised_of_total (h : ∀ call t context, ∃ s, render call t context = .ok s) :
    ¬FirstRaised templates render run declaring stages e := by
  rintro (⟨-, -, raised⟩ | ⟨-, raised⟩ | ⟨-, -, raised⟩)
  · unfold renderStage at raised
    split at raised
    · cases raised
    · next context _ =>
      obtain ⟨s, hs⟩ := h (.stage _) _ (.obj context)
      rw [hs] at raised
      cases raised
  · unfold buildAttachments at raised
    split at raised
    · obtain ⟨s, hs⟩ := h .aggregation _ (aggregationContext run.toRunRow _)
      rw [hs] at raised
      cases raised
    · cases raised
  · obtain ⟨s, hs⟩ := h .body _ _
    unfold renderEmailBody at raised
    rw [hs] at raised
    cases raised

/-! ## The order of the rows -/

/-- The order of the stages of a report. -/
def stageBefore (run : RunRow) (a b : Stage) : Prop :=
  stageOrderOf run a.stageId < stageOrderOf run b.stageId ∨
    (stageOrderOf run a.stageId = stageOrderOf run b.stageId ∧ a.stageId ≤ b.stageId)

instance (run : RunRow) : DecidableRel (stageBefore run) := fun a b =>
  inferInstanceAs (Decidable (_ < _ ∨ (_ = _ ∧ a.stageId ≤ b.stageId)))

theorem total_stageBefore (run : RunRow) : Std.Total (stageBefore run) := ⟨fun a b => by
  unfold stageBefore
  rcases lt_trichotomy (stageOrderOf run a.stageId) (stageOrderOf run b.stageId) with h | h | h
  · exact .inl (.inl h)
  · exact (le_total a.stageId b.stageId).imp (fun hle => .inr ⟨h, hle⟩)
      fun hle => .inr ⟨h.symm, hle⟩
  · exact .inr (.inl h)⟩

theorem isTrans_stageBefore (run : RunRow) : IsTrans _ (stageBefore run) := ⟨fun a b c => by
  rintro (hab | ⟨hab, hid⟩) (hbc | ⟨hbc, hid'⟩)
  · exact .inl (lt_trans hab hbc)
  · exact .inl (hbc ▸ hab)
  · exact .inl (hab ▸ hbc)
  · exact .inr ⟨hab.trans hbc, le_trans hid hid'⟩⟩

theorem stageId_eq_of_stageBefore {run : RunRow} {a b : Stage} (hab : stageBefore run a b)
    (hba : stageBefore run b a) : a.stageId = b.stageId := by
  rcases hab with hab | ⟨hab, hid⟩
  · rcases hba with hba | ⟨hba, -⟩
    · exact absurd hab (Nat.lt_asymm hba)
    · exact absurd (hba ▸ hab) (Nat.lt_irrefl _)
  · rcases hba with hba | ⟨-, hid'⟩
    · exact absurd (hab ▸ hba) (Nat.lt_irrefl _)
    · exact le_antisymm hid hid'

/-- **The report does not depend on the order its stages are listed in.** -/
theorem submittedSorted_perm {run : RunRow} {stages stages' : List Stage}
    (hd : (stages.map Stage.stageId).Nodup) (h : stages.Perm stages') :
    submittedSorted run stages = submittedSorted run stages' := by
  have := total_stageBefore run
  have := isTrans_stageBefore run
  have hsorted (l : List Stage) : (submittedSorted run l).Pairwise (stageBefore run) :=
    List.pairwise_insertionSort (stageBefore run) _
  refine List.Perm.eq_of_pairwise ?_ (hsorted stages) (hsorted stages') ?_
  · intro a b ha hb hab hba
    have ha := (List.mem_filter.mp ((List.perm_insertionSort _ _).mem_iff.mp ha)).1
    have hb := (List.mem_filter.mp ((List.perm_insertionSort _ _).mem_iff.mp hb)).1
    exact List.inj_on_of_nodup_map hd ha (h.mem_iff.mpr hb) (stageId_eq_of_stageBefore hab hba)
  · exact ((List.perm_insertionSort _ _).trans (h.filter _)).trans
      (List.perm_insertionSort _ _).symm

theorem assemble_perm {run : Run} {stages stages' : List Stage}
    (hd : (stages.map Stage.stageId).Nodup) (h : stages.Perm stages') :
    assemble templates render run declaring stages =
      assemble templates render run declaring stages' := by
  unfold assemble renderStages
  rw [submittedSorted_perm hd h]

end MessageService.Application
