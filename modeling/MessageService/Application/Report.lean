import MessageService.Application.Assembly

/-!
# What the e-mail of a run reports

The specification of `assemble`, in terms of the stages of the run. A `Part` is a stage that
submitted content, with what was rendered for it; `IsReport` says what the attachments and the body
are made of, given the parts.

Results:
* `isReport_of_assemble`: every assembled e-mail is a report of its parts, in their order.
* `perm_atPosition`: the two buckets of the body partition the parts with a body contribution.
* `assemble_congr`: only the rows of the contributing stages matter, in whatever order they come.
-/

namespace MessageService.Application

open MessageService.Domain MessageService.Lib

/-- The stage submitted content. -/
def Contributes (s : Stage) : Prop :=
  s.state = .submitted ∨ s.state = .accepted ∨ s.state = .retried

instance : DecidablePred Contributes := fun s =>
  inferInstanceAs (Decidable (s.state = _ ∨ s.state = _ ∨ s.state = _))

/-- A contributing stage and its rendered fragment. -/
structure Part where
  stage : Stage
  html : String

/-- Nothing but white space was rendered. -/
def Part.IsBlank (p : Part) : Prop := p.html.toList.all isSpace = true

instance : DecidablePred Part.IsBlank := fun _ => inferInstanceAs (Decidable (_ = true))

/-- The contributors whose body contribution goes to a position. -/
def atPosition (position : EmailBodyPosition) (contributors : List Stage) : List Stage :=
  contributors.filter fun s => s.emailBodyPosition = some position

/-! ## The entries of the contexts -/

section

variable (declaring : RunRow)

/-- The entry of a contributor in its bucket. -/
def contributionEntry (s : Stage) : Json :=
  .obj [("stage_id", .str s.stageId), ("stage_order", .int (stageOrderOf declaring s.stageId)),
    ("context", (s.emailBodyContext.map Json.obj).getD .null)]

/-- The entry of a part in the summary of the body. -/
def summaryEntry (p : Part) : Json :=
  .obj [("stage_id", .str p.stage.stageId),
    ("stage_order", .int (stageOrderOf declaring p.stage.stageId)),
    ("had_content", .bool !(decide p.IsBlank))]

/-- The entry of a part in the context of the aggregation. -/
def aggregationEntry (p : Part) : Json :=
  .obj [("stage_id", .str p.stage.stageId),
    ("stage_order", .int (stageOrderOf declaring p.stage.stageId)), ("rendered_html", .str p.html)]

/-- The fragment of a part. -/
def Part.fragment (p : Part) : RenderedFragment where
  stageId := p.stage.stageId
  stageOrder := stageOrderOf declaring p.stage.stageId
  renderedHtml := p.html
  emailBodyContext := p.stage.emailBodyContext
  emailBodyPosition := p.stage.emailBodyPosition

end

/-! ## The specification -/

section

variable (templates : BodyTemplates) (render : TemplateRenderer) (run : Run) (declaring : RunRow)
  (stages : List Stage)

/-- The `i`-th part has what the renderer made of its stage's report, nothing if it has none. -/
structure Part.Rendered (i : Nat) (p : Part) : Prop where
  absent : p.stage.reportContext = none → p.html = ""
  present (context : Dict Json) : p.stage.reportContext = some context →
    render (.stage i) p.stage.reportTemplateRef (.obj context) = .ok p.html

/-- `mail` reports `parts`. -/
structure IsReport (parts : List Part) (mail : Assembled) : Prop where
  /-- The parts are the stages that submitted content, each once. -/
  contributors : (parts.map Part.stage).Perm (stages.filter fun s => Contributes s)
  /-- They come by declared order, and by stage id within one. -/
  ordered : (parts.map Part.stage).Pairwise (stageBefore declaring)
  rendered (i : Nat) (p : Part) : parts[i]? = some p → p.Rendered render i
  /-- The aggregation receives every part. -/
  aggregated : run.attachmentMode = .singleAggregated → ∃ ref html,
    ∃ context : Dict Json, run.aggregationTemplateRef = some ref ∧
      render .aggregation ref (.obj context) = .ok html ∧
      context.get? "stages" = some (.arr (parts.map (aggregationEntry declaring))) ∧
      mail.attachments = [htmlAttachment run.toRunRow none html]
  /-- Each part that is not blank is an attachment. -/
  perStage : run.attachmentMode = .perStage → mail.attachments =
    (parts.filter fun p => ¬p.IsBlank).map fun p =>
      htmlAttachment run.toRunRow (some p.stage.stageId) p.html
  /-- The body receives every part in its summary and every contribution in its bucket. -/
  body : ∃ ref, ∃ context : Dict Json, render .body ref (.obj context) = .ok mail.bodyHtml ∧
    context.get? "stages" = some (.arr (parts.map (summaryEntry declaring))) ∧
    context.get? "before_contributions" = some (.arr ((atPosition .beforeStagesSummary
      (parts.map Part.stage)).map (contributionEntry declaring))) ∧
    context.get? "after_contributions" = some (.arr ((atPosition .afterStagesSummary
      (parts.map Part.stage)).map (contributionEntry declaring)))

end

variable {templates : BodyTemplates} {render : TemplateRenderer} {run : Run} {declaring : RunRow}
  {stages : List Stage}

/-! ## The contributors -/

theorem mem_includedStates_iff {s : Stage} : s.state ∈ includedStates ↔ Contributes s := by
  simp [includedStates, Contributes]

theorem submittedSorted_perm_contributors :
    (submittedSorted declaring stages).Perm (stages.filter fun s => Contributes s) := by
  unfold submittedSorted
  simp only [mem_includedStates_iff]
  exact List.perm_insertionSort _ _

theorem pairwise_submittedSorted :
    (submittedSorted declaring stages).Pairwise (stageBefore declaring) := by
  have := total_stageBefore declaring
  have := isTrans_stageBefore declaring
  exact List.pairwise_insertionSort (stageBefore declaring) _

/-- **The two buckets partition the contributors with a body contribution.** -/
theorem perm_atPosition (contributors : List Stage) :
    (atPosition .beforeStagesSummary contributors ++
      atPosition .afterStagesSummary contributors).Perm
        (contributors.filter fun s => s.emailBodyContext ≠ none) := by
  induction contributors with
  | nil => exact .refl _
  | cons s cs ih =>
    unfold atPosition at ih ⊢
    cases hp : s.emailBodyPosition with
    | none =>
      have hc : s.emailBodyContext = none := s.position_iff.mp hp
      simpa [hp, hc] using ih
    | some position =>
      have hc : s.emailBodyContext ≠ none := fun h => by simp [s.position_iff.mpr h] at hp
      cases position with
      | beforeStagesSummary => simpa [hp, hc] using ih
      | afterStagesSummary =>
        simpa [hp, hc] using List.perm_middle.trans (List.Perm.cons s ih)

/-! ## From fragments to parts -/

theorem renderStage_eq_ok {s : Stage} {i : Nat} {f : RenderedFragment}
    (h : renderStage render declaring s i = .ok f) :
    ∃ html, f = Part.fragment declaring ⟨s, html⟩ ∧ Part.Rendered render i ⟨s, html⟩ := by
  unfold renderStage at h
  cases hc : s.reportContext with
  | none =>
    rw [hc] at h
    cases h
    exact ⟨"", rfl, fun _ => rfl, fun c hs => by simp [hc] at hs⟩
  | some context =>
    rw [hc] at h
    simp only at h
    cases hr : render (.stage i) s.reportTemplateRef (.obj context) with
    | error e => rw [hr] at h; cases h
    | ok html =>
      rw [hr] at h
      cases h
      refine ⟨html, rfl, fun hn => by simp [hc] at hn, fun c hs => ?_⟩
      obtain rfl : context = c := by simpa [hc] using hs
      exact hr

/-- The rendering loop, from index `n` on. -/
theorem exists_parts_of_mapM {l : List Stage} {n : Nat} {fragments : List RenderedFragment}
    (h : ((l.zipIdx n).mapM fun p => renderStage render declaring p.1 p.2) = .ok fragments) :
    ∃ parts : List Part, parts.map Part.stage = l ∧
      fragments = parts.map (Part.fragment declaring) ∧
      ∀ i (p : Part), parts[i]? = some p → p.Rendered render (n + i) := by
  induction l generalizing n fragments with
  | nil =>
    cases h
    exact ⟨[], rfl, rfl, fun i p hp => by simp at hp⟩
  | cons s l ih =>
    rw [List.zipIdx_cons, List.mapM_cons] at h
    obtain ⟨f, hf, h⟩ := bind_eq_ok_iff.mp h
    obtain ⟨fs, hfs, h⟩ := bind_eq_ok_iff.mp h
    cases h
    obtain ⟨html, rfl, hr⟩ := renderStage_eq_ok hf
    obtain ⟨parts, rfl, rfl, hall⟩ := ih hfs
    refine ⟨⟨s, html⟩ :: parts, rfl, rfl, fun i p hp => ?_⟩
    cases i with
    | zero =>
      obtain rfl : (⟨s, html⟩ : Part) = p := by simpa using hp
      exact hr
    | succ i =>
      have := hall i p (by simpa using hp)
      rwa [Nat.add_right_comm, Nat.add_assoc] at this

theorem exists_parts {fragments : List RenderedFragment}
    (h : renderStages render declaring stages = .ok fragments) :
    ∃ parts : List Part, parts.map Part.stage = submittedSorted declaring stages ∧
      fragments = parts.map (Part.fragment declaring) ∧
      ∀ i (p : Part), parts[i]? = some p → p.Rendered render i := by
  obtain ⟨parts, hs, hf, hr⟩ := exists_parts_of_mapM h
  exact ⟨parts, hs, hf, fun i p hp => by simpa using hr i p hp⟩

theorem isEmpty_fragment (p : Part) : (p.fragment declaring).isEmpty = decide p.IsBlank := by
  exact Bool.decide_eq_true.symm

/-- A bucket lists the contributors at its position. -/
theorem bucket_fragments (parts : List Part) (position : EmailBodyPosition) :
    bucket (parts.map (Part.fragment declaring)) position =
      .arr ((atPosition position (parts.map Part.stage)).map (contributionEntry declaring)) := by
  unfold bucket atPosition
  rw [List.filter_map, List.filter_map, List.map_map, List.map_map]
  rfl

theorem buildAttachments_singleAggregated {fragments : List RenderedFragment}
    {attachments : List EmailAttachment} (hmode : run.attachmentMode = .singleAggregated)
    (h : buildAttachments render run fragments = .ok attachments) :
    ∃ ref html, run.aggregationTemplateRef = some ref ∧
      render .aggregation ref (aggregationContext run.toRunRow fragments) = .ok html ∧
      attachments = [htmlAttachment run.toRunRow none html] := by
  unfold buildAttachments at h
  rw [dif_pos hmode] at h
  generalize hr : render _ _ _ = r at h
  cases r with
  | error e => cases h
  | ok html =>
    cases h
    exact ⟨_, html, (Option.some_get _).symm, hr, rfl⟩

theorem buildAttachments_perStage {parts : List Part} {attachments : List EmailAttachment}
    (hmode : run.attachmentMode = .perStage)
    (h : buildAttachments render run (parts.map (Part.fragment declaring)) = .ok attachments) :
    attachments = (parts.filter fun p => ¬p.IsBlank).map fun p =>
      htmlAttachment run.toRunRow (some p.stage.stageId) p.html := by
  have hne : run.attachmentMode ≠ .singleAggregated := by
    rw [hmode]
    exact nofun
  unfold buildAttachments at h
  rw [dif_neg hne, List.filter_map, List.map_map] at h
  obtain rfl := Except.ok.inj h
  congr 1
  refine List.filter_congr fun p _ => ?_
  simp [isEmpty_fragment]

/-! ## Assembly -/

/-- **Every assembled e-mail is a report of its parts.** -/
theorem isReport_of_assemble {mail : Assembled}
    (h : assemble templates render run declaring stages = .ok mail) :
    ∃ parts, IsReport render run declaring stages parts mail := by
  unfold assemble at h
  obtain ⟨fragments, hf, h⟩ := bind_eq_ok_iff.mp h
  obtain ⟨attachments, ha, h⟩ := bind_eq_ok_iff.mp h
  obtain ⟨body, hb, h⟩ := bind_eq_ok_iff.mp h
  obtain rfl := Except.ok.inj h
  obtain ⟨parts, hs, rfl, hr⟩ := exists_parts hf
  refine ⟨parts, ⟨?_, ?_, hr, fun hmode => ?_, fun hmode => ?_, ?_⟩⟩
  · exact hs ▸ submittedSorted_perm_contributors
  · exact hs ▸ pairwise_submittedSorted
  · obtain ⟨ref, html, href, hhtml, hatt⟩ := buildAttachments_singleAggregated hmode ha
    refine ⟨ref, html, _, href, hhtml, ?_, hatt⟩
    rw [List.map_map]
    rfl
  · exact buildAttachments_perStage hmode ha
  · refine ⟨_, _, hb, ?_, ?_, ?_⟩
    · rw [List.map_map]
      refine congrArg (fun l => some (Json.arr l)) (List.map_congr_left fun p _ => ?_)
      simp only [Function.comp, isEmpty_fragment]
      rfl
    · exact congrArg some (bucket_fragments parts _)
    · exact congrArg some (bucket_fragments parts _)

/-- Only the rows of the contributing stages matter, in whatever order they come. -/
theorem assemble_congr {stages' : List Stage} (hd : (stages.map Stage.stageId).Nodup)
    (h : (stages.filter fun s => Contributes s).Perm (stages'.filter fun s => Contributes s)) :
    assemble templates render run declaring stages =
      assemble templates render run declaring stages' := by
  have hfilter (l : List Stage) : submittedSorted declaring l =
      submittedSorted declaring (l.filter fun s => Contributes s) := by
    unfold submittedSorted
    simp [mem_includedStates_iff]
  have hsub : ((stages.filter fun s => Contributes s).map Stage.stageId).Nodup :=
    hd.sublist (List.filter_sublist.map _)
  unfold assemble renderStages
  rw [hfilter stages, hfilter stages', submittedSorted_perm hsub h]

/-- A template of stages. -/
def pageTemplate : TemplateRef := ⟨"page", "3", by decide, by decide⟩

/-- A run of two contributing stages and a failed one, with its attachments by stage. -/
def reportedRun : Run where
  runId := "2f0e6b1c-5d5e-4c1a-9a55-0d3c2b1a4f60"
  pipelineType := "etl"
  tags := .ofList []
  declaredStages := [⟨"load", 1, pageTemplate⟩, ⟨"extract", 0, pageTemplate⟩,
    ⟨"test", 2, pageTemplate⟩]
  state := .ready
  attachmentMode := .perStage
  aggregationTemplateRef := none
  subscriptionPredicateTags := .ofList []
  createdAt := 0
  updatedAt := 0
  ordered := le_refl _
  aggregated := nofun
  distinct := by decide

/-- Its rows. -/
def reportedStages : List Stage :=
  let stage (stageId : StageId) (submittedAt : Instant) : Stage := {
    runId := reportedRun.runId
    stageId
    state := .submitted
    reportTemplateRef := pageTemplate
    reportContext := some []
    emailBodyContext := some [("rows", .int 1)]
    emailBodyPosition := some .afterStagesSummary
    submittedAt := some submittedAt
    pending_iff := nofun
    submitted_at := nofun }
  let failed : Stage :=
    { stage "test" 3 with state := .failed, pending_iff := nofun, submitted_at := nofun }
  [stage "load" 2, failed, stage "extract" 1]

end MessageService.Application
