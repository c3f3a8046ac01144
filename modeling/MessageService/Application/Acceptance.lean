import MessageService.Application.BeginRun
import MessageService.Application.FinalizeRun
import MessageService.Application.SubmitStageReport
import MessageService.Lib.TxRejection

/-!
# What the use cases of a pipeline reject

The decision tables of `BeginRunUseCase`, `SubmitStageReportUseCase` and `FinalizeRunUseCase`: the
class of the exception, from the command and the rows it is about.

* `rejection_beginRun`: it depends on the command alone.
* `rejection_submitStageReport`, `rejection_finalizeRun`: on the rows of the run and of the stage.

None of the later checks fails once the earlier ones have passed: the constructor of `Run`, the
foreign key of the stages, the transition tables and the update of the run's state.
-/

namespace MessageService.Application

open MessageService.Domain MessageService.Lib MessageService.Infrastructure

/-- The class of the exception that a use case raises. -/
abbrev rejects {α : Type} (x : Transaction α) (db : Db) : Option ErrorClass :=
  x.rejection ServiceError.errorClass db

/-! ## BeginRun -/

section

variable (ports : BeginRunPorts)

/-- The version that a reference stands for. -/
def resolved? (ref : TemplateRef) : Option TemplateRef :=
  if ref.version ≠ "latest" then some ref else (ports.templateRepo.resolveLatest ref.name).toOption

/-- A reference to a template of the repository. -/
def isKnown (ref : TemplateRef) : Bool := (resolved? ports ref).any ports.templateRepo.contains

/-- The reference to the aggregation template, where the mode has one. -/
def usedAggregationRef (cmd : BeginRunCommand) : Option TemplateRef :=
  match cmd.attachmentMode with
  | .singleAggregated => cmd.aggregationTemplateRef
  | .perStage => none

/-- The templates of a run. -/
def usedTemplates (cmd : BeginRunCommand) : List TemplateRef :=
  (usedAggregationRef cmd).toList ++ cmd.declaredStages.map DeclaredStageInput.reportTemplateRef

/-- What a `BeginRunCommand` is rejected for. -/
def beginRejection (cmd : BeginRunCommand) : Option ErrorClass :=
  if cmd.pipelineType ∉ ports.pipelineRegistry then some .unknownPipelineTypeError
  else if ¬∀ tag ∈ cmd.tags.elems, ports.tagVocabulary tag = true then some .unknownTagError
  else if ¬(cmd.declaredStages.map DeclaredStageInput.stageId).Nodup then
    some .duplicateStageIdError
  else if cmd.attachmentMode = .singleAggregated ∧ cmd.aggregationTemplateRef = none then
    some .missingAggregationTemplateError
  else if !(usedTemplates cmd).all (isKnown ports) then some .unknownTemplateError
  else none

/-- `resolve_latest` raises `UnknownTemplateError`. -/
def BeginRunPorts.Documented : Prop :=
  ∀ name e, ports.templateRepo.resolveLatest name = .error e → e.errorClass = .unknownTemplateError

/-- The exception is an `UnknownTemplateError`. -/
def IsUnknownTemplate (e : ServiceError) : Prop := e.errorClass = .unknownTemplateError

variable {ports}

theorem decides_maybeResolveLatest (hports : ports.Documented) (ref : TemplateRef) (role : String)
    (stageId : Option StageId) :
    Decides ((resolved? ports ref).isSome = true) IsUnknownTemplate
      (fun r => resolved? ports ref = some r) (maybeResolveLatest ports ref role stageId) := by
  unfold resolved? maybeResolveLatest
  by_cases hlatest : ref.version ≠ "latest"
  · rw [if_pos hlatest, if_pos hlatest]
    exact .ok rfl rfl
  rw [if_neg hlatest, if_neg hlatest]
  cases hr : ports.templateRepo.resolveLatest ref.name with
  | ok r => exact .ok rfl rfl
  | error e =>
    simp only [if_pos (hports _ _ hr)]
    exact .error (by simp [Except.toOption]) rfl

theorem decides_checkTemplate (ref : TemplateRef) (role description : String)
    (stageId : Option StageId) :
    Decides (ports.templateRepo.contains ref = true) IsUnknownTemplate (fun _ => True)
      (checkTemplate ports ref role description stageId) := by
  unfold checkTemplate
  split
  · next h => exact .ok h trivial
  · next h => exact .error h rfl

/-- The stage of the new run that a declared one becomes. -/
structure Resolves (ports : BeginRunPorts) (ds : DeclaredStageInput) (d : DeclaredStage) :
    Prop where
  template : resolved? ports ds.reportTemplateRef = some d.reportTemplateRef
  stageId : d.stageId = ds.stageId

theorem decides_resolveStage (hports : ports.Documented) (ds : DeclaredStageInput) :
    Decides ((resolved? ports ds.reportTemplateRef).isSome = true) IsUnknownTemplate
      (Resolves ports ds) (resolveStage ports ds) :=
  (decides_maybeResolveLatest hports _ _ _).map fun _ hr => ⟨hr, rfl⟩

theorem decides_resolveAggregationRef (hports : ports.Documented) (cmd : BeginRunCommand) :
    Decides ((usedAggregationRef cmd).all (fun ref => (resolved? ports ref).isSome) = true)
      IsUnknownTemplate (fun ref? => ref? = (usedAggregationRef cmd).bind (resolved? ports))
      (resolveAggregationRef ports cmd) := by
  unfold resolveAggregationRef usedAggregationRef
  cases cmd.attachmentMode with
  | perStage => exact .ok rfl rfl
  | singleAggregated =>
    cases cmd.aggregationTemplateRef with
    | none => exact .ok rfl rfl
    | some ref => exact (decides_maybeResolveLatest hports ref _ _).map fun _ hr => hr.symm

theorem decides_checkAggregationRef (ref? : Option TemplateRef) :
    Decides (ref?.all ports.templateRepo.contains = true) IsUnknownTemplate (fun _ => True)
      (checkAggregationRef ports ref?) := by
  cases ref? with
  | none => exact .ok rfl trivial
  | some ref => exact decides_checkTemplate ref _ _ _

/-- The four steps pass exactly where every template is known. -/
theorem all_isKnown_iff {cmd : BeginRunCommand} :
    (usedTemplates cmd).all (isKnown ports) = true ↔
      ((usedAggregationRef cmd).all (fun ref => (resolved? ports ref).isSome) = true ∧
        ∀ ds ∈ cmd.declaredStages, (resolved? ports ds.reportTemplateRef).isSome = true) ∧
      ((usedAggregationRef cmd).bind (resolved? ports)).all ports.templateRepo.contains = true ∧
        ∀ ds ∈ cmd.declaredStages,
          (resolved? ports ds.reportTemplateRef).all ports.templateRepo.contains = true := by
  have hknown (ref : TemplateRef) : isKnown ports ref = true ↔
      (resolved? ports ref).isSome = true ∧
        (resolved? ports ref).all ports.templateRepo.contains = true := by
    unfold isKnown
    cases resolved? ports ref <;> simp
  have hagg : (∀ ref ∈ (usedAggregationRef cmd).toList, isKnown ports ref = true) ↔
      (usedAggregationRef cmd).all (fun ref => (resolved? ports ref).isSome) = true ∧
        ((usedAggregationRef cmd).bind (resolved? ports)).all ports.templateRepo.contains =
          true := by
    cases usedAggregationRef cmd <;> simp [hknown]
  rw [usedTemplates, List.all_append, Bool.and_eq_true, List.all_eq_true, List.all_eq_true, hagg]
  simp only [List.forall_mem_map, hknown, forall_and]
  tauto

section

variable {declaredStages : List DeclaredStageInput} {declared : List DeclaredStage}

/-- The stages of the new run are all in the repository. -/
theorem forall_contains_iff (h : List.Forall₂ (Resolves ports) declaredStages declared) :
    (∀ d ∈ declared, ports.templateRepo.contains d.reportTemplateRef = true) ↔
      ∀ ds ∈ declaredStages,
        (resolved? ports ds.reportTemplateRef).all ports.templateRepo.contains = true := by
  induction h with
  | nil => simp
  | cons hd _ ih => simp [hd.template, ih]

theorem stageIds_of_resolves (h : List.Forall₂ (Resolves ports) declaredStages declared) :
    declared.map DeclaredStage.stageId =
      declaredStages.map DeclaredStageInput.stageId :=
  map_eq_of_forall₂ h.flip fun _ _ hd => hd.stageId

end

theorem invalidTags_eq_nil_iff {cmd : BeginRunCommand} :
    invalidTags ports cmd = [] ↔ ∀ tag ∈ cmd.tags.elems, ports.tagVocabulary tag = true := by
  simp [invalidTags, List.filter_eq_nil_iff]

theorem duplicateStageIds_eq_nil_iff {cmd : BeginRunCommand} :
    (duplicateStageIds cmd).elems = [] ↔
      (cmd.declaredStages.map DeclaredStageInput.stageId).Nodup := by
  rw [List.nodup_iff_count_le_one, duplicateStageIds]
  generalize cmd.declaredStages.map DeclaredStageInput.stageId = ids
  constructor
  · intro h id
    by_contra hcount
    have hid : id ∈ ids := List.count_pos_iff.mp (by omega)
    have hmem : id ∈ SortedSet.ofList (ids.filter fun i => 1 < ids.count i) :=
      SortedSet.mem_ofList.mpr (List.mem_filter.mpr ⟨hid, by simpa using hcount⟩)
    change id ∈ (SortedSet.ofList (ids.filter fun i => 1 < ids.count i)).elems at hmem
    rw [h] at hmem
    cases hmem
  · intro h
    refine List.eq_nil_iff_forall_not_mem.mpr fun id hid => ?_
    have hmem := (List.mem_filter.mp (SortedSet.mem_ofList.mp hid)).2
    have hcount := h id
    simp only [decide_eq_true_eq] at hmem
    omega

/-- The row of a stage is saved where its run's is. -/
theorem save_of_run {stage : Stage} {db : Db} (h : (db.runs.get? stage.runId).isSome = true) :
    StageRepository.save stage db = .ok ((), { db with
      stages := db.stages.upsert stage (fun _ => stage) fun _ _ => rfl }) := by
  simp [StageRepository.save, bind, Tx.attempt, Tx.write, h]

theorem exists_saveAll {stages : List Stage} {db : Db}
    (h : ∀ s ∈ stages, (db.runs.get? s.runId).isSome = true) :
    ∃ db', Tx.forEach StageRepository.save stages db = .ok ((), db') := by
  induction stages generalizing db with
  | nil => exact ⟨db, rfl⟩
  | cons s stages ih =>
    obtain ⟨hs, hstages⟩ := List.forall_mem_cons.mp h
    obtain ⟨db', hdb'⟩ := @ih { db with
      stages := db.stages.upsert s (fun _ => s) fun _ _ => rfl } hstages
    exact ⟨db', Tx.ok_bind.mpr ⟨(), _, save_of_run hs, hdb'⟩⟩

/-- What BeginRun does once its templates are checked does not fail. -/
theorem rejection_saveRun {cmd : BeginRunCommand} {runId : RunId} {now : Instant}
    {ref? : Option TemplateRef} {declared : List DeclaredStage} {db : Db}
    (hagg : cmd.attachmentMode = .singleAggregated → ref? ≠ none)
    (hdistinct : (declared.map DeclaredStage.stageId).Nodup) :
    rejects (do
      let run ← Tx.attempt fun _ => Run.make (newRunRow cmd runId now ref? declared)
      AuditLog.record (beginRunEvent cmd runId now declared)
      RunRepository.save run
      Tx.forEach StageRepository.save (declared.map (initialStage runId))
      pure runId) db = none := by
  have hmake := Run.make_toRunRow {
      newRunRow cmd runId now ref? declared with
      ordered := le_refl now
      aggregated := hagg
      distinct := hdistinct }
  refine (Tx.rejection_attempt_bind_of_ok (s := db) hmake).trans ?_
  rw [AuditLog.record, Tx.rejection_write_bind, RunRepository.save, Tx.rejection_write_bind]
  refine (exists_saveAll ?_).elim fun db' hdb' => (Tx.rejection_bind_of_ok hdb').trans rfl
  intro s hs
  obtain ⟨ds, -, rfl⟩ := List.mem_map.mp hs
  simp [initialStage, newRunRow, RunRepository.runToRow, Table.get?_upsert]

/-- **What BeginRun rejects.** -/
theorem rejection_beginRun (hports : ports.Documented) (cmd : BeginRunCommand) (runId : RunId)
    (now : Instant) (db : Db) :
    rejects (beginRun ports cmd runId now) db = beginRejection ports cmd := by
  unfold rejects beginRun validateCommand beginRejection
  simp only [Tx.bind_bind, Tx.rejection_require_bind, invalidTags_eq_nil_iff,
    duplicateStageIds_eq_nil_iff]
  by_cases hpipeline : cmd.pipelineType ∈ ports.pipelineRegistry
  swap
  · rw [if_neg hpipeline, if_pos hpipeline]
  rw [if_pos hpipeline, if_neg (not_not_intro hpipeline)]
  by_cases htags : ∀ tag ∈ cmd.tags.elems, ports.tagVocabulary tag = true
  swap
  · rw [if_neg htags, if_pos htags]
  rw [if_pos htags, if_neg (not_not_intro htags)]
  by_cases hdistinct : (cmd.declaredStages.map DeclaredStageInput.stageId).Nodup
  swap
  · rw [if_neg hdistinct, if_pos hdistinct]
  rw [if_pos hdistinct, if_neg (not_not_intro hdistinct)]
  by_cases hmode : cmd.attachmentMode = .singleAggregated ∧ cmd.aggregationTemplateRef = none
  · rw [if_neg (by simp [hmode.1, hmode.2]), if_pos hmode]
  rw [if_pos (not_and.mp hmode), if_neg hmode]
  have htail : rejects (do
      let ref? ← Tx.attempt fun _ => resolveAggregationRef ports cmd
      let declared ← Tx.attempt fun _ => cmd.declaredStages.mapM (resolveStage ports)
      Tx.attempt fun _ => checkAggregationRef ports ref?
      Tx.attempt fun _ => declared.forM (checkStage ports)
      let run ← Tx.attempt fun _ => Run.make (newRunRow cmd runId now ref? declared)
      AuditLog.record (beginRunEvent cmd runId now declared)
      RunRepository.save run
      Tx.forEach StageRepository.save (declared.map (initialStage runId))
      pure runId) db = if (usedTemplates cmd).all (isKnown ports) = true then none
        else some .unknownTemplateError := by
    simp only [all_isKnown_iff, ite_and]
    refine Tx.rejection_attempt_bind (decides_resolveAggregationRef hports cmd) ?_
    rintro hresolved _ rfl
    refine Tx.rejection_attempt_bind (.mapM fun ds _ => decides_resolveStage hports ds) ?_
    intro _ declared hdeclared
    refine Tx.rejection_attempt_bind (decides_checkAggregationRef _) ?_
    intro _ _ _
    simp only [← forall_contains_iff hdeclared]
    refine Tx.rejection_attempt_bind (.forM fun d _ => decides_checkTemplate _ _ _ _) ?_
    intro _ _ _
    refine rejection_saveRun (fun hsingle => ?_) ?_
    · have hused : usedAggregationRef cmd = cmd.aggregationTemplateRef := by
        simp [usedAggregationRef, hsingle]
      obtain ⟨ref, href⟩ := Option.ne_none_iff_exists'.mp (not_and.mp hmode hsingle)
      rw [hused, href] at hresolved ⊢
      exact Option.isSome_iff_ne_none.mp hresolved
    · rwa [stageIds_of_resolves hdeclared]
  rw [← rejects, htail]
  split <;> simp_all

end

/-! ## SubmitStageReport and FinalizeRun -/

/-- What the two use cases need of the rows: they decode, and a declared stage has its row, in a
state that takes submissions. -/
structure Serviceable (db : Db) : Prop where
  decodes : ∀ k row, db.runs.get? k = some row → ∃ run : Run, run.toRunRow = row
  staffed : ∀ k row, db.runs.get? k = some row → ∀ stageId ∈ row.declaredStageIds,
    ∃ current, db.stages.get? (k, stageId) = some current ∧
      current.state ∈ stageSubmissionSources

/-- What a `SubmitStageReportCommand` is rejected for. -/
def submitRejection (db : Db) (cmd : SubmitStageReportCommand) : Option ErrorClass :=
  if !matchesRunIdPattern cmd.runId then some .malformedRequestError
  else
    match db.runs.get? cmd.runId with
    | none => some .runNotFoundError
    | some row =>
      if row.state ∉ runSubmissionSources then some .invalidRunStateError
      else if cmd.stageId ∉ row.declaredStageIds then some .unknownStageError
      else none

/-- What a `FinalizeRunCommand` is rejected for. -/
def finalizeRejection (db : Db) (cmd : FinalizeRunCommand) : Option ErrorClass :=
  if !matchesRunIdPattern cmd.runId then some .malformedRequestError
  else
    match db.runs.get? cmd.runId with
    | none => some .runNotFoundError
    | some row => if row.state ≠ .aggregating then some .invalidRunStateError else none

theorem validateRunIdStr_of_matches {value : String} (h : matchesRunIdPattern value = true) :
    validateRunIdStr value = .ok value := if_pos h

theorem exists_malformed {value : String} (h : ¬matchesRunIdPattern value = true) :
    ∃ e, validateRunIdStr value = .error e ∧ e.errorClass = .malformedRequestError :=
  ⟨_, if_neg h, rfl⟩

theorem get_of_none {db : Db} {runId : RunId} (h : db.runs.get? runId = none) :
    RunRepository.get runId db = .error (RunRepository.notFound runId) := by
  simp [RunRepository.get, RunRepository.find, Tx.attempt, h]

theorem get_of_some {db : Db} {runId : RunId} {run : Run}
    (h : db.runs.get? runId = some run.toRunRow) : RunRepository.get runId db = .ok (run, db) := by
  simp [RunRepository.get, Tx.attempt, RunRepository.find_of_get? h]

/-- The update of a run that is there does not fail. -/
theorem rejection_updateState_bind {α : Type} {runId : RunId} {s : RunState} {now : Instant}
    {f : Unit → Transaction α} {db : Db} (hrun : (db.runs.get? runId).isSome = true) :
    rejects (RunRepository.updateState runId s now >>= f) db =
      rejects (f ()) { db with runs := RunRepository.moved db.runs runId s now } :=
  Tx.rejection_bind_of_ok (by simp [RunRepository.updateState, bind, Tx.attempt, Tx.write, hrun])

/-- What an accepted submission writes is written. -/
theorem rejection_writeSubmission {α : Type} {stage : Stage} {event : AuditEvent} {s : RunState}
    {now : Instant} {a : α} {db : Db} (hrun : (db.runs.get? stage.runId).isSome = true) :
    rejects (do
      AuditLog.record event
      StageRepository.save stage
      Tx.when (s = .initiated) (RunRepository.updateState stage.runId .aggregating now)
      pure a) db = none := by
  rw [rejects, AuditLog.record, Tx.rejection_write_bind]
  refine Eq.trans (Tx.rejection_bind_of_ok (save_of_run hrun)) ?_
  rw [Tx.rejection_when_bind]
  split
  · exact Eq.trans (rejection_updateState_bind (by exact hrun)) rfl
  · rfl

/-- **What SubmitStageReport rejects.** -/
theorem rejection_submitStageReport {db : Db} (hdb : Serviceable db)
    (cmd : SubmitStageReportCommand) (now : Instant) :
    rejects (submitStageReport cmd now) db = submitRejection db cmd := by
  unfold submitRejection
  by_cases hid : matchesRunIdPattern cmd.runId = true
  swap
  · rw [if_pos (by simp [hid])]
    obtain ⟨e, he, hclass⟩ := exists_malformed hid
    exact Eq.trans (Tx.rejection_attempt_bind_of_error (s := db) he) (congrArg some hclass)
  rw [if_neg (by simp [hid])]
  refine Eq.trans (Tx.rejection_attempt_bind_of_ok (s := db) (validateRunIdStr_of_matches hid)) ?_
  cases hrow : db.runs.get? cmd.runId with
  | none => exact Tx.rejection_bind_of_error (get_of_none hrow)
  | some row =>
    obtain ⟨run, rfl⟩ := hdb.decodes _ _ hrow
    refine Eq.trans (Tx.rejection_bind_of_ok (get_of_some hrow)) ?_
    rw [Tx.rejection_require_bind]
    by_cases hstate : run.state ∈ runSubmissionSources
    swap
    · simp [hstate]
    simp only [if_pos hstate, if_neg (not_not_intro hstate)]
    rw [Tx.rejection_require_bind]
    by_cases hdeclared : cmd.stageId ∈ run.declaredStageIds
    swap
    · simp [hdeclared]
    simp only [if_pos hdeclared, if_neg (not_not_intro hdeclared)]
    obtain ⟨current, hstage, hsource⟩ := hdb.staffed _ _ hrow _ hdeclared
    have hget : StageRepository.get cmd.runId cmd.stageId db = .ok (current, db) := by
      simp [StageRepository.get, Tx.attempt, hstage]
    have hlive : current.state.terminal = false ∧
        StageState.canTransition current.state (nextStageState current.state) = true := by
      simp only [stageSubmissionSources, List.mem_cons, List.not_mem_nil, or_false] at hsource
      rcases hsource with h | h | h <;> rw [h] <;> exact ⟨rfl, rfl⟩
    refine Eq.trans (Tx.rejection_bind_of_ok hget) ?_
    rw [Tx.rejection_require_bind, if_pos hlive.1, Tx.rejection_require_bind, if_pos hsource]
    refine Eq.trans (Tx.rejection_attempt_bind_of_ok (s := db) (if_pos hlive.2)) ?_
    rw [Tx.rejection_when_bind]
    have hfk : (db.runs.get? cmd.runId).isSome = true := by simp [hrow]
    split
    · next hi =>
      have hedge : RunState.transition run.state .aggregating cmd.runId = .ok .aggregating := by
        rw [hi]
        rfl
      rw [Tx.bind_bind]
      refine Eq.trans (Tx.rejection_attempt_bind_of_ok (s := db) hedge) ?_
      exact rejection_writeSubmission hfk
    · exact rejection_writeSubmission hfk

/-- **What FinalizeRun rejects.** -/
theorem rejection_finalizeRun {db : Db} (hdb : Serviceable db) (cmd : FinalizeRunCommand)
    (now : Instant) : rejects (finalizeRun cmd now) db = finalizeRejection db cmd := by
  unfold finalizeRejection
  by_cases hid : matchesRunIdPattern cmd.runId = true
  swap
  · rw [if_pos (by simp [hid])]
    obtain ⟨e, he, hclass⟩ := exists_malformed hid
    exact Eq.trans (Tx.rejection_attempt_bind_of_error (s := db) he) (congrArg some hclass)
  rw [if_neg (by simp [hid])]
  refine Eq.trans (Tx.rejection_attempt_bind_of_ok (s := db) (validateRunIdStr_of_matches hid)) ?_
  cases hrow : db.runs.get? cmd.runId with
  | none => exact Tx.rejection_bind_of_error (get_of_none hrow)
  | some row =>
    obtain ⟨run, rfl⟩ := hdb.decodes _ _ hrow
    refine Eq.trans (Tx.rejection_bind_of_ok (get_of_some hrow)) ?_
    rw [Tx.rejection_require_bind]
    by_cases hstate : run.state = .aggregating
    swap
    · simp [hstate]
    simp only [if_pos hstate, if_neg (not_not_intro hstate)]
    have hedge : RunState.transition run.state .ready cmd.runId = .ok .ready := by
      rw [hstate]
      rfl
    refine Eq.trans (Tx.rejection_attempt_bind_of_ok (s := db) hedge) ?_
    rw [AuditLog.record, Tx.rejection_write_bind]
    exact rejection_updateState_bind (by simp [hrow])

end MessageService.Application
