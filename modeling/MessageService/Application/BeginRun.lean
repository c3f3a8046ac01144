import MessageService.Infrastructure.Store

/-!
# BeginRun

Model of `application/use_cases/begin_run.py` (`BeginRunUseCase.execute`, `_maybe_resolve_latest`)
and of its command. Nothing is written before the unit of work, so the validation and the unit of
work are one transaction. The run id is the `uuid4()` of the request, the template repository and
the tag vocabulary are ports.

`beginRun_ok` is what a successful call does to the database.
-/

namespace MessageService.Application

open MessageService.Domain MessageService.Lib MessageService.Infrastructure

/-- `DeclaredStageInput`. -/
structure DeclaredStageInput where
  stageId : StageId
  stageOrder : Nat
  reportTemplateRef : TemplateRef
  stageId_ne : stageId ≠ ""
  deriving DecidableEq

/-- `BeginRunCommand`. -/
structure BeginRunCommand where
  pipelineType : String
  tags : SortedSet String
  declaredStages : List DeclaredStageInput
  attachmentMode : AttachmentMode
  aggregationTemplateRef : Option TemplateRef := none
  pipelineType_ne : pipelineType ≠ ""

/-- `TemplateRepository`. -/
structure TemplateRepository where
  contains : TemplateRef → Bool
  resolveLatest : String → Except ServiceError TemplateRef

/-- The collaborators of `BeginRunUseCase`. -/
structure BeginRunPorts where
  pipelineRegistry : SortedSet String
  tagVocabulary : String → Bool
  templateRepo : TemplateRepository

variable (ports : BeginRunPorts)

/-- `_maybe_resolve_latest`, for a reference that is there. -/
def maybeResolveLatest (ref : TemplateRef) (role : String) (stageId : Option StageId) :
    Except ServiceError TemplateRef :=
  if ref.version ≠ "latest" then .ok ref
  else
    match ports.templateRepo.resolveLatest ref.name with
    | .ok resolved => .ok resolved
    | .error e =>
      if e.errorClass = .unknownTemplateError then .error {
        errorClass := .unknownTemplateError
        message := "unknown " ++ role ++ ": no manifest entries for name " ++ pyRepr ref.name
        details := [("name", .str ref.name), ("version", .str ref.version), ("role", .str role)] ++
          (stageId.toList.map fun s => ("stage_id", .str s)) }
      else .error e

/-- `TemplateRepository.exists` on a resolved reference. -/
def checkTemplate (ref : TemplateRef) (role description : String) (stageId : Option StageId) :
    Except ServiceError Unit :=
  if ports.templateRepo.contains ref then .ok ()
  else .error {
    errorClass := .unknownTemplateError
    message := "unknown " ++ description ++ ": " ++ ref.repr
    details := [("name", .str ref.name), ("version", .str ref.version), ("role", .str role)] ++
      (stageId.toList.map fun s => ("stage_id", .str s)) }

/-- The stage ids declared more than once. -/
def duplicateStageIds (cmd : BeginRunCommand) : SortedSet String :=
  let ids := cmd.declaredStages.map DeclaredStageInput.stageId
  .ofList (ids.filter fun i => 1 < ids.count i)

/-- The tags outside the vocabulary, sorted. -/
def invalidTags (cmd : BeginRunCommand) : List String :=
  cmd.tags.elems.filter fun t => !ports.tagVocabulary t

/-- Steps 1 to 4: pipeline type, tags, duplicate stage ids, attachment mode. -/
def validateCommand (cmd : BeginRunCommand) : Transaction Unit := do
  Tx.require (cmd.pipelineType ∈ ports.pipelineRegistry) {
    errorClass := .unknownPipelineTypeError
    message := "pipeline_type not registered: " ++ pyRepr cmd.pipelineType
    details := [("submitted", .str cmd.pipelineType),
      ("allowed", .arr (ports.pipelineRegistry.elems.map .str))] }
  Tx.require (invalidTags ports cmd = []) {
    errorClass := .unknownTagError
    message := "unknown tag(s): " ++ pyReprList (invalidTags ports cmd)
    details := [("invalid_tags", .arr ((invalidTags ports cmd).map .str))] }
  Tx.require ((duplicateStageIds cmd).elems = []) {
    errorClass := .duplicateStageIdError
    message := "duplicate stage_id(s) in declared_stages: " ++
      pyReprList (duplicateStageIds cmd).elems
    details := [("duplicates", .arr ((duplicateStageIds cmd).elems.map .str))] }
  Tx.require (cmd.attachmentMode = .singleAggregated → cmd.aggregationTemplateRef ≠ none) {
    errorClass := .missingAggregationTemplateError
    message := "SINGLE_AGGREGATED requires aggregation_template_ref"
    details := [("attachment_mode", .str cmd.attachmentMode.value)] }

/-- Step 5a for the aggregation template: a `PER_STAGE` run has none, whatever was supplied. -/
def resolveAggregationRef (cmd : BeginRunCommand) : Except ServiceError (Option TemplateRef) :=
  match cmd.attachmentMode, cmd.aggregationTemplateRef with
  | .singleAggregated, some ref =>
    (maybeResolveLatest ports ref "aggregation_template" none).map some
  | _, _ => .ok none

/-- Step 5a for one declared stage. -/
def resolveStage (ds : DeclaredStageInput) : Except ServiceError DeclaredStage :=
  (maybeResolveLatest ports ds.reportTemplateRef "report_template" (some ds.stageId)).map
    fun ref => { stageId := ds.stageId, stageOrder := ds.stageOrder, reportTemplateRef := ref }

/-- Step 5b for the aggregation template. -/
def checkAggregationRef : Option TemplateRef → Except ServiceError Unit
  | none => .ok ()
  | some ref => checkTemplate ports ref "aggregation_template" "aggregation_template" none

/-- Step 5b for one declared stage. -/
def checkStage (ds : DeclaredStage) : Except ServiceError Unit :=
  checkTemplate ports ds.reportTemplateRef "report_template"
    ("report_template for stage " ++ pyRepr ds.stageId) (some ds.stageId)

/-- The row of the new run. -/
def newRunRow (cmd : BeginRunCommand) (runId : RunId) (now : Instant)
    (aggregationRef : Option TemplateRef) (declared : List DeclaredStage) : RunRow where
  runId := runId
  pipelineType := cmd.pipelineType
  tags := cmd.tags
  declaredStages := declared
  state := .initiated
  attachmentMode := cmd.attachmentMode
  aggregationTemplateRef := aggregationRef
  subscriptionPredicateTags := cmd.tags
  createdAt := now
  updatedAt := now

/-- The `PENDING` row of a declared stage. -/
def initialStage (runId : RunId) (ds : DeclaredStage) : Stage where
  runId := runId
  stageId := ds.stageId
  state := .pending
  reportTemplateRef := ds.reportTemplateRef

/-- The `BEGIN_RUN` audit event. -/
def beginRunEvent (cmd : BeginRunCommand) (runId : RunId) (now : Instant)
    (declared : List DeclaredStage) : AuditEvent where
  timestamp := now
  action := .beginRun
  actor := "pipeline:" ++ cmd.pipelineType
  resource := runResource runId
  outcome := .success
  details := [("pipeline_type", .str cmd.pipelineType), ("tags", .arr (cmd.tags.elems.map .str)),
    ("declared_stage_ids", .arr (declared.map fun ds => .str ds.stageId)),
    ("attachment_mode", .str cmd.attachmentMode.value), ("timestamp", .str (isoZ now))]

/-- `BeginRunUseCase.execute`. -/
def beginRun (cmd : BeginRunCommand) (runId : RunId) (now : Instant) : Transaction RunId := do
  validateCommand ports cmd
  let aggregationRef ← Tx.attempt fun _ => resolveAggregationRef ports cmd
  let declared ← Tx.attempt fun _ => cmd.declaredStages.mapM (resolveStage ports)
  Tx.attempt fun _ => checkAggregationRef ports aggregationRef
  Tx.attempt fun _ => declared.forM (checkStage ports)
  let run ← Tx.attempt fun _ => Run.make (newRunRow cmd runId now aggregationRef declared)
  AuditLog.record (beginRunEvent cmd runId now declared)
  RunRepository.save run
  Tx.forEach StageRepository.save (declared.map (initialStage runId))
  pure runId

/-- **The stages of a new run**: the declared ones, resolved and checked, each with its `PENDING`
row. -/
theorem beginRun_stages {ports : BeginRunPorts} {cmd : BeginRunCommand} {runId r : RunId}
    {now : Instant} {db db' : Db} (h : beginRun ports cmd runId now db = .ok (r, db')) :
    ∃ (run : Run) (declared : List DeclaredStage) (aggregationRef : Option TemplateRef),
      run.toRunRow = newRunRow cmd runId now aggregationRef declared ∧
      resolveAggregationRef ports cmd = .ok aggregationRef ∧
      cmd.declaredStages.mapM (resolveStage ports) = .ok declared ∧
      checkAggregationRef ports aggregationRef = .ok () ∧
      declared.forM (checkStage ports) = .ok () ∧
      r = runId ∧ db'.runs = db.runs.upsert (RunRepository.runToRow run)
        (fun old => { RunRepository.runToRow run with createdAt := old.createdAt })
        (fun _ _ => rfl) ∧
      db' = { db with
        runs := db'.runs
        stages := db'.stages
        auditLog := db.auditLog.insert (beginRunEvent cmd runId now declared) } ∧
      ((∀ ds, db.stages.get? (runId, ds) = none) →
        db'.stages.rows = db.stages.rows ++ declared.map (initialStage runId)) := by
  simp only [beginRun, validateCommand, Tx.ok_bind, Tx.ok_require, Tx.ok_attempt, Tx.ok_pure,
    AuditLog.record, RunRepository.save, Tx.ok_write] at h
  obtain ⟨_, _, ⟨_, _, ⟨_, rfl⟩, _, _, ⟨_, rfl⟩, _, _, ⟨_, rfl⟩, _, rfl⟩, aggregationRef, _,
    ⟨hagg, rfl⟩, declared, _, ⟨hdeclared, rfl⟩, _, _, ⟨haggIn, rfl⟩, _, _, ⟨hin, rfl⟩, run, _,
    ⟨hrun, rfl⟩, _, _, rfl, _, _, rfl, _, _, hsave, rfl, rfl⟩ := h
  have hrow := Run.make_ok hrun
  have hown : ∀ s ∈ declared.map (initialStage runId), s.runId = runId := by
    intro s hs
    obtain ⟨ds, -, rfl⟩ := List.mem_map.mp hs
    rfl
  refine ⟨run, declared, aggregationRef, hrow, hagg, hdeclared, haggIn, hin, rfl, ?_, ?_, ?_⟩
  · obtain ⟨t, rfl, -⟩ := StageRepository.saveAll_ok hown hsave
    rfl
  · obtain ⟨t, rfl, -⟩ := StageRepository.saveAll_ok hown hsave
    rfl
  · intro hnew
    have hkeys : ((declared.map (initialStage runId)).map Stage.key).Nodup := by
      have hdistinct : (declared.map DeclaredStage.stageId).Nodup := by
        have := run.distinct
        rwa [hrow] at this
      have := hdistinct.map (f := fun i => (runId, i)) fun a b e => (Prod.mk.inj e).2
      simpa [List.map_map, Function.comp_def, Stage.key, initialStage] using this
    have happended := fun hfresh => StageRepository.rows_saveAll hkeys hfresh hsave
    refine happended fun s hs => ?_
    obtain ⟨ds, -, rfl⟩ := List.mem_map.mp hs
    exact hnew _

/-- **What a successful BeginRun does**: one new run in `INITIATED`, its stage rows, and one
`BEGIN_RUN` audit row. -/
theorem beginRun_ok {ports : BeginRunPorts} {cmd : BeginRunCommand} {runId r : RunId}
    {now : Instant} {db db' : Db} (h : beginRun ports cmd runId now db = .ok (r, db')) :
    ∃ (run : Run) (declared : List DeclaredStage) (aggregationRef : Option TemplateRef),
      run.toRunRow = newRunRow cmd runId now aggregationRef declared ∧
      db'.runs = db.runs.upsert (RunRepository.runToRow run)
        (fun old => { RunRepository.runToRow run with createdAt := old.createdAt })
        (fun _ _ => rfl) ∧
      db'.auditLog = db.auditLog.insert (beginRunEvent cmd runId now declared) ∧
      db'.sweeperActions = db.sweeperActions := by
  obtain ⟨run, declared, aggregationRef, hrow, -, -, -, -, -, hruns, hdb, -⟩ := beginRun_stages h
  refine ⟨run, declared, aggregationRef, hrow, hruns, ?_, ?_⟩
  · rw [hdb]
  · rw [hdb]

end MessageService.Application
