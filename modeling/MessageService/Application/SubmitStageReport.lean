import MessageService.Infrastructure.Store
import MessageService.Lib.JsonText

/-!
# SubmitStageReport

Model of `application/use_cases/submit_stage_report.py` (`SubmitStageReportUseCase.execute`) and of
its command. A stage keeps its contexts as the values that their texts are read back as
(`loads_dumps_context`). `submitStageReport_ok` is what an accepted submission does to the database.
-/

namespace MessageService.Application

open MessageService.Domain MessageService.Lib MessageService.Infrastructure

/-- `SubmitStageReportCommand`. -/
structure SubmitStageReportCommand where
  runId : String
  stageId : String
  reportContext : Option (Dict Json) := none
  emailBodyContext : Option (Dict Json) := none
  emailBodyPosition : Option EmailBodyPosition := none
  runId_ne : runId ≠ ""
  stageId_ne : stageId ≠ ""
  position_iff : emailBodyPosition = none ↔ emailBodyContext = none := by simp

/-- `SubmitStageReportResult`. -/
structure SubmitStageReportResult where
  stageState : StageState
  wasRetry : Bool
  deriving DecidableEq

/-- `_RUN_SUBMISSION_SOURCES`. -/
def runSubmissionSources : List RunState := [.initiated, .aggregating]

/-- `_STAGE_SUBMISSION_SOURCES`. -/
def stageSubmissionSources : List StageState := [.pending, .submitted, .retried]

/-- The state a submission takes a stage to. -/
def nextStageState (current : StageState) : StageState :=
  if current = .pending then .submitted else .retried

/-- `_serialize_context`: the keys of every dict are put in order. -/
def serializeContext (ctx : Option (Dict Json)) : Option (Dict Json) :=
  ctx.map fun es => (Json.sortMembers es).insertionSort Json.keyLE

/-- What is read back of the text of a context. -/
theorem loads_dumps_context {es : Dict Json} (h : (Json.obj es).valid = true) :
    Json.loads (Json.dumps (.obj es)) = (serializeContext (some es)).map Json.obj := by
  rw [Json.loads_dumps h, Json.sortKeys]
  rfl

theorem serializeContext_eq_none_iff {ctx : Option (Dict Json)} :
    serializeContext ctx = none ↔ ctx = none := Option.map_eq_none_iff

/-- The row that replaces the stage's. -/
def submittedStage (cmd : SubmitStageReportCommand) (runId : RunId) (current : Stage)
    (now : Instant) : Stage where
  runId := runId
  stageId := cmd.stageId
  state := nextStageState current.state
  reportTemplateRef := current.reportTemplateRef
  reportContext := serializeContext cmd.reportContext
  emailBodyContext := serializeContext cmd.emailBodyContext
  emailBodyPosition := cmd.emailBodyPosition
  submittedAt := some now
  pending_iff := by unfold nextStageState; split <;> simp
  submitted_at := by simp
  position_iff := cmd.position_iff.trans serializeContext_eq_none_iff.symm

/-- The `SUBMIT_STAGE_REPORT` audit event. -/
def submitEvent (cmd : SubmitStageReportCommand) (run : RunRow) (current : Stage) (now : Instant) :
    AuditEvent where
  timestamp := now
  action := .submitStageReport
  actor := "pipeline:" ++ run.pipelineType
  resource := runResource run.runId ++ "/stage:" ++ cmd.stageId
  outcome := .success
  details := [("run_id", .str run.runId), ("stage_id", .str cmd.stageId),
    ("prior_stage_state", .str current.state.value),
    ("new_stage_state", .str (nextStageState current.state).value),
    ("was_retry", .bool (current.state ≠ .pending)),
    ("run_transitioned_to_aggregating", .bool (run.state = .initiated)),
    ("has_report_context", .bool cmd.reportContext.isSome),
    ("has_email_body_context", .bool cmd.emailBodyContext.isSome),
    ("timestamp", .str (isoZ now))]

/-- The rejection of a submission to a stage in state `s`. -/
def stageStateError (runId : RunId) (stageId : StageId) (s : StageState) (suffix : String) :
    ServiceError :=
  { errorClass := .invalidStageStateError
    message := "stage (" ++ runId ++ ", " ++ stageId ++ ") " ++ suffix
    details := [("run_id", .str runId), ("stage_id", .str stageId),
      ("stage_state", .str s.value)] }

/-- `SubmitStageReportUseCase.execute`; `now` is read before the unit of work begins. -/
def submitStageReport (cmd : SubmitStageReportCommand) (now : Instant) :
    Transaction SubmitStageReportResult := do
  let runId ← Tx.attempt fun _ => validateRunIdStr cmd.runId
  let run ← RunRepository.get runId
  Tx.require (run.state ∈ runSubmissionSources) {
    errorClass := .invalidRunStateError
    message := "run " ++ runId ++ " is in state " ++ run.state.value ++
      "; stage submissions are only accepted while the run is INITIATED or AGGREGATING"
    details := [("run_id", .str runId), ("run_state", .str run.state.value),
      ("accepting_states", .arr (runSubmissionSources.map fun s => .str s.value))] }
  Tx.require (cmd.stageId ∈ run.declaredStageIds) {
    errorClass := .unknownStageError
    message := "stage_id " ++ pyRepr cmd.stageId ++ " is not declared for run " ++ runId
    details := [("run_id", .str runId), ("stage_id", .str cmd.stageId),
      ("declared_stages", .arr ((SortedSet.ofList run.declaredStageIds).elems.map .str))] }
  let current ← StageRepository.get runId cmd.stageId
  Tx.require (current.state.terminal = false)
    (stageStateError runId cmd.stageId current.state
      ("is in terminal state " ++ current.state.value ++ "; further submissions rejected"))
  Tx.require (current.state ∈ stageSubmissionSources)
    (stageStateError runId cmd.stageId current.state
      ("in state " ++ current.state.value ++ " does not accept submissions"))
  let _ ← Tx.attempt fun _ =>
    StageState.transition current.state (nextStageState current.state) runId cmd.stageId
  Tx.when (run.state = .initiated) do
    let _ ← Tx.attempt fun _ => RunState.transition run.state .aggregating runId
  AuditLog.record (submitEvent cmd run.toRunRow current now)
  StageRepository.save (submittedStage cmd runId current now)
  Tx.when (run.state = .initiated) (RunRepository.updateState runId .aggregating now)
  pure { stageState := nextStageState current.state, wasRetry := current.state ≠ .pending }

/-- An accepted submission: the rows it has found, and what it leaves in each table. -/
structure SubmissionAccepted (cmd : SubmitStageReportCommand) (now : Instant)
    (r : SubmitStageReportResult) (db db' : Db) (run : Run) (current : Stage) : Prop where
  found : db.runs.get? cmd.runId = some run.toRunRow ∧ run.runId = cmd.runId
  source : run.state ∈ runSubmissionSources
  stage : db.stages.get? (cmd.runId, cmd.stageId) = some current
  stageSource : current.state ∈ stageSubmissionSources
  result : r = {
    stageState := nextStageState current.state
    wasRetry := decide (current.state ≠ .pending) }
  runs : db'.runs = if run.state = .initiated then
    RunRepository.moved db.runs cmd.runId .aggregating now else db.runs
  stages : db'.stages = db.stages.upsert (submittedStage cmd cmd.runId current now)
    (fun _ => submittedStage cmd cmd.runId current now) (fun _ _ => rfl)
  auditLog : db'.auditLog = db.auditLog.insert (submitEvent cmd run.toRunRow current now)
  sweeperActions : db'.sweeperActions = db.sweeperActions

theorem submissionAccepted_of_ok {cmd : SubmitStageReportCommand} {now : Instant}
    {r : SubmitStageReportResult} {db db' : Db}
    (h : submitStageReport cmd now db = .ok (r, db')) :
    ∃ run current, SubmissionAccepted cmd now r db db' run current := by
  simp only [submitStageReport, RunRepository.get, AuditLog.record, Tx.ok_bind, Tx.ok_require,
    Tx.ok_attempt, Tx.ok_write, Tx.ok_pure, Tx.ok_when] at h
  obtain ⟨runId, _, ⟨hid, rfl⟩, run, _, ⟨hrun, rfl⟩, _, _, ⟨hstate, rfl⟩, _, _, ⟨_, rfl⟩,
    current, _, hcurrent, _, _, ⟨_, rfl⟩, _, _, ⟨hsource, rfl⟩, _, _, ⟨_, rfl⟩, _, mid, hwhen,
    _, _, rfl, _, _, hsave, _, _, hupdate, rfl, rfl⟩ := h
  obtain rfl := validateRunIdStr_ok hid
  obtain ⟨hget, rfl⟩ := StageRepository.get_ok hcurrent
  -- the check of the transition writes nothing
  have hmid : db = mid := by
    rcases hwhen with ⟨_, _, _, ⟨_, e⟩, _, e'⟩ | ⟨_, e⟩
    · exact e.trans e'
    · exact e
  subst hmid
  rw [StageRepository.save_ok hsave] at hupdate
  refine ⟨run, current, ?_⟩
  have hfound := And.intro (RunRepository.find_ok hrun) (RunRepository.runId_of_find hrun)
  rcases hupdate with ⟨hi, hu⟩ | ⟨hi, rfl⟩
  · rw [RunRepository.updateState_ok hu]
    exact ⟨hfound, hstate, hget, hsource, rfl, (if_pos hi).symm, rfl, rfl, rfl⟩
  · exact ⟨hfound, hstate, hget, hsource, rfl, (if_neg hi).symm, rfl, rfl, rfl⟩

/-- **What an accepted submission does**: it replaces the stage's row, adds one audit row, and
moves a run in `INITIATED` to `AGGREGATING`. -/
theorem submitStageReport_ok {cmd : SubmitStageReportCommand} {now : Instant}
    {r : SubmitStageReportResult} {db db' : Db}
    (h : submitStageReport cmd now db = .ok (r, db')) :
    ∃ (run : Run) (current : Stage), db.runs.get? cmd.runId = some run.toRunRow ∧
      run.runId = cmd.runId ∧ run.state ∈ runSubmissionSources ∧
      db'.runs = (if run.state = .initiated then
        RunRepository.moved db.runs cmd.runId .aggregating now else db.runs) ∧
      db'.auditLog = db.auditLog.insert (submitEvent cmd run.toRunRow current now) ∧
      db'.sweeperActions = db.sweeperActions := by
  obtain ⟨run, current, h⟩ := submissionAccepted_of_ok h
  exact ⟨run, current, h.found.1, h.found.2, h.source, h.runs, h.auditLog, h.sweeperActions⟩

/-- **What it replaces**: the stage's own row, from which only the template reference survives. -/
theorem submitStageReport_stage {cmd : SubmitStageReportCommand} {now : Instant}
    {r : SubmitStageReportResult} {db db' : Db}
    (h : submitStageReport cmd now db = .ok (r, db')) :
    ∃ current : Stage, db.stages.get? (cmd.runId, cmd.stageId) = some current ∧
      current.state ∈ stageSubmissionSources ∧
      r = { stageState := nextStageState current.state
            wasRetry := decide (current.state ≠ .pending) } ∧
      db'.stages = db.stages.upsert (submittedStage cmd cmd.runId current now)
        (fun _ => submittedStage cmd cmd.runId current now) (fun _ _ => rfl) := by
  obtain ⟨run, current, h⟩ := submissionAccepted_of_ok h
  exact ⟨current, h.stage, h.stageSource, h.result, h.stages⟩

end MessageService.Application
