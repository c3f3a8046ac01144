import MessageService.Infrastructure.Store

/-!
# FinalizeRun

Model of `application/use_cases/finalize_run.py` (`FinalizeRunUseCase.execute`), up to its commit:
the delivery of the run is scheduled after it. `finalizeRun_ok` is what a successful call does to
the database.
-/

namespace MessageService.Application

open MessageService.Domain MessageService.Lib MessageService.Infrastructure

/-- `FinalizeRunCommand`. -/
structure FinalizeRunCommand where
  runId : String
  runId_ne : runId ≠ ""

/-- `FinalizeRunResult`. -/
structure FinalizeRunResult where
  runId : RunId
  state : RunState
  deriving DecidableEq

/-- The `FINALIZE_RUN` audit event. -/
def finalizeEvent (run : RunRow) (now : Instant) : AuditEvent where
  timestamp := now
  action := .finalizeRun
  actor := "pipeline:" ++ run.pipelineType
  resource := runResource run.runId
  outcome := .success
  details := [("run_id", .str run.runId), ("prior_state", .str RunState.aggregating.value),
    ("new_state", .str RunState.ready.value), ("timestamp", .str (isoZ now))]

/-- `FinalizeRunUseCase.execute`; `now` is read before the unit of work begins. -/
def finalizeRun (cmd : FinalizeRunCommand) (now : Instant) : Transaction FinalizeRunResult := do
  let runId ← Tx.attempt fun _ => validateRunIdStr cmd.runId
  let run ← RunRepository.get runId
  Tx.require (run.state = .aggregating) {
    errorClass := .invalidRunStateError
    message := "FinalizeRun requires run in AGGREGATING state; run " ++ runId ++ " is in " ++
      run.state.value
    details := [("run_id", .str runId), ("run_state", .str run.state.value),
      ("required_state", .str RunState.aggregating.value)] }
  let _ ← Tx.attempt fun _ => RunState.transition run.state .ready runId
  AuditLog.record (finalizeEvent run.toRunRow now)
  RunRepository.updateState runId .ready now
  pure { runId := runId, state := .ready }

/-- **What a successful FinalizeRun does**: it moves a run in `AGGREGATING` to `READY` and adds one
audit row. -/
theorem finalizeRun_ok {cmd : FinalizeRunCommand} {now : Instant} {r : FinalizeRunResult}
    {db db' : Db} (h : finalizeRun cmd now db = .ok (r, db')) :
    ∃ run : Run, db.runs.get? cmd.runId = some run.toRunRow ∧ run.runId = cmd.runId ∧
      run.state = .aggregating ∧ r = { runId := cmd.runId, state := .ready } ∧
      db'.runs = RunRepository.moved db.runs cmd.runId .ready now ∧
      db'.auditLog = db.auditLog.insert (finalizeEvent run.toRunRow now) ∧
      db'.sweeperActions = db.sweeperActions := by
  simp only [finalizeRun, RunRepository.get, AuditLog.record, Tx.ok_bind, Tx.ok_require,
    Tx.ok_attempt, Tx.ok_write, Tx.ok_pure] at h
  obtain ⟨runId, _, ⟨hid, rfl⟩, run, _, ⟨hrun, rfl⟩, _, _, ⟨hstate, rfl⟩, _, _, ⟨_, rfl⟩, _, _,
    rfl, _, _, hupdate, rfl, rfl⟩ := h
  obtain rfl := validateRunIdStr_ok hid
  refine ⟨run, RunRepository.find_ok hrun, RunRepository.runId_of_find hrun, hstate, rfl, ?_⟩
  rw [RunRepository.updateState_ok hupdate]
  exact ⟨rfl, rfl, rfl⟩

theorem keeps_stages_finalizeRun (cmd : FinalizeRunCommand) (now : Instant) :
    Tx.Keeps Db.stages (finalizeRun cmd now) :=
  .bind (.attempt _) fun _ => .bind (RunRepository.keeps_stages_get _) fun _ =>
    .bind (.require _ _) fun _ => .bind (.attempt _) fun _ =>
      .bind (AuditLog.keeps_stages_record _) fun _ =>
        .bind (RunRepository.keeps_stages_updateState _ _ _) fun _ => .pure _

end MessageService.Application
