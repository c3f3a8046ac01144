import MessageService.Application.AssembleAndDeliver

/-!
# ResendRun

Model of `application/use_cases/resend_run.py` (`ResendRunUseCase.execute`) with the part of
`prepare_email` it calls, as a machine with a phase between any two awaits.
-/

namespace MessageService.Application

open MessageService.Domain MessageService.Lib MessageService.Infrastructure

/-- `_RESENDABLE_STATES`. -/
def resendableStates : List RunState := [.sent, .failed]

/-- The outcome of a resend, as its audit row has it. -/
structure ResendOutcome where
  outcome : AuditOutcome
  details : Dict Json

/-- Where a resend stands between two awaits. -/
inductive ResendPhase where
  | requested
  /-- In a resendable state; `prepare_email` not yet begun. -/
  | preparing (run : Run)
  /-- `prepare_email` has its snapshot of the run. -/
  | loading (run prepared : Run)
  | rendering (run prepared : Run) (stages : List Stage)
  | resolving (run : Run) (assembled : Assembled)
  | sending (email : OutboundEmail)
  | auditing (record : ResendOutcome)
  | ended (outcome : Tx.Outcome ServiceError Unit)

/-- The refusal of a run in state `s`. -/
def notResendable (runId : RunId) (s : RunState) : ServiceError :=
  { errorClass := .invalidRunStateError
    message := "run " ++ runId ++ " cannot be resent in state " ++ s.value
    details := [("run_id", .str runId), ("current_state", .str s.value),
      ("permitted_states", .arr ((SortedSet.ofList
        (resendableStates.map RunState.value)).elems.map .str))] }

/-- The `RESEND_REPORT` event. -/
def resendEvent (runId : RunId) (adminUserId : Nat) (now : Instant) (record : ResendOutcome) :
    AuditEvent where
  timestamp := now
  action := .resendReport
  actor := "user:" ++ toString adminUserId
  resource := runResource runId
  outcome := record.outcome
  details := record.details

/-- The outcome of a resend that was delivered, or whose delivery failed. -/
def resendCompleted (runId : RunId) (recipients : SortedSet String) (attachmentCount : Nat)
    (failure : Option MailError) : ResendOutcome where
  outcome := if failure.isSome then .failure else .success
  details := Dict.merge [("run_id", .str runId), ("recipient_count", .int recipients.card),
    ("recipient_addresses", .arr (recipients.elems.map .str)),
    ("attachment_count", .int attachmentCount)]
    (failure.toList.map fun e => ("failure_reason", .str e.message))

/-- The outcome of `_record_render_failure`. -/
def renderFailed (runId : RunId) (e : RenderError) : ResendOutcome where
  outcome := .failure
  details := [("run_id", .str runId), ("recipient_count", .int 0), ("attachment_count", .int 0),
    ("failure_reason", .str e.failure.errorClass.name), ("error", .str e.message)]

/-- The exceptions the `except` clause around `prepare_email` names. -/
def isResendRenderFailure : RenderFailure → Bool
  | .templateRender | .renderedSizeExceeded | .contextSizeExceeded | .contextSchemaViolation => true
  | .unknownTemplate => false

variable (cfg : DeliveryConfig)

/-- After `prepare_email`. -/
def afterPreparing (runId : RunId) (run : Run) : Except RenderError Assembled → ResendPhase
  | .ok assembled => .resolving run assembled
  | .error e =>
    if isResendRenderFailure e.failure then .auditing (renderFailed runId e)
    else .ended (.raised e.toServiceError)

/-- After the recipients are resolved. -/
def afterResendResolving (runId : RunId) (run : RunRow) (assembled : Assembled)
    (recipients : SortedSet String) : ResendPhase :=
  if recipients.elems = [] then
    .auditing (resendCompleted runId recipients assembled.attachments.length none)
  else
    match outboundEmail cfg run recipients assembled with
    | .ok email => .sending email
    | .error e => .ended (.raised e)

/-- One step of a resend. -/
def resendStep (runId : RunId) (adminUserId : Nat) (input : DeliveryInput) :
    ResendPhase → Db → ResendPhase × Db
  | .requested, db =>
    (RunRepository.get runId).resume input.fate (fun run =>
      if run.state ∈ resendableStates then .preparing run
      else .ended (.raised (notResendable runId run.state))) .ended db
  | .preparing run, db => (RunRepository.get runId).resume input.fate (.loading run) .ended db
  | .loading run prepared, db =>
    (StageRepository.listByRun runId).resume input.fate (.rendering run prepared) .ended db
  | .rendering run prepared stages, db =>
    (RunRepository.get runId).resume input.fate (fun declaring => afterPreparing runId run
      (assemble cfg.toBodyTemplates input.render prepared declaring.toRunRow stages)) .ended db
  | .resolving run assembled, db =>
    (SubscriptionRepository.listRecipientsForRun run.pipelineType run.tags).resume input.fate
      (afterResendResolving cfg runId run.toRunRow assembled) .ended db
  | .sending email, db =>
    (.auditing (resendCompleted runId email.recipients email.attachments.length input.send), db)
  | .auditing record, db =>
    (AuditLog.record (resendEvent runId adminUserId input.now record)).resume input.fate
      (fun _ => .ended (.returned ())) .ended db
  | .ended outcome, db => (.ended outcome, db)

/-- The first `n` steps of a resend that runs alone. -/
def resendSteps (runId : RunId) (adminUserId : Nat) (env : Surroundings) (db : Db) :
    Nat → ResendPhase × Db :=
  System.alone (fun i s => resendStep cfg runId adminUserId (env.input i) s.1 s.2)
    (.requested, db)

/-- `ResendRunUseCase.execute`: there are at most seven phases before the last. -/
def resendRun (runId : RunId) (adminUserId : Nat) (env : Surroundings) (db : Db) :
    ResendPhase × Db :=
  resendSteps cfg runId adminUserId env db 7

/-- Once it has ended it stays so. -/
theorem resendSteps_of_ended {runId : RunId} {adminUserId : Nat} {env : Surroundings}
    {db db' : Db} {n m : Nat} {outcome : Tx.Outcome ServiceError Unit} (hm : n ≤ m)
    (h : resendSteps cfg runId adminUserId env db n = (.ended outcome, db')) :
    resendSteps cfg runId adminUserId env db m = (.ended outcome, db') :=
  System.alone_of_halted (fun _ => rfl) hm h

end MessageService.Application
