import MessageService.Application.Assembly
import MessageService.Infrastructure.Store
import MessageService.Lib.TransitionSystem

/-!
# AssembleAndDeliver

Model of `application/use_cases/assemble_and_deliver.py` (`AssembleAndDeliverUseCase.execute`), the
background delivery of a finalized run. Other tasks run between two units of work and at the send,
so a delivery is a machine with a phase between any two of them (`DeliveryPhase`, `deliveryStep`),
and `execute` runs it alone with persistence working.

The report store is left out. `SnapshotSaving` adds it: an exception of a save that is not caught
ends the delivery, which `savingStep_covered` shows to be an abort in the service.

* `startSending_ok`, `finalize_ok`: what the units of work that write do.
* `remaining_deliveryStep`: a delivery only moves forward.
-/

namespace MessageService.Application

open MessageService.Domain MessageService.Lib MessageService.Infrastructure

/-! ## Failure reasons -/

/-- `_FailureReason`. -/
structure FailureReason where
  code : String
  details : Dict Json
  unreserved : Unreserved details

theorem Unreserved.merge {a b : Dict Json} (ha : Unreserved a) (hb : Unreserved b) :
    Unreserved (a.merge b) :=
  fun k hk => (Dict.get?_merge_of_absent (hb k hk)).trans (ha k hk)

/-- The reason of an exception: its message and what the use case adds, under its own details. -/
def failureReason (code message : String) (recipientCount : Option Nat) (details : Dict Json)
    (unreserved : Unreserved details) : FailureReason where
  code := code
  details := Dict.merge (("message", .str message) ::
    recipientCount.toList.map fun n => ("recipient_count", .int n)) details
  unreserved := by
    refine Unreserved.merge ?_ unreserved
    intro k hk
    simp only [reservedKeys, List.mem_cons, List.not_mem_nil, or_false] at hk
    cases recipientCount <;> rcases hk with rfl | rfl | rfl | rfl | rfl <;> rfl

/-- `_merge_failure_details`. -/
def mergeFailureDetails (reason : FailureReason) : Dict Json :=
  let merged := Dict.merge [("failure_reason", .str reason.code)]
    (reason.details.erase "failure_reason")
  match reason.details.get? "failure_reason" with
  | none | some .null => merged
  | some classification => merged.set "smtp_failure_classification" classification

theorem unreserved_mergeFailureDetails (reason : FailureReason) :
    Unreserved (mergeFailureDetails reason) := by
  intro k hk
  have hcode : k ≠ "failure_reason" ∧ k ≠ "smtp_failure_classification" := by
    simp only [reservedKeys, List.mem_cons, List.not_mem_nil, or_false] at hk
    rcases hk with rfl | rfl | rfl | rfl | rfl <;> decide
  have hmerged : (Dict.merge [("failure_reason", Json.str reason.code)]
      (reason.details.erase "failure_reason")).get? k = none := by
    rw [Dict.get?_merge_of_absent, Dict.get?_cons, if_neg hcode.1.symm, Dict.get?_nil]
    rw [Dict.get?_erase, if_neg hcode.1]
    exact reason.unreserved k hk
  unfold mergeFailureDetails
  split
  · exact hmerged
  · exact hmerged
  · rw [Dict.get?_set, if_neg hcode.2.symm]
    exact hmerged

/-- The reason codes of render failures. There is no `except` clause for an unknown template. -/
def RenderFailure.reasonCode? : RenderFailure → Option String
  | .templateRender => some "TEMPLATE_RENDER"
  | .renderedSizeExceeded => some "RENDERED_SIZE_EXCEEDED"
  | .contextSizeExceeded => some "CONTEXT_SIZE_EXCEEDED"
  | .contextSchemaViolation => some "CONTEXT_SCHEMA_VIOLATION"
  | .unknownTemplate => none

/-- The reason code of a failed send. -/
def MailError.reasonCode (e : MailError) : String :=
  if e.sizeExceeded then "EMAIL_SIZE_EXCEEDED" else "EMAIL_DELIVERY"

/-! ## The units of work that write -/

/-- The actor of every event of a delivery. -/
def deliveryActor : String := "system:assemble_and_deliver"

/-- The event of `_transition`. -/
def transitionEvent (run : RunRow) (toState : RunState) (now : Instant) : AuditEvent where
  timestamp := now
  action := .runStateTransition
  actor := deliveryActor
  resource := runResource run.runId
  outcome := .success
  details := [("run_id", .str run.runId), ("prior_state", .str run.state.value),
    ("new_state", .str toState.value), ("timestamp", .str (isoZ now))]

/-- The first unit of work: `READY` to `SENDING` through `_transition`. -/
def startSending (runId : RunId) (now : Instant) : Transaction Run := do
  let run ← RunRepository.get runId
  let _ ← Tx.attempt fun _ => RunState.transition run.state .sending run.runId
  AuditLog.record (transitionEvent run.toRunRow .sending now)
  RunRepository.updateState run.runId .sending now
  pure run

/-- **What the first unit of work does**: it moves a run in `READY` to `SENDING`. -/
theorem startSending_ok {runId : RunId} {now : Instant} {run : Run} {db db' : Db}
    (h : startSending runId now db = .ok (run, db')) :
    db.runs.get? runId = some run.toRunRow ∧ run.runId = runId ∧ run.state = .ready ∧
      db'.runs = RunRepository.moved db.runs runId .sending now ∧
      db'.auditLog = db.auditLog.insert (transitionEvent run.toRunRow .sending now) ∧
      db'.sweeperActions = db.sweeperActions := by
  simp only [startSending, RunRepository.get, AuditLog.record, Tx.ok_bind, Tx.ok_attempt,
    Tx.ok_write, Tx.ok_pure] at h
  obtain ⟨run', _, ⟨hrun, rfl⟩, _, _, ⟨hedge, rfl⟩, _, _, rfl, _, _, hupdate, rfl, rfl⟩ := h
  have hid := RunRepository.runId_of_find hrun
  have hready := RunState.edge_sending_iff.mp (RunState.transition_ok.mp hedge).2
  rw [hid] at hupdate
  rw [RunRepository.updateState_ok hupdate]
  exact ⟨RunRepository.find_ok hrun, hid, hready, rfl, rfl, rfl⟩

theorem keeps_stages_startSending (runId : RunId) (now : Instant) :
    Tx.Keeps Db.stages (startSending runId now) :=
  .bind (RunRepository.keeps_stages_get _) fun _ => .bind (.attempt _) fun _ =>
    .bind (AuditLog.keeps_stages_record _) fun _ =>
      .bind (RunRepository.keeps_stages_updateState _ _ _) fun _ => .pure _

/-- The first unit of work gets through on a run in `READY`. -/
theorem startSending_of_ready {run : Run} {now : Instant} {db : Db}
    (hrow : db.runs.get? run.runId = some run.toRunRow) (hready : run.state = .ready) :
    startSending run.runId now db = .ok (run, { db with
      runs := RunRepository.moved db.runs run.runId .sending now
      auditLog := db.auditLog.insert (transitionEvent run.toRunRow .sending now) }) := by
  simp only [startSending, RunRepository.get, AuditLog.record, Tx.ok_bind, Tx.ok_attempt,
    Tx.ok_write, Tx.ok_pure]
  have hedge : RunState.transition run.state .sending run.runId = .ok .sending :=
    RunState.transition_ok.mpr ⟨rfl, RunState.edge_sending_iff.mpr hready⟩
  exact ⟨run, db, ⟨RunRepository.find_of_get? hrow, rfl⟩, .sending, db, ⟨hedge, rfl⟩, (), _, rfl,
    (), _, RunRepository.updateState_of_get? hrow, rfl, rfl⟩

/-- The event of `_record_reconciliation`. -/
def reconciliationEvent (runId : RunId) (now : Instant) (terminalState : RunState)
    (outcome : AuditOutcome) (extra : Dict Json) : AuditEvent where
  timestamp := now
  action := .sendReport
  actor := deliveryActor
  resource := runResource runId
  outcome := outcome
  details := Dict.merge [("run_id", .str runId), ("prior_state", .str terminalState.value),
    ("new_state", .str terminalState.value),
    ("reconciled_terminal_state", .str terminalState.value), ("timestamp", .str (isoZ now))] extra

/-- The `SEND_REPORT` event of a delivery that closes its run. -/
def sendReportEvent (runId : RunId) (now : Instant) (outcome : AuditOutcome)
    (details : Dict Json) : AuditEvent where
  timestamp := now
  action := .sendReport
  actor := deliveryActor
  resource := runResource runId
  outcome := outcome
  details := details

/-- How a delivery closes its run. -/
inductive Closing where
  | sent (recipients : SortedSet String) (attachmentCount : Nat)
  | failed (reason : FailureReason)

namespace Closing

/-- The state it closes the run in. -/
def target : Closing → RunState
  | sent _ _ => .sent
  | failed _ => .failed

/-- The outcome of its audit row. -/
def outcome : Closing → AuditOutcome
  | sent _ _ => .success
  | failed _ => .failure

/-- The details of its audit row. -/
def details (runId : RunId) (now : Instant) (prior : RunState) : Closing → Dict Json
  | sent recipients attachmentCount => [("run_id", .str runId),
      ("recipient_count", .int recipients.card),
      ("recipient_addresses", .arr (recipients.elems.map .str)),
      ("attachment_count", .int attachmentCount), ("prior_state", .str prior.value),
      ("new_state", .str RunState.sent.value), ("timestamp", .str (isoZ now))]
  | failed reason => Dict.merge [("run_id", .str runId), ("prior_state", .str prior.value),
      ("new_state", .str RunState.failed.value), ("timestamp", .str (isoZ now))]
      (mergeFailureDetails reason)

/-- The `details_extra` of its reconciliation row. -/
def extra : Closing → Dict Json
  | sent recipients attachmentCount =>
    [("recipient_count", .int recipients.card), ("attachment_count", .int attachmentCount)]
  | failed reason => mergeFailureDetails reason

/-- The payload of an exception overrides none of the keys a reader of the audit log goes by. -/
theorem get?_details (c : Closing) (runId : RunId) (now : Instant) (prior : RunState) :
    (c.details runId now prior).get? "run_id" = some (.str runId) ∧
      (c.details runId now prior).get? "prior_state" = some (.str prior.value) ∧
      (c.details runId now prior).get? "new_state" = some (.str c.target.value) ∧
      (c.details runId now prior).get? "reconciled_terminal_state" = none := by
  cases c with
  | sent recipients attachmentCount => exact ⟨rfl, rfl, rfl, rfl⟩
  | failed reason =>
    have h := unreserved_mergeFailureDetails reason
    unfold details
    rw [Dict.get?_merge_of_absent (h _ (by decide)), Dict.get?_merge_of_absent (h _ (by decide)),
      Dict.get?_merge_of_absent (h _ (by decide)), Dict.get?_merge_of_absent (h _ (by decide))]
    exact ⟨rfl, rfl, rfl, rfl⟩

theorem unreserved_extra (c : Closing) : Unreserved c.extra := by
  cases c with
  | sent recipients attachmentCount =>
    intro k hk
    simp only [reservedKeys, List.mem_cons, List.not_mem_nil, or_false] at hk
    rcases hk with rfl | rfl | rfl | rfl | rfl <;> rfl
  | failed reason => exact unreserved_mergeFailureDetails reason

end Closing

/-- The body `_finalize_sent` and `_finalize_failed` share: a run that has become terminal meanwhile
is left alone. -/
def finalize (runId : RunId) (closing : Closing) (now : Instant) : Transaction Unit := do
  let run ← RunRepository.get runId
  if run.state.terminal = true then
    AuditLog.record (reconciliationEvent runId now run.state closing.outcome closing.extra)
  else do
    let _ ← Tx.attempt fun _ => RunState.transition run.state closing.target runId
    AuditLog.record (sendReportEvent runId now closing.outcome
      (closing.details runId now run.state))
    RunRepository.updateState runId closing.target now

/-- `_finalize_sent`. -/
def finalizeSent (runId : RunId) (recipients : SortedSet String) (attachmentCount : Nat)
    (now : Instant) : Transaction Unit :=
  finalize runId (.sent recipients attachmentCount) now

/-- `_finalize_failed`. -/
def finalizeFailed (runId : RunId) (reason : FailureReason) (now : Instant) : Transaction Unit :=
  finalize runId (.failed reason) now

/-- **What the last unit of work does**: it moves a live run to its final state, and only adds a
reconciliation row to a run that is terminal already. -/
theorem finalize_ok {runId : RunId} {closing : Closing} {now : Instant} {r : Unit} {db db' : Db}
    (h : finalize runId closing now db = .ok (r, db')) :
    ∃ run : Run, db.runs.get? runId = some run.toRunRow ∧ run.runId = runId ∧
      (run.state.terminal = true ∧ db' = { db with
          auditLog := db.auditLog.insert
            (reconciliationEvent runId now run.state closing.outcome closing.extra) } ∨
        RunState.Edge run.state closing.target ∧
          db'.runs = RunRepository.moved db.runs runId closing.target now ∧
          db'.auditLog = db.auditLog.insert
            (sendReportEvent runId now closing.outcome (closing.details runId now run.state)) ∧
          db'.sweeperActions = db.sweeperActions) := by
  simp only [finalize, RunRepository.get, AuditLog.record, Tx.ok_bind, Tx.ok_attempt, Tx.ok_write,
    Tx.ok_ite] at h
  obtain ⟨run, _, ⟨hrun, rfl⟩, ⟨ht, rfl⟩ | ⟨_, _, _, ⟨hedge, rfl⟩, _, _, rfl, hupdate⟩⟩ := h
  · exact ⟨run, RunRepository.find_ok hrun, RunRepository.runId_of_find hrun, .inl ⟨ht, rfl⟩⟩
  · refine ⟨run, RunRepository.find_ok hrun, RunRepository.runId_of_find hrun, .inr ?_⟩
    rw [RunRepository.updateState_ok hupdate]
    exact ⟨(RunState.transition_ok.mp hedge).2, rfl, rfl, rfl⟩

theorem keeps_stages_finalize (runId : RunId) (closing : Closing) (now : Instant) :
    Tx.Keeps Db.stages (finalize runId closing now) :=
  .bind (RunRepository.keeps_stages_get _) fun _ => .ite (AuditLog.keeps_stages_record _) <|
    .bind (.attempt _) fun _ => .bind (AuditLog.keeps_stages_record _) fun _ =>
      RunRepository.keeps_stages_updateState _ _ _

/-- The last unit of work gets through on a run that may go to its final state. -/
theorem finalize_of_edge {run : Run} {how : Closing} {now : Instant} {db : Db}
    (hrow : db.runs.get? run.runId = some run.toRunRow)
    (hedge : RunState.Edge run.state how.target) :
    finalize run.runId how now db = .ok ((), { db with
      runs := RunRepository.moved db.runs run.runId how.target now
      auditLog := db.auditLog.insert (sendReportEvent run.runId now how.outcome
        (how.details run.runId now run.state)) }) := by
  simp only [finalize, RunRepository.get, AuditLog.record, Tx.ok_bind, Tx.ok_attempt, Tx.ok_write,
    Tx.ok_ite]
  have hlive : ¬run.state.terminal = true := fun h => RunState.not_edge_of_terminal h hedge
  exact ⟨run, db, ⟨RunRepository.find_of_get? hrow, rfl⟩, .inr ⟨hlive, how.target, db,
    ⟨RunState.transition_ok.mpr ⟨rfl, hedge⟩, rfl⟩, (), _, rfl,
    RunRepository.updateState_of_get? hrow⟩⟩

/-! ## The delivery as a machine -/

/-- The configuration of `AssembleAndDeliverUseCase`. -/
structure DeliveryConfig extends BodyTemplates where
  fromAddress : String
  adminRecipients : List String
  subjectTemplates : String → Option SubjectTemplate

variable (cfg : DeliveryConfig)

/-- `build_subject`. -/
def DeliveryConfig.buildSubject (run : RunRow) : Except ServiceError String :=
  Application.buildSubject run.pipelineType run.runId (cfg.subjectTemplates run.pipelineType)

/-- The `OutboundEmail` of a run. -/
def outboundEmail (run : RunRow) (recipients : SortedSet String) (assembled : Assembled) :
    Except ServiceError OutboundEmail := do
  let subject ← cfg.buildSubject run
  OutboundEmail.make recipients subject assembled.bodyHtml cfg.fromAddress assembled.attachments

/-- The `OutboundEmail` of the administrators' notification. -/
def adminNotification (runId : RunId) (now : Instant) : Except ServiceError OutboundEmail :=
  OutboundEmail.make (.ofList cfg.adminRecipients) (adminNotificationSubject runId)
    (adminNotificationBody runId "EMAIL_SIZE_EXCEEDED" (isoZ now)) cfg.fromAddress []

/-- Where a delivery stands between two awaits. -/
inductive DeliveryPhase where
  | scheduled
  /-- In `SENDING`, the stages not yet loaded. -/
  | loading (run : Run)
  | rendering (run : Run) (stages : List Stage)
  /-- Everything is rendered, the recipients are not yet resolved. -/
  | resolving (run : Run) (assembled : Assembled)
  | sending (email : OutboundEmail)
  | closing (how : Closing) (notify : Bool)
  /-- Closed because of the e-mail's size, the administrators not yet notified. -/
  | notifying
  | ended (outcome : Tx.Outcome ServiceError Unit)

/-- What one step of a delivery takes from outside: a clock reading, the fate of its unit of work,
the renderer, and what the mailer raises. -/
structure DeliveryInput where
  now : Instant
  fate : Tx.Fate
  render : TemplateRenderer
  send : Option MailError

/-- After rendering: the `except` clauses. -/
def afterRendering (run : Run) : Except RenderError Assembled → DeliveryPhase
  | .ok assembled => .resolving run assembled
  | .error e =>
    match e.failure.reasonCode? with
    | some code => .closing (.failed (failureReason code e.message none e.details e.unreserved))
        false
    | none => .ended (.raised e.toServiceError)

/-- After the recipients are resolved: no recipient closes the run as sent. -/
def afterResolving (run : RunRow) (assembled : Assembled) (recipients : SortedSet String) :
    DeliveryPhase :=
  if recipients.elems = [] then .closing (.sent .empty assembled.attachments.length) false
  else
    match outboundEmail cfg run recipients assembled with
    | .ok email => .sending email
    | .error e => .ended (.raised e)

/-- After `Mailer.send`. -/
def afterSending (email : OutboundEmail) : Option MailError → DeliveryPhase
  | none => .closing (.sent email.recipients email.attachments.length) false
  | some e => .closing (.failed (failureReason e.reasonCode e.message
      (some email.recipients.card) e.details e.unreserved)) e.sizeExceeded

/-- `_send_admin_notification_for_size_exceeded`. What the mailer raises is swallowed. -/
def afterNotifying (runId : RunId) (now : Instant) : DeliveryPhase :=
  if cfg.adminRecipients = [] then .ended (.returned ())
  else
    match adminNotification cfg runId now with
    | .ok _ => .ended (.returned ())
    | .error e => .ended (.raised e)

/-- One step of a delivery. -/
def deliveryStep (runId : RunId) (input : DeliveryInput) : DeliveryPhase → Db → DeliveryPhase × Db
  | .scheduled, db => (startSending runId input.now).resume input.fate .loading .ended db
  | .loading run, db => (StageRepository.listByRun runId).resume input.fate (.rendering run) .ended db
  | .rendering run stages, db =>
    (RunRepository.get runId).resume input.fate (fun declaring => afterRendering run
      (assemble cfg.toBodyTemplates input.render run declaring.toRunRow stages)) .ended db
  | .resolving run assembled, db =>
    (SubscriptionRepository.listRecipientsForRun run.pipelineType run.tags).resume input.fate
      (afterResolving cfg run.toRunRow assembled) .ended db
  | .sending email, db => (afterSending email input.send, db)
  | .closing how notify, db =>
    (finalize runId how input.now).resume input.fate
      (fun _ => if notify then .notifying else .ended (.returned ())) .ended db
  | .notifying, db => (afterNotifying cfg runId input.now, db)
  | .ended outcome, db => (.ended outcome, db)

/-- What a delivery meets from its first step to its last, with persistence working: a clock
reading for each step, the renderer, and the outcome of the send. -/
structure Surroundings where
  clock : Nat → Instant
  render : TemplateRenderer
  send : Option MailError

/-- The input of step `i`. -/
def Surroundings.input (env : Surroundings) (i : Nat) : DeliveryInput :=
  { now := env.clock i, fate := .commits, render := env.render, send := env.send }

/-- The first `n` steps of a delivery that runs alone. -/
def executeSteps (runId : RunId) (env : Surroundings) (db : Db) : Nat → DeliveryPhase × Db :=
  System.alone (fun i s => deliveryStep cfg runId (env.input i) s.1 s.2) (.scheduled, db)

/-- `AssembleAndDeliverUseCase.execute`: there are at most seven phases before the last. -/
def execute (runId : RunId) (env : Surroundings) (db : Db) : DeliveryPhase × Db :=
  executeSteps cfg runId env db 7

/-- The steps a delivery has at most before it. -/
def DeliveryPhase.remaining : DeliveryPhase → Nat
  | scheduled => 7
  | loading _ => 6
  | rendering _ _ => 5
  | resolving _ _ => 4
  | sending _ => 3
  | closing _ _ => 2
  | notifying => 1
  | ended _ => 0

theorem remaining_resume {α : Type} {x : Transaction α} {fate : Tx.Fate}
    {next : α → DeliveryPhase} {db : Db} {n : Nat} (h : ∀ a, (next a).remaining ≤ n) :
    (x.resume fate next .ended db).1.remaining ≤ n :=
  Tx.resume_fst_induct (P := fun p : DeliveryPhase => p.remaining ≤ n) (fun _ => Nat.zero_le n) h

/-- **A delivery only moves forward.** -/
theorem remaining_deliveryStep (cfg : DeliveryConfig) (runId : RunId) (input : DeliveryInput)
    (phase : DeliveryPhase) (db : Db) :
    (deliveryStep cfg runId input phase db).1.remaining ≤ phase.remaining - 1 := by
  cases phase with
  | scheduled => exact remaining_resume fun run => Nat.le_refl 6
  | loading run => exact remaining_resume fun stages => Nat.le_refl 5
  | rendering run stages =>
    refine remaining_resume (n := 4) fun declaring => ?_
    unfold afterRendering
    split
    · simp [DeliveryPhase.remaining]
    · split <;> simp [DeliveryPhase.remaining]
  | resolving run assembled =>
    refine remaining_resume (n := 3) fun recipients => ?_
    unfold afterResolving
    split
    · simp [DeliveryPhase.remaining]
    · split <;> simp [DeliveryPhase.remaining]
  | sending email =>
    simp only [deliveryStep, afterSending]
    split <;> simp [DeliveryPhase.remaining]
  | closing how notify =>
    refine remaining_resume (n := 1) fun _ => ?_
    split <;> simp [DeliveryPhase.remaining]
  | notifying =>
    simp only [deliveryStep, afterNotifying]
    split
    · simp [DeliveryPhase.remaining]
    · split <;> simp [DeliveryPhase.remaining]
  | ended outcome => simp [deliveryStep, DeliveryPhase.remaining]

/-- Once it has ended it stays so. -/
theorem executeSteps_of_ended {runId : RunId} {env : Surroundings} {db db' : Db} {n m : Nat}
    {outcome : Tx.Outcome ServiceError Unit} (hm : n ≤ m)
    (h : executeSteps cfg runId env db n = (.ended outcome, db')) :
    executeSteps cfg runId env db m = (.ended outcome, db') :=
  System.alone_of_halted (fun _ => rfl) hm h

end MessageService.Application
