import MessageService.System.Closing

/-!
# How a resend that runs alone ends

`ResendRunUseCase.execute` with persistence working and arbitrary outcomes of the renderer and the
mailer. It refuses a run that is not there or not resendable, and leaves one `RESEND_REPORT` row of
any other (`KeepsRecord`) unless an exception it has no `except` clause for gets in its way
(`Resendable`).

* `resend_keeps_record_iff`: the record is kept exactly when the run is resendable.
* `removed_template_leaves_no_record`: a template that is gone leaves no row.
-/

namespace MessageService.System

open MessageService.Domain MessageService.Lib MessageService.Infrastructure
open MessageService.Application

section

variable (cfg : DeliveryConfig) (env : Surroundings) (db : Db)

/-- A resend keeps its record: it refuses a request and writes nothing, or returns and adds one
`RESEND_REPORT` row, with the outcome of what it did, and nothing else. -/
def KeepsRecord (stored : Option Run) (r : ResendPhase × Db) : Prop :=
  (∃ e, r = (.ended (.raised e), db) ∧
    (e.errorClass = .runNotFoundError ∧ stored = none ∨
      e.errorClass = .invalidRunStateError ∧
        ∃ run, stored = some run ∧ run.state ∉ resendableStates)) ∨
    ∃ run e, stored = some run ∧
      r = (.ended (.returned ()), { db with auditLog := db.auditLog.insert e }) ∧
      e.action = .resendReport ∧ (∀ k, concerns k e = true ↔ k = run.runId) ∧
      (e.outcome = .success ↔ Succeeds cfg run env.render db env.send)

/-- Nothing gets in the way of a resend that it has no `except` clause for. -/
structure Resendable (run : Run) : Prop where
  known : ∀ e, RenderRaises cfg run env.render db e → e.failure ≠ .unknownTemplate
  addressed : Renders cfg run env.render db → (recipientsOf run db).elems ≠ [] →
    Addressable cfg run

end

/-! ## The steps of a resend that runs alone -/

section

variable {cfg : DeliveryConfig} {adminUserId : Nat} {env : Surroundings} {db : Db} {run : Run}

theorem resendSteps_succ {runId : RunId} {phase : ResendPhase} {db' : Db} {n : Nat}
    (h : resendSteps cfg runId adminUserId env db n = (phase, db')) :
    resendSteps cfg runId adminUserId env db (n + 1) =
      resendStep cfg runId adminUserId (env.input n) phase db' :=
  System.alone_succ h

theorem get_of_stored (hrow : db.runs.get? run.runId = some run.toRunRow) :
    RunRepository.get run.runId db = .ok (run, db) := by
  simp only [RunRepository.get, Tx.ok_attempt, and_true]
  exact RunRepository.find_of_get? hrow

/-- Everything is rendered, or something is not. -/
theorem resendSteps_four (hrow : db.runs.get? run.runId = some run.toRunRow)
    (hstate : run.state ∈ resendableStates) :
    resendSteps cfg run.runId adminUserId env db 4 =
      (afterPreparing run.runId run (assemble cfg.toBodyTemplates env.render run run.toRunRow
        (StageRepository.ofRun db run.runId)), db) := by
  have hget := get_of_stored hrow
  have hlist : StageRepository.listByRun run.runId db =
      .ok (StageRepository.ofRun db run.runId, db) := rfl
  have hone : resendSteps cfg run.runId adminUserId env db 1 = (.preparing run, db) := by
    refine (Tx.resume_of_ok hget).trans ?_
    rw [if_pos hstate]
  have htwo : resendSteps cfg run.runId adminUserId env db 2 = (.loading run run, db) := by
    simp only [resendSteps_succ hone, resendStep, Surroundings.input]
    rw [Tx.resume_of_ok hget]
  have hthree : resendSteps cfg run.runId adminUserId env db 3 =
      (.rendering run run (StageRepository.ofRun db run.runId), db) := by
    simp only [resendSteps_succ htwo, resendStep, Surroundings.input]
    rw [Tx.resume_of_ok hlist]
  simp only [resendSteps_succ hthree, resendStep, Surroundings.input]
  rw [Tx.resume_of_ok hget]

theorem resendSteps_resolving {a : Assembled} {n : Nat}
    (h : resendSteps cfg run.runId adminUserId env db n = (.resolving run a, db)) :
    resendSteps cfg run.runId adminUserId env db (n + 1) =
      (afterResendResolving cfg run.runId run.toRunRow a (recipientsOf run db), db) := by
  have hlist : SubscriptionRepository.listRecipientsForRun run.pipelineType run.tags db =
      .ok (recipientsOf run db, db) := rfl
  simp only [resendSteps_succ h, resendStep, Surroundings.input]
  rw [Tx.resume_of_ok hlist]

theorem resendSteps_sending {email : OutboundEmail} {n : Nat}
    (h : resendSteps cfg run.runId adminUserId env db n = (.sending email, db)) :
    resendSteps cfg run.runId adminUserId env db (n + 1) = (.auditing (resendCompleted run.runId
      email.recipients email.attachments.length env.send), db) := by
  simp only [resendSteps_succ h, resendStep, Surroundings.input]

/-- **The last unit of work writes the record.** -/
theorem resendSteps_auditing {record : ResendOutcome} {n : Nat}
    (h : resendSteps cfg run.runId adminUserId env db n = (.auditing record, db)) :
    resendSteps cfg run.runId adminUserId env db (n + 1) =
      (.ended (.returned ()), { db with
        auditLog := db.auditLog.insert (resendEvent run.runId adminUserId (env.clock n) record) })
      := by
  simp only [resendSteps_succ h, resendStep, Surroundings.input]
  exact Tx.resume_of_ok rfl

/-- A resend that gets to its last unit of work keeps its record. -/
theorem keepsRecord_of_auditing {record : ResendOutcome} {n : Nat} (hn : n + 1 ≤ 7)
    (h : resendSteps cfg run.runId adminUserId env db n = (.auditing record, db))
    (hid : record.details.get? "run_id" = some (.str run.runId))
    (houtcome : record.outcome = .success ↔ Succeeds cfg run env.render db env.send) :
    KeepsRecord cfg env db (some run) (resendRun cfg run.runId adminUserId env db) := by
  have hend := resendSteps_of_ended cfg hn (resendSteps_auditing h)
  refine .inr ⟨run, _, rfl, hend, rfl, concerns_iff ?_ hid, houtcome⟩
  simp [resendEvent]

/-- One that an exception ends does not, unless it was refused. -/
theorem not_keepsRecord_of_raised {e : ServiceError} {n : Nat} (hn : n ≤ 7)
    (hstate : run.state ∈ resendableStates)
    (h : resendSteps cfg run.runId adminUserId env db n = (.ended (.raised e), db)) :
    ¬KeepsRecord cfg env db (some run) (resendRun cfg run.runId adminUserId env db) := by
  have hend : resendRun cfg run.runId adminUserId env db = _ := resendSteps_of_ended cfg hn h
  rw [hend]
  rintro (⟨e', -, ⟨-, hnone⟩ | ⟨-, run', hrun, hrefused⟩⟩ | ⟨_, _, -, heq, -⟩)
  · cases hnone
  · obtain rfl := Option.some.inj hrun
    exact hrefused hstate
  · cases heq

/-- A run that is not there, or not resendable, is refused. -/
theorem keepsRecord_of_refused {runId : RunId} {stored : Option Run}
    (hstored : db.runs.get? runId = stored.map Run.toRunRow)
    (hrefused : ∀ run, stored = some run → run.state ∉ resendableStates) :
    KeepsRecord cfg env db stored (resendRun cfg runId adminUserId env db) := by
  left
  cases stored with
  | none =>
    have hget : RunRepository.get runId db = .error (RunRepository.notFound runId) := by
      simp only [RunRepository.get, Tx.attempt, RunRepository.find, hstored, Option.map_none]
    exact ⟨_, resendSteps_of_ended cfg (n := 1) (by decide) (Tx.resume_of_error hget),
      .inl ⟨rfl, rfl⟩⟩
  | some run =>
    obtain rfl : run.runId = runId := Table.key_of_get? hstored
    have hno := hrefused run rfl
    have hone : resendSteps cfg run.runId adminUserId env db 1 =
        (.ended (.raised (notResendable run.runId run.state)), db) := by
      refine (Tx.resume_of_ok (get_of_stored hstored)).trans ?_
      rw [if_neg hno]
    exact ⟨_, resendSteps_of_ended cfg (by decide) hone, .inr ⟨rfl, run, rfl, hno⟩⟩

/-! ## The outcome -/

theorem isResendRenderFailure_iff {f : RenderFailure} :
    isResendRenderFailure f = true ↔ f ≠ .unknownTemplate := by
  cases f <;> simp [isResendRenderFailure]

theorem resendCompleted_outcome {runId : RunId} {recipients : SortedSet String} {n : Nat}
    {failure : Option MailError} :
    (resendCompleted runId recipients n failure).outcome = .success ↔ failure = none := by
  cases failure <;> simp [resendCompleted]

theorem resendCompleted_runId {runId : RunId} {recipients : SortedSet String} {n : Nat}
    {failure : Option MailError} :
    (resendCompleted runId recipients n failure).details.get? "run_id" = some (.str runId) := by
  cases failure <;> rfl

/-- Something is not rendered. -/
theorem keepsRecord_iff_of_error (hrow : db.runs.get? run.runId = some run.toRunRow)
    (hstate : run.state ∈ resendableStates) {e : RenderError}
    (ha : assemble cfg.toBodyTemplates env.render run run.toRunRow
      (StageRepository.ofRun db run.runId) = .error e) :
    KeepsRecord cfg env db (some run) (resendRun cfg run.runId adminUserId env db) ↔
      Resendable cfg env db run := by
  have hfour : resendSteps cfg run.runId adminUserId env db 4 = _ := resendSteps_four hrow hstate
  have hraises := renderRaises_of_error ha
  have hrenders : ¬Renders cfg run env.render db := fun h => h e ((hraises e).mpr rfl)
  rw [ha] at hfour
  by_cases hknown : e.failure = .unknownTemplate
  · have hno : ¬isResendRenderFailure e.failure = true := by
      rw [isResendRenderFailure_iff]
      exact not_not.mpr hknown
    simp only [afterPreparing, if_neg hno] at hfour
    refine iff_of_false (not_keepsRecord_of_raised (by decide) hstate hfour) fun hd => ?_
    exact hd.known e ((hraises e).mpr rfl) hknown
  · simp only [afterPreparing, if_pos (isResendRenderFailure_iff.mpr hknown)] at hfour
    refine iff_of_true (keepsRecord_of_auditing (by decide) hfour rfl ?_) ⟨?_, ?_⟩
    · exact iff_of_false (by simp [renderFailed]) fun hs => hrenders hs.1
    · intro e' he'
      obtain rfl := (hraises e').mp he'
      exact hknown
    · exact fun h => absurd h hrenders

/-- Everything is rendered. -/
theorem keepsRecord_iff_of_ok (hrow : db.runs.get? run.runId = some run.toRunRow)
    (hstate : run.state ∈ resendableStates) {a : Assembled}
    (ha : assemble cfg.toBodyTemplates env.render run run.toRunRow
      (StageRepository.ofRun db run.runId) = .ok a) :
    KeepsRecord cfg env db (some run) (resendRun cfg run.runId adminUserId env db) ↔
      Resendable cfg env db run := by
  have hfour : resendSteps cfg run.runId adminUserId env db 4 = _ := resendSteps_four hrow hstate
  have hrenders := renders_of_ok ha
  have hknown : ∀ e, RenderRaises cfg run env.render db e → e.failure ≠ .unknownTemplate :=
    fun e he => absurd he (hrenders e)
  rw [ha] at hfour
  have hfive := resendSteps_resolving hfour
  by_cases hr : (recipientsOf run db).elems = []
  · rw [afterResendResolving, if_pos hr] at hfive
    refine iff_of_true (keepsRecord_of_auditing (by decide) hfive resendCompleted_runId ?_)
      ⟨hknown, fun _ h => absurd hr h⟩
    exact iff_of_true (resendCompleted_outcome.mpr rfl) ⟨hrenders, .inl hr⟩
  · rw [afterResendResolving, if_neg hr] at hfive
    cases hemail : outboundEmail cfg run.toRunRow (recipientsOf run db) a with
    | error e =>
      simp only [hemail] at hfive
      refine iff_of_false (not_keepsRecord_of_raised (by decide) hstate hfive) fun hd => ?_
      obtain ⟨email, he⟩ := (outboundEmail_isOk_iff hr).mpr (hd.addressed hrenders hr)
      rw [hemail] at he
      cases he
    | ok email =>
      simp only [hemail] at hfive
      have haddr : Addressable cfg run := (outboundEmail_isOk_iff hr).mp ⟨email, hemail⟩
      refine iff_of_true (keepsRecord_of_auditing (by decide) (resendSteps_sending hfive)
        resendCompleted_runId ?_) ⟨hknown, fun _ _ => haddr⟩
      rw [resendCompleted_outcome]
      constructor
      · exact fun h => ⟨hrenders, .inr h⟩
      · rintro ⟨-, h | h⟩
        · exact absurd h hr
        · exact h

/-- **A resend that runs alone keeps its record if and only if the run, when it is in a state for
it, is resendable,** whatever the renderer and the mailer do. -/
theorem resend_keeps_record_iff (cfg : DeliveryConfig) (runId : RunId) (adminUserId : Nat)
    (env : Surroundings) (db : Db) (stored : Option Run)
    (hstored : db.runs.get? runId = stored.map Run.toRunRow) :
    KeepsRecord cfg env db stored (resendRun cfg runId adminUserId env db) ↔
      ∀ run, stored = some run → run.state ∈ resendableStates → Resendable cfg env db run := by
  by_cases hrefused : ∀ run, stored = some run → run.state ∉ resendableStates
  · exact iff_of_true (keepsRecord_of_refused hstored hrefused)
      fun run hrun hstate => absurd hstate (hrefused run hrun)
  · push Not at hrefused
    obtain ⟨run, rfl, hstate⟩ := hrefused
    obtain rfl : run.runId = runId := Table.key_of_get? hstored
    have hiff : KeepsRecord cfg env db (some run) (resendRun cfg run.runId adminUserId env db) ↔
        Resendable cfg env db run := by
      cases ha : assemble cfg.toBodyTemplates env.render run run.toRunRow
          (StageRepository.ofRun db run.runId) with
      | error e => exact keepsRecord_iff_of_error hstored hstate ha
      | ok a => exact keepsRecord_iff_of_ok hstored hstate ha
    rw [hiff]
    constructor
    · intro h run' hrun' _
      obtain rfl := Option.some.inj hrun'
      exact h
    · exact fun h => h run rfl hstate

end

/-! ## A small resend -/

/-- The run of the small service, delivered. -/
def sampleSent : List Label :=
  sampleFinalized ++ [.deliver 0 (sampleInput (seconds 3)), .deliver 0 (sampleInput (seconds 4)),
    .deliver 0 (sampleInput (seconds 5)), .deliver 0 (sampleInput (seconds 6)),
    .deliver 0 (sampleInput (seconds 7))]

/-- It has no recipient, and a resend of it keeps its record as long as everything is rendered. -/
theorem resend_keeps_record_iff_sample : ∃ w, (service sampleConfig).Reach w ∧ ∃ run : Run,
    run.state = .sent ∧
      let env := sampleSurroundings fun _ _ _ => .ok "report"
      KeepsRecord sampleConfig.delivery env w.db (some run)
        (resendRun sampleConfig.delivery run.runId 1 env w.db) := by
  obtain ⟨w, hw, run, hrow, hsent, hs⟩ := exists_stored_of_labels sampleSent .sent
    (p := fun run db => (recipientsOf run db).elems = []) (by decide +kernel)
  refine ⟨w, hw, run, hsent, (resend_keeps_record_iff _ _ _ _ _ (some run) hrow).mpr ?_⟩
  intro run' hrun' _
  obtain rfl := Option.some.inj hrun'
  refine ⟨fun e he => ?_, fun _ h => absurd (of_decide_eq_true hs) h⟩
  exact absurd he (not_firstRaised_of_total fun _ _ _ => ⟨_, rfl⟩)

/-- **A template that has been removed leaves no record.** The resend ends with the exception. -/
theorem removed_template_leaves_no_record : ∃ w, (service sampleConfig).Reach w ∧ ∃ run : Run,
    let env := sampleSurroundings withoutBodyTemplate
    w.db.runs.get? run.runId = some run.toRunRow ∧ run.state = .sent ∧
      ¬KeepsRecord sampleConfig.delivery env w.db (some run)
        (resendRun sampleConfig.delivery run.runId 1 env w.db) := by
  obtain ⟨w, hw, run, hrow, hsent, hs⟩ := exists_stored_of_labels sampleSent .sent
    (p := fun run db => (resendRun sampleConfig.delivery run.runId 1
      (sampleSurroundings withoutBodyTemplate) db).2.auditLog.next = db.auditLog.next)
    (by decide +kernel)
  refine ⟨w, hw, run, hrow, hsent, ?_⟩
  rintro (⟨_, -, ⟨-, hnone⟩ | ⟨-, run', hrun, hrefused⟩⟩ | ⟨run', e, -, heq, -⟩)
  · cases hnone
  · obtain rfl := Option.some.inj hrun
    rw [hsent] at hrefused
    exact hrefused (by decide)
  · have hnext := of_decide_eq_true hs
    rw [heq] at hnext
    exact absurd hnext (Nat.succ_ne_self _)

end MessageService.System
