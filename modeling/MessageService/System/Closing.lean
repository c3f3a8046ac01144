import MessageService.Application.SnapshotSaving
import MessageService.System.FirstDelivery

/-!
# How a delivery that runs alone ends

`execute` from a run in `READY`, with its report store and with persistence working: every unit of
work commits, and what the renderer, the mailer and the file system do is arbitrary. It closes the
run (`Closes`) unless an exception it has no `except` clause for gets in its way (`Deliverable`).

* `bare_closes_iff`: when it closes the run if nothing is saved.
* `deliver_closes_iff`: the run is closed exactly when it is deliverable.
* `unknown_template_strands_run`: an unknown template leaves it in `SENDING`.
* `savingStep_covered`: in the service, the store can do no more than abort a delivery.
-/

namespace MessageService.System

open MessageService.Domain MessageService.Lib MessageService.Infrastructure
open MessageService.Application

/-! ## What decides the outcome -/

section

variable (cfg : DeliveryConfig) (run : Run) (render : TemplateRenderer) (db : Db)

/-- The recipients of the report. -/
def recipientsOf : SortedSet String :=
  SubscriptionRepository.recipients db run.pipelineType run.tags

/-- The first render call to raise, in the order the use cases make them, raises `e`. -/
def RenderRaises (e : RenderError) : Prop :=
  FirstRaised cfg.toBodyTemplates render run run.toRunRow (StageRepository.ofRun db run.runId) e

/-- Everything is rendered. -/
def Renders : Prop := ∀ e, ¬RenderRaises cfg run render db e

/-- The e-mail passes the checks of `OutboundEmail`. -/
def Addressable : Prop :=
  cfg.fromAddress ≠ "" ∧ isSingleLine cfg.fromAddress = true ∧
    ∃ subject, cfg.buildSubject run.toRunRow = .ok subject ∧ isSingleLine subject = true

/-- Everything is rendered, and the send succeeds or there is no recipient. -/
def Succeeds (send : Option MailError) : Prop :=
  Renders cfg run render db ∧ ((recipientsOf run db).elems = [] ∨ send = none)

end

section

variable {cfg : DeliveryConfig} {run : Run} {render : TemplateRenderer} {db : Db}

theorem renders_of_ok {a : Assembled} (h : assemble cfg.toBodyTemplates render run run.toRunRow
    (StageRepository.ofRun db run.runId) = .ok a) : Renders cfg run render db := by
  intro e he
  rw [assemble_error_iff.mpr he] at h
  cases h

theorem renderRaises_of_error {e : RenderError} (h : assemble cfg.toBodyTemplates render run
    run.toRunRow (StageRepository.ofRun db run.runId) = .error e) :
    ∀ e', RenderRaises cfg run render db e' ↔ e' = e := by
  intro e'
  unfold RenderRaises
  rw [← assemble_error_iff, h, Except.error.injEq, eq_comm]

theorem outboundEmail_isOk_iff {recipients : SortedSet String} (hr : recipients.elems ≠ [])
    {assembled : Assembled} :
    (∃ email, outboundEmail cfg run.toRunRow recipients assembled = .ok email) ↔
      Addressable cfg run := by
  unfold outboundEmail Addressable
  cases hs : cfg.buildSubject run.toRunRow with
  | error e => simp [bind, Except.bind]
  | ok subject =>
    simp only [bind, Except.bind, OutboundEmail.make_isOk_iff, Except.ok.injEq, exists_eq_left']
    constructor
    · rintro ⟨-, hfrom, hsubject, hline⟩
      exact ⟨hfrom, hline, hsubject⟩
    · rintro ⟨hfrom, hline, hsubject⟩
      exact ⟨hr, hfrom, hsubject, hline⟩

theorem outboundEmail_bodyHtml {recipients : SortedSet String} {assembled : Assembled}
    {email : OutboundEmail}
    (h : outboundEmail cfg run.toRunRow recipients assembled = .ok email) :
    email.bodyHtml = assembled.bodyHtml := by
  obtain ⟨subject, -, hmake⟩ := bind_eq_ok_iff.mp h
  exact (OutboundEmail.make_ok hmake).1

end

/-! ## The steps of a delivery that runs alone -/

section

variable (cfg : DeliveryConfig) (run : Run) (env : Surroundings) (db : Db)

/-- The database once the run is in `SENDING`. -/
def startedDb : Db :=
  { db with
    runs := RunRepository.moved db.runs run.runId .sending (env.clock 0)
    auditLog := db.auditLog.insert (transitionEvent run.toRunRow .sending (env.clock 0)) }

/-- The database once the run is closed. -/
def closedDb (how : Closing) (now : Instant) : Db :=
  { startedDb run env db with
    runs := RunRepository.moved (startedDb run env db).runs run.runId how.target now
    auditLog := (startedDb run env db).auditLog.insert (sendReportEvent run.runId now how.outcome
      (how.details run.runId now .sending)) }

/-- The run in `SENDING`. -/
def sendingRun (hclock : run.createdAt ≤ env.clock 0) : Run :=
  { RunRepository.withState run.toRunRow .sending (env.clock 0) with
    ordered := hclock
    aggregated := run.aggregated
    distinct := run.distinct }

end

section

variable {cfg : DeliveryConfig} {run : Run} {env : Surroundings} {db : Db}

theorem get?_startedDb (hrow : db.runs.get? run.runId = some run.toRunRow) :
    (startedDb run env db).runs.get? run.runId =
      some (RunRepository.withState run.toRunRow .sending (env.clock 0)) := by
  unfold startedDb
  rw [RunRepository.get?_moved, if_pos rfl, hrow]
  rfl

theorem executeSteps_succ {runId : RunId} {phase : DeliveryPhase} {db' : Db} {n : Nat}
    (h : executeSteps cfg runId env db n = (phase, db')) :
    executeSteps cfg runId env db (n + 1) = deliveryStep cfg runId (env.input n) phase db' :=
  System.alone_succ h

/-- The run is in `SENDING` and its stages are loaded. -/
theorem executeSteps_two (hrow : db.runs.get? run.runId = some run.toRunRow)
    (hready : run.state = .ready) :
    executeSteps cfg run.runId env db 2 =
      (.rendering run (StageRepository.ofRun db run.runId), startedDb run env db) := by
  have hone : executeSteps cfg run.runId env db 1 = (.loading run, startedDb run env db) :=
    Tx.resume_of_ok (startSending_of_ready hrow hready)
  have hlist : StageRepository.listByRun run.runId (startedDb run env db) =
      .ok (StageRepository.ofRun db run.runId, startedDb run env db) := rfl
  simp only [executeSteps_succ hone, deliveryStep, Surroundings.input]
  rw [Tx.resume_of_ok hlist]

/-- Everything is rendered, or something is not. -/
theorem executeSteps_three (hrow : db.runs.get? run.runId = some run.toRunRow)
    (hready : run.state = .ready) (hclock : run.createdAt ≤ env.clock 0) :
    executeSteps cfg run.runId env db 3 =
      (afterRendering run (assemble cfg.toBodyTemplates env.render run run.toRunRow
        (StageRepository.ofRun db run.runId)), startedDb run env db) := by
  have hget : RunRepository.get run.runId (startedDb run env db) =
      .ok (sendingRun run env hclock, startedDb run env db) := by
    simp only [RunRepository.get, Tx.ok_attempt, and_true]
    exact @RunRepository.find_of_get? _ _ (sendingRun run env hclock) (get?_startedDb hrow)
  simp only [executeSteps_succ (executeSteps_two hrow hready), deliveryStep, Surroundings.input]
  rw [Tx.resume_of_ok hget]
  rfl

/-- A clock that has gone back behind the creation of the run leaves a row that does not decode. -/
theorem executeSteps_three_of_lt (hrow : db.runs.get? run.runId = some run.toRunRow)
    (hready : run.state = .ready) (hclock : ¬run.createdAt ≤ env.clock 0) :
    ∃ e, executeSteps cfg run.runId env db 3 = (.ended (.raised e), startedDb run env db) := by
  obtain ⟨e, he⟩ := @rowToRun_error_of_lt
    (RunRepository.withState run.toRunRow .sending (env.clock 0)) hclock
  have hget : RunRepository.get run.runId (startedDb run env db) = .error e := by
    simp only [RunRepository.get, Tx.attempt, RunRepository.find, get?_startedDb hrow, he]
  refine ⟨e, ?_⟩
  simp only [executeSteps_succ (executeSteps_two hrow hready), deliveryStep, Surroundings.input]
  rw [Tx.resume_of_error hget]

/-- **The last unit of work closes the run.** -/
theorem executeSteps_closing (hrow : db.runs.get? run.runId = some run.toRunRow)
    (hclock : run.createdAt ≤ env.clock 0) {how : Closing} {notify : Bool} {n : Nat}
    (h : executeSteps cfg run.runId env db n = (.closing how notify, startedDb run env db)) :
    executeSteps cfg run.runId env db (n + 1) =
      (if notify then .notifying else .ended (.returned ()),
        closedDb run env db how (env.clock n)) := by
  have hedge : RunState.Edge (sendingRun run env hclock).state how.target := by
    cases how with
    | sent _ _ => exact RunState.edge_sent_iff.mpr rfl
    | failed _ => exact RunState.edge_failed_iff.mpr rfl
  have hfinalize : finalize run.runId how (env.clock n) (startedDb run env db) =
      .ok ((), closedDb run env db how (env.clock n)) :=
    finalize_of_edge (get?_startedDb hrow) hedge
  simp only [executeSteps_succ h, deliveryStep, Surroundings.input]
  rw [Tx.resume_of_ok hfinalize]

/-- It closes it with one `SEND_REPORT` row. -/
theorem closedDb_spec (hrow : db.runs.get? run.runId = some run.toRunRow) (how : Closing)
    (now : Instant) :
    stateOf (closedDb run env db how now) run.runId = some how.target ∧
      (auditRows (closedDb run env db how now)).countP (isSendReport run.runId) =
        (auditRows db).countP (isSendReport run.runId) + 1 := by
  constructor
  · unfold stateOf closedDb
    rw [RunRepository.get?_moved, if_pos rfl, get?_startedDb hrow]
    rfl
  · have hstart : isSendReport run.runId (transitionEvent run.toRunRow .sending (env.clock 0)) =
        false := rfl
    have hclose : isSendReport run.runId (sendReportEvent run.runId now how.outcome
        (how.details run.runId now .sending)) = true := by
      have hid := (how.get?_details run.runId now .sending).1
      simp [isSendReport, concerns, sendReportEvent, textAt, hid]
    have h₁ : auditRows (startedDb run env db) = _ := @auditRows_insert db _ _ rfl
    have h₂ : auditRows (closedDb run env db how now) = _ :=
      @auditRows_insert (startedDb run env db) _ _ rfl
    rw [h₂, List.countP_append, h₁, List.countP_append]
    simp [hstart, hclose]

/-- What follows the closing of a run. -/
theorem executeSteps_notifying {db' : Db} {n : Nat}
    (h : executeSteps cfg run.runId env db n = (.notifying, db')) :
    executeSteps cfg run.runId env db (n + 1) =
      (afterNotifying cfg run.runId (env.clock n), db') := by
  simp only [executeSteps_succ h, deliveryStep, Surroundings.input]

/-- A report that is rendered goes to its recipients, if there are any. -/
theorem executeSteps_resolving {a : Assembled} {n : Nat}
    (h : executeSteps cfg run.runId env db n = (.resolving run a, startedDb run env db)) :
    executeSteps cfg run.runId env db (n + 1) =
      (afterResolving cfg run.toRunRow a (recipientsOf run db), startedDb run env db) := by
  have hlist : SubscriptionRepository.listRecipientsForRun run.pipelineType run.tags
      (startedDb run env db) = .ok (recipientsOf run db, startedDb run env db) := rfl
  simp only [executeSteps_succ h, deliveryStep, Surroundings.input]
  rw [Tx.resume_of_ok hlist]

theorem executeSteps_sending {email : OutboundEmail} {db' : Db} {n : Nat}
    (h : executeSteps cfg run.runId env db n = (.sending email, db')) :
    executeSteps cfg run.runId env db (n + 1) = (afterSending email env.send, db') := by
  simp only [executeSteps_succ h, deliveryStep, Surroundings.input]

end

/-! ## The outcome -/

section

variable (cfg : DeliveryConfig) (run : Run) (env : Surroundings) (db : Db)

/-- A delivery that ends so closed its run: it returned, the run is `SENT` or `FAILED` as it should
be, and one `SEND_REPORT` row is new. -/
structure Closes (ended : SavingPhase) (db' : Db) : Prop where
  returned : ended = .running (.ended (.returned ()))
  sent : Succeeds cfg run env.render db env.send → stateOf db' run.runId = some .sent
  failed : ¬Succeeds cfg run env.render db env.send → stateOf db' run.runId = some .failed
  reported : (auditRows db').countP (isSendReport run.runId) =
    (auditRows db).countP (isSendReport run.runId) + 1

/-- `execute` without its store closes the run. -/
def BareCloses : Prop :=
  Closes cfg run env db (.running (execute cfg run.runId env db).1)
    (execute cfg run.runId env db).2

/-- Nothing but its store gets in the way of a delivery that it has no `except` clause for: the
clock has not gone back behind the creation of the run, the first render call to raise does not miss
its template, and the e-mails it sends pass the checks of `OutboundEmail`. -/
structure Unhindered : Prop where
  clock : run.createdAt ≤ env.clock 0
  known : ∀ e, RenderRaises cfg run env.render db e → e.failure ≠ .unknownTemplate
  addressed : Renders cfg run env.render db → (recipientsOf run db).elems ≠ [] →
    Addressable cfg run
  notified : Renders cfg run env.render db → (recipientsOf run db).elems ≠ [] →
    (∃ e, env.send = some e ∧ e.sizeExceeded = true) → cfg.adminRecipients ≠ [] →
      isSingleLine (adminNotificationSubject run.runId) = true

end

section

variable {cfg : DeliveryConfig} {run : Run} {env : Surroundings} {db : Db}

theorem reasonCode?_eq_none_iff {f : RenderFailure} :
    f.reasonCode? = none ↔ f = .unknownTemplate := by
  cases f <;> simp [RenderFailure.reasonCode?]

theorem not_closes_of_raised {e : ServiceError} {db' : Db} {n : Nat} (hn : n ≤ 7)
    (h : executeSteps cfg run.runId env db n = (.ended (.raised e), db')) :
    ¬BareCloses cfg run env db := by
  intro hc
  have hr := hc.returned
  unfold execute at hr
  rw [executeSteps_of_ended cfg hn h] at hr
  cases hr

/-- A delivery that reaches its last unit of work as it should, and then returns, closes its run. -/
theorem closes_of_closed (hrow : db.runs.get? run.runId = some run.toRunRow) {how : Closing}
    {now : Instant}
    (h : execute cfg run.runId env db = (.ended (.returned ()), closedDb run env db how now))
    (hsent : Succeeds cfg run env.render db env.send → how.target = .sent)
    (hfailed : ¬Succeeds cfg run env.render db env.send → how.target = .failed) :
    BareCloses cfg run env db := by
  obtain ⟨hstate, hcount⟩ := @closedDb_spec run env db hrow how now
  unfold BareCloses
  rw [h]
  exact ⟨rfl, fun hs => by rw [hstate, hsent hs], fun hs => by rw [hstate, hfailed hs], hcount⟩

/-- A run that is closed is not left in `SENDING`. -/
theorem Closes.not_sending {ended : SavingPhase} {db' : Db} (h : Closes cfg run env db ended db') :
    stateOf db' run.runId ≠ some .sending := by
  by_cases hs : Succeeds cfg run env.render db env.send
  · rw [h.sent hs]
    decide
  · rw [h.failed hs]
    decide

/-- Something is not rendered. -/
theorem closes_iff_of_error (hrow : db.runs.get? run.runId = some run.toRunRow)
    (hready : run.state = .ready) (hclock : run.createdAt ≤ env.clock 0) {e : RenderError}
    (ha : assemble cfg.toBodyTemplates env.render run run.toRunRow
      (StageRepository.ofRun db run.runId) = .error e) :
    BareCloses cfg run env db ↔ Unhindered cfg run env db := by
  have hthree : executeSteps cfg run.runId env db 3 = _ := executeSteps_three hrow hready hclock
  have hraises := renderRaises_of_error ha
  have hrenders : ¬Renders cfg run env.render db := fun h => h e ((hraises e).mpr rfl)
  rw [ha] at hthree
  cases hcode : e.failure.reasonCode? with
  | none =>
    simp only [afterRendering, hcode] at hthree
    refine iff_of_false (not_closes_of_raised (by decide) hthree) fun hd => ?_
    exact hd.known e ((hraises e).mpr rfl) (reasonCode?_eq_none_iff.mp hcode)
  | some code =>
    simp only [afterRendering, hcode] at hthree
    have hend := executeSteps_of_ended cfg (m := 7) (by decide)
      (executeSteps_closing hrow hclock hthree)
    refine iff_of_true (closes_of_closed hrow hend (fun hs => absurd hs.1 hrenders) fun _ => rfl) ?_
    refine ⟨hclock, fun e' he' hunknown => ?_, fun h => absurd h hrenders,
      fun h => absurd h hrenders⟩
    obtain rfl := (hraises e').mp he'
    rw [reasonCode?_eq_none_iff.mpr hunknown] at hcode
    cases hcode

/-- Everything is rendered, and there is nobody to send it to. -/
theorem closes_iff_of_no_recipient (hrow : db.runs.get? run.runId = some run.toRunRow)
    (hready : run.state = .ready) (hclock : run.createdAt ≤ env.clock 0) {a : Assembled}
    (ha : assemble cfg.toBodyTemplates env.render run run.toRunRow
      (StageRepository.ofRun db run.runId) = .ok a) (hr : (recipientsOf run db).elems = []) :
    BareCloses cfg run env db ↔ Unhindered cfg run env db := by
  have hthree : executeSteps cfg run.runId env db 3 = _ := executeSteps_three hrow hready hclock
  have hrenders := renders_of_ok ha
  rw [ha] at hthree
  have hfour := executeSteps_resolving hthree
  rw [afterResolving, if_pos hr] at hfour
  have hend := executeSteps_of_ended cfg (m := 7) (by decide)
    (executeSteps_closing hrow hclock hfour)
  refine iff_of_true (closes_of_closed hrow hend (fun _ => rfl)
    fun hs => absurd ⟨hrenders, .inl hr⟩ hs) ?_
  exact ⟨hclock, fun e he => absurd he (hrenders e), fun _ h => absurd hr h,
    fun _ h => absurd hr h⟩

/-- What the administrators' notification needs once the report itself passed its checks. -/
theorem afterNotifying_eq_returned_iff (haddr : Addressable cfg run) (now : Instant) :
    afterNotifying cfg run.runId now = .ended (.returned ()) ↔
      (cfg.adminRecipients ≠ [] → isSingleLine (adminNotificationSubject run.runId) = true) := by
  obtain ⟨hfrom, hline, -⟩ := haddr
  unfold afterNotifying
  by_cases hadmins : cfg.adminRecipients = []
  · simp [hadmins]
  · rw [if_neg hadmins]
    have hmake : (∃ email, adminNotification cfg run.runId now = .ok email) ↔
        isSingleLine (adminNotificationSubject run.runId) = true := by
      unfold adminNotification
      rw [OutboundEmail.make_isOk_iff, Ne, SortedSet.elems_ofList_eq_nil]
      simp [hadmins, hfrom, hline]
    rw [← hmake]
    cases adminNotification cfg run.runId now with
    | ok email => simp
    | error e => simp [hadmins]

/-- Everything is rendered, and there is somebody to send it to. -/
theorem closes_iff_of_recipients (hrow : db.runs.get? run.runId = some run.toRunRow)
    (hready : run.state = .ready) (hclock : run.createdAt ≤ env.clock 0) {a : Assembled}
    (ha : assemble cfg.toBodyTemplates env.render run run.toRunRow
      (StageRepository.ofRun db run.runId) = .ok a) (hr : (recipientsOf run db).elems ≠ []) :
    BareCloses cfg run env db ↔ Unhindered cfg run env db := by
  have hthree : executeSteps cfg run.runId env db 3 = _ := executeSteps_three hrow hready hclock
  have hrenders := renders_of_ok ha
  have hknown : ∀ e, RenderRaises cfg run env.render db e → e.failure ≠ .unknownTemplate :=
    fun e he => absurd he (hrenders e)
  rw [ha] at hthree
  have hfour := executeSteps_resolving hthree
  rw [afterResolving, if_neg hr] at hfour
  cases hemail : outboundEmail cfg run.toRunRow (recipientsOf run db) a with
  | error e =>
    simp only [hemail] at hfour
    refine iff_of_false (not_closes_of_raised (by decide) hfour) fun hd => ?_
    obtain ⟨email, he⟩ := (outboundEmail_isOk_iff hr).mpr (hd.addressed hrenders hr)
    rw [hemail] at he
    cases he
  | ok email =>
    simp only [hemail] at hfour
    have haddr : Addressable cfg run := (outboundEmail_isOk_iff hr).mp ⟨email, hemail⟩
    have hfive := executeSteps_sending hfour
    cases hsend : env.send with
    | none =>
      rw [hsend] at hfive
      have hend := executeSteps_of_ended cfg (m := 7) (by decide)
        (executeSteps_closing hrow hclock hfive)
      refine iff_of_true (closes_of_closed hrow hend (fun _ => rfl)
        fun hs => absurd ⟨hrenders, .inr hsend⟩ hs) ?_
      refine ⟨hclock, hknown, fun _ _ => haddr, fun _ _ h => ?_⟩
      obtain ⟨e, he, -⟩ := h
      rw [hsend] at he
      cases he
    | some e =>
      rw [hsend] at hfive
      have hsix := executeSteps_closing hrow hclock hfive
      have hfails : ¬Succeeds cfg run env.render db env.send := by
        rintro ⟨-, h | h⟩
        · exact hr h
        · rw [hsend] at h
          cases h
      cases hsize : e.sizeExceeded with
      | false =>
        simp only [hsize, Bool.false_eq_true, if_false] at hsix
        have hend := executeSteps_of_ended cfg (m := 7) (by decide) hsix
        refine iff_of_true (closes_of_closed hrow hend (fun hs => absurd hs hfails)
          fun _ => rfl) ?_
        refine ⟨hclock, hknown, fun _ _ => haddr, fun _ _ h => ?_⟩
        obtain ⟨e', he', hsize'⟩ := h
        rw [hsend] at he'
        obtain rfl := Option.some.inj he'
        rw [hsize] at hsize'
        cases hsize'
      | true =>
        simp only [hsize, if_true] at hsix
        have hseven := executeSteps_notifying hsix
        constructor
        · intro hc
          refine ⟨hclock, hknown, fun _ _ => haddr, fun _ _ _ => ?_⟩
          have hr := hc.returned
          unfold execute at hr
          rw [hseven] at hr
          exact (afterNotifying_eq_returned_iff haddr _).mp (SavingPhase.running.inj hr)
        · intro hd
          rw [(afterNotifying_eq_returned_iff haddr _).mpr
            (hd.notified hrenders hr ⟨e, hsend, hsize⟩)] at hseven
          exact closes_of_closed hrow hseven (fun hs => absurd hs hfails) fun _ => rfl

/-- A delivery that saves nothing closes its run if and only if nothing else gets in its way. -/
theorem bare_closes_iff (cfg : DeliveryConfig) (run : Run) (env : Surroundings) (db : Db)
    (hrow : db.runs.get? run.runId = some run.toRunRow) (hready : run.state = .ready) :
    BareCloses cfg run env db ↔ Unhindered cfg run env db := by
  by_cases hclock : run.createdAt ≤ env.clock 0
  · cases ha : assemble cfg.toBodyTemplates env.render run run.toRunRow
        (StageRepository.ofRun db run.runId) with
    | error e => exact closes_iff_of_error hrow hready hclock ha
    | ok a =>
      by_cases hr : (recipientsOf run db).elems = []
      · exact closes_iff_of_no_recipient hrow hready hclock ha hr
      · exact closes_iff_of_recipients hrow hready hclock ha hr
  · obtain ⟨e, he⟩ : ∃ e, executeSteps cfg run.runId env db 3 = (.ended (.raised e), _) :=
      executeSteps_three_of_lt hrow hready hclock
    exact iff_of_false (not_closes_of_raised (by decide) he) fun hd => hclock hd.clock

end

/-! ## With the report store -/

/-- What a delivery meets when its store is part of it: besides, the root of the store, the files,
and what strikes the saves of the fragments and of the body. -/
structure StoreSurroundings extends Surroundings where
  root : PosixPath
  tree : ReportStore.Tree
  fragmentFaults : Nat → Option ReportStore.Fault
  bodyFault : Option ReportStore.Fault

/-- The input of step `i`. The fragments are saved in step 2, and the body in a later one. -/
def StoreSurroundings.savingInput (env : StoreSurroundings) (i : Nat) : SavingInput :=
  { env.input i with
    others := id
    faults := fun k => if i = 2 then env.fragmentFaults k else env.bodyFault }

section

variable (cfg : DeliveryConfig) (run : Run) (env : StoreSurroundings) (db : Db)

/-- `execute` with `FilesystemReportStore`. -/
def executeSaving : Delivered :=
  deliver (filesystemStore env.root) cfg run.runId env.savingInput env.tree db

/-- The fragments to save: every report that is not empty, once all of them are rendered. -/
def fragmentSaves : List SaveCall :=
  match renderStages env.render run.toRunRow (StageRepository.ofRun db run.runId) with
  | .error _ => []
  | .ok fragments => fragmentCalls run.runId env.fragmentFaults fragments

/-- The body to save: once everything is rendered, if there is no recipient, the e-mail goes out or
it is too large. -/
def bodySaves : List SaveCall :=
  match assemble cfg.toBodyTemplates env.render run run.toRunRow
      (StageRepository.ofRun db run.runId) with
  | .error _ => []
  | .ok a =>
    if (recipientsOf run db).elems = [] ∨ savesBody env.send = true then
      [emailBodyCall run.runId (fun _ => env.bodyFault) a.bodyHtml]
    else []

/-- Nothing gets in the way of a delivery that it has no `except` clause for, its store included: no
path to save to has a null character, and no exception but an `OSError` strikes a save. -/
structure Deliverable : Prop extends Unhindered cfg run env.toSurroundings db where
  saved : AllHarmless env.root (fragmentSaves run env db ++ bodySaves cfg run env db) env.tree

end

section

variable {cfg : DeliveryConfig} {run : Run} {env : StoreSurroundings} {db : Db}

/-- The saves of the step in which the stages are rendered. -/
theorem savesAt_rendering (hrow : db.runs.get? run.runId = some run.toRunRow)
    (hclock : run.createdAt ≤ env.clock 0) :
    savesAt run.runId (env.savingInput 2) (.rendering run (StageRepository.ofRun db run.runId))
      (startedDb run env.toSurroundings db) = fragmentSaves run env db := by
  have hget : RunRepository.get run.runId (startedDb run env.toSurroundings db) =
      .ok (sendingRun run env.toSurroundings hclock, startedDb run env.toSurroundings db) := by
    simp only [RunRepository.get, Tx.ok_attempt, and_true]
    exact @RunRepository.find_of_get? _ _ (sendingRun run env.toSurroundings hclock)
      (get?_startedDb hrow)
  simp only [savesAt, StoreSurroundings.savingInput, Surroundings.input]
  rw [Tx.resume_of_ok hget]
  rfl

/-- A step that leaves nothing but the closing of the run saves nothing after it. -/
theorem savesAt_executeSteps {n : Nat} (i : Nat)
    (h : (executeSteps cfg run.runId env.toSurroundings db n).1.remaining ≤ 2) :
    savesAt run.runId (env.savingInput i) (executeSteps cfg run.runId env.toSurroundings db n).1
      (executeSteps cfg run.runId env.toSurroundings db n).2 = [] :=
  savesAt_of_remaining h _

/-- The saves of the two steps after it. -/
theorem savesAt_body (hrow : db.runs.get? run.runId = some run.toRunRow)
    (hready : run.state = .ready) (hd : Unhindered cfg run env.toSurroundings db) :
    savesAt run.runId (env.savingInput 3)
        (executeSteps cfg run.runId env.toSurroundings db 3).1
        (executeSteps cfg run.runId env.toSurroundings db 3).2 ++
      savesAt run.runId (env.savingInput 4)
        (executeSteps cfg run.runId env.toSurroundings db 4).1
        (executeSteps cfg run.runId env.toSurroundings db 4).2 = bodySaves cfg run env db := by
  have hthree : executeSteps cfg run.runId env.toSurroundings db 3 = _ :=
    executeSteps_three hrow hready hd.clock
  unfold bodySaves
  cases ha : assemble cfg.toBodyTemplates env.render run run.toRunRow
      (StageRepository.ofRun db run.runId) with
  | error e =>
    -- the run is about to be closed, or the delivery has ended
    rw [ha] at hthree
    have hclosing : (executeSteps cfg run.runId env.toSurroundings db 3).1.remaining ≤ 2 := by
      rw [hthree]
      unfold afterRendering
      simp only
      split <;> simp [DeliveryPhase.remaining]
    have hlater : (executeSteps cfg run.runId env.toSurroundings db 4).1.remaining ≤ 2 := by
      refine (remaining_deliveryStep cfg run.runId (env.input 3) _ _).trans ?_
      exact (Nat.sub_le _ _).trans hclosing
    rw [savesAt_executeSteps 3 hclosing, savesAt_executeSteps 4 hlater, List.append_nil]
  | ok a =>
    rw [ha] at hthree
    have hrenders : Renders cfg run env.render db := renders_of_ok ha
    have hfour : executeSteps cfg run.runId env.toSurroundings db 4 = _ :=
      executeSteps_resolving hthree
    have hlist : SubscriptionRepository.listRecipientsForRun run.pipelineType run.tags
        (startedDb run env.toSurroundings db) =
          .ok (recipientsOf run db, startedDb run env.toSurroundings db) := rfl
    have hresolving : savesAt run.runId (env.savingInput 3) (.resolving run a)
        (startedDb run env.toSurroundings db) =
          if (recipientsOf run db).elems = [] then
            [emailBodyCall run.runId (fun _ => env.bodyFault) a.bodyHtml] else [] := by
      simp only [savesAt, StoreSurroundings.savingInput, Surroundings.input]
      rw [Tx.resume_of_ok hlist]
      rfl
    rw [hthree, afterRendering, hresolving, hfour, afterResolving]
    by_cases hr : (recipientsOf run db).elems = []
    · simp only [hr, if_true, true_or]
      rfl
    · obtain ⟨email, hemail⟩ : ∃ email,
          outboundEmail cfg run.toRunRow (recipientsOf run db) a = .ok email :=
        (outboundEmail_isOk_iff hr).mpr (hd.addressed hrenders hr)
      have hbody : email.bodyHtml = a.bodyHtml := outboundEmail_bodyHtml hemail
      simp only [hr, if_false, false_or, hemail, List.nil_append, savesAt]
      rw [hbody]
      rfl

/-- **What a delivery saves** that nothing else gets in the way of. -/
theorem savesUpTo_seven (hrow : db.runs.get? run.runId = some run.toRunRow)
    (hready : run.state = .ready) (hd : Unhindered cfg run env.toSurroundings db) :
    savesUpTo cfg run.runId env.savingInput db 7 =
      fragmentSaves run env db ++ bodySaves cfg run env db := by
  have hsucc (n : Nat) : savesUpTo cfg run.runId env.savingInput db (n + 1) =
      savesUpTo cfg run.runId env.savingInput db n ++
        savesAt run.runId (env.savingInput n)
          (executeSteps cfg run.runId env.toSurroundings db n).1
          (executeSteps cfg run.runId env.toSurroundings db n).2 := savesUpTo_succ n
  -- nothing is saved before the stages are rendered, nor once the run is being closed
  have hone : executeSteps cfg run.runId env.toSurroundings db 1 =
      (.loading run, startedDb run env.toSurroundings db) :=
    Tx.resume_of_ok (startSending_of_ready hrow hready)
  have hearly : savesUpTo cfg run.runId env.savingInput db 2 = [] := by
    rw [hsucc 1, hone, hsucc 0]
    rfl
  have hlate (n : Nat) (hn : 5 ≤ n) : savesAt run.runId (env.savingInput n)
      (executeSteps cfg run.runId env.toSurroundings db n).1
      (executeSteps cfg run.runId env.toSurroundings db n).2 = [] := by
    have hremaining := @remaining_bareSteps cfg run.runId env.savingInput db n
    exact savesAt_executeSteps n (hremaining.trans (by omega))
  rw [hsucc 6, hlate 6 (by decide), hsucc 5, hlate 5 le_rfl, hsucc 4, hsucc 3, hsucc 2, hearly,
    executeSteps_two hrow hready, savesAt_rendering hrow hd.clock, List.append_nil, List.append_nil,
    List.nil_append, List.append_assoc, savesAt_body hrow hready hd]

/-- **A delivery that runs alone closes its run if and only if the run is deliverable,** whatever
the renderer, the mailer and the file system of its report store do. -/
theorem deliver_closes_iff (cfg : DeliveryConfig) (run : Run) (env : StoreSurroundings) (db : Db)
    (hrow : db.runs.get? run.runId = some run.toRunRow) (hready : run.state = .ready) :
    let d := executeSaving cfg run env db
    Closes cfg run env.toSurroundings db d.ended d.db ↔ Deliverable cfg run env db := by
  have hbare : BareCloses cfg run env.toSurroundings db ↔ Unhindered cfg run env.toSurroundings db :=
    bare_closes_iff cfg run env.toSurroundings db hrow hready
  cases hsaves : saveInTurn (filesystemStore env.root)
      (savesUpTo cfg run.runId env.savingInput db 7) env.tree with
  | mk result t' =>
    cases result with
    | ok u =>
      -- the delivery is the one that saves nothing
      simp only [executeSaving, deliver_of_ok hsaves]
      refine hbare.trans ⟨fun hd => ⟨hd, ?_⟩, fun hd => hd.toUnhindered⟩
      rw [← savesUpTo_seven hrow hready hd, ← saveInTurn_ok_iff, hsaves]
    | error e =>
      have hended : (executeSaving cfg run env db).ended = .escaped e :=
        congrArg Prod.fst (savingSteps_of_error 7 hsaves)
      refine iff_of_false (fun hc => ?_) fun hd => ?_
      · have hreturned := hc.returned
        rw [hended] at hreturned
        cases hreturned
      · have hok := saveInTurn_ok_iff.mpr hd.saved
        rw [← savesUpTo_seven hrow hready hd.toUnhindered, hsaves] at hok
        cases hok

end

/-! ## The report store in the service -/

/-- **A step of a delivery with its store is a step of the service**: the step without the store,
and then, if a save has escaped, the abort of the delivery. -/
theorem savingStep_covered {cfg : Config} {w : World} {task : Nat} {d : Delivery}
    (hd : w.deliveries[task]? = some d) (store : SaveFn) (input : SavingInput)
    (t : ReportStore.Tree) :
    let r := savingStep store cfg.delivery d.runId input (.running d.phase, t) w.db
    ∃ w', step cfg w (.deliver task input.toDeliveryInput) = some w' ∧ w'.db = r.2 ∧
      ((∃ phase, r.1.1 = .running phase ∧
          w'.deliveries[task]? = some { d with phase := phase }) ∨
        ∃ e w'', r.1.1 = .escaped e ∧ step cfg w' (.abort task) = some w'' ∧ w''.db = r.2 ∧
          w''.deliveries[task]? = some d.stopped) := by
  have htask : task < w.deliveries.length := (List.getElem?_eq_some_iff.mp hd).1
  simp only [savingStep_eq, step, hd, Option.map_some, Option.some.injEq, exists_eq_left', true_and]
  cases saveInTurn store (savesAt d.runId input d.phase w.db) t with
  | mk result t' =>
    cases result with
    | ok u => exact .inl ⟨_, rfl, by simp [htask]⟩
    | error e =>
      refine .inr ⟨e, _, rfl, by simp [htask]; rfl, rfl, ?_⟩
      simp [htask, Delivery.stopped]

/-! ## A small delivery -/

/-- A delivery that begins at second 3. -/
def sampleSurroundings (render : TemplateRenderer) : Surroundings where
  clock := fun i => seconds (3 + i)
  render := render
  send := none

/-- The same with an empty report store in `/srv`. -/
def sampleStoreSurroundings (render : TemplateRenderer) : StoreSurroundings where
  toSurroundings := sampleSurroundings render
  root := { parts := ["srv".toList] }
  tree := .empty
  fragmentFaults := fun _ => none
  bodyFault := none

/-- The exception of a template that the manifest does not have. -/
def unknownTemplate : RenderError where
  failure := .unknownTemplate
  message := "template is not in the manifest"
  details := []
  unreserved := fun _ _ => rfl

/-- The renderer when the body template has been removed from the manifest. -/
def withoutBodyTemplate : TemplateRenderer := fun call _ _ =>
  if call = .body then .error unknownTemplate else .ok "report"

/-- A run of labels of the small service after which its run is stored in state `s` and passes a
test. -/
theorem exists_stored_of_labels (ls : List Label) (s : RunState) {p : Run → Db → Bool}
    (h : (System.run (step sampleConfig) {} ls).any (fun w =>
      (RunRepository.find w.db sampleRun).toOption.any fun run =>
        run.state = s && p run w.db) = true) :
    ∃ w, (service sampleConfig).Reach w ∧ ∃ run : Run,
      w.db.runs.get? run.runId = some run.toRunRow ∧ run.state = s ∧ p run w.db = true := by
  obtain ⟨w, hw, hs⟩ := exists_reach_of_labels sampleConfig ls h
  obtain ⟨run, hfind, hrun⟩ := (Option.any_eq_true _ _).mp hs
  simp only [Bool.and_eq_true, decide_eq_true_eq] at hrun
  cases hf : RunRepository.find w.db sampleRun with
  | error e => rw [hf] at hfind; cases hfind
  | ok run' =>
    rw [hf] at hfind
    obtain rfl := Option.some.inj hfind
    have hid := RunRepository.runId_of_find hf
    exact ⟨w, hw, run', by rw [hid]; exact RunRepository.find_ok hf, hrun⟩

/-- The run begun, submitted to with a report, and finalized. -/
def sampleReported : List Label :=
  [.beginRun sampleBegin sampleRun (seconds 0) .commits,
    .submitStageReport { sampleSubmit with reportContext := some [("rows", .int 3)] } (seconds 1)
      .commits,
    .finalizeRun sampleFinalize (seconds 2) .commits]

/-- The run of the small service, which has no recipient, is deliverable when everything is
rendered: the report of its stage and the body of its e-mail are saved below `/srv`. -/
theorem deliver_closes_iff_sample : ∃ w, (service sampleConfig).Reach w ∧ ∃ run : Run,
    let env := sampleStoreSurroundings fun _ _ _ => .ok "report"
    let d := executeSaving sampleConfig.delivery run env w.db
    (fragmentSaves run env w.db).length = 1 ∧
      (bodySaves sampleConfig.delivery run env w.db).length = 1 ∧
        Closes sampleConfig.delivery run env.toSurroundings w.db d.ended d.db := by
  let env := sampleStoreSurroundings fun _ _ _ => .ok "report"
  obtain ⟨w, hw, run, hrow, hready, hs⟩ := exists_stored_of_labels sampleReported .ready
    (p := fun run db => run.createdAt ≤ seconds 3 && (recipientsOf run db).elems = [] &&
      ((fragmentSaves run env db).length = 1 &&
        (bodySaves sampleConfig.delivery run env db).length = 1) &&
      (fragmentSaves run env db ++ bodySaves sampleConfig.delivery run env db).all fun call =>
        call.fault.isNone && (call.key.path env.root).parts.all fun n => !n.contains (Char.ofNat 0))
    (by decide +kernel)
  simp only [Bool.and_eq_true, decide_eq_true_eq, List.all_eq_true, Option.isNone_iff_eq_none,
    Bool.not_eq_true', List.contains_eq_mem, decide_eq_false_iff_not] at hs
  obtain ⟨⟨⟨hclock, hnobody⟩, hfragments, hbody⟩, hcalls⟩ := hs
  have hharmless : AllHarmless env.root (fragmentSaves run env w.db ++
      bodySaves sampleConfig.delivery run env w.db) env.tree := by
    refine allHarmless_of_noNul (fun call hcall f hf => ?_) fun call hcall => (hcalls call hcall).2
    rw [(hcalls call hcall).1] at hf
    cases hf
  refine ⟨w, hw, run, hfragments, hbody, (deliver_closes_iff _ _ _ _ hrow hready).mpr
    ⟨⟨hclock, ?_, fun _ h => absurd hnobody h, fun _ h => absurd hnobody h⟩, hharmless⟩⟩
  intro e he
  exact absurd he (not_firstRaised_of_total fun _ _ _ => ⟨_, rfl⟩)

/-- **An unknown template strands the run.** The delivery ends with the exception, and the run stays
in `SENDING`. -/
theorem unknown_template_strands_run : ∃ w, (service sampleConfig).Reach w ∧ ∃ run : Run,
    let env := sampleStoreSurroundings withoutBodyTemplate
    let d := executeSaving sampleConfig.delivery run env w.db
    w.db.runs.get? run.runId = some run.toRunRow ∧ run.state = .ready ∧
      ¬Closes sampleConfig.delivery run env.toSurroundings w.db d.ended d.db := by
  obtain ⟨w, hw, run, hrow, hready, hs⟩ := exists_stored_of_labels sampleFinalized .ready
    (p := fun run db => stateOf (executeSaving sampleConfig.delivery run
      (sampleStoreSurroundings withoutBodyTemplate) db).db run.runId = some .sending)
    (by decide +kernel)
  exact ⟨w, hw, run, hrow, hready, fun hc => hc.not_sending (of_decide_eq_true hs)⟩

end MessageService.System
