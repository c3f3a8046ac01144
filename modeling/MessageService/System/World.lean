import MessageService.Lib.TransitionSystem
import MessageService.System.Lifecycle

/-!
# The service as a transition system

The state of the service (`World`): the database, the delivery and resend tasks, the sweeper, the
single dispatcher, and the history an observer has seen. A step (`step`) is one unit of work, one
call of the mailer or of a handler, an abort of a task, or a crash of the process, which keeps the
database and loses everything else. Units of work are serialised by the factory lock, so each is
one step. What a step takes from outside (clock readings, the fate of its unit of work, what ports
return or raise) is in its label.

Clock readings are arbitrary. A new run's id is fresh, as that of a `uuid4()`.

* `step_effect`: every step is a `RunEffect`, and only the sweeper and the dispatcher write the
  outbox.
-/

namespace MessageService.System

open MessageService.Domain MessageService.Lib MessageService.Infrastructure
open MessageService.Application

/-- The configuration of the service. -/
structure Config where
  beginRun : BeginRunPorts
  delivery : DeliveryConfig
  sweeper : SweeperConfig
  dispatcher : DispatcherConfig

/-- A delivery task. -/
structure Delivery where
  runId : RunId
  phase : DeliveryPhase

/-- A resend request. -/
structure Resend where
  runId : RunId
  adminUserId : Nat
  phase : ResendPhase

/-- The state of the service. Tasks are numbered by their position. -/
structure World where
  db : Db := {}
  deliveries : List Delivery := []
  resends : List Resend := []
  sweeper : SweeperPhase := .idle
  dispatcher : DispatcherPhase := .idle
  history : List Event := []
  /-- How long the history was when the sweeper last listed its candidates. -/
  listed : Nat := 0

/-- A step. -/
inductive Label where
  | beginRun (cmd : BeginRunCommand) (runId : RunId) (now : Instant) (fate : Tx.Fate)
  | submitStageReport (cmd : SubmitStageReportCommand) (now : Instant) (fate : Tx.Fate)
  | finalizeRun (cmd : FinalizeRunCommand) (now : Instant) (fate : Tx.Fate)
  | deliver (task : Nat) (input : DeliveryInput)
  | requestResend (runId : RunId) (adminUserId : Nat)
  | resend (task : Nat) (input : DeliveryInput)
  | sweep (now : Instant) (fate : Tx.Fate)
  | dispatch (input : DispatcherInput)
  /-- Other units of work change users and subscriptions. -/
  | directory (users : Serial UserRow) (subscriptions : Serial SubscriptionRow)
  /-- An exception no port declares, or a cancellation, ends a delivery. -/
  | abort (task : Nat)
  | crash

/-- The clock reading of a step. -/
def Label.reading : Label → Option Instant
  | .beginRun _ _ now _ | .submitStageReport _ now _ | .finalizeRun _ now _ | .sweep now _ =>
    some now
  | .deliver _ input | .resend _ input => some input.now
  | .dispatch input => some input.now
  | .requestResend _ _ | .directory _ _ | .abort _ | .crash => none

/-- The clock does not go back in a run of these steps. -/
def NonDecreasing (ls : List Label) : Prop :=
  (ls.filterMap Label.reading).IsChain (· ≤ ·)

instance (ls : List Label) : Decidable (NonDecreasing ls) :=
  inferInstanceAs (Decidable (List.IsChain _ _))

/-- The report a delivery hands to the mailer in a step from `phase`. -/
def mailing (task : Nat) (runId : RunId) : DeliveryPhase → List Event
  | .sending _ => [.mailed task runId]
  | _ => []

/-- A delivery that will do nothing more. -/
def Delivery.stopped (d : Delivery) : Delivery := { d with phase := .ended .broken }

/-- A resend that will do nothing more. -/
def Resend.stopped (r : Resend) : Resend := { r with phase := .ended .broken }

variable (cfg : Config)

/-- The step function. -/
def step (w : World) : Label → Option World
  | .beginRun cmd runId now fate =>
    if (w.db.runs.get? runId).isNone then
      let db := ((beginRun cfg.beginRun cmd runId now).commit fate w.db).2
      some { w with
        db := db
        history := w.history ++ entries .begin runId w.db db }
    else none
  | .submitStageReport cmd now fate =>
    let db := ((submitStageReport cmd now).commit fate w.db).2
    some { w with
      db := db
      history := w.history ++ entries .submit cmd.runId w.db db }
  | .finalizeRun cmd now fate =>
    let r := (finalizeRun cmd now).resume fate (fun result => some result.runId) (fun _ => none)
      w.db
    some { w with
      db := r.2
      deliveries := w.deliveries ++ r.1.toList.map fun runId => ⟨runId, .scheduled⟩
      history := w.history ++ entries .finalize cmd.runId w.db r.2 }
  | .deliver task input =>
    w.deliveries[task]?.map fun d =>
      let r := deliveryStep cfg.delivery d.runId input d.phase w.db
      { w with
        db := r.2
        deliveries := w.deliveries.set task { d with phase := r.1 }
        history := w.history ++ entries (.delivery task) d.runId w.db r.2 ++
          mailing task d.runId d.phase }
  | .requestResend runId adminUserId =>
    some { w with resends := w.resends ++ [⟨runId, adminUserId, .requested⟩] }
  | .resend task input =>
    w.resends[task]?.map fun r =>
      let s := resendStep cfg.delivery r.runId r.adminUserId input r.phase w.db
      { w with
        db := s.2
        resends := w.resends.set task { r with phase := s.1 } }
  | .sweep now fate =>
    let s := sweepStep cfg.sweeper now fate w.sweeper w.db
    some { w with
      db := s.2
      sweeper := s.1
      history := w.history ++ match w.sweeper with
        | .sweeping _ (candidate :: _) => entries .sweep candidate w.db s.2
        | _ => []
      listed := match w.sweeper with
        | .idle => w.history.length
        | _ => w.listed }
  | .dispatch input =>
    let s := dispatchStep cfg.dispatcher input w.dispatcher w.db
    some { w with
      db := s.2
      dispatcher := s.1
      history := w.history ++
        (abandons cfg.dispatcher input w.db w.dispatcher).map Event.abandoned ++
        (invokes cfg.dispatcher w.dispatcher).toList.map Event.invoked }
  | .directory users subscriptions =>
    some { w with
      db := { w.db with
        users := users
        subscriptions := subscriptions } }
  | .abort task =>
    w.deliveries[task]?.map fun d =>
      { w with deliveries := w.deliveries.set task d.stopped }
  | .crash =>
    some { w with
      deliveries := w.deliveries.map Delivery.stopped
      resends := w.resends.map Resend.stopped
      sweeper := .idle
      dispatcher := .idle }

/-- The service has just been installed: no run, no task. -/
def Init (w : World) : Prop :=
  ∃ (users : Serial UserRow) (subscriptions : Serial SubscriptionRow),
    w = { db := { users := users, subscriptions := subscriptions } }

/-- The service, over every interleaving of its steps. -/
def service : System World Label := System.ofFun Init (step cfg)

/-! ## What a step does -/

/-- The event is a committed change of a run's state. -/
def Event.isEntry : Event → Bool
  | .entered _ _ _ _ => true
  | _ => false

/-- The effect of a step whose unit of work has a given effect, or none. -/
theorem effect_of_commit {α : Type} {x : Transaction α} {fate : Tx.Fate} {db : Db} {mover : Mover}
    {runId : RunId}
    (h : ∀ a db', x db = .ok (a, db') → RunEffect db db' (entries mover runId db db')) :
    RunEffect db (x.commit fate db).2 (entries mover runId db (x.commit fate db).2) :=
  Tx.commit_induct (P := fun db' => RunEffect db db' (entries mover runId db db'))
    (.of_same rfl rfl) h

theorem effect_of_resume {α β : Type} {x : Transaction α} {fate : Tx.Fate} {db : Db}
    {next : α → β} {stop : Tx.Outcome ServiceError Unit → β} {mover : Mover} {runId : RunId}
    (h : ∀ a db', x db = .ok (a, db') → RunEffect db db' (entries mover runId db db')) :
    RunEffect db (x.resume fate next stop db).2
      (entries mover runId db (x.resume fate next stop db).2) :=
  Tx.resume_induct (P := fun db' => RunEffect db db' (entries mover runId db db'))
    (.of_same rfl rfl) h

/-- A unit of work that only reads. -/
def ReadOnly {α : Type} (x : Transaction α) : Prop := ∀ db a db', x db = .ok (a, db') → db' = db

theorem readOnly_get (runId : RunId) : ReadOnly (RunRepository.get runId) := by
  intro db a db' h
  simp only [RunRepository.get, Tx.ok_attempt] at h
  exact h.2.symm

theorem readOnly_listByRun (runId : RunId) : ReadOnly (StageRepository.listByRun runId) := by
  intro db a db' h
  simp only [StageRepository.listByRun, Tx.ok_read] at h
  exact h.2.symm

theorem readOnly_listRecipients (pipelineType : String) (tags : SortedSet String) :
    ReadOnly (SubscriptionRepository.listRecipientsForRun pipelineType tags) := by
  intro db a db' h
  simp only [SubscriptionRepository.listRecipientsForRun, Tx.ok_read] at h
  exact h.2.symm

theorem readOnly_listCandidates (cfg : SweeperConfig) (now : Instant) :
    ReadOnly (listCandidates cfg now) := by
  intro db a db' h
  simp only [listCandidates, RunRepository.listExpired, Tx.ok_bind, Tx.ok_require,
    Tx.ok_attempt] at h
  obtain ⟨_, _, ⟨_, rfl⟩, _, rfl⟩ := h
  rfl

theorem ReadOnly.resume {α β : Type} {x : Transaction α} (hx : ReadOnly x) {fate : Tx.Fate}
    {next : α → β} {stop : Tx.Outcome ServiceError Unit → β} {db : Db} :
    (x.resume fate next stop db).2 = db :=
  Tx.resume_snd_eq fun a db' h => hx db a db' h

/-- What a step of a delivery does to the runs, the audit log and the outbox. -/
theorem deliveryStep_effect (cfg : DeliveryConfig) (task : Nat) (runId : RunId)
    (input : DeliveryInput) (phase : DeliveryPhase) (db : Db) :
    let db' := (deliveryStep cfg runId input phase db).2
    RunEffect db db' (entries (.delivery task) runId db db') ∧
      db'.sweeperActions = db.sweeperActions := by
  cases phase with
  | scheduled =>
    exact ⟨effect_of_resume fun _ _ h => (startSending_effect h).1,
      Tx.resume_induct (P := fun db' => db'.sweeperActions = db.sweeperActions) rfl
        fun _ _ h => (@startSending_effect task _ _ _ _ _ h).2⟩
  | closing how notify =>
    exact ⟨effect_of_resume fun _ _ h => (finalize_effect h).1,
      Tx.resume_induct (P := fun db' => db'.sweeperActions = db.sweeperActions) rfl
        fun _ _ h => (@finalize_effect task _ _ _ _ _ _ h).2⟩
  | loading run =>
    simp only [deliveryStep, (readOnly_listByRun _).resume]
    exact ⟨.of_same rfl rfl, trivial⟩
  | rendering run stages =>
    simp only [deliveryStep, (readOnly_get _).resume]
    exact ⟨.of_same rfl rfl, trivial⟩
  | resolving run assembled =>
    simp only [deliveryStep, (readOnly_listRecipients _ _).resume]
    exact ⟨.of_same rfl rfl, trivial⟩
  | sending email => exact ⟨.of_same rfl rfl, rfl⟩
  | notifying => exact ⟨.of_same rfl rfl, rfl⟩
  | ended outcome => exact ⟨.of_same rfl rfl, rfl⟩

/-- A resend only ever adds its audit row. -/
theorem resendStep_effect (cfg : DeliveryConfig) (runId : RunId) (adminUserId : Nat)
    (input : DeliveryInput) (phase : ResendPhase) (db : Db) :
    (resendStep cfg runId adminUserId input phase db).2 = db ∨
      ∃ record, phase = .auditing record ∧
        (resendStep cfg runId adminUserId input phase db).2 = { db with
          auditLog := db.auditLog.insert (resendEvent runId adminUserId input.now record) } := by
  cases phase with
  | requested => exact .inl (readOnly_get _).resume
  | preparing run => exact .inl (readOnly_get _).resume
  | loading run prepared => exact .inl (readOnly_listByRun _).resume
  | rendering run prepared stages => exact .inl (readOnly_get _).resume
  | resolving run assembled => exact .inl (readOnly_listRecipients _ _).resume
  | sending email => exact .inl rfl
  | ended outcome => exact .inl rfl
  | auditing record =>
    refine Tx.resume_induct (P := fun db' => db' = db ∨ ∃ r, ResendPhase.auditing record =
      .auditing r ∧ db' = { db with
        auditLog := db.auditLog.insert (resendEvent runId adminUserId input.now r) })
      (.inl rfl) fun _ db' h => ?_
    simp only [AuditLog.record, Tx.ok_write] at h
    exact .inr ⟨record, rfl, h.symm⟩

/-- What a step of the dispatcher does to the runs and the audit log. -/
theorem dispatchStep_effect (cfg : DispatcherConfig) (input : DispatcherInput)
    (phase : DispatcherPhase) (db : Db) :
    RunEffect db (dispatchStep cfg input phase db).2 [] := by
  have hsame : RunEffect db db [] := .still rfl rfl
  match phase with
  | .idle =>
    exact Tx.resume_induct (P := fun db' => RunEffect db db' []) hsame
      fun _ _ h => abandonExhaustedRows_effect h
  | .claiming =>
    refine Tx.resume_induct (P := fun db' => RunEffect db db' []) hsame fun _ db' h => ?_
    obtain ⟨-, -, rfl⟩ := claimBatch_ok cfg h
    exact .still rfl rfl
  | .handling [] outcomes => exact hsame
  | .handling ((c, run) :: todo) outcomes =>
    simp only [dispatchStep]
    split <;> exact hsame
  | .settling [] => exact hsame
  | .settling ((c, error) :: outcomes) =>
    refine Tx.resume_induct (P := fun db' => RunEffect db db' []) hsame fun _ db' h => ?_
    rw [settle_ok h]
    exact .still rfl rfl

/-- What a step of the sweeper does to the runs and the audit log. -/
theorem sweepStep_effect (cfg : SweeperConfig) (now : Instant) (fate : Tx.Fate)
    (phase : SweeperPhase) (db : Db) :
    RunEffect db (sweepStep cfg now fate phase db).2 (match phase with
      | .sweeping _ (candidate :: _) =>
        entries .sweep candidate db (sweepStep cfg now fate phase db).2
      | _ => []) := by
  match phase with
  | .idle =>
    simp only [sweepStep, (readOnly_listCandidates _ _).resume]
    exact .still rfl rfl
  | .sweeping cutoff [] => exact .still rfl rfl
  | .sweeping cutoff (candidate :: candidates) =>
    exact effect_of_resume fun _ _ h => transitionAuditAndEnqueue_effect h

/-- **Every step is a `RunEffect`.** What it adds to the history besides is no change of a run. -/
theorem step_effect {w w' : World} {l : Label} (h : step cfg w l = some w') :
    ∃ es rest, w'.history = w.history ++ es ++ rest ∧ RunEffect w.db w'.db es ∧
      ∀ e ∈ rest, e.isEntry = false := by
  have hsame : RunEffect w.db w.db [] := .still rfl rfl
  cases l with
  | beginRun cmd runId now fate =>
    simp only [step, Option.isNone_iff_eq_none, Option.ite_none_right_eq_some,
      Option.some.injEq] at h
    obtain ⟨fresh, rfl⟩ := h
    exact ⟨_, [], (List.append_nil _).symm,
      effect_of_commit fun _ _ h => (beginRun_effect fresh h).1, by simp⟩
  | submitStageReport cmd now fate =>
    obtain rfl := Option.some.inj h
    exact ⟨_, [], (List.append_nil _).symm,
      effect_of_commit fun _ _ h => (submitStageReport_effect h).1, by simp⟩
  | finalizeRun cmd now fate =>
    obtain rfl := Option.some.inj h
    exact ⟨_, [], (List.append_nil _).symm,
      effect_of_resume fun _ _ h => (finalizeRun_effect h).1, by simp⟩
  | deliver task input =>
    simp only [step, Option.map_eq_some_iff] at h
    obtain ⟨d, -, rfl⟩ := h
    refine ⟨_, _, rfl, (deliveryStep_effect cfg.delivery task d.runId input d.phase w.db).1, ?_⟩
    unfold mailing
    split <;> simp [Event.isEntry]
  | requestResend runId adminUserId =>
    obtain rfl := Option.some.inj h
    exact ⟨[], [], by simp, hsame, by simp⟩
  | resend task input =>
    simp only [step, Option.map_eq_some_iff] at h
    obtain ⟨r, -, rfl⟩ := h
    refine ⟨[], [], by simp, ?_, by simp⟩
    rcases resendStep_effect cfg.delivery r.runId r.adminUserId input r.phase w.db with
      e | ⟨record, -, e⟩
    · rw [e]
      exact hsame
    · rw [e]
      exact .note rfl rfl (by simp [describes, resendEvent])
  | sweep now fate =>
    obtain rfl := Option.some.inj h
    exact ⟨_, [], (List.append_nil _).symm,
      sweepStep_effect cfg.sweeper now fate w.sweeper w.db, by simp⟩
  | dispatch input =>
    obtain rfl := Option.some.inj h
    refine ⟨[], (abandons cfg.dispatcher input w.db w.dispatcher).map Event.abandoned ++
      (invokes cfg.dispatcher w.dispatcher).toList.map Event.invoked, by simp,
      dispatchStep_effect cfg.dispatcher input w.dispatcher w.db, ?_⟩
    intro e he
    rcases List.mem_append.mp he with he | he
    · obtain ⟨i, -, rfl⟩ := List.mem_map.mp he
      rfl
    · obtain ⟨i, -, rfl⟩ := List.mem_map.mp he
      rfl
  | directory users subscriptions =>
    obtain rfl := Option.some.inj h
    exact ⟨[], [], by simp, .still rfl rfl, by simp⟩
  | abort task =>
    simp only [step, Option.map_eq_some_iff] at h
    obtain ⟨d, -, rfl⟩ := h
    exact ⟨[], [], by simp, hsame, by simp⟩
  | crash =>
    obtain rfl := Option.some.inj h
    exact ⟨[], [], by simp, hsame, by simp⟩

/-! ## Who writes which audit rows -/

/-- The actions of the audit rows a step may add. -/
def writes : Label → List AuditAction
  | .beginRun _ _ _ _ => [.beginRun]
  | .submitStageReport _ _ _ => [.submitStageReport]
  | .finalizeRun _ _ _ => [.finalizeRun]
  | .deliver _ _ => [.runStateTransition, .sendReport]
  | .resend _ _ => [.resendReport]
  | .sweep _ _ => [.sweepOrphan]
  | .dispatch _ => [.dispatcherActionAbandoned]
  | _ => []

/-- The audit log of `db'` is that of `db` with rows that pass `P` added. -/
def Appends (P : AuditEvent → Prop) (db db' : Db) : Prop :=
  ∃ rows, db'.auditLog = db.auditLog.insertAll rows ∧ ∀ e ∈ rows, P e

theorem Appends.same {P : AuditEvent → Prop} {db db' : Db} (h : db'.auditLog = db.auditLog) :
    Appends P db db' :=
  ⟨[], h, by simp⟩

theorem Appends.one {P : AuditEvent → Prop} {db db' : Db} {e : AuditEvent}
    (h : db'.auditLog = db.auditLog.insert e) (he : P e) : Appends P db db' :=
  ⟨[e], h, by simpa using he⟩

theorem sweepStep_appends (cfg : SweeperConfig) (now : Instant) (fate : Tx.Fate)
    (phase : SweeperPhase) (db : Db) :
    Appends (fun e => e.action = .sweepOrphan) db (sweepStep cfg now fate phase db).2 := by
  match phase with
  | .idle =>
    simp only [sweepStep, (readOnly_listCandidates _ _).resume]
    exact .same rfl
  | .sweeping cutoff [] => exact .same rfl
  | .sweeping cutoff (candidate :: candidates) =>
    refine Tx.resume_induct (P := Appends _ db) (.same rfl) fun _ db' h => ?_
    obtain ⟨rfl, -⟩ | ⟨run, pending, -, -, -, -, hlog, -⟩ := transitionAuditAndEnqueue_ok cfg h
    · exact .same rfl
    · exact .one hlog rfl

theorem dispatchStep_appends (cfg : DispatcherConfig) (input : DispatcherInput)
    (phase : DispatcherPhase) (db : Db) :
    Appends (fun e => e.action = .dispatcherActionAbandoned) db
      (dispatchStep cfg input phase db).2 := by
  match phase with
  | .idle =>
    refine Tx.resume_induct (P := Appends _ db) (.same rfl) fun _ db' h => ?_
    obtain ⟨-, g, -, rfl⟩ := abandonExhaustedRows_ok cfg h
    refine ⟨_, rfl, fun e he => ?_⟩
    obtain ⟨row, -, rfl⟩ := List.mem_map.mp he
    rfl
  | .claiming =>
    refine Tx.resume_induct (P := Appends _ db) (.same rfl) fun _ db' h => ?_
    obtain ⟨-, -, rfl⟩ := claimBatch_ok cfg h
    exact .same rfl
  | .handling [] outcomes => exact .same rfl
  | .handling ((c, run) :: todo) outcomes =>
    simp only [dispatchStep]
    split <;> exact .same rfl
  | .settling [] => exact .same rfl
  | .settling ((c, error) :: outcomes) =>
    refine Tx.resume_induct (P := Appends _ db) (.same rfl) fun _ db' h => ?_
    rw [settle_ok h]
    exact .same rfl

/-- A delivery in `phase` adds at most one row to the audit log, and a `SEND_REPORT` row only when
it closes its run. -/
def DeliveryAppends (runId : RunId) (phase : DeliveryPhase) (db db' : Db) : Prop :=
  db'.auditLog = db.auditLog ∨
    ∃ e, db'.auditLog = db.auditLog.insert e ∧
      (e.action = .runStateTransition ∨
        e.action = .sendReport ∧ (∃ how notify, phase = .closing how notify) ∧
          ∀ k, concerns k e = true ↔ k = runId)

theorem deliveryStep_appends (cfg : DeliveryConfig) (runId : RunId) (input : DeliveryInput)
    (phase : DeliveryPhase) (db : Db) :
    DeliveryAppends runId phase db (deliveryStep cfg runId input phase db).2 := by
  cases phase with
  | scheduled =>
    refine Tx.resume_induct (P := DeliveryAppends runId .scheduled db) (.inl rfl)
      fun _ db' h => ?_
    obtain ⟨-, -, -, -, hlog, -⟩ := startSending_ok h
    exact .inr ⟨_, hlog, .inl rfl⟩
  | closing how notify =>
    refine Tx.resume_induct (P := DeliveryAppends runId (.closing how notify) db) (.inl rfl)
      fun _ db' h => ?_
    obtain ⟨run, -, -, ⟨-, rfl⟩ | ⟨-, -, hlog, -⟩⟩ := finalize_ok h
    · refine .inr ⟨_, rfl, .inr ⟨rfl, ⟨how, notify, rfl⟩, concerns_iff ?_ ?_⟩⟩
      · simp [reconciliationEvent]
      · exact get?_reconciliation _ _ _ _ how.unreserved_extra (by decide)
    · refine .inr ⟨_, hlog, .inr ⟨rfl, ⟨how, notify, rfl⟩, concerns_iff ?_ ?_⟩⟩
      · simp [sendReportEvent]
      · exact (how.get?_details runId input.now run.state).1
  | loading run =>
    simp only [deliveryStep, (readOnly_listByRun _).resume]
    exact .inl rfl
  | rendering run stages =>
    simp only [deliveryStep, (readOnly_get _).resume]
    exact .inl rfl
  | resolving run assembled =>
    simp only [deliveryStep, (readOnly_listRecipients _ _).resume]
    exact .inl rfl
  | sending _ | notifying | ended _ => exact .inl rfl

/-- **Every step only adds to the audit log,** and only rows of its own actions. -/
theorem step_appends {w w' : World} {l : Label} (h : step cfg w l = some w') :
    Appends (fun e => e.action ∈ writes l) w.db w'.db := by
  cases l with
  | beginRun cmd runId now fate =>
    simp only [step, Option.ite_none_right_eq_some, Option.some.injEq] at h
    obtain ⟨-, rfl⟩ := h
    refine Tx.commit_induct (P := Appends _ w.db) (.same rfl) fun _ db' h => ?_
    obtain ⟨run, declared, ref, -, -, hlog, -⟩ := beginRun_ok h
    exact .one hlog (by simp [writes, beginRunEvent])
  | submitStageReport cmd now fate =>
    obtain rfl := Option.some.inj h
    refine Tx.commit_induct (P := Appends _ w.db) (.same rfl) fun _ db' h => ?_
    obtain ⟨run, current, -, -, -, -, hlog, -⟩ := submitStageReport_ok h
    exact .one hlog (by simp [writes, submitEvent])
  | finalizeRun cmd now fate =>
    obtain rfl := Option.some.inj h
    refine Tx.resume_induct (P := Appends _ w.db) (.same rfl) fun _ db' h => ?_
    obtain ⟨run, -, -, -, -, -, hlog, -⟩ := finalizeRun_ok h
    exact .one hlog (by simp [writes, finalizeEvent])
  | deliver task input =>
    simp only [step, Option.map_eq_some_iff] at h
    obtain ⟨d, -, rfl⟩ := h
    rcases deliveryStep_appends cfg.delivery d.runId input d.phase w.db with h | ⟨e, h, ha⟩
    · exact .same h
    · refine .one h ?_
      rcases ha with ha | ⟨ha, -⟩ <;> simp [writes, ha]
  | resend task input =>
    simp only [step, Option.map_eq_some_iff] at h
    obtain ⟨r, -, rfl⟩ := h
    rcases resendStep_effect cfg.delivery r.runId r.adminUserId input r.phase w.db with
      e | ⟨record, -, e⟩
    · exact .same (congrArg Db.auditLog e)
    · exact .one (congrArg Db.auditLog e) (by simp [writes, resendEvent])
  | sweep now fate =>
    obtain rfl := Option.some.inj h
    obtain ⟨rows, hlog, hrows⟩ := sweepStep_appends cfg.sweeper now fate w.sweeper w.db
    exact ⟨rows, hlog, fun e he => by simp [writes, hrows e he]⟩
  | dispatch input =>
    obtain rfl := Option.some.inj h
    obtain ⟨rows, hlog, hrows⟩ := dispatchStep_appends cfg.dispatcher input w.dispatcher w.db
    exact ⟨rows, hlog, fun e he => by simp [writes, hrows e he]⟩
  | requestResend _ _ | directory _ _ | crash =>
    obtain rfl := Option.some.inj h
    exact .same rfl
  | abort task =>
    simp only [step, Option.map_eq_some_iff] at h
    obtain ⟨d, -, rfl⟩ := h
    exact .same rfl

/-! ## Rolled back units of work -/

/-- The writing unit of work of a delivery's step is rolled back. -/
def deliveryAborts (runId : RunId) (input : DeliveryInput) (db : Db) : DeliveryPhase → Bool
  | .scheduled => (startSending runId input.now).aborts input.fate db
  | .closing how _ => (finalize runId how input.now).aborts input.fate db
  | _ => false

/-- The writing unit of work of a resend's step is rolled back. -/
def resendAborts (runId : RunId) (adminUserId : Nat) (input : DeliveryInput) (db : Db) :
    ResendPhase → Bool
  | .auditing record =>
    (AuditLog.record (resendEvent runId adminUserId input.now record)).aborts input.fate db
  | _ => false

/-- The writing unit of work of the sweeper's step is rolled back. -/
def sweepAborts (cfg : SweeperConfig) (now : Instant) (fate : Tx.Fate) (db : Db) :
    SweeperPhase → Bool
  | .sweeping _ (candidate :: _) => (transitionAuditAndEnqueue cfg candidate now).aborts fate db
  | _ => false

/-- The writing unit of work of the dispatcher's step is rolled back. -/
def dispatchAborts (cfg : DispatcherConfig) (input : DispatcherInput) (db : Db) :
    DispatcherPhase → Bool
  | .idle => (abandonExhaustedRows cfg input.now).aborts input.fate db
  | .claiming => (claimBatch cfg input.now).aborts input.fate db
  | .settling ((c, error) :: _) => (settle c error input.now).aborts input.fate db
  | _ => false

/-- The step's unit of work is rolled back: its body raises, or a statement, the commit or a
cancellation fails it. -/
def aborts (w : World) : Label → Bool
  | .beginRun cmd runId now fate => (beginRun cfg.beginRun cmd runId now).aborts fate w.db
  | .submitStageReport cmd now fate => (submitStageReport cmd now).aborts fate w.db
  | .finalizeRun cmd now fate => (finalizeRun cmd now).aborts fate w.db
  | .deliver task input =>
    w.deliveries[task]?.any fun d => deliveryAborts d.runId input w.db d.phase
  | .resend task input =>
    w.resends[task]?.any fun r => resendAborts r.runId r.adminUserId input w.db r.phase
  | .sweep now fate => sweepAborts cfg.sweeper now fate w.db w.sweeper
  | .dispatch input => dispatchAborts cfg.dispatcher input w.db w.dispatcher
  | _ => false

/-- **A unit of work that is rolled back leaves nothing behind.** -/
theorem db_of_aborts {w w' : World} {l : Label} (h : step cfg w l = some w')
    (ha : aborts cfg w l = true) : w'.db = w.db := by
  cases l with
  | beginRun cmd runId now fate =>
    simp only [step, Option.ite_none_right_eq_some, Option.some.injEq] at h
    obtain ⟨-, rfl⟩ := h
    exact Tx.commit_of_aborts ha
  | submitStageReport cmd now fate =>
    obtain rfl := Option.some.inj h
    exact Tx.commit_of_aborts ha
  | finalizeRun cmd now fate =>
    obtain rfl := Option.some.inj h
    exact Tx.resume_of_aborts ha
  | deliver task input =>
    simp only [step, Option.map_eq_some_iff] at h
    obtain ⟨d, hd, rfl⟩ := h
    simp only [aborts, hd, Option.any_some] at ha
    change (deliveryStep cfg.delivery d.runId input d.phase w.db).2 = w.db
    cases hp : d.phase with
    | scheduled => rw [hp] at ha; exact Tx.resume_of_aborts ha
    | closing how notify => rw [hp] at ha; exact Tx.resume_of_aborts ha
    | loading _ | rendering _ _ | resolving _ _ | sending _ | notifying | ended _ =>
      rw [hp] at ha
      cases ha
  | resend task input =>
    simp only [step, Option.map_eq_some_iff] at h
    obtain ⟨r, hr, rfl⟩ := h
    simp only [aborts, hr, Option.any_some] at ha
    change (resendStep cfg.delivery r.runId r.adminUserId input r.phase w.db).2 = w.db
    cases hp : r.phase with
    | auditing record => rw [hp] at ha; exact Tx.resume_of_aborts ha
    | requested | preparing _ | loading _ _ | rendering _ _ _ | resolving _ _ | sending _
    | ended _ =>
      rw [hp] at ha
      cases ha
  | sweep now fate =>
    obtain rfl := Option.some.inj h
    change (sweepStep cfg.sweeper now fate w.sweeper w.db).2 = w.db
    simp only [aborts] at ha
    cases hp : w.sweeper with
    | idle => rw [hp] at ha; cases ha
    | sweeping cutoff candidates =>
      rw [hp] at ha
      cases candidates with
      | nil => cases ha
      | cons candidate candidates => exact Tx.resume_of_aborts ha
  | dispatch input =>
    obtain rfl := Option.some.inj h
    change (dispatchStep cfg.dispatcher input w.dispatcher w.db).2 = w.db
    simp only [aborts] at ha
    cases hp : w.dispatcher with
    | idle => rw [hp] at ha; exact Tx.resume_of_aborts ha
    | claiming => rw [hp] at ha; exact Tx.resume_of_aborts ha
    | handling _ _ => rw [hp] at ha; cases ha
    | settling outcomes =>
      rw [hp] at ha
      cases outcomes with
      | nil => cases ha
      | cons outcome outcomes => exact Tx.resume_of_aborts ha
  | requestResend _ _ | directory _ _ | abort _ | crash => cases ha

/-! ## A small service -/

/-- The template of the small service. -/
def sampleTemplate : TemplateRef := ⟨"report", "1", by decide, by decide⟩

/-- A service with one pipeline, two disposition actions and a batch limit of one. -/
def sampleConfig : Config where
  beginRun := {
    pipelineRegistry := .ofList ["daily"]
    tagVocabulary := fun _ => true
    templateRepo := {
      contains := fun _ => true
      resolveLatest := fun _ => .ok sampleTemplate } }
  delivery := {
    emailBodyTemplateRef := sampleTemplate
    emailBodyTemplateOverrides := fun _ => none
    fromAddress := "reports@example.org"
    adminRecipients := []
    subjectTemplates := fun _ => none }
  sweeper := {
    runTimeoutSeconds := 60
    dispositionActions := [.notifyAdmins, .notifySubscribers]
    dispositionOverrides := fun _ => none
    maxCandidatesPerIteration := 10
    maxCandidates_pos := by decide }
  dispatcher := {
    handlersById := fun _ => true
    batchLimit := 1
    staleClaimThresholdSeconds := 60
    maxDispatchAttempts := 3
    batchLimit_pos := by decide
    stale_pos := by decide
    max_pos := by decide }

/-- A run of the small service. -/
def sampleRun : RunId := "00000000-0000-4000-8000-000000000000"

/-- It has one stage. -/
def sampleBegin : BeginRunCommand where
  pipelineType := "daily"
  tags := .empty
  declaredStages := [⟨"load", 0, sampleTemplate, by decide⟩]
  attachmentMode := .perStage
  pipelineType_ne := by decide

theorem sampleSubmit_position_iff :
    (none : Option EmailBodyPosition) = none ↔ (none : Option (Dict Json)) = none := by simp

/-- A submission to it. -/
def sampleSubmit : SubmitStageReportCommand where
  runId := sampleRun
  stageId := "load"
  runId_ne := by decide
  stageId_ne := by decide
  position_iff := sampleSubmit_position_iff

/-- Its finalization. -/
def sampleFinalize : FinalizeRunCommand := ⟨sampleRun, by decide⟩

/-- A step of its delivery at which everything goes well. -/
def sampleInput (now : Instant) : DeliveryInput where
  now := now
  fate := .commits
  render := fun _ _ _ => .ok "report"
  send := none

/-- The run begun, submitted to and finalized, at seconds 0, 1 and 2. -/
def sampleFinalized : List Label :=
  [.beginRun sampleBegin sampleRun (seconds 0) .commits,
    .submitStageReport sampleSubmit (seconds 1) .commits,
    .finalizeRun sampleFinalize (seconds 2) .commits]

/-- The run begun at second 0 and orphaned at second 101, with rows 1 and 2 in the outbox. -/
def sampleOrphaned : List Label :=
  [.beginRun sampleBegin sampleRun (seconds 0) .commits, .sweep (seconds 100) .commits,
    .sweep (seconds 101) .commits]

/-- A step of the dispatcher at which everything goes well. -/
def sampleDispatch (n : Nat) : Label :=
  .dispatch {
    now := seconds n
    fate := .commits
    handler := none }

/-- **Concrete runs.** A run of labels from the empty service whose last state passes a test. -/
theorem exists_reach_of_labels (cfg : Config) {p : World → Bool} (ls : List Label)
    (h : (System.run (step cfg) {} ls).any p = true) : ∃ w, (service cfg).Reach w ∧ p w = true :=
  System.exists_reach_of_run ls (.init ⟨Serial.empty, Serial.empty, rfl⟩) h

end MessageService.System
