import MessageService.System.Replay
import Mathlib.Algebra.GroupWithZero.Nat

/-!
# The metrics of the service

What the use cases tell their `MetricsRecorder` (`application/ports/metrics_recorder.py`), added to
the service: a step also returns the calls that its use case makes. The recorder is in memory, so a
crash empties it, and a call is made after the commit that it is about, so a unit of work whose
caller is cancelled right after its commit is not recorded. The transition to `SENDING` is recorded
before the commit: it is counted also where the commit fails.

* `Tally`: how the calls of a step stand to the changes it commits.
* `metrics_follow_history`: the transitions that are recorded are the transitions in the history,
  in order, apart from those.
* `metrics_balance`: the counters of the terminal states, and the live runs, against the table.
-/

namespace MessageService.System

open MessageService.Domain MessageService.Lib MessageService.Infrastructure
open MessageService.Application

/-- The `outcome` labels of a delivery. -/
inductive DeliveryOutcome where
  | success
  | transientFailure
  | permanentFailure
  deriving DecidableEq, Repr

/-- A call of the recorder. -/
inductive Metric where
  | runStateTransition (target : RunState)
  | stageStateTransition (target : StageState)
  | emailDeliveryOutcome (outcome : DeliveryOutcome)
  | emailSizeBytes (size : Nat)
  | runDuration (duration : Duration)
  deriving DecidableEq, Repr

/-! ## What each use case records -/

/-- The calls after a unit of work, where it returns. -/
def afterCommit {α : Type} (x : Transaction α) (fate : Tx.Fate) (db : Db)
    (calls : α → List Metric) : List Metric :=
  match (x.commit fate db).1 with
  | .returned a => calls a
  | _ => []

/-- `BeginRunUseCase`: the run, and each of its stages. -/
def beginRunMetrics (cmd : BeginRunCommand) : List Metric :=
  .runStateTransition .initiated :: cmd.declaredStages.map fun _ => .stageStateTransition .pending

/-- `SubmitStageReportUseCase`: the stage, and the run if it has been `INITIATED` until then. -/
def submitMetrics (db : Db) (runId : RunId) (result : SubmitStageReportResult) : List Metric :=
  .stageStateTransition result.stageState ::
    if stateOf db runId = some .initiated then [.runStateTransition .aggregating] else []

/-- A run that has become terminal, with how long it took. -/
def terminalMetrics (db : Db) (runId : RunId) (target : RunState) (now : Instant) : List Metric :=
  .runStateTransition target ::
    (db.runs.get? runId).toList.map fun run => .runDuration (now - run.createdAt)

/-- `_transition`, in the unit of work. It comes after the last statement; of a unit of work that is
rolled back, `called` says whether the call was made before that. -/
def startSendingMetrics (runId : RunId) (now : Instant) (fate : Tx.Fate) (called : Bool)
    (db : Db) : List Metric :=
  match startSending runId now db with
  | .error _ => []
  | .ok _ => if fate = .fails ∧ called = false then [] else [.runStateTransition .sending]

/-- `_finalize_sent` and `_finalize_failed`: nothing for a run that is terminal already. -/
def finalizeMetrics (db : Db) (runId : RunId) (how : Closing) (now : Instant) : List Metric :=
  if (stateOf db runId).any RunState.terminal then [] else terminalMetrics db runId how.target now

/-- What `execute` records after it has closed the run. -/
def closedMetrics (how : Closing) (notify : Bool) : List Metric :=
  match how with
  | .sent _ _ => [.emailDeliveryOutcome .success]
  | .failed reason =>
    if notify ∨ reason.code ≠ "EMAIL_DELIVERY" then []
    else
      match reason.details.get? "failure_reason" with
      | some (.str "RETRIES_EXHAUSTED") => [.emailDeliveryOutcome .transientFailure]
      | _ => [.emailDeliveryOutcome .permanentFailure]

/-- The body and the attachments. -/
def emailSize (assembled : Assembled) : Nat :=
  assembled.bodyHtml.utf8ByteSize + (assembled.attachments.map fun a => a.content.utf8ByteSize).sum

/-- A step of a delivery. -/
def deliveryMetrics (cfg : DeliveryConfig) (runId : RunId) (input : DeliveryInput)
    (called : Bool) (db : Db) : DeliveryPhase → List Metric
  | .scheduled => startSendingMetrics runId input.now input.fate called db
  | .resolving run assembled =>
    afterCommit (SubscriptionRepository.listRecipientsForRun run.pipelineType run.tags) input.fate
      db fun _ => [.emailSizeBytes (emailSize assembled)]
  | .closing how notify =>
    afterCommit (finalize runId how input.now) input.fate db fun _ =>
      finalizeMetrics db runId how input.now ++ closedMetrics how notify
  | .notifying =>
    match afterNotifying cfg runId input.now with
    | .ended (.returned _) => [.emailDeliveryOutcome .permanentFailure]
    | _ => []
  | _ => []

/-- `SweeperUseCase`, for one candidate: nothing where it returns `None`. -/
def sweepMetrics (cfg : SweeperConfig) (now : Instant) (fate : Tx.Fate) (db : Db) :
    SweeperPhase → List Metric
  | .sweeping _ (candidate :: _) =>
    afterCommit (transitionAuditAndEnqueue cfg candidate now) fate db fun enqueued =>
      if enqueued.isSome then terminalMetrics db candidate .orphaned now else []
  | _ => []

variable (cfg : Config)

/-- The calls of a step. -/
def recorded (w : World) (called : Bool) : Label → List Metric
  | .beginRun cmd runId now fate =>
    afterCommit (beginRun cfg.beginRun cmd runId now) fate w.db fun _ => beginRunMetrics cmd
  | .submitStageReport cmd now fate =>
    afterCommit (submitStageReport cmd now) fate w.db (submitMetrics w.db cmd.runId)
  | .finalizeRun cmd now fate =>
    afterCommit (finalizeRun cmd now) fate w.db fun _ => [.runStateTransition .ready]
  | .deliver task input =>
    w.deliveries[task]?.toList.flatMap fun d =>
      deliveryMetrics cfg.delivery d.runId input called w.db d.phase
  | .sweep now fate => sweepMetrics cfg.sweeper now fate w.db w.sweeper
  | .requestResend _ _ | .resend _ _ | .dispatch _ | .directory _ _ | .abort _ | .crash => []

/-- The service with its recorder. -/
structure Metered where
  world : World
  /-- The calls since the process has started. -/
  metrics : List Metric := []
  /-- How long the history was then. -/
  since : Nat := 0

/-- One step. -/
def meteredStep (m : Metered) (l : Label × Bool) : Option Metered :=
  (step cfg m.world l.1).map fun w =>
    match l.1 with
    | .crash => { world := w, metrics := [], since := w.history.length }
    | _ => { m with world := w, metrics := m.metrics ++ recorded cfg m.world l.2 l.1 }

/-- The service and its recorder, over every interleaving. -/
def metered : System Metered (Label × Bool) :=
  System.ofFun (fun m => Init m.world ∧ m.metrics = [] ∧ m.since = 0) (meteredStep cfg)

/-! ## Transitions, recorded and committed -/

/-- The transition of a run that a call records. -/
def Metric.runState? : Metric → Option RunState
  | runStateTransition target => some target
  | _ => none

/-- The transitions of runs in a list of calls. -/
def recordedStates (ms : List Metric) : List RunState := ms.filterMap Metric.runState?

/-- The state that a run has entered by an event. -/
def Event.entered? : Event → Option RunState
  | entered _ _ _ s => some s
  | _ => none

/-- The transitions of runs in a history. -/
def committedStates (es : List Event) : List RunState := es.filterMap Event.entered?

theorem recordedStates_append (ms ms' : List Metric) :
    recordedStates (ms ++ ms') = recordedStates ms ++ recordedStates ms' := List.filterMap_append

theorem committedStates_append (es es' : List Event) :
    committedStates (es ++ es') = committedStates es ++ committedStates es' :=
  List.filterMap_append

theorem committedStates_other {es : List Event} (h : ∀ e ∈ es, e.isEntry = false) :
    committedStates es = [] := by
  refine List.filterMap_eq_nil_iff.mpr fun e he => ?_
  have := h e he
  cases e with
  | entered _ _ _ _ => cases this
  | _ => rfl

/-- What happens to the unit of work of a step. -/
def Label.fate? : Label → Option Tx.Fate
  | .beginRun _ _ _ fate | .submitStageReport _ _ fate | .finalizeRun _ _ fate | .sweep _ fate =>
    some fate
  | .deliver _ input | .resend _ input => some input.fate
  | .dispatch input => some input.fate
  | .requestResend _ _ | .directory _ _ | .abort _ | .crash => none

/-- **How the transitions that a step records stand to those that it commits.** -/
inductive Tally (l : Label × Bool) : List RunState → List RunState → Prop
  /-- They are the same. -/
  | exact (ss : List RunState) : Tally l ss ss
  /-- The caller is cancelled right after the commit. -/
  | lost (ss : List RunState) (h : l.1.fate? = some .lost) : Tally l [] ss
  /-- The start of a delivery is rolled back after it was recorded. -/
  | early (h : l.1.fate? = some .fails) (hl : l.2 = true) : Tally l [.sending] []

theorem committedStates_same {mover : Mover} {runId : RunId} {db db' : Db}
    (h : db'.runs = db.runs) : committedStates (entries mover runId db db') = [] := by
  rw [entries_self _ _ _ _ h]
  rfl

theorem committedStates_of_state {mover : Mover} {runId : RunId} {db db' : Db} {s : RunState}
    (h : stateOf db' runId = some s) (hne : stateOf db runId ≠ some s) :
    committedStates (entries mover runId db db') = [s] := by
  rw [entries_of_ne h hne]
  rfl

theorem stateOf_of_get? {db : Db} {runId : RunId} {row : RunRow}
    (h : db.runs.get? runId = some row) : stateOf db runId = some row.state := by
  rw [stateOf, h]
  rfl

/-- A run that moves along an edge has entered the edge's end. -/
theorem committedStates_moved {mover : Mover} {runId : RunId} {db db' : Db} {old : RunRow}
    {s : RunState} {now : Instant} (was : db.runs.get? runId = some old)
    (edge : RunState.Edge old.state s)
    (runs : db'.runs = RunRepository.moved db.runs runId s now) :
    committedStates (entries mover runId db db') = [s] := by
  refine committedStates_of_state ?_ ?_
  · have his : db'.runs.get? runId = some (RunRepository.withState old s now) := by
      rw [runs, RunRepository.get?_moved, if_pos rfl, was]
      rfl
    exact stateOf_of_get? his
  · rw [stateOf_of_get? was]
    exact fun h => RunState.Edge.ne edge (Option.some.inj h)

/-- **A unit of work whose use case records afterwards what it has committed.** -/
theorem tally_commit {α : Type} {x : Transaction α} {l : Label × Bool} {fate : Tx.Fate}
    (hfate : l.1.fate? = some fate) {mover : Mover} {runId : RunId} {db : Db}
    {calls : α → List Metric} (h : ∀ a db', x db = .ok (a, db') →
      recordedStates (calls a) = committedStates (entries mover runId db db')) :
    Tally l (recordedStates (afterCommit x fate db calls))
      (committedStates (entries mover runId db (x.commit fate db).2)) := by
  have hstill : committedStates (entries mover runId db db) = [] := committedStates_same rfl
  unfold afterCommit Tx.commit
  cases hx : x db with
  | error e => cases fate <;> exact hstill ▸ .exact []
  | ok r =>
    obtain ⟨a, db'⟩ := r
    cases fate with
    | commits => exact h a db' hx ▸ .exact _
    | fails => exact hstill ▸ .exact []
    | lost => exact .lost _ hfate

/-- A unit of work that only reads, and records no transition. -/
theorem recordedStates_afterCommit {α : Type} {x : Transaction α} {fate : Tx.Fate} {db : Db}
    {calls : α → List Metric} (h : ∀ a, recordedStates (calls a) = []) :
    recordedStates (afterCommit x fate db calls) = [] := by
  unfold afterCommit
  split
  · exact h _
  · rfl

theorem recordedStates_terminalMetrics (db : Db) (runId : RunId) (target : RunState)
    (now : Instant) : recordedStates (terminalMetrics db runId target now) = [target] := by
  unfold terminalMetrics
  cases db.runs.get? runId <;> rfl

theorem recordedStates_closedMetrics (how : Closing) (notify : Bool) :
    recordedStates (closedMetrics how notify) = [] := by
  unfold closedMetrics
  split
  · rfl
  · split
    · rfl
    · split <;> rfl

theorem recordedStates_beginRunMetrics (cmd : BeginRunCommand) :
    recordedStates (beginRunMetrics cmd) = [.initiated] := by
  have hstages : recordedStates (cmd.declaredStages.map fun _ =>
      Metric.stageStateTransition .pending) = [] :=
    List.filterMap_eq_nil_iff.mpr fun m hm => by
      obtain ⟨_, -, rfl⟩ := List.mem_map.mp hm
      rfl
  exact congrArg (RunState.initiated :: ·) hstages

/-! ## One step -/

theorem tally_beginRun {cmd : BeginRunCommand} {runId : RunId} {now : Instant} {fate : Tx.Fate}
    {called : Bool} {db : Db} (fresh : db.runs.get? runId = none) :
    Tally (.beginRun cmd runId now fate, called)
      (recordedStates (afterCommit (beginRun cfg.beginRun cmd runId now) fate db fun _ =>
        beginRunMetrics cmd))
      (committedStates (entries .begin runId db
        ((beginRun cfg.beginRun cmd runId now).commit fate db).2)) := by
  refine tally_commit rfl fun a db' h => ?_
  obtain ⟨run, declared, ref, hrun, hruns, -, -⟩ := beginRun_ok h
  have hid : (RunRepository.runToRow run).runId = runId := congrArg RunRow.runId hrun
  have hstate : (RunRepository.runToRow run).state = .initiated := congrArg RunRow.state hrun
  have his : db'.runs.get? runId = some (RunRepository.runToRow run) := by
    rw [hruns, Table.get?_upsert, if_pos hid.symm, fresh]
    rfl
  have hnone : stateOf db runId ≠ some .initiated := by
    rw [stateOf, fresh]
    simp
  rw [committedStates_of_state ((stateOf_of_get? his).trans (congrArg some hstate)) hnone]
  exact recordedStates_beginRunMetrics cmd

theorem tally_submit {cmd : SubmitStageReportCommand} {now : Instant} {fate : Tx.Fate}
    {called : Bool} {db : Db} :
    Tally (.submitStageReport cmd now fate, called)
      (recordedStates (afterCommit (submitStageReport cmd now) fate db
        (submitMetrics db cmd.runId)))
      (committedStates (entries .submit cmd.runId db
        ((submitStageReport cmd now).commit fate db).2)) := by
  refine tally_commit rfl fun a db' h => ?_
  obtain ⟨run, current, hrun, hid, -, hruns, -, -⟩ := submitStageReport_ok h
  have hstate := stateOf_of_get? hrun
  unfold submitMetrics
  by_cases hi : run.state = .initiated
  · rw [if_pos hi] at hruns
    rw [if_pos (hstate.trans (congrArg some hi)),
      committedStates_moved hrun (RunState.edge_aggregating_iff.mpr hi) hruns]
    rfl
  · rw [if_neg hi] at hruns
    rw [if_neg fun h => hi (Option.some.inj (hstate.symm.trans h)), committedStates_same hruns]
    rfl

theorem tally_finalizeRun {cmd : FinalizeRunCommand} {now : Instant} {fate : Tx.Fate}
    {called : Bool} {db : Db} :
    Tally (.finalizeRun cmd now fate, called)
      (recordedStates (afterCommit (finalizeRun cmd now) fate db fun _ =>
        [.runStateTransition .ready]))
      (committedStates
        (entries .finalize cmd.runId db ((finalizeRun cmd now).commit fate db).2)) := by
  refine tally_commit rfl fun a db' h => ?_
  obtain ⟨run, hrun, hid, hstate, -, hruns, -, -⟩ := finalizeRun_ok h
  rw [committedStates_moved hrun (RunState.edge_ready_iff.mpr hstate) hruns]
  rfl

/-- The start of a delivery is the one place that records before the commit. -/
theorem tally_startSending {task : Nat} {input : DeliveryInput} {runId : RunId} {called : Bool}
    {db : Db} :
    Tally (.deliver task input, called)
      (recordedStates (startSendingMetrics runId input.now input.fate called db))
      (committedStates (entries (.delivery task) runId db
        ((startSending runId input.now).commit input.fate db).2)) := by
  have hstill : committedStates (entries (.delivery task) runId db db) = [] :=
    committedStates_same rfl
  unfold startSendingMetrics
  cases hx : startSending runId input.now db with
  | error e =>
    rw [Tx.commit_snd_of_error hx, hstill]
    exact .exact []
  | ok r =>
    obtain ⟨run, db'⟩ := r
    obtain ⟨hrun, -, hready, hruns, -, -⟩ := startSending_ok hx
    have hmoved : committedStates (entries (.delivery task) runId db db') = [.sending] :=
      committedStates_moved hrun (RunState.edge_sending_iff.mpr hready) hruns
    rw [Tx.commit_snd_of_ok hx]
    by_cases hfails : input.fate = .fails
    · rw [if_pos hfails, hstill]
      cases called with
      | false =>
        rw [if_pos ⟨hfails, rfl⟩]
        exact .exact []
      | true =>
        rw [if_neg fun h => Bool.noConfusion h.2]
        exact .early (congrArg some hfails) rfl
    · rw [if_neg hfails, if_neg fun h => hfails h.1, hmoved]
      exact .exact _

theorem tally_finalize {task : Nat} {input : DeliveryInput} {runId : RunId} {called : Bool}
    {how : Closing} {notify : Bool} {db : Db} :
    Tally (.deliver task input, called)
      (recordedStates (afterCommit (finalize runId how input.now) input.fate db fun _ =>
        finalizeMetrics db runId how input.now ++ closedMetrics how notify))
      (committedStates (entries (.delivery task) runId db
        ((finalize runId how input.now).commit input.fate db).2)) := by
  refine tally_commit rfl fun a db' h => ?_
  rw [recordedStates_append, recordedStates_closedMetrics, List.append_nil]
  obtain ⟨run, hrun, -, ⟨hterminal, hdb⟩ | ⟨hedge, hruns, -, -⟩⟩ := finalize_ok h
  · have hsame : db'.runs = db.runs := by rw [hdb]
    rw [committedStates_same hsame, finalizeMetrics, stateOf_of_get? hrun]
    exact congrArg recordedStates (if_pos hterminal)
  · have hlive : ¬run.state.terminal = true := fun h => RunState.not_edge_of_terminal h hedge
    rw [committedStates_moved hrun hedge hruns, finalizeMetrics, stateOf_of_get? hrun,
      Option.any_some, if_neg hlive, recordedStates_terminalMetrics]

/-- The sweeper returns a count for the runs that it has moved. -/
theorem transitionAuditAndEnqueue_result {cfg : SweeperConfig} {runId : RunId} {now : Instant}
    {r : Option Nat} {db db' : Db}
    (h : transitionAuditAndEnqueue cfg runId now db = .ok (r, db')) :
    r = none ∧ db' = db ∨ r.isSome ∧ ∃ run : Run, db.runs.get? runId = some run.toRunRow ∧
      RunState.Edge run.state .orphaned ∧
      db'.runs = RunRepository.moved db.runs runId .orphaned now := by
  simp only [transitionAuditAndEnqueue, Tx.ok_bind, Tx.ok_attempt] at h
  obtain ⟨found, _, ⟨hget, rfl⟩, h⟩ := h
  obtain ⟨rfl, -⟩ | ⟨run, rfl, hrun, -⟩ := RunRepository.findOrNone_ok hget
  · simp only [Tx.ok_pure] at h
    exact .inl ⟨h.1.symm, h.2.symm⟩
  · cases ht : RunState.transition run.state .orphaned runId with
    | error e =>
      simp only [ht, Tx.ok_pure] at h
      exact .inl ⟨h.1.symm, h.2.symm⟩
    | ok nextState =>
      obtain ⟨rfl, hedge⟩ := RunState.transition_ok.mp ht
      simp only [ht, StageRepository.listPendingByRun, AuditLog.record, Tx.ok_bind, Tx.ok_read,
        Tx.ok_write, Tx.ok_pure] at h
      obtain ⟨_, _, hupdate, _, _, ⟨-, rfl⟩, _, _, rfl, _, _, hall, rfl, rfl⟩ := h
      refine .inr ⟨rfl, run, hrun, hedge, ?_⟩
      rw [enqueueAll_ok hall, RunRepository.updateState_ok hupdate]

theorem tally_sweep {now : Instant} {fate : Tx.Fate} {called : Bool} {candidate : RunId}
    {db : Db} :
    Tally (.sweep now fate, called)
      (recordedStates (afterCommit (transitionAuditAndEnqueue cfg.sweeper candidate now) fate db
        fun enqueued =>
          if enqueued.isSome then terminalMetrics db candidate .orphaned now else []))
      (committedStates (entries .sweep candidate db
        ((transitionAuditAndEnqueue cfg.sweeper candidate now).commit fate db).2)) := by
  refine tally_commit rfl fun a db' h => ?_
  obtain ⟨rfl, rfl⟩ | ⟨hsome, run, hrun, hedge, hruns⟩ := transitionAuditAndEnqueue_result h
  · rw [committedStates_same rfl]
    rfl
  · rw [if_pos hsome, committedStates_moved hrun hedge hruns, recordedStates_terminalMetrics]

/-- A step of a delivery, by its phase. -/
theorem tally_delivery {cfg : DeliveryConfig} {task : Nat} {input : DeliveryInput} {runId : RunId}
    {called : Bool} {phase : DeliveryPhase} {db : Db} :
    Tally (.deliver task input, called)
      (recordedStates (deliveryMetrics cfg runId input called db phase))
      (committedStates (entries (.delivery task) runId db
        (deliveryStep cfg runId input phase db).2)) := by
  have hstill {db' : Db} (h : db' = db) {ms : List Metric} (hms : recordedStates ms = []) :
      Tally (.deliver task input, called) (recordedStates ms)
        (committedStates (entries (.delivery task) runId db db')) := by
    rw [hms, h, committedStates_same rfl]
    exact .exact []
  cases phase with
  | scheduled =>
    rw [deliveryStep, Tx.resume_snd]
    exact tally_startSending
  | closing how notify =>
    rw [deliveryStep, Tx.resume_snd]
    exact tally_finalize
  | loading run => exact hstill (readOnly_listByRun _).resume rfl
  | rendering run stages => exact hstill (readOnly_get _).resume rfl
  | resolving run assembled =>
    exact hstill (readOnly_listRecipients _ _).resume (recordedStates_afterCommit fun _ => rfl)
  | sending email => exact hstill rfl rfl
  | notifying =>
    refine hstill rfl ?_
    rw [deliveryMetrics]
    split <;> rfl
  | ended outcome => exact hstill rfl rfl

/-- **A step records the transitions that it commits**, up to what its unit of work meets. -/
theorem tally_step {w w' : World} {l : Label × Bool} (h : step cfg w l.1 = some w') :
    ∃ es, w'.history = w.history ++ es ∧
      Tally l (recordedStates (recorded cfg w l.2 l.1)) (committedStates es) := by
  obtain ⟨l, called⟩ := l
  cases l with
  | beginRun cmd runId now fate =>
    simp only [step, Option.isNone_iff_eq_none, Option.ite_none_right_eq_some,
      Option.some.injEq] at h
    obtain ⟨fresh, rfl⟩ := h
    exact ⟨_, rfl, tally_beginRun cfg fresh⟩
  | submitStageReport cmd now fate =>
    obtain rfl := Option.some.inj h
    exact ⟨_, rfl, tally_submit⟩
  | finalizeRun cmd now fate =>
    obtain rfl := Option.some.inj h
    refine ⟨_, rfl, ?_⟩
    rw [Tx.resume_snd]
    exact tally_finalizeRun
  | deliver task input =>
    simp only [step, Option.map_eq_some_iff] at h
    obtain ⟨d, hd, rfl⟩ := h
    refine ⟨_, List.append_assoc .., ?_⟩
    have hmailing : committedStates (mailing task d.runId d.phase) = [] := by
      unfold mailing
      split <;> rfl
    have hrecorded : recorded cfg w called (.deliver task input) =
        deliveryMetrics cfg.delivery d.runId input called w.db d.phase := by
      rw [recorded, hd]
      exact List.append_nil _
    rw [committedStates_append, hmailing, List.append_nil, hrecorded]
    exact tally_delivery
  | sweep now fate =>
    obtain rfl := Option.some.inj h
    refine ⟨_, rfl, ?_⟩
    rw [recorded]
    cases w.sweeper with
    | idle => exact .exact []
    | sweeping cutoff candidates =>
      cases candidates with
      | nil => exact .exact []
      | cons candidate candidates =>
        simp only [sweepMetrics, sweepStep, Tx.resume_snd]
        exact tally_sweep cfg
  | requestResend runId adminUserId =>
    obtain rfl := Option.some.inj h
    exact ⟨[], (List.append_nil _).symm, .exact []⟩
  | resend task input =>
    simp only [step, Option.map_eq_some_iff] at h
    obtain ⟨r, -, rfl⟩ := h
    exact ⟨[], (List.append_nil _).symm, .exact []⟩
  | dispatch input =>
    obtain rfl := Option.some.inj h
    refine ⟨_, List.append_assoc .., ?_⟩
    rw [committedStates_other]
    · exact .exact []
    · intro e he
      rcases List.mem_append.mp he with he | he
      · obtain ⟨i, -, rfl⟩ := List.mem_map.mp he
        rfl
      · obtain ⟨i, -, rfl⟩ := List.mem_map.mp he
        rfl
  | directory users subscriptions =>
    obtain rfl := Option.some.inj h
    exact ⟨[], (List.append_nil _).symm, .exact []⟩
  | abort task =>
    simp only [step, Option.map_eq_some_iff] at h
    obtain ⟨d, -, rfl⟩ := h
    exact ⟨[], (List.append_nil _).symm, .exact []⟩
  | crash =>
    obtain rfl := Option.some.inj h
    exact ⟨[], (List.append_nil _).symm, .exact []⟩

/-! ## Whole runs -/

/-- The transitions in the history since the process has started. -/
def Metered.committed (m : Metered) : List RunState :=
  committedStates (m.world.history.drop m.since)

/-- The transitions that have been recorded since then. -/
def Metered.counted (m : Metered) : List RunState := recordedStates m.metrics

/-- What a step does to the recorder and to the history. -/
theorem meteredStep_cases {m m' : Metered} {l : Label × Bool}
    (hsince : m.since ≤ m.world.history.length) (h : meteredStep cfg m l = some m') :
    m'.since ≤ m'.world.history.length ∧
      (m'.metrics = [] ∧ m'.committed = [] ∨
        ∃ ms es, m'.metrics = m.metrics ++ ms ∧ m'.committed = m.committed ++ committedStates es ∧
          Tally l (recordedStates ms) (committedStates es)) := by
  simp only [meteredStep, Option.map_eq_some_iff] at h
  obtain ⟨w, hw, rfl⟩ := h
  obtain ⟨es, hhistory, htally⟩ := tally_step cfg hw
  by_cases hcrash : l.1 = .crash
  · rw [hcrash]
    refine ⟨Nat.le_refl _, .inl ⟨rfl, ?_⟩⟩
    simp only [Metered.committed, List.drop_length]
    rfl
  · have hm : (match l.1 with
        | .crash => ({ world := w, metrics := [], since := w.history.length } : Metered)
        | _ => { m with world := w, metrics := m.metrics ++ recorded cfg m.world l.2 l.1 }) =
        { m with world := w, metrics := m.metrics ++ recorded cfg m.world l.2 l.1 } := by
      split
      · next h => exact absurd h hcrash
      · rfl
    rw [hm]
    refine ⟨?_, .inr ⟨_, es, rfl, ?_, htally⟩⟩
    · rw [hhistory, List.length_append]
      exact Nat.le_add_right_of_le hsince
    · simp only [Metered.committed]
      rw [hhistory, List.drop_append_of_le_length hsince, committedStates_append]

theorem since_le {m : Metered} (h : (metered cfg).Reach m) : m.since ≤ m.world.history.length := by
  refine System.inv_of_reach (I := fun m : Metered => m.since ≤ m.world.history.length) ⟨?_, ?_⟩ h
  · rintro s ⟨-, -, hsince⟩
    exact hsince ▸ Nat.zero_le _
  · exact fun s l t hs hstep => (meteredStep_cases cfg hs hstep).1

/-- No unit of work of the step is cut off between its commit and its metrics, or the other way
round. -/
def Undisturbed (_ : Metered) (l : Label × Bool) : Prop :=
  l.1.fate? ≠ some .lost ∧ (l.1.fate? = some .fails → l.2 = false)

/-- A step that is not disturbed records what it commits. -/
theorem Tally.eq {m : Metered} {l : Label × Bool} {rs cs : List RunState} (h : Tally l rs cs)
    (hl : Undisturbed m l) : rs = cs := by
  cases h with
  | exact ss => rfl
  | lost ss hlost => exact absurd hlost hl.1
  | early hfails hearly =>
    rw [hl.2 hfails] at hearly
    cases hearly

/-- Apart from `SENDING`, a step records nothing that it has not committed. -/
theorem Tally.sublist {l : Label × Bool} {rs cs : List RunState} (h : Tally l rs cs) :
    (rs.filter (· ≠ .sending)).Sublist (cs.filter (· ≠ .sending)) := by
  cases h with
  | exact ss => exact List.Sublist.refl _
  | lost ss _ => exact List.nil_sublist _
  | early _ _ => exact List.nil_sublist _

theorem counted_append (m m' : Metered) {ms : List Metric} (h : m'.metrics = m.metrics ++ ms) :
    m'.counted = m.counted ++ recordedStates ms := by
  rw [Metered.counted, h, recordedStates_append]
  rfl

theorem counted_sublist {m : Metered} (h : (metered cfg).Reach m) :
    (m.counted.filter (· ≠ .sending)).Sublist (m.committed.filter (· ≠ .sending)) := by
  refine System.inv_of_reach_and (I := fun m : Metered =>
    (m.counted.filter (· ≠ .sending)).Sublist (m.committed.filter (· ≠ .sending))) ?_ ?_ h
  · rintro s ⟨-, hmetrics, -⟩
    rw [Metered.counted, hmetrics]
    exact List.nil_sublist _
  · intro s l t hs ih hstep
    obtain ⟨-, ⟨hmetrics, -⟩ | ⟨ms, es, hmetrics, hcommitted, htally⟩⟩ :=
      meteredStep_cases cfg (since_le cfg hs) hstep
    · rw [Metered.counted, hmetrics]
      exact List.nil_sublist _
    · rw [counted_append s t hmetrics, hcommitted, List.filter_append, List.filter_append]
      exact ih.append htally.sublist

theorem counted_eq {m : Metered} (h : ((metered cfg).restrict Undisturbed).Reach m) :
    m.counted = m.committed := by
  refine System.inv_of_reach_and (I := fun m : Metered => m.counted = m.committed) ?_ ?_ h
  · rintro s ⟨⟨users, subscriptions, hworld⟩, hmetrics, hsince⟩
    rw [Metered.counted, Metered.committed, hmetrics, hworld]
    rw [List.drop_nil]
    rfl
  · rintro s l t hs ih ⟨hstep, hl⟩
    obtain ⟨-, ⟨hmetrics, hcommitted⟩ | ⟨ms, es, hmetrics, hcommitted, htally⟩⟩ :=
      meteredStep_cases cfg (since_le cfg (System.reach_of_restrict hs)) hstep
    · rw [Metered.counted, hmetrics, hcommitted]
      rfl
    · rw [counted_append s t hmetrics, hcommitted, ih, htally.eq hl]

/-! ## Durations -/

/-- The call observes the duration of a run. -/
def Metric.isDuration : Metric → Bool
  | runDuration _ => true
  | _ => false

/-- As many durations are observed as terminal transitions are recorded. -/
def DurationsMatch (ms : List Metric) : Prop :=
  ms.countP Metric.isDuration = (recordedStates ms).countP RunState.terminal

theorem DurationsMatch.nil : DurationsMatch [] := rfl

theorem DurationsMatch.append {ms ms' : List Metric} (h : DurationsMatch ms)
    (h' : DurationsMatch ms') : DurationsMatch (ms ++ ms') := by
  unfold DurationsMatch at *
  rw [recordedStates_append, List.countP_append, List.countP_append, h, h']

theorem durationsMatch_afterCommit {α : Type} {x : Transaction α} {fate : Tx.Fate} {db : Db}
    {calls : α → List Metric} (h : ∀ a db', x db = .ok (a, db') → DurationsMatch (calls a)) :
    DurationsMatch (afterCommit x fate db calls) := by
  unfold afterCommit Tx.commit
  cases hx : x db with
  | error e => cases fate <;> exact .nil
  | ok r =>
    cases fate with
    | commits => exact h _ _ hx
    | fails | lost => exact .nil

theorem durationsMatch_terminalMetrics {db : Db} {runId : RunId} {row : RunRow}
    {target : RunState} {now : Instant} (h : db.runs.get? runId = some row)
    (ht : target.terminal = true) : DurationsMatch (terminalMetrics db runId target now) := by
  unfold DurationsMatch
  rw [recordedStates_terminalMetrics, terminalMetrics, h]
  simp [Metric.isDuration, ht]

theorem terminal_target (how : Closing) : how.target.terminal = true := by
  cases how <;> rfl

theorem durationsMatch_delivery {cfg : DeliveryConfig} {runId : RunId} {input : DeliveryInput}
    {called : Bool} {phase : DeliveryPhase} {db : Db} :
    DurationsMatch (deliveryMetrics cfg runId input called db phase) := by
  cases phase with
  | scheduled =>
    rw [deliveryMetrics, startSendingMetrics]
    split
    · exact .nil
    · split <;> rfl
  | closing how notify =>
    refine durationsMatch_afterCommit fun a db' h => ?_
    have hclosed : DurationsMatch (closedMetrics how notify) := by
      unfold closedMetrics
      split
      · rfl
      · split
        · exact .nil
        · split <;> rfl
    refine .append ?_ hclosed
    obtain ⟨run, hrun, -⟩ := finalize_ok h
    unfold finalizeMetrics
    split
    · exact .nil
    · exact durationsMatch_terminalMetrics hrun (terminal_target how)
  | resolving run assembled => exact durationsMatch_afterCommit fun _ _ _ => rfl
  | notifying =>
    rw [deliveryMetrics]
    split <;> rfl
  | loading _ | rendering _ _ | sending _ | ended _ => exact .nil

theorem durationsMatch_recorded (w : World) (called : Bool) (l : Label) :
    DurationsMatch (recorded cfg w called l) := by
  cases l with
  | beginRun cmd runId now fate =>
    refine durationsMatch_afterCommit fun _ _ _ => ?_
    rw [DurationsMatch, recordedStates_beginRunMetrics]
    simp [beginRunMetrics, Metric.isDuration, RunState.terminal]
  | submitStageReport cmd now fate =>
    refine durationsMatch_afterCommit fun _ _ _ => ?_
    unfold submitMetrics
    split <;> rfl
  | finalizeRun cmd now fate => exact durationsMatch_afterCommit fun _ _ _ => rfl
  | deliver task input =>
    rw [recorded]
    cases w.deliveries[task]? with
    | none => exact .nil
    | some d =>
      change DurationsMatch (deliveryMetrics _ _ _ _ _ _ ++ [])
      rw [List.append_nil]
      exact durationsMatch_delivery
  | sweep now fate =>
    rw [recorded]
    cases w.sweeper with
    | idle => exact .nil
    | sweeping cutoff candidates =>
      cases candidates with
      | nil => exact .nil
      | cons candidate candidates =>
        refine durationsMatch_afterCommit fun a db' h => ?_
        obtain ⟨rfl, -⟩ | ⟨hsome, run, hrun, -⟩ := transitionAuditAndEnqueue_result h
        · exact .nil
        · rw [if_pos hsome]
          exact durationsMatch_terminalMetrics hrun rfl
  | requestResend _ _ | resend _ _ | dispatch _ | directory _ _ | abort _ | crash => exact .nil

theorem durationsMatch {m : Metered} (h : (metered cfg).Reach m) : DurationsMatch m.metrics := by
  refine System.inv_of_reach (I := fun m : Metered => DurationsMatch m.metrics) ⟨?_, ?_⟩ h
  · rintro s ⟨-, hmetrics, -⟩
    rw [hmetrics]
    exact .nil
  · intro s l t ih hstep
    simp only [metered, System.ofFun, meteredStep, Option.map_eq_some_iff] at hstep
    obtain ⟨w, -, rfl⟩ := hstep
    split
    · exact .nil
    · exact ih.append (durationsMatch_recorded cfg s.world l.2 l.1)

/-- **The recorder follows the history**, in every run of the service.

* The transitions that it counts are, in order, among those that are committed; only `SENDING` may
  be counted without.
* Where no unit of work is cut off at its commit, they are those that are committed, in order, since
  the process has started.
* There is one duration for each terminal transition that is counted. -/
theorem metrics_follow_history :
    (∀ m, (metered cfg).Reach m →
      (m.counted.filter (· ≠ .sending)).Sublist (m.committed.filter (· ≠ .sending)) ∧
        m.metrics.countP Metric.isDuration = m.counted.countP RunState.terminal) ∧
    ∀ m, ((metered cfg).restrict Undisturbed).Reach m → m.counted = m.committed :=
  ⟨fun _ h => ⟨counted_sublist cfg h, durationsMatch cfg h⟩, fun _ h => counted_eq cfg h⟩

/-- A run whose caller is cancelled right after its commit, and one whose delivery fails at the
commit of its start. -/
def cutOff : List (Label × Bool) :=
  (.beginRun sampleBegin "00000000-0000-4000-8000-000000000001" (seconds 0) .lost, false) ::
    sampleFinalized.map (·, false) ++
      [(.deliver 0 { sampleInput (seconds 3) with fate := .fails }, true)]

/-- One run too few is counted as begun, and a delivery that is not under way. -/
theorem metrics_follow_history_sample : ∃ m, (metered sampleConfig).Reach m ∧
    m.counted = [.initiated, .aggregating, .ready, .sending] ∧
    m.committed = [.initiated, .initiated, .aggregating, .ready] ∧
    (m.counted.filter (· ≠ .sending)).Sublist (m.committed.filter (· ≠ .sending)) ∧
    m.metrics.countP Metric.isDuration = m.counted.countP RunState.terminal := by
  have hinit : (metered sampleConfig).Reach { world := {} } :=
    .init ⟨⟨Serial.empty, Serial.empty, rfl⟩, rfl, rfl⟩
  obtain ⟨m, hm, htest⟩ := System.exists_reach_of_run cutOff hinit
    (p := fun m => m.counted = [.initiated, .aggregating, .ready, .sending] ∧
      m.committed = [.initiated, .initiated, .aggregating, .ready]) (by decide +kernel)
  obtain ⟨hcounted, hcommitted⟩ : m.counted = [.initiated, .aggregating, .ready, .sending] ∧
      m.committed = [.initiated, .initiated, .aggregating, .ready] := of_decide_eq_true htest
  exact ⟨m, hm, hcounted, hcommitted, (metrics_follow_history sampleConfig).1 m hm⟩

/-! ## The census of the runs -/

/-- How many rows `runs` has, and how many of them are in a state. -/
def runsIn (db : Db) (p : RunState → Bool) : Nat := db.runs.rows.countP fun row => p row.state

/-- The table by the transitions: every run is one that has entered `INITIATED`, and each that has
entered a terminal state is still there. -/
structure Census (db : Db) (ss : List RunState) : Prop where
  created : runsIn db (fun _ => true) = ss.count .initiated
  closed : ∀ s : RunState, s.terminal = true → runsIn db (· = s) = ss.count s

/-- What a step adds to a count is the row of the run that it moves, and not its row before. -/
theorem runsIn_of_entered {db db' : Db} {runId : RunId} {row : RunRow}
    (others : ∀ k, k ≠ runId → db'.runs.get? k = db.runs.get? k)
    (is : db'.runs.get? runId = some row) (p : RunState → Bool) :
    runsIn db' p + ((stateOf db runId).any p).toNat = runsIn db p + (p row.state).toNat := by
  have hcount := Table.countP_of_agree others fun row => p row.state
  have hone (o : Option RunRow) :
      o.toList.countP (fun row => p row.state) = ((o.map RunRow.state).any p).toNat := by
    cases o with
    | none => rfl
    | some row => cases h : p row.state <;> simp [h]
  rw [hone, hone, is] at hcount
  exact hcount

/-- **A step keeps the census.** -/
theorem Census.effect {db db' : Db} {es : List Event} {ss : List RunState} (h : Census db ss)
    (he : RunEffect db db' es) : Census db' (ss ++ committedStates es) := by
  cases he with
  | silent runs log nothing =>
    have hsame (p : RunState → Bool) : runsIn db' p = runsIn db p := by rw [runsIn, runs, runsIn]
    rw [show committedStates [] = [] from rfl, List.append_nil]
    exact ⟨(hsame _).trans h.created, fun s hs => (hsame _).trans (h.closed s hs)⟩
  | @entered mover runId row now e others is was log about told =>
    have hstates : committedStates [.entered mover runId (stateOf db runId) row.state] =
        [row.state] := rfl
    have hcount := runsIn_of_entered others is
    rw [hstates]
    rcases was with ⟨hnone, hinitiated⟩ | ⟨old, hold, hedge, -⟩
    · -- a new run: one more, and not in a terminal state
      rw [hinitiated] at hcount ⊢
      refine ⟨?_, fun s hs => ?_⟩
      · have := hcount fun _ => true
        rw [List.count_append, ← h.created, List.count_singleton_self]
        simpa [hnone] using this
      · have hne : RunState.initiated ≠ s := by
          rintro rfl
          cases hs
        have := hcount (· = s)
        rw [List.count_append, ← h.closed s hs, List.count_singleton]
        simpa [hnone, hne] using this
    · -- a run that moves: none more, and it has left a state that is not terminal
      have hwas := stateOf_of_get? hold
      refine ⟨?_, fun s hs => ?_⟩
      · have hne : row.state ≠ .initiated := by
          intro heq
          rw [heq] at hedge
          revert hedge
          cases old.state <;> decide
        have := hcount fun _ => true
        rw [List.count_append, ← h.created, List.count_singleton]
        simpa [hwas, hne] using this
      · have hlive : old.state ≠ s := by
          rintro rfl
          exact RunState.not_edge_of_terminal hs hedge
        have := hcount (· = s)
        rw [List.count_append, ← h.closed s hs, List.count_singleton]
        by_cases heq : row.state = s <;> simpa [hwas, hlive, heq] using this

/-- The census of every reachable state. -/
theorem census {w : World} (h : (service cfg).Reach w) :
    Census w.db (committedStates w.history) := by
  refine System.inv_of_reach (I := fun w : World => Census w.db (committedStates w.history))
    ⟨?_, ?_⟩ h
  · rintro s ⟨users, subscriptions, rfl⟩
    exact ⟨rfl, fun _ _ => rfl⟩
  · intro s l t ih hstep
    obtain ⟨es, rest, hhistory, heffect, hrest⟩ := step_effect cfg hstep
    rw [hhistory, committedStates_append, committedStates_append, committedStates_other hrest,
      List.append_nil]
    exact ih.effect heffect

/-- The recorder does not get in the way of the service. -/
theorem metered_refines : (metered cfg).Refines (service cfg) Metered.world where
  init s h := h.1
  step s l t _ h := by
    simp only [metered, System.ofFun, meteredStep, Option.map_eq_some_iff] at h
    obtain ⟨w, hw, rfl⟩ := h
    refine .inr ⟨l.1, ?_⟩
    split <;> exact hw

/-- Nothing is cut off, and the process does not crash. -/
def Uptime (m : Metered) (l : Label × Bool) : Prop := Undisturbed m l ∧ l.1 ≠ .crash

theorem since_eq {m : Metered} (h : ((metered cfg).restrict Uptime).Reach m) : m.since = 0 := by
  refine System.inv_of_reach (I := fun m : Metered => m.since = 0) ⟨?_, ?_⟩ h
  · rintro s ⟨-, -, hsince⟩
    exact hsince
  · rintro s l t ih ⟨hstep, -, hcrash⟩
    simp only [metered, System.ofFun, meteredStep, Option.map_eq_some_iff] at hstep
    obtain ⟨w, -, rfl⟩ := hstep
    exact ih

/-- Every run is live, or in one of the terminal states. -/
theorem runsIn_live (db : Db) :
    runsIn db (fun s => !s.terminal) +
        (runsIn db (· = .sent) + runsIn db (· = .failed) + runsIn db (· = .orphaned)) =
      runsIn db fun _ => true := by
  unfold runsIn
  induction db.runs.rows with
  | nil => rfl
  | cons row rows ih =>
    simp only [List.countP_cons]
    cases row.state <;> simp [RunState.terminal] at ih ⊢ <;> omega

/-- **The counters balance** while the process is up.

* The counter of `INITIATED` is the number of runs, and that of a terminal state the number of runs
  that are in it.
* So the runs that are not terminal are what the counters leave over. -/
theorem metrics_balance {m : Metered} (h : ((metered cfg).restrict Uptime).Reach m) :
    runsIn m.world.db (fun _ => true) = m.counted.count .initiated ∧
    (∀ s : RunState, s.terminal = true → runsIn m.world.db (· = s) = m.counted.count s) ∧
    runsIn m.world.db (fun s => !s.terminal) +
        (m.counted.count .sent + m.counted.count .failed + m.counted.count .orphaned) =
      m.counted.count .initiated := by
  have hundisturbed : ((metered cfg).restrict Undisturbed).Reach m := by
    induction h with
    | init h => exact .init h
    | step _ h ih => exact .step ih ⟨h.1, h.2.1⟩
  have hcensus := census cfg ((metered_refines cfg).reach (System.reach_of_restrict h))
  have hcounted : m.counted = committedStates m.world.history := by
    rw [counted_eq cfg hundisturbed, Metered.committed, since_eq cfg h, List.drop_zero]
  rw [hcounted]
  refine ⟨hcensus.created, hcensus.closed, ?_⟩
  rw [← hcensus.created, ← hcensus.closed .sent rfl, ← hcensus.closed .failed rfl,
    ← hcensus.closed .orphaned rfl, runsIn_live]

/-- A run begun and swept: the counter says that one run is `ORPHANED`, and one is. -/
theorem metrics_balance_sample : ∃ m, ((metered sampleConfig).restrict Uptime).Reach m ∧
    m.counted = [.initiated, .orphaned] ∧ runsIn m.world.db (· = .orphaned) = 1 := by
  have hinit : ((metered sampleConfig).restrict Uptime).Reach { world := {} } :=
    .init ⟨⟨Serial.empty, Serial.empty, rfl⟩, rfl, rfl⟩
  have huptime : ∀ l ∈ sampleOrphaned.map fun l => (l, false), ∀ m, Uptime m l := by
    simp [sampleOrphaned, Uptime, Undisturbed, Label.fate?]
  have hrun : ((System.run (meteredStep sampleConfig) { world := {} }
      (sampleOrphaned.map fun l => (l, false))).any
        fun m => decide (m.counted = [.initiated, .orphaned])) = true := by decide +kernel
  obtain ⟨m, hm, hcounted⟩ := (Option.any_eq_true _ _).mp hrun
  have hcounted : m.counted = [.initiated, .orphaned] := of_decide_eq_true hcounted
  have hreach : ((metered sampleConfig).restrict Uptime).Reach m :=
    hinit.leads (System.leads_run_restrict huptime hm)
  refine ⟨m, hreach, hcounted, ?_⟩
  rw [(metrics_balance sampleConfig hreach).2.1 .orphaned rfl, hcounted]
  rfl

end MessageService.System
