import MessageService.Infrastructure.AsyncioScheduler
import MessageService.System.FirstDelivery

/-!
# FinalizeRun and its delivery task

A process of the service (`Process`): its `World`, the scheduler's shutdown flag, and the calls of
`FinalizeRunUseCase.execute` that have ended in it. Between the commit of a call and its call of
`schedule` there is no `await`, so a call is one step: what the client's cancellation can do is the
fate of its unit of work (`Tx.Fate.lost` is a cancellation at the `await` of the commit, which
`except Exception` in `SqliteUnitOfWork.__aexit__` lets through), and what a shutdown can do is to
come before it. A process starts from any state an earlier one can have left behind, and it does not
crash.

* `execute_spec`: the three ways a call can end.
* `Accepted`: no call commits after the shutdown has begun, or is cancelled while it commits.
* `handoff_of_accepted`: the theorem.
-/

namespace MessageService.System

open MessageService.Domain MessageService.Lib MessageService.Infrastructure
open MessageService.Application

/-! ## A call of FinalizeRun -/

/-- How a call of `FinalizeRunUseCase.execute` ends. -/
inductive CallOutcome where
  | returned (result : FinalizeRunResult)
  | raised (e : ServiceError)
  /-- `CancelledError`, or the `PersistenceError` of a failed unit of work. -/
  | broken
  /-- `schedule` raises. -/
  | refused (e : RuntimeError)

/-- The client gets an exception. -/
def CallOutcome.raises : CallOutcome → Bool
  | .returned _ => false
  | _ => true

/-- `FinalizeRunUseCase.execute`. -/
def executeFinalizeRun (cmd : FinalizeRunCommand) (now : Instant) (fate : Tx.Fate)
    (scheduler : AsyncioBackgroundTaskScheduler Delivery) (db : Db) :
    (CallOutcome × AsyncioBackgroundTaskScheduler Delivery) × Db :=
  (finalizeRun cmd now).resume fate
    (fun result =>
      match scheduler.schedule ⟨result.runId, .scheduled⟩ with
      | .ok scheduler' => (.returned result, scheduler')
      | .error e => (.refused e, scheduler))
    (fun
      | .raised e => (.raised e, scheduler)
      | _ => (.broken, scheduler))
    db

/-- The call is one that can commit: its run is readable and in `AGGREGATING`. -/
def finalizable (db : Db) (cmd : FinalizeRunCommand) : Bool :=
  match validateRunIdStr cmd.runId, RunRepository.find db cmd.runId with
  | .ok _, .ok run => run.state = .aggregating
  | _, _ => false

theorem finalizeRun_ok_iff {cmd : FinalizeRunCommand} {now : Instant} {db : Db} :
    finalizable db cmd = true ↔ ∃ r db', finalizeRun cmd now db = .ok (r, db') := by
  constructor
  · intro h
    unfold finalizable at h
    split at h
    · next runId run hid hrun =>
      have hstate : run.state = .aggregating := of_decide_eq_true h
      obtain rfl := validateRunIdStr_ok hid
      have hsome : (db.runs.get? cmd.runId).isSome = true := by
        rw [RunRepository.find_ok hrun]
        rfl
      simp [finalizeRun, RunRepository.get, AuditLog.record, RunRepository.updateState, bind, pure,
        Tx.attempt, Tx.require, Tx.write, hid, hrun, hstate, RunState.transition,
        RunState.canTransition_iff.mpr (RunState.edge_ready_iff.mpr rfl), hsome]
    · cases h
  · rintro ⟨r, db', h⟩
    simp only [finalizeRun, RunRepository.get, Tx.ok_bind, Tx.ok_require, Tx.ok_attempt] at h
    obtain ⟨runId, _, ⟨hid, rfl⟩, run, _, ⟨hrun, rfl⟩, _, _, ⟨hstate, -⟩, -⟩ := h
    have heq := validateRunIdStr_ok hid
    rw [heq] at hid hrun
    simp [finalizable, hid, hrun, hstate]

/-- The ways a call can end. -/
inductive CallEnds (cmd : FinalizeRunCommand) (now : Instant) (fate : Tx.Fate)
    (s : AsyncioBackgroundTaskScheduler Delivery) (db : Db) :
    (CallOutcome × AsyncioBackgroundTaskScheduler Delivery) × Db → Prop
  | rolledBack {o : CallOutcome} (raises : o.raises = true)
      (why : finalizable db cmd = true → fate = .fails) : CallEnds cmd now fate s db ((o, s), db)
  | handedOver {result : FinalizeRunResult} {db' : Db}
      (ok : finalizeRun cmd now db = .ok (result, db')) (fate_eq : fate = .commits)
      (accepts : s.shuttingDown = false) :
      CallEnds cmd now fate s db
        ((.returned result, { s with tasks := s.tasks ++ [⟨cmd.runId, .scheduled⟩] }), db')
  | stranded {o : CallOutcome} {result : FinalizeRunResult} {db' : Db} (raises : o.raises = true)
      (ok : finalizeRun cmd now db = .ok (result, db'))
      (why : fate = .lost ∨ fate = .commits ∧ s.shuttingDown = true) :
      CallEnds cmd now fate s db ((o, s), db')

/-- **What a call does.** -/
theorem execute_spec (cmd : FinalizeRunCommand) (now : Instant) (fate : Tx.Fate)
    (s : AsyncioBackgroundTaskScheduler Delivery) (db : Db) :
    CallEnds cmd now fate s db (executeFinalizeRun cmd now fate s db) := by
  cases hx : finalizeRun cmd now db with
  | error e =>
    have hnot : finalizable db cmd = true → fate = .fails := fun hf => by
      obtain ⟨r, db', hok⟩ := (@finalizeRun_ok_iff cmd now db).mp hf
      rw [hx] at hok
      cases hok
    cases fate <;> simp only [executeFinalizeRun, Tx.resume, Tx.commit, hx] <;>
      exact .rolledBack rfl hnot
  | ok r =>
    obtain ⟨result, db'⟩ := r
    obtain ⟨run, -, -, -, rfl, -⟩ := finalizeRun_ok hx
    cases fate with
    | fails =>
      simp only [executeFinalizeRun, Tx.resume, Tx.commit, hx]
      exact .rolledBack rfl fun _ => rfl
    | lost =>
      simp only [executeFinalizeRun, Tx.resume, Tx.commit, hx]
      exact .stranded rfl hx (.inl rfl)
    | commits =>
      cases hs : s.shuttingDown with
      | false =>
        simp only [executeFinalizeRun, Tx.resume_of_ok hx,
          AsyncioBackgroundTaskScheduler.schedule_ok _ hs]
        exact .handedOver hx rfl hs
      | true =>
        simp only [executeFinalizeRun, Tx.resume_of_ok hx,
          AsyncioBackgroundTaskScheduler.schedule_error _ hs]
        exact .stranded rfl hx (.inr ⟨rfl, hs⟩)

/-! ## Processes -/

/-- A call of FinalizeRun that has ended. -/
structure Call where
  runId : RunId
  outcome : CallOutcome
  /-- The database before and after its unit of work. -/
  before : Db
  after : Db
  /-- The tasks it created. -/
  created : List Delivery

/-- The call commits `READY` for its run. -/
def Call.commitsReady (c : Call) : Bool :=
  stateOf c.before c.runId ≠ some .ready && stateOf c.after c.runId = some .ready

/-- The state of a process. -/
structure Process where
  world : World
  /-- How many delivery tasks, all dead, earlier processes have left in `world`. -/
  inherited : Nat
  shuttingDown : Bool := false
  calls : List Call := []

/-- The scheduler of the process. -/
def Process.scheduler (p : Process) : AsyncioBackgroundTaskScheduler Delivery where
  tasks := p.world.deliveries
  shuttingDown := p.shuttingDown

/-- The runs of the delivery tasks the process has created. -/
def Process.scheduled (p : Process) : List RunId :=
  (p.world.deliveries.map Delivery.runId).drop p.inherited

/-- A step of a process. -/
inductive Move where
  | finalizeRun (cmd : FinalizeRunCommand) (now : Instant) (fate : Tx.Fate)
  | beginShutdown
  /-- Any other step of the service. -/
  | other (l : Label)

/-- The step is neither a call of FinalizeRun nor the end of the process. -/
def Label.isOther : Label → Bool
  | .finalizeRun _ _ _ | .crash => false
  | _ => true

variable (cfg : Config)

/-- The step function. -/
def Process.step (p : Process) : Move → Option Process
  | .finalizeRun cmd now fate =>
    let r := executeFinalizeRun cmd now fate p.scheduler p.world.db
    some { p with
      world := { p.world with
        db := r.2
        deliveries := r.1.2.tasks
        history := p.world.history ++ entries .finalize cmd.runId p.world.db r.2 }
      shuttingDown := r.1.2.shuttingDown
      calls := p.calls ++ [{
        runId := cmd.runId
        outcome := r.1.1
        before := p.world.db
        after := r.2
        created := r.1.2.tasks.drop p.world.deliveries.length }] }
  | .beginShutdown => some { p with shuttingDown := p.scheduler.beginShutdown.shuttingDown }
  | .other l =>
    if l.isOther then (System.step cfg p.world l).map fun w => { p with world := w } else none

/-- A process starts on what earlier ones have left. -/
def Process.Init (p : Process) : Prop :=
  ∃ w v, (service cfg).Reach w ∧ System.step cfg w .crash = some v ∧
    p = { world := v, inherited := v.deliveries.length }

/-- The processes of the service, over every interleaving of their steps. -/
def processes : System Process Move := System.ofFun (Process.Init cfg) (Process.step cfg)

/-- The delivery tasks agree with the commits of `READY`. -/
structure Agrees (p : Process) : Prop where
  task : ∀ k, (∃ c ∈ p.calls, c.runId = k ∧ c.commitsReady = true) ↔ p.scheduled.count k = 1
  call : ∀ c ∈ p.calls,
    c.commitsReady = true ↔ (c.created.map Delivery.runId).count c.runId = 1
  raised : ∀ c ∈ p.calls, c.outcome.raises = true → c.after.runs = c.before.runs ∧
    c.after.stages = c.before.stages ∧ c.after.auditLog = c.before.auditLog

/-- A call that can commit does not commit after the shutdown has begun, and is not cancelled while
it commits. -/
def Accepted (p : Process) : Move → Prop
  | .finalizeRun cmd _ fate => finalizable p.world.db cmd = true →
    fate = .fails ∨ fate = .commits ∧ p.shuttingDown = false
  | _ => True

instance (p : Process) (m : Move) : Decidable (Accepted p m) :=
  match m with
  | .finalizeRun cmd _ fate => inferInstanceAs (Decidable (finalizable p.world.db cmd = true →
      fate = .fails ∨ fate = .commits ∧ p.shuttingDown = false))
  | .beginShutdown | .other _ => inferInstanceAs (Decidable True)

/-! ## A process is a run of the service -/

variable {cfg} {p p' : Process}

/-- A call that has no task is a call whose caller is cancelled while it commits. -/
theorem world_of_step {m : Move} (h : Process.step cfg p m = some p') :
    p'.world = p.world ∨ ∃ l, System.step cfg p.world l = some p'.world := by
  cases m with
  | finalizeRun cmd now fate =>
    obtain rfl := Option.some.inj h
    right
    have hends := execute_spec cmd now fate p.scheduler p.world.db
    generalize executeFinalizeRun cmd now fate p.scheduler p.world.db = r at hends
    cases hends with
    | rolledBack _ _ =>
      refine ⟨.finalizeRun cmd now .fails, ?_⟩
      cases hx : finalizeRun cmd now p.world.db <;>
        simp [System.step, Tx.resume, Tx.commit, hx, Process.scheduler]
    | handedOver ok _ _ =>
      obtain ⟨run, -, -, -, rfl, -⟩ := finalizeRun_ok ok
      exact ⟨.finalizeRun cmd now .commits, by
        simp [System.step, Tx.resume_of_ok ok, Process.scheduler]⟩
    | stranded _ ok _ =>
      exact ⟨.finalizeRun cmd now .lost, by
        simp [System.step, Tx.resume, Tx.commit, ok, Process.scheduler]⟩
  | beginShutdown =>
    obtain rfl := Option.some.inj h
    exact .inl rfl
  | other l =>
    simp only [Process.step, Option.ite_none_right_eq_some, Option.map_eq_some_iff] at h
    obtain ⟨-, w, hw, rfl⟩ := h
    exact .inr ⟨l, hw⟩

theorem reach_world (h : (processes cfg).Reach p) : (service cfg).Reach p.world := by
  refine System.inv_of_reach (I := fun p => (service cfg).Reach p.world) ⟨?_, ?_⟩ h
  · rintro p ⟨w, v, hw, hcrash, rfl⟩
    exact .step hw hcrash
  · intro p m p' hp hstep
    obtain hsame | ⟨l, hl⟩ := world_of_step hstep
    · rw [hsame]
      exact hp
    · exact .step hp hl

/-- A step that is no call of FinalizeRun creates no delivery task. -/
theorem runIds_of_step {w w' : World} {l : Label} (hl : l.isOther = true)
    (h : System.step cfg w l = some w') :
    w'.deliveries.map Delivery.runId = w.deliveries.map Delivery.runId := by
  cases l with
  | finalizeRun _ _ _ | crash => cases hl
  | beginRun _ _ _ _ =>
    simp only [System.step, Option.ite_none_right_eq_some, Option.some.injEq] at h
    obtain ⟨-, rfl⟩ := h
    rfl
  | deliver task _ | abort task =>
    simp only [System.step, Option.map_eq_some_iff] at h
    obtain ⟨d, hd, rfl⟩ := h
    exact map_set_of_some hd rfl
  | resend _ _ =>
    simp only [System.step, Option.map_eq_some_iff] at h
    obtain ⟨r, -, rfl⟩ := h
    rfl
  | submitStageReport _ _ _ | requestResend _ _ | sweep _ _ | dispatch _ | directory _ _ =>
    obtain rfl := Option.some.inj h
    rfl

/-! ## The invariants -/

/-- The call commits `READY` for run `k`. -/
def Call.finalizes (k : RunId) (c : Call) : Bool := c.runId = k && c.commitsReady

theorem commitsReady_of_same {c : Call} (h : c.after = c.before) : c.commitsReady = false := by
  unfold Call.commitsReady
  rw [h]
  cases hs : decide (stateOf c.before c.runId = some .ready) <;> simp_all

/-- A call whose transaction commits commits `READY`. -/
theorem state_of_finalized {cmd : FinalizeRunCommand} {now : Instant} {r : FinalizeRunResult}
    {db db' : Db} (h : finalizeRun cmd now db = .ok (r, db')) :
    stateOf db cmd.runId = some .aggregating ∧ stateOf db' cmd.runId = some .ready := by
  obtain ⟨run, hrow, -, hstate, -, hruns, -⟩ := finalizeRun_ok h
  unfold stateOf
  rw [hruns, RunRepository.get?_moved, if_pos rfl, hrow]
  exact ⟨congrArg some hstate, rfl⟩

theorem count_entries {db db' : Db} {k i : RunId} :
    (entries .finalize i db db').countP (isFinalization k) =
      if i = k ∧ stateOf db i ≠ some .ready ∧ stateOf db' i = some .ready then 1 else 0 := by
  unfold entries
  cases hs' : stateOf db' i with
  | none => simp
  | some s =>
    by_cases hs : stateOf db i = some s
    · simp only [hs, if_pos]
      rw [if_neg]
      · rfl
      · rintro ⟨-, h, h'⟩
        exact h h'
    · simp only [if_neg hs, List.countP_singleton]
      cases s <;> simp_all [isFinalization]

/-- The call commits and schedules. -/
def Call.HandedOver (c : Call) : Prop :=
  c.commitsReady = true ∧ c.created.map Delivery.runId = [c.runId] ∧ c.outcome.raises = false

/-- The call does nothing. -/
def Call.RolledBack (c : Call) : Prop := c.after = c.before ∧ c.created = []

/-- The call commits and does not schedule. -/
def Call.Stranded (c : Call) : Prop := c.commitsReady = true ∧ c.created = []

/-- **What a call leaves in its process.** -/
theorem call_of_step {cmd : FinalizeRunCommand} {now : Instant} {fate : Tx.Fate}
    (hle : p.inherited ≤ p.world.deliveries.length)
    (h : Process.step cfg p (.finalizeRun cmd now fate) = some p') :
    ∃ c, p'.calls = p.calls ++ [c] ∧ p'.inherited = p.inherited ∧
      p'.world.deliveries = p.world.deliveries ++ c.created ∧
      p'.scheduled = p.scheduled ++ c.created.map Delivery.runId ∧
      p'.world.history = p.world.history ++ entries .finalize c.runId c.before c.after ∧
      (Accepted p (.finalizeRun cmd now fate) → c.HandedOver ∨ c.RolledBack) ∧
      (¬Accepted p (.finalizeRun cmd now fate) → c.Stranded) := by
  obtain rfl := Option.some.inj h
  have hends := execute_spec cmd now fate p.scheduler p.world.db
  generalize executeFinalizeRun cmd now fate p.scheduler p.world.db = r at hends
  refine ⟨_, rfl, rfl, ?_⟩
  have hdrop (l : List Delivery) : ((p.world.deliveries ++ l).map Delivery.runId).drop p.inherited =
      p.scheduled ++ l.map Delivery.runId := by
    rw [List.map_append, List.drop_append_of_le_length (by simpa using hle)]
    rfl
  cases hends with
  | rolledBack raises why =>
    refine ⟨by simp [Process.scheduler], by simp [Process.scheduler, Process.scheduled], rfl,
      fun _ => .inr ⟨rfl, List.drop_length⟩, fun hn => absurd (fun hf => .inl (why hf)) hn⟩
  | handedOver ok fate_eq accepts =>
    obtain ⟨hwas, his⟩ := state_of_finalized ok
    refine ⟨by simp [Process.scheduler], ?_, rfl, fun _ => .inl ⟨?_, ?_, rfl⟩,
      fun hn => absurd (fun _ => .inr ⟨fate_eq, accepts⟩) hn⟩
    · simp only [Process.scheduler, List.drop_left]
      exact hdrop _
    · simp [Call.commitsReady, hwas, his]
    · simp [Process.scheduler]
  | stranded raises ok why =>
    obtain ⟨hwas, his⟩ := state_of_finalized ok
    refine ⟨by simp [Process.scheduler], by simp [Process.scheduler, Process.scheduled], rfl,
      fun ha => ?_, fun _ => ⟨by simp [Call.commitsReady, hwas, his], List.drop_length⟩⟩
    rcases ha (finalizeRun_ok_iff.mpr ⟨_, _, ok⟩) with rfl | ⟨rfl, hopen⟩
    · rcases why with h | ⟨h, -⟩ <;> cases h
    · rcases why with h | ⟨-, h⟩
      · cases h
      · exact absurd (h.symm.trans hopen) (by decide)

/-- Any other step of a process leaves its calls and its tasks alone. -/
theorem same_of_step {m : Move} (hm : ∀ cmd now fate, m ≠ .finalizeRun cmd now fate)
    (h : Process.step cfg p m = some p') : p'.calls = p.calls ∧ p'.inherited = p.inherited ∧
      p'.world.deliveries.map Delivery.runId = p.world.deliveries.map Delivery.runId ∧
      p.world.history <+: p'.world.history := by
  cases m with
  | finalizeRun cmd now fate => exact absurd rfl (hm cmd now fate)
  | beginShutdown =>
    obtain rfl := Option.some.inj h
    exact ⟨rfl, rfl, rfl, List.prefix_refl _⟩
  | other l =>
    simp only [Process.step, Option.ite_none_right_eq_some, Option.map_eq_some_iff] at h
    obtain ⟨hl, w, hw, rfl⟩ := h
    obtain ⟨es, rest, hh, -⟩ := step_effect cfg hw
    refine ⟨rfl, rfl, runIds_of_step hl hw, ?_⟩
    rw [hh, List.append_assoc]
    exact List.prefix_append _ _

/-- What is known of every process. -/
structure Recorded (p : Process) : Prop where
  inherited : p.inherited ≤ p.world.deliveries.length
  entered : ∀ k, p.calls.countP (Call.finalizes k) ≤ p.world.history.countP (isFinalization k)

theorem recorded_of_reach (h : (processes cfg).Reach p) : Recorded p := by
  refine System.inv_of_reach ⟨?_, ?_⟩ h
  · rintro p ⟨w, v, -, -, rfl⟩
    exact ⟨Nat.le_refl _, fun k => Nat.zero_le _⟩
  · rintro p m p' hp hstep
    by_cases hm : ∃ cmd now fate, m = .finalizeRun cmd now fate
    · obtain ⟨cmd, now, fate, rfl⟩ := hm
      obtain ⟨c, hcalls, hinherited, htasks, -, hhistory, -⟩ := call_of_step hp.inherited hstep
      refine ⟨?_, fun k => ?_⟩
      · rw [hinherited, htasks, List.length_append]
        have := hp.inherited
        omega
      · rw [hcalls, hhistory, List.countP_append, List.countP_append, count_entries]
        have := hp.entered k
        simp only [List.countP_singleton, Call.finalizes, Call.commitsReady]
        split_ifs <;> simp_all
    · obtain ⟨hcalls, hinherited, htasks, hhistory⟩ :=
        same_of_step (fun cmd now fate e => hm ⟨cmd, now, fate, e⟩) hstep
      refine ⟨?_, fun k => ?_⟩
      · rw [hinherited, ← List.length_map (f := Delivery.runId), htasks, List.length_map]
        exact hp.inherited
      · rw [hcalls]
        exact (hp.entered k).trans hhistory.sublist.countP_le

/-- What is known of a process whose calls are all accepted. -/
structure Balanced (p : Process) : Prop where
  scheduled : ∀ k, p.scheduled.count k = p.calls.countP (Call.finalizes k)
  call : ∀ c ∈ p.calls, c.HandedOver ∨ c.RolledBack

theorem balanced_of_reach (h : ((processes cfg).restrict Accepted).Reach p) : Balanced p := by
  refine System.inv_of_reach_and ?_ ?_ h
  · rintro p ⟨w, v, -, -, rfl⟩
    refine ⟨fun k => ?_, by simp⟩
    simp only [Process.scheduled, ← List.length_map (f := Delivery.runId), List.drop_length]
    rfl
  · rintro p m p' hr hp ⟨hstep, haccepted⟩
    have hinherited := (recorded_of_reach (System.reach_of_restrict hr)).inherited
    by_cases hm : ∃ cmd now fate, m = .finalizeRun cmd now fate
    · obtain ⟨cmd, now, fate, rfl⟩ := hm
      obtain ⟨c, hcalls, -, -, hscheduled, -, hgood, -⟩ := call_of_step hinherited hstep
      refine ⟨fun k => ?_, ?_⟩
      · rw [hscheduled, hcalls, List.count_append, List.countP_append, hp.scheduled k,
          List.countP_singleton]
        rcases hgood haccepted with ⟨hready, hcreated, -⟩ | ⟨hsame, hcreated⟩
        · rw [hcreated, List.count_singleton]
          by_cases hk : c.runId = k <;> simp [Call.finalizes, hready, hk]
        · simp [hcreated, Call.finalizes, commitsReady_of_same hsame]
      · intro c' hc'
        rw [hcalls] at hc'
        rcases List.mem_append.mp hc' with hc' | hc'
        · exact hp.call c' hc'
        · rw [List.mem_singleton.mp hc']
          exact hgood haccepted
    · obtain ⟨hcalls, hinherited, htasks, -⟩ :=
        same_of_step (fun cmd now fate e => hm ⟨cmd, now, fate, e⟩) hstep
      have hscheduled : p'.scheduled = p.scheduled := by
        unfold Process.scheduled
        rw [htasks, hinherited]
      exact ⟨fun k => by rw [hscheduled, hcalls]; exact hp.scheduled k, by rw [hcalls]; exact hp.call⟩

/-! ## The theorem -/

/-- A call committed `READY` for its run and there is no task for it. -/
theorem not_agrees_of_stranded {c : Call} (hc : c ∈ p.calls) (h : c.Stranded) : ¬Agrees p := by
  intro ha
  have := (ha.call c hc).mp h.1
  rw [h.2] at this
  cases this

/-- **Tasks agree with commits as long as no call commits under a shutdown or a cancellation.** In
every process whose steps are all `Accepted`, a run has exactly one delivery task if a FinalizeRun
has committed `READY` for it, and none else, and a call that raises has changed nothing. After a
step that is not `Accepted` they never agree again. -/
theorem handoff_of_accepted (cfg : Config) :
    (∀ p, ((processes cfg).restrict Accepted).Reach p → Agrees p) ∧
      ∀ p m p' p'', (processes cfg).Reach p → Process.step cfg p m = some p' → ¬Accepted p m →
        (processes cfg).Leads p' p'' → ¬Agrees p'' := by
  constructor
  · intro p h
    have hp := balanced_of_reach h
    have hreach := System.reach_of_restrict h
    refine ⟨fun k => ?_, fun c hc => ?_, fun c hc hraises => ?_⟩
    · have hone : p.calls.countP (Call.finalizes k) ≤ 1 := by
        refine ((recorded_of_reach hreach).entered k).trans ?_
        refine (walk_of_reach (reach_world hreach) k).countP_le_one (s := .ready) fun e he => ?_
        unfold isFinalization at he
        split at he
        · next i prior =>
          obtain rfl : i = k := of_decide_eq_true he
          simp [enteredBy]
        · cases he
      have hpos : (∃ c ∈ p.calls, c.runId = k ∧ c.commitsReady = true) ↔
          0 < p.calls.countP (Call.finalizes k) := by
        simp [List.countP_pos_iff, Call.finalizes]
      rw [hpos, hp.scheduled k]
      omega
    · rcases hp.call c hc with ⟨hready, hcreated, -⟩ | ⟨hsame, hcreated⟩
      · simp [hready, hcreated]
      · simp [commitsReady_of_same hsame, hcreated]
    · rcases hp.call c hc with ⟨-, -, hnot⟩ | ⟨hsame, -⟩
      · exact absurd (hraises.symm.trans hnot) (by decide)
      · rw [hsame]
        exact ⟨rfl, rfl, rfl⟩
  · intro p m p' p'' hreach hstep hbad hlater
    obtain ⟨cmd, now, fate, rfl⟩ : ∃ cmd now fate, m = .finalizeRun cmd now fate := by
      cases m with
      | finalizeRun cmd now fate => exact ⟨cmd, now, fate, rfl⟩
      | beginShutdown | other _ => exact absurd trivial hbad
    obtain ⟨c, hcalls, -, -, -, -, -, hstranded⟩ :=
      call_of_step (recorded_of_reach hreach).inherited hstep
    have hc : c ∈ p''.calls := by
      refine hlater.stable (I := fun u => c ∈ u.calls) ?_ (.step hreach hstep) (by simp [hcalls])
      intro u m v hu hcu hstep'
      by_cases hm : ∃ cmd now fate, m = .finalizeRun cmd now fate
      · obtain ⟨cmd', now', fate', rfl⟩ := hm
        obtain ⟨c', hcalls', -⟩ := call_of_step (recorded_of_reach hu).inherited hstep'
        rw [hcalls']
        exact List.mem_append_left _ hcu
      · rw [(same_of_step (fun cmd now fate e => hm ⟨cmd, now, fate, e⟩) hstep').1]
        exact hcu
    exact not_agrees_of_stranded hc (hstranded hbad)

/-- A process on a fresh installation. -/
def freshProcess : Process where
  world := {}
  inherited := 0

theorem init_freshProcess (cfg : Config) : Process.Init cfg freshProcess :=
  ⟨{}, {}, .init ⟨Serial.empty, Serial.empty, rfl⟩, rfl, rfl⟩

/-- The moves of a process in which the run is begun, submitted to and finalized. -/
def handedOverMoves : List Move :=
  [.other (.beginRun sampleBegin sampleRun (seconds 0) .commits),
    .other (.submitStageReport sampleSubmit (seconds 1) .commits),
    .finalizeRun sampleFinalize (seconds 2) .commits, .beginShutdown]

/-- Its one delivery task is there when the process shuts down. -/
theorem handoff_of_accepted_sample : ∃ p, ((processes sampleConfig).restrict Accepted).Reach p ∧
    p.scheduled = [sampleRun] ∧ Agrees p := by
  have hinit : ((processes sampleConfig).restrict Accepted).Reach freshProcess :=
    .init (init_freshProcess sampleConfig)
  obtain ⟨p, hp, hscheduled⟩ := System.exists_reach_of_run_restrict handedOverMoves hinit
    (p := fun p => p.scheduled = [sampleRun]) (by decide +kernel)
  exact ⟨p, hp, of_decide_eq_true hscheduled, (handoff_of_accepted sampleConfig).1 p hp⟩

/-- After `moves`, every call has raised and the run is in `READY`, and no task was created. -/
def Strands (moves : List Move) : Prop :=
  ∃ p, (processes sampleConfig).Reach p ∧
    System.run (Process.step sampleConfig) freshProcess moves = some p ∧
    p.calls.all (fun c => c.outcome.raises) = true ∧ p.scheduled = [] ∧
    stateOf p.world.db sampleRun = some .ready ∧ ¬Agrees p

/-- A process after `moves`, tested. -/
def strands (p : Process) : Bool :=
  p.calls.all (fun c => c.outcome.raises) && p.scheduled = [] &&
    stateOf p.world.db sampleRun = some .ready &&
    p.calls.any fun c => c.commitsReady && c.created.isEmpty

theorem strands_of_run {moves : List Move}
    (h : (System.run (Process.step sampleConfig) freshProcess moves).any strands = true) :
    Strands moves := by
  obtain ⟨p, hp, hb⟩ := (Option.any_eq_true _ _).mp h
  simp only [strands, Bool.and_eq_true, decide_eq_true_eq, List.any_eq_true,
    List.isEmpty_iff] at hb
  obtain ⟨⟨⟨hraises, hscheduled⟩, hready⟩, c, hc, hcommits, hcreated⟩ := hb
  exact ⟨p, System.reach_run moves (.init (init_freshProcess sampleConfig)) hp, hp, hraises,
    hscheduled, hready, not_agrees_of_stranded hc ⟨hcommits, hcreated⟩⟩

/-- **A call that raises leaves a run in `READY` that nothing will deliver**: after a shutdown has
begun, and cancelled while it commits. -/
theorem raising_call_commits_ready :
    Strands (handedOverMoves.take 2 ++
      [.beginShutdown, .finalizeRun sampleFinalize (seconds 2) .commits]) ∧
    Strands (handedOverMoves.take 2 ++ [.finalizeRun sampleFinalize (seconds 2) .lost]) :=
  ⟨strands_of_run (by decide +kernel), strands_of_run (by decide +kernel)⟩

end MessageService.System
