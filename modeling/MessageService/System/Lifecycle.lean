import MessageService.Application.BeginRun
import MessageService.Application.FinalizeRun
import MessageService.Application.ResendRun
import MessageService.Application.SubmitStageReport
import MessageService.Application.Sweeper
import MessageService.Application.SweeperActionDispatcher
import MessageService.Lib.Journal

/-!
# What a unit of work does to the lifecycle of runs

The audit log is a journal of the runs' states (`auditReading`). Every unit of work of the service
is one of two things to it (`RunEffect`): it changes no row of `runs` and adds rows that describe no
change, or it moves one run along an edge of the table, or creates it, and adds exactly one row,
which describes just that.

One lemma for each use case says so; nothing after this module looks at their transactions again.
-/

namespace MessageService.System

open MessageService.Domain MessageService.Lib MessageService.Infrastructure
open MessageService.Application

/-! ## The audit log as a journal -/

/-- The text under a key. -/
def textAt (details : Dict Json) (key : String) : Option String :=
  match details.get? key with
  | some (.str s) => some s
  | _ => none

/-- The run state under a key. -/
def stateAt (details : Dict Json) (key : String) : Option RunState :=
  (textAt details key).bind RunState.ofValue?

/-- The change an audit row describes. A row whose prior and new state are equal, as a
reconciliation has them, describes none. -/
def describes (e : AuditEvent) : Option (Option RunState × RunState) :=
  match e.action with
  | .beginRun => some (none, .initiated)
  | .submitStageReport =>
    match e.details.get? "run_transitioned_to_aggregating" with
    | some (.bool true) => some (some .initiated, .aggregating)
    | _ => none
  | .finalizeRun | .runStateTransition | .sendReport | .sweepOrphan =>
    match stateAt e.details "prior_state", stateAt e.details "new_state" with
    | some a, some b => if a = b then none else some (some a, b)
    | _, _ => none
  | _ => none

/-- The rows of a run: they carry its `run_id`; `BEGIN_RUN` names it in its resource only. -/
def concerns (runId : RunId) (e : AuditEvent) : Bool :=
  (e.action = .beginRun && e.resource = runResource runId) ||
    textAt e.details "run_id" = some runId

/-- The audit log, read as a journal of the runs' states. -/
def auditReading : Reading RunId RunState AuditEvent := ⟨concerns, describes⟩

/-- The rows of the audit log, in insertion order. -/
def auditRows (db : Db) : List AuditEvent := db.auditLog.rows.map Prod.snd

/-- The state of a run, as committed. -/
def stateOf (db : Db) (runId : RunId) : Option RunState :=
  (db.runs.get? runId).map fun row => row.state

/-! ## History -/

/-- Who changes the state of a run. -/
inductive Mover where
  | begin
  | submit
  | finalize
  | delivery (task : Nat)
  | sweep
  deriving DecidableEq, Repr

/-- What has happened, as an observer of the database, the mailer and the handlers sees it. -/
inductive Event where
  /-- A committed change of a run's state. -/
  | entered (mover : Mover) (runId : RunId) (prior : Option RunState) (state : RunState)
  /-- `Mailer.send` was called with a run's report by its first delivery. -/
  | mailed (task : Nat) (runId : RunId)
  /-- The handler of an outbox row was called. -/
  | invoked (actionId : Nat)
  /-- An outbox row was abandoned. -/
  | abandoned (actionId : Nat)
  deriving DecidableEq, Repr

/-- The change of a run's state between two databases. -/
def entries (mover : Mover) (runId : RunId) (db db' : Db) : List Event :=
  match stateOf db' runId with
  | none => []
  | some s => if stateOf db runId = some s then [] else [.entered mover runId (stateOf db runId) s]

theorem entries_self (mover : Mover) (runId : RunId) (db db' : Db) (h : db'.runs = db.runs) :
    entries mover runId db db' = [] := by
  unfold entries stateOf
  rw [h]
  split
  · rfl
  · next s hs => rw [hs, if_pos rfl]

/-! ## Effects -/

/-- What one step does to the rows of `runs` and to the audit log. -/
inductive RunEffect (db db' : Db) : List Event → Prop
  /-- No row of `runs` changes, and no new audit row describes a change. -/
  | silent {rows : List AuditEvent} (runs : db'.runs = db.runs)
      (log : db'.auditLog = db.auditLog.insertAll rows)
      (nothing : ∀ e ∈ rows, describes e = none) : RunEffect db db' []
  /-- One run is created in `INITIATED`, or moves along an edge, and one audit row says so. -/
  | entered {mover : Mover} {runId : RunId} {row : RunRow} {now : Instant} {e : AuditEvent}
      (others : ∀ k, k ≠ runId → db'.runs.get? k = db.runs.get? k)
      (is : db'.runs.get? runId = some row)
      (was : stateOf db runId = none ∧ row.state = .initiated ∨
        ∃ old, db.runs.get? runId = some old ∧ RunState.Edge old.state row.state ∧
          row = RunRepository.withState old row.state now)
      (log : db'.auditLog = db.auditLog.insert e)
      (about : ∀ k, concerns k e = true ↔ k = runId)
      (told : describes e = some (stateOf db runId, row.state)) :
      RunEffect db db' [.entered mover runId (stateOf db runId) row.state]

theorem entries_of_ne {mover : Mover} {runId : RunId} {db db' : Db} {s : RunState}
    (h : stateOf db' runId = some s) (hne : stateOf db runId ≠ some s) :
    entries mover runId db db' = [.entered mover runId (stateOf db runId) s] := by
  unfold entries
  rw [h]
  exact if_neg hne

theorem RunState.Edge.ne {a b : RunState} (h : RunState.Edge a b) : a ≠ b := by
  rintro rfl
  revert h
  cases a <;> decide

/-- One new audit row, which describes no change. -/
theorem RunEffect.note {db db' : Db} {e : AuditEvent} (runs : db'.runs = db.runs)
    (log : db'.auditLog = db.auditLog.insert e) (nothing : describes e = none) :
    RunEffect db db' [] :=
  @RunEffect.silent db db' [e] runs log (by simpa using nothing)

/-- Nothing happens to either table. -/
theorem RunEffect.still {db db' : Db} (runs : db'.runs = db.runs)
    (log : db'.auditLog = db.auditLog) : RunEffect db db' [] :=
  @RunEffect.silent db db' [] runs log (by simp)

/-- A unit of work that only adds an audit row. -/
theorem RunEffect.of_note {mover : Mover} {runId : RunId} {db db' : Db} {e : AuditEvent}
    (runs : db'.runs = db.runs) (log : db'.auditLog = db.auditLog.insert e)
    (nothing : describes e = none) : RunEffect db db' (entries mover runId db db') := by
  rw [entries_self _ _ _ _ runs]
  exact .note runs log nothing

/-- A unit of work that leaves both tables alone. -/
theorem RunEffect.of_same {mover : Mover} {runId : RunId} {db db' : Db}
    (runs : db'.runs = db.runs) (log : db'.auditLog = db.auditLog) :
    RunEffect db db' (entries mover runId db db') := by
  rw [entries_self _ _ _ _ runs]
  exact .still runs log

/-- A unit of work that moves a run along an edge and adds a row that describes it. -/
theorem RunEffect.of_moved {mover : Mover} {runId : RunId} {db db' : Db} {old : RunRow}
    {s : RunState} {now : Instant} {e : AuditEvent} (was : db.runs.get? runId = some old)
    (edge : RunState.Edge old.state s)
    (runs : db'.runs = RunRepository.moved db.runs runId s now)
    (log : db'.auditLog = db.auditLog.insert e) (about : ∀ k, concerns k e = true ↔ k = runId)
    (told : describes e = some (some old.state, s)) :
    RunEffect db db' (entries mover runId db db') := by
  have hstate : stateOf db runId = some old.state := by
    unfold stateOf
    rw [was]
    rfl
  have his : db'.runs.get? runId = some (RunRepository.withState old s now) := by
    rw [runs, RunRepository.get?_moved, if_pos rfl, was]
    rfl
  have hstate' : stateOf db' runId = some s := by
    unfold stateOf
    rw [his]
    rfl
  have hne : stateOf db runId ≠ some s := by
    rw [hstate]
    intro h
    exact RunState.Edge.ne edge (Option.some.inj h)
  rw [entries_of_ne hstate' hne]
  have hothers : ∀ k, k ≠ runId → db'.runs.get? k = db.runs.get? k := by
    intro k hk
    rw [runs, RunRepository.get?_moved, if_neg hk]
  exact .entered hothers his (.inr ⟨old, was, edge, rfl⟩) log about (by rw [hstate]; exact told)

/-! ## What audit rows say -/

theorem concerns_iff {e : AuditEvent} {runId : RunId} (ha : e.action ≠ .beginRun)
    (h : e.details.get? "run_id" = some (.str runId)) (k : RunId) :
    concerns k e = true ↔ k = runId := by
  simp [concerns, ha, textAt, h, eq_comm]

theorem stateAt_of_get? {d : Dict Json} {key : String} {s : RunState}
    (h : d.get? key = some (.str s.value)) : stateAt d key = some s := by
  simp [stateAt, textAt, h]

/-- The rows that name a prior and a new state describe that change. -/
theorem describes_move {e : AuditEvent} {a b : RunState}
    (ha : e.action = .finalizeRun ∨ e.action = .runStateTransition ∨ e.action = .sendReport ∨
      e.action = .sweepOrphan)
    (hp : e.details.get? "prior_state" = some (.str a.value))
    (hn : e.details.get? "new_state" = some (.str b.value)) :
    describes e = if a = b then none else some (some a, b) := by
  unfold describes
  rcases ha with h | h | h | h <;>
    simp only [h, stateAt_of_get? hp, stateAt_of_get? hn]

/-! ## The effect of each use case -/

theorem beginRun_effect {ports : BeginRunPorts} {cmd : BeginRunCommand} {runId r : RunId}
    {now : Instant} {db db' : Db} (fresh : db.runs.get? runId = none)
    (h : beginRun ports cmd runId now db = .ok (r, db')) :
    RunEffect db db' (entries .begin runId db db') ∧ db'.sweeperActions = db.sweeperActions := by
  obtain ⟨run, declared, ref, hrun, hruns, hlog, hactions⟩ := beginRun_ok h
  have hid : (RunRepository.runToRow run).runId = runId := congrArg RunRow.runId hrun
  have hstate : (RunRepository.runToRow run).state = .initiated := congrArg RunRow.state hrun
  have hnone : stateOf db runId = none := by
    unfold stateOf
    rw [fresh]
    rfl
  have his : db'.runs.get? runId = some (RunRepository.runToRow run) := by
    rw [hruns, Table.get?_upsert, if_pos hid.symm, fresh]
    rfl
  have hstate' : stateOf db' runId = some .initiated := by
    unfold stateOf
    rw [his, Option.map_some, hstate]
  refine ⟨?_, hactions⟩
  rw [entries_of_ne hstate' (by rw [hnone]; simp), ← hstate]
  refine @RunEffect.entered db db' .begin runId _ now _ ?_ his (.inl ⟨hnone, hstate⟩) hlog ?_ ?_
  · intro k hk
    rw [hruns, Table.get?_upsert_ne (by rw [hid]; exact hk)]
  · intro k
    simp [concerns, beginRunEvent, textAt, Dict.get?_cons, runResource, eq_comm]
  · rw [hnone, hstate]
    rfl

theorem submitStageReport_effect {cmd : SubmitStageReportCommand} {now : Instant}
    {r : SubmitStageReportResult} {db db' : Db}
    (h : submitStageReport cmd now db = .ok (r, db')) :
    RunEffect db db' (entries .submit cmd.runId db db') ∧
      db'.sweeperActions = db.sweeperActions := by
  obtain ⟨run, current, hrun, hid, -, hruns, hlog, hactions⟩ := submitStageReport_ok h
  refine ⟨?_, hactions⟩
  have habout : ∀ k, concerns k (submitEvent cmd run.toRunRow current now) = true ↔
      k = cmd.runId := by
    rw [← hid]
    exact concerns_iff (by simp [submitEvent]) rfl
  by_cases hi : run.state = .initiated
  · rw [if_pos hi] at hruns
    refine .of_moved hrun ?_ hruns hlog habout ?_
    · rw [hi]
      decide
    · simp [describes, submitEvent, Dict.get?_cons, hi]
  · rw [if_neg hi] at hruns
    refine .of_note hruns hlog ?_
    simp [describes, submitEvent, Dict.get?_cons, hi]

theorem finalizeRun_effect {cmd : FinalizeRunCommand} {now : Instant} {r : FinalizeRunResult}
    {db db' : Db} (h : finalizeRun cmd now db = .ok (r, db')) :
    RunEffect db db' (entries .finalize cmd.runId db db') ∧
      db'.sweeperActions = db.sweeperActions := by
  obtain ⟨run, hrun, hid, hstate, -, hruns, hlog, hactions⟩ := finalizeRun_ok h
  refine ⟨.of_moved hrun (by rw [hstate]; decide) hruns hlog ?_ ?_, hactions⟩
  · rw [← hid]
    exact concerns_iff (by simp [finalizeEvent]) rfl
  · rw [describes_move (.inl rfl) rfl rfl, hstate]
    rfl

theorem startSending_effect {task : Nat} {runId : RunId} {now : Instant} {run : Run} {db db' : Db}
    (h : startSending runId now db = .ok (run, db')) :
    RunEffect db db' (entries (.delivery task) runId db db') ∧
      db'.sweeperActions = db.sweeperActions := by
  obtain ⟨hrun, hid, hstate, hruns, hlog, hactions⟩ := startSending_ok h
  refine ⟨.of_moved hrun (by rw [hstate]; decide) hruns hlog ?_ ?_, hactions⟩
  · rw [← hid]
    exact concerns_iff (by simp [transitionEvent]) rfl
  · rw [describes_move (.inr (.inl rfl)) rfl rfl, hstate]
    rfl

theorem get?_reconciliation (runId : RunId) (now : Instant) (s : RunState) (o : AuditOutcome)
    {extra : Dict Json} (h : Unreserved extra) {key : String} (hk : key ∈ reservedKeys) :
    (reconciliationEvent runId now s o extra).details.get? key =
      Dict.get? [("run_id", .str runId), ("prior_state", .str s.value),
        ("new_state", .str s.value), ("reconciled_terminal_state", .str s.value),
        ("timestamp", .str (isoZ now))] key :=
  Dict.get?_merge_of_absent (h key hk)

/-- A reconciliation row describes no change. -/
theorem describes_reconciliation (runId : RunId) (now : Instant) (s : RunState) (o : AuditOutcome)
    {extra : Dict Json} (h : Unreserved extra) :
    describes (reconciliationEvent runId now s o extra) = none := by
  rw [describes_move (a := s) (b := s) (.inr (.inr (.inl rfl))), if_pos rfl]
  · rw [get?_reconciliation runId now s o h (by decide)]
    rfl
  · rw [get?_reconciliation runId now s o h (by decide)]
    rfl

theorem finalize_effect {task : Nat} {runId : RunId} {closing : Closing} {now : Instant} {r : Unit}
    {db db' : Db} (h : finalize runId closing now db = .ok (r, db')) :
    RunEffect db db' (entries (.delivery task) runId db db') ∧
      db'.sweeperActions = db.sweeperActions := by
  obtain ⟨run, hrun, hid, ⟨-, rfl⟩ | ⟨hedge, hruns, hlog, hactions⟩⟩ := finalize_ok h
  · exact ⟨.of_note rfl rfl (describes_reconciliation _ _ _ _ closing.unreserved_extra), rfl⟩
  · obtain ⟨hrunId, hprior, hnew, -⟩ := closing.get?_details runId now run.state
    refine ⟨.of_moved hrun hedge hruns hlog (concerns_iff (by simp [sendReportEvent]) hrunId) ?_,
      hactions⟩
    rw [describes_move (.inr (.inr (.inl rfl))) hprior hnew, if_neg (RunState.Edge.ne hedge)]

theorem transitionAuditAndEnqueue_effect {cfg : SweeperConfig} {runId : RunId} {now : Instant}
    {r : Option Nat} {db db' : Db}
    (h : transitionAuditAndEnqueue cfg runId now db = .ok (r, db')) :
    RunEffect db db' (entries .sweep runId db db') := by
  obtain ⟨rfl, -⟩ | ⟨run, pending, hrun, hid, hlive, hruns, hlog, -⟩ :=
    transitionAuditAndEnqueue_ok cfg h
  · exact .of_same rfl rfl
  · have hedge : RunState.Edge run.state .orphaned := RunState.edge_orphaned_iff.mpr hlive
    refine .of_moved hrun hedge hruns hlog ?_ ?_
    · rw [← hid]
      exact concerns_iff (by simp [sweepEvent]) rfl
    · rw [describes_move (.inr (.inr (.inr rfl))) rfl rfl, if_neg (RunState.Edge.ne hedge)]

/-- The abandonment of outbox rows describes no change of a run. -/
theorem abandonExhaustedRows_effect {cfg : DispatcherConfig} {now : Instant}
    {rows : List ClaimedAction} {db db' : Db}
    (h : abandonExhaustedRows cfg now db = .ok (rows, db')) : RunEffect db db' [] := by
  obtain ⟨-, g, -, rfl⟩ := abandonExhaustedRows_ok cfg h
  refine .silent rfl rfl ?_
  intro e he
  obtain ⟨row, -, rfl⟩ := List.mem_map.mp he
  rfl

end MessageService.System
