import MessageService.Infrastructure.Store
import MessageService.Lib.Attempt

/-!
# The orphan sweeper

Model of `application/use_cases/sweeper.py`: the listing of a tick (`listCandidates`) and the unit
of work for each candidate (`transitionAuditAndEnqueue`). A tick lists once and then takes its
candidates one by one, so it is a machine (`SweeperPhase`, `sweepStep`).

`transitionAuditAndEnqueue_ok` is what the unit of work of a candidate does.
-/

namespace MessageService.Application

open MessageService.Domain MessageService.Lib MessageService.Infrastructure

/-- The configuration of `SweeperUseCase`. -/
structure SweeperConfig where
  runTimeoutSeconds : Nat
  dispositionActions : List DispositionAction
  dispositionOverrides : String → Option (List DispositionAction)
  maxCandidatesPerIteration : Nat
  maxCandidates_pos : 1 ≤ maxCandidatesPerIteration

variable (cfg : SweeperConfig)

/-- `_resolve_disposition_actions`. -/
def SweeperConfig.resolveDispositionActions (pipelineType : String) : List DispositionAction :=
  (cfg.dispositionOverrides pipelineType).getD cfg.dispositionActions

/-- The cutoff of a tick that starts at `now`. -/
def SweeperConfig.cutoff (now : Instant) : Instant := now - seconds cfg.runTimeoutSeconds

/-- The first unit of work of a tick. -/
def listCandidates (now : Instant) : Transaction (List Run) :=
  RunRepository.listExpired (cfg.cutoff now) RunState.nonTerminalStates
    cfg.maxCandidatesPerIteration

/-- **What a listing returns**: live runs whose last transition is at or before the cutoff. -/
theorem listCandidates_ok {cfg : SweeperConfig} {now : Instant} {candidates : List Run}
    {db db' : Db} (h : listCandidates cfg now db = .ok (candidates, db')) :
    db' = db ∧ ∀ run ∈ candidates, db.runs.get? run.runId = some run.toRunRow ∧
      run.updatedAt ≤ cfg.cutoff now ∧ run.state.terminal = false := by
  simp only [listCandidates, RunRepository.listExpired, Tx.ok_bind, Tx.ok_require,
    Tx.ok_attempt] at h
  obtain ⟨_, _, ⟨_, rfl⟩, hall, rfl⟩ := h
  refine ⟨rfl, fun run hrun => ?_⟩
  obtain ⟨row, hmem, hrow⟩ := exists_of_mem_mapM hall hrun
  rw [rowToRun_ok hrow]
  have hmem := (List.perm_insertionSort _ _).mem_iff.mp (List.mem_of_mem_take hmem)
  obtain ⟨hin, hp⟩ := List.mem_filter.mp hmem
  simp only [Bool.and_eq_true, decide_eq_true_eq] at hp
  have hrow' := rowToRun_ok hrow
  subst hrow'
  exact ⟨Table.get?_of_mem hin, hp.1, RunState.mem_nonTerminalStates.mp hp.2⟩

/-- The `SWEEP_ORPHAN` event. -/
def sweepEvent (run : RunRow) (now : Instant) (actions : List DispositionAction)
    (pendingStageIds : List StageId) : AuditEvent where
  timestamp := now
  action := .sweepOrphan
  actor := "system:sweeper"
  resource := runResource run.runId
  outcome := .success
  details := [("run_id", .str run.runId), ("prior_state", .str run.state.value),
    ("new_state", .str RunState.orphaned.value),
    ("last_transition_at", .str (isoformat run.updatedAt)),
    ("enqueued_actions", .arr (actions.map fun a => .str a.value)),
    ("pending_stage_ids", .arr ((pendingStageIds.insertionSort (· ≤ ·)).map .str))]

/-- The outbox rows of an orphaned run. -/
def outboxRows (runId : RunId) (actions : List DispositionAction) (now : Instant) :
    List SweeperActionRow :=
  actions.map fun a => { runId := runId, actionName := a, enqueuedAt := now }

/-- `_transition_audit_and_enqueue`. -/
def transitionAuditAndEnqueue (runId : RunId) (now : Instant) : Transaction (Option Nat) := do
  match ← Tx.attempt (RunRepository.findOrNone · runId) with
  | none => pure none
  | some run =>
    match RunState.transition run.state .orphaned runId with
    -- the run has become terminal since it was listed
    | .error _ => pure none
    | .ok nextState =>
      let actions := cfg.resolveDispositionActions run.pipelineType
      RunRepository.updateState runId nextState now
      let pendingStageIds ← StageRepository.listPendingByRun runId
      AuditLog.record (sweepEvent run.toRunRow now actions pendingStageIds)
      Tx.forEach (fun a => SweeperActionRepository.enqueue runId a now) actions
      pure (some actions.length)

/-- A loop of `enqueue` appends the rows in order. -/
theorem enqueueAll_ok {runId : RunId} {now : Instant} {actions : List DispositionAction}
    {db db' : Db} {r : Unit}
    (h : Tx.forEach (fun a => SweeperActionRepository.enqueue runId a now) actions db =
      .ok (r, db')) :
    db' = { db with
      sweeperActions := db.sweeperActions.insertAll (outboxRows runId actions now) } := by
  induction actions generalizing db with
  | nil =>
    simp only [Tx.forEach, Tx.ok_pure, true_and] at h
    exact h.symm
  | cons a actions ih =>
    simp only [Tx.forEach, SweeperActionRepository.enqueue, Tx.ok_bind, Tx.ok_attempt,
      Tx.ok_write] at h
    obtain ⟨_, _, ⟨_, _, ⟨_, rfl⟩, rfl⟩, hrest⟩ := h
    rw [ih hrest]
    rfl

/-- **What the unit of work of a candidate does**: nothing to a run that is gone or terminal; any
other run it moves to `ORPHANED`, with one audit row and the outbox rows of its pipeline. -/
theorem transitionAuditAndEnqueue_ok {runId : RunId} {now : Instant} {r : Option Nat} {db db' : Db}
    (h : transitionAuditAndEnqueue cfg runId now db = .ok (r, db')) :
    (db' = db ∧ ∀ row, db.runs.get? runId = some row → row.state.terminal = true) ∨
      ∃ (run : Run) (pendingStageIds : List StageId),
        db.runs.get? runId = some run.toRunRow ∧ run.runId = runId ∧
        run.state.terminal = false ∧
        db'.runs = RunRepository.moved db.runs runId .orphaned now ∧
        db'.auditLog = db.auditLog.insert (sweepEvent run.toRunRow now
          (cfg.resolveDispositionActions run.pipelineType) pendingStageIds) ∧
        db'.sweeperActions = db.sweeperActions.insertAll
          (outboxRows runId (cfg.resolveDispositionActions run.pipelineType) now) := by
  simp only [transitionAuditAndEnqueue, Tx.ok_bind, Tx.ok_attempt] at h
  obtain ⟨found, _, ⟨hget, rfl⟩, h⟩ := h
  obtain ⟨rfl, hnone⟩ | ⟨run, rfl, hrun, hid⟩ := RunRepository.findOrNone_ok hget
  · simp only [Tx.ok_pure] at h
    exact .inl ⟨h.2.symm, fun row hrow => by rw [hnone] at hrow; cases hrow⟩
  · cases ht : RunState.transition run.state .orphaned runId with
    | error e =>
      simp only [ht, Tx.ok_pure] at h
      refine .inl ⟨h.2.symm, ?_⟩
      intro row hrow
      rw [hrun] at hrow
      obtain rfl := Option.some.inj hrow
      by_contra hlive
      have hedge : RunState.Edge run.state .orphaned :=
        RunState.edge_orphaned_iff.mpr (Bool.eq_false_iff.mpr hlive)
      rw [RunState.transition_ok.mpr ⟨rfl, hedge⟩] at ht
      cases ht
    | ok nextState =>
      obtain ⟨rfl, hedge⟩ := RunState.transition_ok.mp ht
      simp only [ht, StageRepository.listPendingByRun, AuditLog.record, Tx.ok_bind, Tx.ok_read,
        Tx.ok_write, Tx.ok_pure] at h
      obtain ⟨_, _, hupdate, pendingStageIds, _, ⟨-, rfl⟩, _, _, rfl, _, _, hall, -, rfl⟩ := h
      refine .inr ⟨run, pendingStageIds, hrun, hid, RunState.edge_orphaned_iff.mp hedge, ?_⟩
      rw [enqueueAll_ok hall, RunRepository.updateState_ok hupdate]
      exact ⟨rfl, rfl, rfl⟩

theorem keeps_stages_transitionAuditAndEnqueue (runId : RunId) (now : Instant) :
    Tx.Keeps Db.stages (transitionAuditAndEnqueue cfg runId now) := by
  have henqueue (a : DispositionAction) :
      Tx.Keeps Db.stages (SweeperActionRepository.enqueue runId a now) :=
    .bind (.attempt _) fun _ => .write fun _ => rfl
  refine .bind (.attempt _) fun found => ?_
  cases found with
  | none => exact .pure _
  | some run =>
    simp only
    split
    · exact .pure _
    · exact .bind (RunRepository.keeps_stages_updateState _ _ _) fun _ => .bind (.read _) fun _ =>
        .bind (AuditLog.keeps_stages_record _) fun _ =>
          .bind (.forEach henqueue _) fun _ => .pure _

/-! ## A tick -/

/-- Where the sweeper stands between two units of work. -/
inductive SweeperPhase where
  | idle
  /-- In a tick, with the candidates still to be taken. -/
  | sweeping (cutoff : Instant) (candidates : List RunId)
  deriving DecidableEq

/-- One unit of work of the sweeper: the listing of a new tick, or the next candidate. An exception
ends the tick. -/
def sweepStep (now : Instant) (fate : Tx.Fate) : SweeperPhase → Db → SweeperPhase × Db
  | .idle, db =>
    (listCandidates cfg now).resume fate
      (fun candidates => .sweeping (cfg.cutoff now) (candidates.map fun r => r.runId))
      (fun _ => .idle) db
  | .sweeping _ [], db => (.idle, db)
  | .sweeping cutoff (candidate :: candidates), db =>
    (transitionAuditAndEnqueue cfg candidate now).resume fate
      (fun _ => .sweeping cutoff candidates) (fun _ => .idle) db

end MessageService.Application
