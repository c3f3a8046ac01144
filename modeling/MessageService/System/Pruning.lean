import MessageService.System.Draining
import MessageService.System.Replay

/-!
# The report pruner beside the service

A tick of the report pruner, step by step, while the service takes steps of its own (`Pruning`). A
step of a tick is at most one unit of work or one `unlink`, and between two of them anything may
happen: a step of the service, a change of the report directory by another task, a cancellation of
the tick, a crash. The code gives up control only in its units of work, so these interleavings
include its own.

`PruneLog` is what an observer has seen of the tick: what was listed, each `unlink`, each audit row.

* `unlinkReport_spec`: what one `unlink` does, and what its audit row says.
* `leads_runOnce`: a tick that nothing interrupts does what `runOnce` does.
* `step_beside`: no step of the service touches a due run or a `PRUNE_REPORT` row.
-/

namespace MessageService.System

open MessageService.Domain MessageService.Lib MessageService.Infrastructure
open MessageService.Application

/-- The local variables of `run_once`: `now`, the candidates left, `budget_remaining` and the three
counters. -/
structure PruneLocals where
  now : Instant
  candidates : List Run
  budgetRemaining : Nat
  result : PruneResult

/-- An `unlink` of the pruner. -/
structure Unlink where
  runId : RunId
  path : List String
  succeeded : Bool

/-- Where the pruner is. -/
inductive PrunerPhase where
  | idle
  /-- The clock has been read, and the candidates are to be listed. -/
  | started (now : Instant)
  /-- At the head of the loop over the candidates. -/
  | choosing (v : PruneLocals)
  /-- In the loop over the files of a run. -/
  | evicting (v : PruneLocals) (run : Run) (files : List (List String))
  /-- In `_evict_file`, before its unit of work. -/
  | auditing (v : PruneLocals) (run : Run) (files : List (List String)) (unlink : Unlink)
      (event : AuditEvent)
  /-- The tick has returned its result, or raised. -/
  | ended (result : Option PruneResult)

/-- The clock reading of the tick. -/
def PrunerPhase.now? : PrunerPhase → Option Instant
  | .started now => some now
  | .choosing v | .evicting v _ _ | .auditing v _ _ _ _ => some v.now
  | .idle | .ended _ => none

/-- An audit row of the pruner, and whether its unit of work has committed it. -/
structure PruneAudit where
  unlink : Unlink
  event : AuditEvent
  recorded : Bool

/-- What has been seen of a tick. -/
structure PruneLog where
  /-- The `PRUNE_REPORT` rows there were when it started. -/
  before : List AuditEvent := []
  listings : List (RunId × List (List String)) := []
  unlinks : List Unlink := []
  audits : List PruneAudit := []

/-- The service, the report directory and the pruner. -/
structure Pruning where
  world : World
  tree : ReportTree
  phase : PrunerPhase := .idle
  log : PruneLog := {}

/-- What a step of the pruner takes from outside. -/
structure PrunerInput where
  disk : Disk
  /-- The fate of the unit of work that lists the candidates. -/
  fate : Tx.Fate

/-- A step. -/
inductive PruningLabel where
  | service (l : Label)
  /-- Another task writes or removes files. -/
  | files (tree : ReportTree)
  /-- A tick starts. -/
  | start (now : Instant)
  | prune (input : PrunerInput)
  /-- The tick is cancelled. -/
  | cancel

/-- The `PRUNE_REPORT` rows of the audit log. -/
def pruneRows (db : Db) : List AuditEvent :=
  (auditRows db).filter fun e => e.action = .pruneReport

variable (cfg : Config) (pcfg : ReportPrunerConfig)

/-- `_evict_file` up to its unit of work. -/
def unlinkReport (disk : Disk) (now : Instant) (run : Run) (path : List String)
    (tree : ReportTree) : Unlink × AuditEvent × ReportTree :=
  let sizeBytes := if disk.statFails path then none else tree.read path
  match unlinkFile pcfg disk tree path with
  | .error reason =>
    (⟨run.runId, path, false⟩, pruneEvent pcfg now run path (some reason) sizeBytes, tree)
  | .ok tree => (⟨run.runId, path, true⟩, pruneEvent pcfg now run path none sizeBytes, tree)

/-- The counters after a file. -/
def PruneLocals.counted (v : PruneLocals) (ok : Bool) : PruneLocals :=
  { v with
    budgetRemaining := v.budgetRemaining - 1
    result := { v.result with
      filesDeleted := if ok then v.result.filesDeleted + 1 else v.result.filesDeleted
      filesFailed := if ok then v.result.filesFailed else v.result.filesFailed + 1 } }

/-- The counters after a run. -/
def PruneLocals.processed (v : PruneLocals) : PruneLocals :=
  { v with result := { v.result with runsProcessed := v.result.runsProcessed + 1 } }

/-- A step of `run_once`. -/
def pruneStep (input : PrunerInput) (s : Pruning) : Option Pruning :=
  match s.phase with
  | .idle | .ended _ => none
  | .started now =>
    let r := (RunRepository.listExpired (pcfg.cutoff now) RunState.terminalStates
      candidateQueryLimit).resume input.fate
      (fun candidates => .choosing ⟨now, candidates, pcfg.maxPrunesPerIteration, {}⟩)
      (fun _ => .ended none) s.world.db
    some { s with
      world := { s.world with db := r.2 }
      phase := r.1 }
  | .choosing v =>
    match v.candidates with
    | [] => some { s with phase := .ended (some v.result) }
    | run :: candidates =>
      let files := listFiles s.tree (runDir run.runId)
      let log := { s.log with listings := s.log.listings ++ [(run.runId, files)] }
      if files = [] then
        some { s with
          tree := rmdirEmptySubtree s.tree (runDir run.runId)
          phase := .choosing { v with candidates := candidates }
          log := log }
      else if v.budgetRemaining < files.length then
        some { s with
          phase := .ended (some v.result)
          log := log }
      else
        some { s with
          phase := .evicting { v with candidates := candidates } run files
          log := log }
  | .evicting v run [] =>
    some { s with
      tree := rmdirEmptySubtree s.tree (runDir run.runId)
      phase := .choosing v.processed }
  | .evicting v run (path :: files) =>
    let r := unlinkReport pcfg input.disk v.now run path s.tree
    some { s with
      tree := r.2.2
      phase := .auditing v run files r.1 r.2.1
      log := { s.log with unlinks := s.log.unlinks ++ [r.1] } }
  | .auditing v run files unlink event =>
    let r := recordInOwnUow input.disk event unlink.path ⟨s.world.db, s.tree⟩
    some { s with
      world := { s.world with db := r.2.db }
      phase := .evicting (v.counted (unlink.succeeded && r.1)) run files
      log := { s.log with audits := s.log.audits ++ [⟨unlink, event, r.1⟩] } }

/-- A crash ends the tick. -/
def PrunerPhase.after : Label → PrunerPhase → PrunerPhase
  | .crash, _ => .idle
  | _, phase => phase

/-- No tick is running. -/
def PrunerPhase.resting : PrunerPhase → Bool
  | .idle | .ended _ => true
  | _ => false

/-- The step function. -/
def pruningStep (s : Pruning) : PruningLabel → Option Pruning
  | .service l => (step cfg s.world l).map fun world =>
    { s with
      world := world
      phase := s.phase.after l }
  | .files tree => some { s with tree := tree }
  | .start now =>
    if s.phase.resting then
      some { s with
        phase := .started now
        log := { before := pruneRows s.world.db } }
    else none
  | .prune input => pruneStep pcfg input s
  | .cancel => some { s with phase := .ended none }

/-- The pruner beside the service, over every interleaving of their steps, from any database and any
report directory. -/
def pruning : System Pruning PruningLabel :=
  System.ofFun (fun s => s.phase = .idle ∧ s.log.unlinks = []) (pruningStep cfg pcfg)

variable {cfg pcfg}

/-! ## One file -/

/-- The row is the `PRUNE_REPORT` row of the file, and its outcome that of the `unlink`. -/
structure Tells (pcfg : ReportPrunerConfig) (unlink : Unlink) (event : AuditEvent) : Prop where
  action : event.action = .pruneReport
  resource : event.resource = "report:" ++ unlink.runId
  filePath : event.details.get? "file_path" = some (.str (pcfg.filePath unlink.path))
  outcome : event.outcome = .success ↔ unlink.succeeded = true

theorem pruneEvent_tells {now : Instant} {run : Run} {path : List String}
    {failureReason : Option String} {sizeBytes : Option Nat} {succeeded : Bool}
    (h : failureReason.isSome = !succeeded) :
    Tells pcfg ⟨run.runId, path, succeeded⟩
      (pruneEvent pcfg now run path failureReason sizeBytes) where
  action := rfl
  resource := rfl
  filePath := by simp [pruneEvent, Dict.get?_cons]
  outcome := by
    simp only [pruneEvent, h]
    cases succeeded <;> simp

theorem unlinkFile_ok {disk : Disk} {tree tree' : ReportTree} {path : List String}
    (h : unlinkFile pcfg disk tree path = .ok tree') :
    path ∈ tree.filePaths ∧ tree' = tree.erase path := by
  unfold unlinkFile at h
  cases hfails : disk.unlinkFails path with
  | some reason => simp [hfails] at h
  | none =>
    simp only [hfails, FileTree.unlink] at h
    by_cases hpath : path ∈ tree.filePaths
    · simp only [if_pos hpath, Except.ok.injEq] at h
      exact ⟨hpath, h.symm⟩
    · simp [if_neg hpath] at h

/-- **`unlink` and its audit row.** A success removes the file; a failure removes nothing. -/
theorem unlinkReport_spec (disk : Disk) (now : Instant) (run : Run) (path : List String)
    (tree : ReportTree) :
    let r := unlinkReport pcfg disk now run path tree
    (r.1.runId = run.runId ∧ r.1.path = path) ∧ Tells pcfg r.1 r.2.1 ∧
      (r.1.succeeded = true ∧ r.1.path ∈ tree.filePaths ∧ r.2.2 = tree.erase r.1.path ∨
        r.1.succeeded = false ∧ r.2.2 = tree) := by
  unfold unlinkReport
  cases h : unlinkFile pcfg disk tree path with
  | error reason => exact ⟨⟨rfl, rfl⟩, pruneEvent_tells rfl, .inr ⟨rfl, rfl⟩⟩
  | ok tree' =>
    exact ⟨⟨rfl, rfl⟩, pruneEvent_tells rfl, .inl ⟨rfl, unlinkFile_ok h⟩⟩

/-- The row of a file is added, or its unit of work fails and changes nothing. -/
theorem recordInOwnUow_eq (disk : Disk) (event : AuditEvent) (path : List String)
    (s : PrunerState) :
    recordInOwnUow disk event path s =
      (!disk.auditFails path, { s with
        db := if disk.auditFails path then s.db
          else { s.db with auditLog := s.db.auditLog.insert event } }) := by
  unfold recordInOwnUow
  cases disk.auditFails path <;> simp [Tx.commit, AuditLog.record, Tx.write]

/-- `_evict_file` is its two halves. -/
theorem evictFile_eq (disk : Disk) (now : Instant) (run : Run) (path : List String)
    (s : PrunerState) :
    evictFile pcfg disk now run path s =
      let r := unlinkReport pcfg disk now run path s.tree
      let recorded := recordInOwnUow disk r.2.1 path { s with tree := r.2.2 }
      (r.1.succeeded && recorded.1, recorded.2) := by
  unfold evictFile unlinkReport
  cases unlinkFile pcfg disk s.tree path <;> rfl

/-! ## A tick that nothing interrupts -/

theorem listExpired_db {cutoff : Instant} {states : List RunState} {limit : Nat} {db db' : Db}
    {candidates : List Run}
    (h : RunRepository.listExpired cutoff states limit db = .ok (candidates, db')) : db' = db := by
  simp only [RunRepository.listExpired, Tx.ok_bind, Tx.ok_require, Tx.ok_attempt] at h
  obtain ⟨_, _, ⟨_, rfl⟩, _, rfl⟩ := h
  rfl

/-- What a tick reads and writes. -/
def Pruning.pruner (s : Pruning) : PrunerState := ⟨s.world.db, s.tree⟩

/-- Only the pruner takes steps, and everything but the disk goes well. -/
def uninterrupted (cfg : Config) (pcfg : ReportPrunerConfig) (disk : Disk) :
    System Pruning PruningLabel :=
  (pruning cfg pcfg).restrict fun _ l => l = .prune ⟨disk, .commits⟩

theorem leads_prune {disk : Disk} {s t u : Pruning} (h : pruneStep pcfg ⟨disk, .commits⟩ s = some t)
    (htu : (uninterrupted cfg pcfg disk).Leads t u) : (uninterrupted cfg pcfg disk).Leads s u :=
  .head ⟨.prune ⟨disk, .commits⟩, h, rfl⟩ htu

/-- The counters after `files` files, with the number of successes and of failures. -/
def PruneLocals.evicted (v : PruneLocals) (files : Nat) (counts : Nat × Nat) : PruneLocals :=
  { v with
    budgetRemaining := v.budgetRemaining - files
    result := { v.result with
      filesDeleted := v.result.filesDeleted + counts.1
      filesFailed := v.result.filesFailed + counts.2 } }

theorem PruneLocals.evicted_counted (v : PruneLocals) (ok : Bool) (files : Nat)
    (counts : Nat × Nat) : (v.counted ok).evicted files counts =
      v.evicted (files + 1)
        (if ok then (counts.1 + 1, counts.2) else (counts.1, counts.2 + 1)) := by
  have hbudget : v.budgetRemaining - 1 - files = v.budgetRemaining - (files + 1) := by omega
  cases ok with
  | false =>
    simp only [evicted, counted, hbudget, Bool.false_eq_true, if_false]
    rw [Nat.add_right_comm, Nat.add_assoc]
  | true =>
    simp only [evicted, counted, hbudget, if_true]
    rw [Nat.add_right_comm, Nat.add_assoc]

/-- The loop over the files of a run. -/
theorem leads_evictFiles (disk : Disk) {run : Run} (files : List (List String)) {v : PruneLocals}
    {s : Pruning} (h : s.phase = .evicting v run files) :
    let evicted := evictFiles pcfg disk v.now run files s.pruner
    ∃ t, (uninterrupted cfg pcfg disk).Leads s t ∧ t.pruner = evicted.2 ∧
      t.phase = .evicting (v.evicted files.length evicted.1) run [] := by
  induction files generalizing v s with
  | nil => exact ⟨s, .refl, rfl, h⟩
  | cons path files ih =>
    -- two steps: the `unlink`, and the unit of work of its row
    let r := unlinkReport pcfg disk v.now run path s.tree
    let recorded := recordInOwnUow disk r.2.1 r.1.path ⟨s.world.db, r.2.2⟩
    let ok := r.1.succeeded && recorded.1
    let unlinked : Pruning := { s with
      tree := r.2.2
      phase := .auditing v run files r.1 r.2.1
      log := { s.log with unlinks := s.log.unlinks ++ [r.1] } }
    let audited : Pruning := { unlinked with
      world := { s.world with db := recorded.2.db }
      phase := .evicting (v.counted ok) run files
      log := { unlinked.log with audits := s.log.audits ++ [⟨r.1, r.2.1, recorded.1⟩] } }
    have hunlink : pruneStep pcfg ⟨disk, .commits⟩ s = some unlinked := by
      simp only [pruneStep, h]
      rfl
    have haudit : pruneStep pcfg ⟨disk, .commits⟩ unlinked = some audited := rfl
    have hpath : r.1.path = path := (unlinkReport_spec disk v.now run path s.tree).1.2
    have htree : audited.pruner = recorded.2 := by
      change PrunerState.mk recorded.2.db r.2.2 = recorded.2
      simp only [recorded, recordInOwnUow_eq]
    have hevict : evictFile pcfg disk v.now run path s.pruner = (ok, recorded.2) := by
      rw [evictFile_eq]
      simp only [ok, recorded, hpath]
      rfl
    obtain ⟨t, hleads, hpruner, hphase⟩ := @ih (v.counted ok) audited rfl
    refine ⟨t, leads_prune hunlink (leads_prune haudit hleads), ?_, ?_⟩
    · rw [hpruner, htree]
      simp only [evictFiles, hevict]
      rfl
    · rw [hphase, htree, PruneLocals.evicted_counted]
      simp only [evictFiles, hevict]
      rfl

/-- A run whose files fit into the budget: they are evicted, and then its directories removed. -/
theorem leads_run (disk : Disk) {run : Run} {candidates : List Run} {v : PruneLocals} {s : Pruning}
    (h : s.phase = .choosing v) (hv : v.candidates = run :: candidates)
    (hnone : listFiles s.tree (runDir run.runId) ≠ [])
    (hbudget : ¬v.budgetRemaining < (listFiles s.tree (runDir run.runId)).length) :
    let files := listFiles s.tree (runDir run.runId)
    let evicted := evictFiles pcfg disk v.now run files s.pruner
    ∃ t, (uninterrupted cfg pcfg disk).Leads s t ∧
      t.pruner = { evicted.2 with
        tree := rmdirEmptySubtree evicted.2.tree (runDir run.runId) } ∧
      t.phase = .choosing (({ v with candidates := candidates } : PruneLocals).evicted files.length
        evicted.1).processed := by
  intro files evicted
  let chosen : Pruning := { s with
    phase := .evicting { v with candidates := candidates } run files
    log := { s.log with listings := s.log.listings ++ [(run.runId, files)] } }
  obtain ⟨t, hevict, hpruner, hphase⟩ :
      ∃ t, (uninterrupted cfg pcfg disk).Leads chosen t ∧ t.pruner = evicted.2 ∧ t.phase =
        .evicting (({ v with candidates := candidates } : PruneLocals).evicted files.length
          evicted.1) run [] :=
    @leads_evictFiles cfg pcfg disk run files { v with candidates := candidates } chosen rfl
  let left : Pruning := { t with
    tree := rmdirEmptySubtree t.tree (runDir run.runId)
    phase := .choosing (({ v with candidates := candidates } : PruneLocals).evicted files.length
      evicted.1).processed }
  have hchoose : pruneStep pcfg ⟨disk, .commits⟩ s = some chosen := by
    simp only [pruneStep, h, hv, hnone, hbudget, if_false]
    rfl
  have hleave : pruneStep pcfg ⟨disk, .commits⟩ t = some left := by
    simp only [pruneStep, hphase]
    rfl
  refine ⟨left, leads_prune hchoose (hevict.trans (leads_prune hleave .refl)), ?_, rfl⟩
  rw [← hpruner]
  rfl

/-- The loop over the candidates. -/
theorem leads_pruneRuns (disk : Disk) (candidates : List Run) {v : PruneLocals} {s : Pruning}
    (h : s.phase = .choosing { v with candidates := candidates }) :
    let pruned := pruneRuns pcfg disk v.now candidates v.budgetRemaining v.result s.pruner
    ∃ t, (uninterrupted cfg pcfg disk).Leads s t ∧ t.pruner = pruned.2 ∧
      t.phase = .ended (some pruned.1) := by
  induction candidates generalizing v s with
  | nil =>
    refine ⟨{ s with phase := .ended (some v.result) }, leads_prune ?_ .refl, rfl, rfl⟩
    simp only [pruneStep, h]
  | cons run candidates ih =>
    by_cases hnone : listFiles s.tree (runDir run.runId) = []
    · -- no files: only directories go
      obtain ⟨t, hleads, hpruner, hphase⟩ := @ih v { s with
        tree := rmdirEmptySubtree s.tree (runDir run.runId)
        phase := .choosing { v with candidates := candidates }
        log := { s.log with listings := s.log.listings ++
          [(run.runId, listFiles s.tree (runDir run.runId))] } } rfl
      refine ⟨t, leads_prune ?_ hleads, ?_, ?_⟩
      · simp only [pruneStep, h, hnone, if_true]
      · rw [hpruner]
        simp only [pruneRuns, Pruning.pruner, hnone, if_true]
      · rw [hphase]
        simp only [pruneRuns, Pruning.pruner, hnone, if_true]
    by_cases hbudget : v.budgetRemaining < (listFiles s.tree (runDir run.runId)).length
    · -- the files of the run exceed the budget
      refine ⟨{ s with
        phase := .ended (some v.result)
        log := { s.log with listings := s.log.listings ++
          [(run.runId, listFiles s.tree (runDir run.runId))] } }, leads_prune ?_ .refl, ?_, ?_⟩
      · simp only [pruneStep, h, hnone, hbudget, if_true, if_false]
      · simp only [pruneRuns, Pruning.pruner, hnone, hbudget, if_true, if_false]
      · simp only [pruneRuns, Pruning.pruner, hnone, hbudget, if_true, if_false]
    -- the run is evicted
    obtain ⟨t, hevict, hpruner, hphase⟩ := @leads_run cfg pcfg disk run candidates _ s h rfl hnone
      hbudget
    let files := listFiles s.tree (runDir run.runId)
    let evicted := evictFiles pcfg disk v.now run files s.pruner
    let w : PruneLocals :=
      (({ v with candidates := candidates } : PruneLocals).evicted files.length
        evicted.1).processed
    obtain ⟨u, hleads, hpruner', hphase'⟩ := @ih w t hphase
    have hpruned : pruneRuns pcfg disk v.now (run :: candidates) v.budgetRemaining v.result
        s.pruner = pruneRuns pcfg disk w.now candidates w.budgetRemaining w.result t.pruner := by
      rw [hpruner]
      simp only [pruneRuns, Pruning.pruner, hnone, hbudget, if_false]
      rfl
    refine ⟨u, hevict.trans hleads, ?_, ?_⟩
    · rw [hpruned]
      exact hpruner'
    · rw [hpruned]
      exact hphase'

/-- **A tick that nothing interrupts** does what `runOnce` does, and raises when it raises. -/
theorem leads_runOnce (cfg : Config) (pcfg : ReportPrunerConfig) (disk : Disk) {now : Instant}
    {s : Pruning} (h : s.phase = .started now) :
    ∃ t, (uninterrupted cfg pcfg disk).Leads s t ∧
      match runOnce pcfg disk now s.pruner with
      | .ok (result, s') => t.pruner = s' ∧ t.phase = .ended (some result)
      | .error _ => t.pruner = s.pruner ∧ t.phase = .ended none := by
  unfold runOnce
  cases hlist : RunRepository.listExpired (pcfg.cutoff now) RunState.terminalStates
      candidateQueryLimit s.pruner.db with
  | error e =>
    refine ⟨{ s with phase := .ended none }, leads_prune ?_ .refl, rfl, rfl⟩
    simp only [Pruning.pruner] at hlist
    simp only [pruneStep, h, Tx.resume_of_error hlist]
  | ok r =>
    obtain ⟨candidates, db⟩ := r
    obtain rfl : db = s.pruner.db := listExpired_db hlist
    obtain ⟨t, hleads, hpruner, hphase⟩ := @leads_pruneRuns cfg pcfg disk candidates
      ⟨now, candidates, pcfg.maxPrunesPerIteration, {}⟩ { s with
        phase := .choosing ⟨now, candidates, pcfg.maxPrunesPerIteration, {}⟩ } rfl
    refine ⟨t, leads_prune ?_ hleads, hpruner, hphase⟩
    simp only [Pruning.pruner] at hlist
    simp only [pruneStep, h, Tx.resume_of_ok hlist]

/-! ## What the service leaves alone -/

/-- From `db` to `db'`, due runs stay due with their rows, and the rows of the pruner stay. -/
structure Beside (pcfg : ReportPrunerConfig) (db db' : Db) : Prop where
  due : ∀ now row, Due pcfg now db row → Due pcfg now db' row
  rows : pruneRows db' = pruneRows db

/-- A change of `runs` that leaves no terminal state keeps the rows of the runs that are due. -/
theorem RunEffect.due {db db' : Db} {es : List Event} (h : RunEffect db db' es) {now : Instant}
    {row : RunRow} (hdue : Due pcfg now db row) : Due pcfg now db' row := by
  obtain ⟨hmem, hterminal, hcutoff⟩ := hdue
  have hrow : db.runs.get? row.runId = some row := Table.get?_of_mem hmem
  suffices hkept : db'.runs.get? row.runId = some row from
    ⟨Table.mem_of_get? hkept, hterminal, hcutoff⟩
  cases h with
  | silent runs => rw [runs, hrow]
  | @entered mover runId moved at_ e others is was =>
    by_cases hid : row.runId = runId
    · subst hid
      rcases was with ⟨hnone, -⟩ | ⟨old, hold, hedge, -⟩
      · simp [stateOf, hrow] at hnone
      · obtain rfl : old = row := Option.some.inj (hold.symm.trans hrow)
        exact absurd hedge (RunState.not_edge_of_terminal hterminal)
    · rw [others _ hid, hrow]

theorem pruneReport_not_mem_writes (l : Label) : AuditAction.pruneReport ∉ writes l := by
  cases l <;> simp [writes]

/-- **The service beside the pruner.** -/
theorem step_beside {w w' : World} {l : Label} (h : step cfg w l = some w') :
    Beside pcfg w.db w'.db := by
  obtain ⟨es, rest, -, heffect, -⟩ := step_effect cfg h
  obtain ⟨rows, hlog, hrows⟩ := step_appends cfg h
  refine ⟨fun now row => heffect.due, ?_⟩
  have hnone : (rows.filter fun e => e.action = .pruneReport) = [] := by
    refine List.filter_eq_nil_iff.mpr fun e he => ?_
    rw [decide_eq_true_eq]
    intro hprune
    exact pruneReport_not_mem_writes l (hprune ▸ hrows e he)
  unfold pruneRows
  rw [auditRows_insertAll hlog, List.filter_append, hnone, List.append_nil]

/-- The row of a file is added, and nothing else happens to the database. -/
theorem beside_recordInOwnUow (disk : Disk) {unlink : Unlink} {event : AuditEvent}
    (h : Tells pcfg unlink event) (path : List String) (s : PrunerState) :
    let r := recordInOwnUow disk event path s
    (∀ now row, Due pcfg now s.db row → Due pcfg now r.2.db row) ∧
      pruneRows r.2.db = pruneRows s.db ++ if r.1 then [event] else [] := by
  simp only [recordInOwnUow_eq]
  cases disk.auditFails path with
  | true => simp
  | false =>
    refine ⟨fun now row h => h, ?_⟩
    simp [pruneRows, auditRows, Serial.rows_insert, h.action]

end MessageService.System
