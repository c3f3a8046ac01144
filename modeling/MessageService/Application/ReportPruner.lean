import MessageService.Infrastructure.Store
import MessageService.Lib.FileTree

/-!
# The report pruner

Model of `application/use_cases/report_pruner.py` (`ReportPrunerUseCase`): a tick (`runOnce`) lists
the terminal runs whose last transition is at or before the cutoff, and evicts the report files of
one run after the other until the files of the next one exceed what is left of the budget.

* Paths are relative to `report_directory`, as lists of their components. A run id is a UUID, and so
  one component: the directory of a run is `[runId]`.
* `Disk` is what the operating system and the database answer besides what the tree and the tables
  say: whether a `stat`, an `unlink` or the unit of work of an audit row fails.
* Logging is left out.

`pruneRuns_spec` is what a pass over the candidates does when nothing fails: the files it leaves are
those of the runs it has not processed, and it processes no run only if no run has any file.
-/

namespace MessageService.Application

open MessageService.Domain MessageService.Lib MessageService.Infrastructure

/-- The configuration of `ReportPrunerUseCase`. -/
structure ReportPrunerConfig where
  reportDirectory : String
  retentionDays : Nat
  maxPrunesPerIteration : Nat
  retentionDays_pos : 1 ≤ retentionDays
  maxPrunes_pos : 1 ≤ maxPrunesPerIteration

/-- `_CANDIDATE_QUERY_LIMIT`. -/
def candidateQueryLimit : Nat := 10000

/-- The cutoff of a tick that starts at `now`. -/
def ReportPrunerConfig.cutoff (cfg : ReportPrunerConfig) (now : Instant) : Instant :=
  now - seconds (86400 * cfg.retentionDays)

/-- `PruneResult`. -/
structure PruneResult where
  runsProcessed : Nat := 0
  filesDeleted : Nat := 0
  filesFailed : Nat := 0
  deriving DecidableEq, Repr

/-- The report directory: the size of each file. -/
abbrev ReportTree := FileTree String Nat

/-- What fails during a tick, by the path it is about. -/
structure Disk where
  statFails : List String → Bool
  /-- The text of the `OSError` that `unlink` raises. -/
  unlinkFails : List String → Option String
  /-- The unit of work of the audit row raises. -/
  auditFails : List String → Bool

/-- Every `unlink` and every audit write succeeds. -/
def Disk.Succeeds (disk : Disk) : Prop :=
  ∀ path, disk.unlinkFails path = none ∧ disk.auditFails path = false

/-- What a tick reads and writes. -/
structure PrunerState where
  db : Db
  tree : ReportTree

/-- The directory of a run. -/
def runDir (runId : RunId) : List String := [runId]

/-- The report files of a run. -/
def reports (tree : ReportTree) (runId : RunId) : List (List String) :=
  FileTree.below (runDir runId) tree.filePaths

/-- A path lies below the directory of at most one run. -/
theorem eq_of_mem_reports {tree tree' : ReportTree} {runId runId' : RunId} {path : List String}
    (h : path ∈ reports tree runId) (h' : path ∈ reports tree' runId') : runId = runId' := by
  obtain ⟨-, ⟨l, rfl⟩, -⟩ := FileTree.mem_below.mp h
  obtain ⟨-, ⟨l', hl'⟩, -⟩ := FileTree.mem_below.mp h'
  exact (List.cons.inj hl').1.symm

variable (cfg : ReportPrunerConfig) (disk : Disk) (now : Instant)

/-- `str(path)`. -/
def ReportPrunerConfig.filePath (path : List String) : String :=
  "/".intercalate (cfg.reportDirectory :: path)

/-- `_list_files`. -/
def listFiles (tree : ReportTree) (dir : List String) : List (List String) :=
  if dir ∈ tree.filePaths ∨ dir ∈ tree.dirs then
    (FileTree.below dir tree.filePaths).insertionSort (· ≤ ·)
  else []

/-- The listing of a run's directory is its report files, in order. -/
theorem perm_listFiles (tree : ReportTree) (runId : RunId) :
    (listFiles tree (runDir runId)).Perm (reports tree runId) := by
  unfold listFiles
  split
  · exact List.perm_insertionSort _ _
  · next h =>
    -- without the directory there is nothing below it
    have hnone : reports tree runId = [] := List.eq_nil_iff_forall_not_mem.mpr fun path hpath =>
      h (.inr (FileTree.mem_dirs_of_below hpath))
    rw [hnone]

/-- `rmdir` one directory after the other, up to the first that is not empty. -/
def rmdirAll (tree : ReportTree) : List (List String) → ReportTree
  | [] => tree
  | dir :: dirs =>
    match tree.rmdir dir with
    | none => tree
    | some tree' => rmdirAll tree' dirs

/-- `_rmdir_empty_subtree`. -/
def rmdirEmptySubtree (tree : ReportTree) (dir : List String) : ReportTree :=
  if dir ∈ tree.filePaths ∨ dir ∈ tree.dirs then
    -- deepest first
    let subdirs := (FileTree.below dir tree.dirs).insertionSort fun a b => b.length ≤ a.length
    rmdirAll tree (subdirs ++ [dir])
  else tree

theorem filePaths_rmdirAll (tree : ReportTree) (dirs : List (List String)) :
    (rmdirAll tree dirs).filePaths = tree.filePaths := by
  induction dirs generalizing tree with
  | nil => rfl
  | cons dir dirs ih =>
    unfold rmdirAll
    cases h : tree.rmdir dir with
    | none => rfl
    | some tree' =>
      refine (ih tree').trans ?_
      unfold FileTree.filePaths
      rw [FileTree.files_rmdir h]

@[simp] theorem filePaths_rmdirEmptySubtree (tree : ReportTree) (dir : List String) :
    (rmdirEmptySubtree tree dir).filePaths = tree.filePaths := by
  unfold rmdirEmptySubtree
  split
  · exact filePaths_rmdirAll _ _
  · rfl

/-! ## Eviction -/

/-- The `PRUNE_REPORT` event of a file. -/
def pruneEvent (run : Run) (path : List String) (failureReason : Option String)
    (sizeBytes : Option Nat) : AuditEvent where
  timestamp := now
  action := .pruneReport
  actor := "system:report_pruner"
  resource := "report:" ++ run.runId
  outcome := if failureReason.isSome then .failure else .success
  details :=
    [("file_path", .str (cfg.filePath path)), ("terminal_state", .str run.state.value),
      ("terminal_state_at", .str (isoZ run.updatedAt))] ++
    (failureReason.map fun reason => ("failure_reason", .str reason)).toList ++
    (sizeBytes.map fun size => ("file_size_bytes", .int size)).toList

/-- Record an audit row in a unit of work of its own. An exception is logged, and the result says
that it happened. -/
def recordInOwnUow (event : AuditEvent) (path : List String) (s : PrunerState) :
    Bool × PrunerState :=
  match (AuditLog.record event).commit (if disk.auditFails path then .fails else .commits) s.db with
  | (.returned _, db) => (true, { s with db := db })
  | (_, db) => (false, { s with db := db })

/-- `file_path.unlink()`. -/
def unlinkFile (tree : ReportTree) (path : List String) : Except String ReportTree :=
  match disk.unlinkFails path with
  | some reason => .error reason
  | none =>
    match tree.unlink path with
    | some tree' => .ok tree'
    | none =>
      .error ("[Errno 2] No such file or directory: " ++ pyRepr (cfg.filePath path))

/-- `_evict_file`. -/
def evictFile (run : Run) (path : List String) (s : PrunerState) : Bool × PrunerState :=
  let sizeBytes := if disk.statFails path then none else s.tree.read path
  match unlinkFile cfg disk s.tree path with
  | .error reason =>
    -- `_record_failure`
    (false, (recordInOwnUow disk (pruneEvent cfg now run path (some reason) sizeBytes) path s).2)
  | .ok tree =>
    recordInOwnUow disk (pruneEvent cfg now run path none sizeBytes) path { s with tree := tree }

/-- Evict the files of a run, with the number of successes and of failures. -/
def evictFiles (run : Run) : List (List String) → PrunerState → (Nat × Nat) × PrunerState
  | [], s => ((0, 0), s)
  | path :: paths, s =>
    let (ok, s') := evictFile cfg disk now run path s
    let ((deleted, failed), s'') := evictFiles run paths s'
    (if ok then (deleted + 1, failed) else (deleted, failed + 1), s'')

section Success

variable {cfg disk now}

/-- Evicting a file removes it and adds an audit row. -/
theorem evictFile_of_succeeds (hd : disk.Succeeds) {run : Run} {path : List String}
    {s : PrunerState} (h : path ∈ s.tree.filePaths) :
    ∃ event, evictFile cfg disk now run path s =
      (true, { db := { s.db with auditLog := s.db.auditLog.insert event },
               tree := s.tree.erase path }) := by
  obtain ⟨hunlink, haudit⟩ := hd path
  refine ⟨pruneEvent cfg now run path none
    (if disk.statFails path then none else s.tree.read path), ?_⟩
  simp [evictFile, unlinkFile, hunlink, FileTree.unlink, h, recordInOwnUow, haudit, Tx.commit,
    AuditLog.record, Tx.write]

/-- Evicting files that are all there removes them and counts each as deleted. -/
theorem evictFiles_of_succeeds (hd : disk.Succeeds) {run : Run} {paths : List (List String)}
    (hn : paths.Nodup) {s : PrunerState} (h : ∀ path ∈ paths, path ∈ s.tree.filePaths) :
    (evictFiles cfg disk now run paths s).1 = (paths.length, 0) ∧
      (evictFiles cfg disk now run paths s).2.db.runs = s.db.runs ∧
      (evictFiles cfg disk now run paths s).2.tree.filePaths =
        s.tree.filePaths.filter fun path => path ∉ paths := by
  induction paths generalizing s with
  | nil => simp [evictFiles]
  | cons path paths ih =>
    obtain ⟨hpath, hn⟩ := List.nodup_cons.mp hn
    obtain ⟨event, hevict⟩ : ∃ event, evictFile cfg disk now run path s =
        (true, { db := { s.db with auditLog := s.db.auditLog.insert event },
                 tree := s.tree.erase path }) :=
      evictFile_of_succeeds hd (h path List.mem_cons_self)
    have hrest : ∀ q ∈ paths, q ∈ (s.tree.erase path).filePaths := by
      intro q hq
      rw [FileTree.filePaths_erase, List.mem_filter, decide_eq_true_eq]
      refine ⟨h q (List.mem_cons_of_mem _ hq), ?_⟩
      rintro rfl
      exact hpath hq
    obtain ⟨hcount, hruns, hfiles⟩ := @ih hn
      { db := { s.db with auditLog := s.db.auditLog.insert event }, tree := s.tree.erase path }
      hrest
    simp only [evictFiles, hevict, hcount, if_true]
    refine ⟨rfl, hruns, ?_⟩
    rw [hfiles, FileTree.filePaths_erase, List.filter_filter]
    refine List.filter_congr fun q _ => ?_
    simp only [List.mem_cons, not_or, Bool.decide_and]
    rw [Bool.and_comm]

end Success

/-- The loop of `run_once` over its candidates. -/
def pruneRuns : List Run → Nat → PruneResult → PrunerState → PruneResult × PrunerState
  | [], _, result, s => (result, s)
  | run :: runs, budget, result, s =>
    let files := listFiles s.tree (runDir run.runId)
    if files = [] then
      pruneRuns runs budget result { s with tree := rmdirEmptySubtree s.tree (runDir run.runId) }
    else if budget < files.length then
      (result, s)
    else
      let ((deleted, failed), s') := evictFiles cfg disk now run files s
      pruneRuns runs (budget - files.length)
        { runsProcessed := result.runsProcessed + 1
          filesDeleted := result.filesDeleted + deleted
          filesFailed := result.filesFailed + failed }
        { s' with tree := rmdirEmptySubtree s'.tree (runDir run.runId) }

/-- `run_once`. -/
def runOnce (s : PrunerState) : Except ServiceError (PruneResult × PrunerState) :=
  match RunRepository.listExpired (cfg.cutoff now) RunState.terminalStates candidateQueryLimit
      s.db with
  | .error e => .error e
  | .ok (candidates, _) => .ok (pruneRuns cfg disk now candidates cfg.maxPrunesPerIteration {} s)

/-! ## What a pass over the candidates does -/

/-- `path` is a report file of one of these runs. -/
def IsReportOf (runIds : List RunId) (path : List String) : Prop :=
  ∃ runId ∈ runIds, runDir runId <+: path ∧ path ≠ runDir runId

instance (runIds : List RunId) (path : List String) : Decidable (IsReportOf runIds path) :=
  inferInstanceAs (Decidable (∃ _ ∈ _, _))

theorem not_isReportOf_nil (path : List String) : ¬IsReportOf [] path := by
  simp [IsReportOf]

theorem isReportOf_append {first rest : List RunId} {path : List String} :
    IsReportOf (first ++ rest) path ↔ IsReportOf first path ∨ IsReportOf rest path := by
  simp only [IsReportOf, List.mem_append, or_and_right, exists_or]

/-- What pruning the runs `processed` leaves of `s`: the files that are not a report of theirs, and
the table of runs as it was. -/
structure Pruned (s s' : PrunerState) (processed : List RunId) : Prop where
  runs : s'.db.runs = s.db.runs
  files : s'.tree.filePaths = s.tree.filePaths.filter fun path => ¬IsReportOf processed path

theorem Pruned.refl (s : PrunerState) : Pruned s s [] where
  runs := rfl
  files := by simp [not_isReportOf_nil]

theorem Pruned.trans {s t u : PrunerState} {first rest : List RunId} (hst : Pruned s t first)
    (htu : Pruned t u rest) : Pruned s u (first ++ rest) where
  runs := htu.runs.trans hst.runs
  files := by
    rw [htu.files, hst.files, List.filter_filter]
    refine List.filter_congr fun path _ => ?_
    simp only [isReportOf_append, not_or, Bool.decide_and]
    rw [Bool.and_comm]

/-- Pruning removes the reports of the processed runs and those of no other. -/
theorem Pruned.reports_eq {s s' : PrunerState} {processed : List RunId}
    (h : Pruned s s' processed) (runId : RunId) :
    reports s'.tree runId = if runId ∈ processed then [] else reports s.tree runId := by
  unfold reports
  rw [h.files, FileTree.below_filter]
  split
  · next hmem =>
    refine List.filter_eq_nil_iff.mpr fun path hpath => ?_
    obtain ⟨-, hbelow⟩ := FileTree.mem_below.mp hpath
    simpa using ⟨runId, hmem, hbelow⟩
  · next hmem =>
    refine List.filter_eq_self.mpr fun path hpath => ?_
    rw [decide_eq_true_eq]
    rintro ⟨runId', hmem', hbelow⟩
    have hpath' : path ∈ reports s.tree runId' :=
      FileTree.mem_below.mpr ⟨(FileTree.mem_below.mp hpath).1, hbelow⟩
    exact hmem (eq_of_mem_reports hpath hpath' ▸ hmem')

/-- Pruning a run that has report files leaves fewer files. -/
theorem Pruned.length_lt {s s' : PrunerState} {processed : List RunId} (h : Pruned s s' processed)
    {runId : RunId} (hmem : runId ∈ processed) (hfiles : reports s.tree runId ≠ []) :
    s'.tree.filePaths.length < s.tree.filePaths.length := by
  obtain ⟨path, hpath⟩ := List.exists_mem_of_ne_nil _ hfiles
  obtain ⟨hin, hbelow⟩ := FileTree.mem_below.mp hpath
  rw [h.files, List.length_filter_lt_length_iff_exists]
  exact ⟨path, hin, by simpa using ⟨runId, hmem, hbelow⟩⟩

/-- Evicting the files of a run, and then its directories, prunes the run. -/
theorem pruned_evictFiles (hd : disk.Succeeds) (run : Run) (s : PrunerState) :
    let evicted := evictFiles cfg disk now run (listFiles s.tree (runDir run.runId)) s
    evicted.1 = ((reports s.tree run.runId).length, 0) ∧
      Pruned s
        { evicted.2 with tree := rmdirEmptySubtree evicted.2.tree (runDir run.runId) }
        [run.runId] := by
  have hperm := perm_listFiles s.tree run.runId
  have hnodup : (listFiles s.tree (runDir run.runId)).Nodup :=
    hperm.nodup_iff.mpr (s.tree.nodup_filePaths.filter _)
  obtain ⟨hcount, hruns, hleft⟩ := @evictFiles_of_succeeds cfg disk now hd run _ hnodup s
    fun path hpath => (FileTree.mem_below.mp (hperm.mem_iff.mp hpath)).1
  refine ⟨hcount.trans (by rw [hperm.length_eq]), hruns, ?_⟩
  rw [filePaths_rmdirEmptySubtree, hleft]
  refine List.filter_congr fun path hpath => ?_
  simp [hperm.mem_iff, reports, IsReportOf, hpath]

/-- **A pass over the candidates when nothing fails.** It prunes candidates that have report files,
each of them within the budget; and if every candidate's files are within the budget, it prunes
none only when none has any. -/
theorem pruneRuns_spec (hd : disk.Succeeds) (runs : List Run) (budget : Nat) (result : PruneResult)
    (s : PrunerState) : ∃ processed,
      Pruned s (pruneRuns cfg disk now runs budget result s).2 processed ∧
      (pruneRuns cfg disk now runs budget result s).1.runsProcessed =
        result.runsProcessed + processed.length ∧
      (∀ runId ∈ processed, (∃ run ∈ runs, run.runId = runId) ∧ reports s.tree runId ≠ [] ∧
        (reports s.tree runId).length ≤ budget) ∧
      (processed = [] → (∀ run ∈ runs, (reports s.tree run.runId).length ≤ budget) →
        ∀ run ∈ runs, reports s.tree run.runId = []) := by
  induction runs generalizing budget result s with
  | nil => exact ⟨[], .refl s, rfl, by simp, by simp⟩
  | cons run runs ih =>
    have hperm := perm_listFiles s.tree run.runId
    by_cases hnone : listFiles s.tree (runDir run.runId) = []
    · -- no files: only directories go
      have hempty : reports s.tree run.runId = [] := (hnone ▸ hperm).nil_eq.symm
      have hskip : Pruned s { s with tree := rmdirEmptySubtree s.tree (runDir run.runId) } [] :=
        { runs := rfl, files := by simp [not_isReportOf_nil] }
      obtain ⟨processed, hpruned, hcount, hwithin, hnothing⟩ := ih budget result
        { s with tree := rmdirEmptySubtree s.tree (runDir run.runId) }
      simp only [hskip.reports_eq, List.not_mem_nil, if_false] at hwithin hnothing
      simp only [pruneRuns, hnone, if_true]
      refine ⟨processed, hskip.trans hpruned, hcount, fun runId hmem => ?_, fun hp hall => ?_⟩
      · obtain ⟨⟨r, hr, hid⟩, hrest⟩ := hwithin runId hmem
        exact ⟨⟨r, List.mem_cons_of_mem _ hr, hid⟩, hrest⟩
      · exact List.forall_mem_cons.mpr ⟨hempty, hnothing hp fun r hr =>
          hall r (List.mem_cons_of_mem _ hr)⟩
    have hfiles : reports s.tree run.runId ≠ [] := fun h => hnone (h ▸ hperm).eq_nil
    have hlength : (listFiles s.tree (runDir run.runId)).length =
        (reports s.tree run.runId).length := hperm.length_eq
    by_cases hbudget : budget < (listFiles s.tree (runDir run.runId)).length
    · -- the files of the run exceed the budget: the pass ends here
      simp only [pruneRuns, hnone, hbudget, if_true, if_false]
      refine ⟨[], .refl s, rfl, by simp, fun _ hall => ?_⟩
      have := hall run List.mem_cons_self
      omega
    · obtain ⟨hcounts, hevicted⟩ := pruned_evictFiles cfg disk now hd run s
      revert hcounts hevicted
      generalize hs' : evictFiles cfg disk now run (listFiles s.tree (runDir run.runId)) s = evicted
      obtain ⟨counts, s'⟩ := evicted
      rintro rfl hevicted
      obtain ⟨processed, hpruned, hcount, hwithin, -⟩ :=
        ih (budget - (listFiles s.tree (runDir run.runId)).length)
          { runsProcessed := result.runsProcessed + 1
            filesDeleted := result.filesDeleted + (reports s.tree run.runId).length
            filesFailed := result.filesFailed + 0 }
          { s' with tree := rmdirEmptySubtree s'.tree (runDir run.runId) }
      simp only [pruneRuns, hnone, hbudget, hs', if_false]
      refine ⟨run.runId :: processed, hevicted.trans hpruned, ?_, ?_, by simp⟩
      · rw [hcount, List.length_cons]
        exact Nat.add_right_comm _ _ _
      · refine List.forall_mem_cons.mpr ⟨⟨⟨run, List.mem_cons_self, rfl⟩, hfiles, by omega⟩, ?_⟩
        intro runId hmem
        obtain ⟨⟨r, hr, hid⟩, hne, hle⟩ := hwithin runId hmem
        rw [hevicted.reports_eq] at hne hle
        split at hne
        · exact absurd rfl hne
        · next hother =>
          rw [if_neg hother] at hle
          exact ⟨⟨r, List.mem_cons_of_mem _ hr, hid⟩, hne, by omega⟩

/-- One iteration of the pruner loop, which logs an exception and goes on. -/
def pruneTick (s : PrunerState) : PrunerState :=
  match runOnce cfg disk now s with
  | .error _ => s
  | .ok (_, s') => s'

end MessageService.Application
