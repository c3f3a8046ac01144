import MessageService.Application.ReportPruner
import MessageService.Lib.Attempt

/-!
# The report pruner and its backlog

Repeated ticks of the report pruner at a fixed cutoff, when no `unlink` and no audit write fails and
nothing else writes (`pruneTicks`). A run is due when it is terminal and its last transition is at
or before the cutoff, and the pruner has drained when no due run has report files.

A tick evicts the files of a run all or not at all, it ends at the first run that does not fit, and
it looks at the oldest 10,000 due runs, pruned or not. So a run with more files than a tick may
evict is never pruned, nor is any run behind 10,000 others, nor is anything while a row
among those does not decode.

* `Starved`: a due run that no tick will prune.
* `pruneTick_spec`: what a tick prunes.
* `cannotStall_iff`: the pruner drains, and stops only when it has, exactly when no due run is
  starved.
-/

namespace MessageService.System

open MessageService.Domain MessageService.Lib MessageService.Infrastructure MessageService.Application

variable (cfg : ReportPrunerConfig) (disk : Disk) (now : Instant)

/-- Ticks at a fixed cutoff, the `i`-th of them with `disks i`. -/
def pruneTicks (disks : Nat → Disk) : Nat → PrunerState → PrunerState
  | 0, s => s
  | n + 1, s => pruneTick cfg (disks n) now (pruneTicks disks n s)

/-- A terminal run whose last transition is at or before the cutoff. -/
def Due (db : Db) (row : RunRow) : Prop :=
  row ∈ db.runs.rows ∧ row.state.terminal = true ∧ row.updatedAt ≤ cfg.cutoff now

/-- No due run has report files. -/
def Drained (s : PrunerState) : Prop :=
  ∀ row, Due cfg now s.db row → reports s.tree row.runId = []

/-- The rows a tick looks at. -/
def candidateRows (db : Db) : List RunRow :=
  RunRepository.expired db (cfg.cutoff now) RunState.terminalStates candidateQueryLimit

/-- Every row a tick looks at decodes. -/
def CandidatesDecode (db : Db) : Prop :=
  ∀ row ∈ candidateRows cfg now db, ∃ run, rowToRun row = .ok run

/-- A tick can prune the run: it is among the rows a tick looks at, which all decode, and its files
are no more than a tick may evict. -/
def Prunable (s : PrunerState) (row : RunRow) : Prop :=
  CandidatesDecode cfg now s.db ∧ row ∈ candidateRows cfg now s.db ∧
    (reports s.tree row.runId).length ≤ cfg.maxPrunesPerIteration

/-- The pruner cannot stall: a tick that processes no run leaves it drained, and enough ticks drain
it. -/
def CannotStall (s : PrunerState) : Prop :=
  ∀ disks : Nat → Disk, (∀ n, (disks n).Succeeds) →
    (∀ result s', runOnce cfg (disks 0) now s = .ok (result, s') → result.runsProcessed = 0 →
      Drained cfg now s') ∧
    ∃ n, Drained cfg now (pruneTicks cfg now disks n s)

variable {cfg disk now}

/-! ## One tick -/

theorem due_of_mem_candidateRows {db : Db} {row : RunRow} (h : row ∈ candidateRows cfg now db) :
    Due cfg now db row := by
  have h := (List.perm_insertionSort _ _).mem_iff.mp (List.mem_of_mem_take h)
  simp only [List.mem_filter, Bool.and_eq_true, decide_eq_true_eq] at h
  exact ⟨h.1, RunState.mem_terminalStates.mp h.2.2, h.2.1⟩

/-- The listing of a tick: the rows of the window, decoded. -/
theorem listExpired_eq_ok {db db' : Db} {candidates : List Run}
    (h : RunRepository.listExpired (cfg.cutoff now) RunState.terminalStates candidateQueryLimit db =
      .ok (candidates, db')) : (candidateRows cfg now db).mapM rowToRun = .ok candidates := by
  simp only [RunRepository.listExpired, Tx.ok_bind, Tx.ok_require, Tx.ok_attempt] at h
  obtain ⟨_, _, ⟨_, rfl⟩, hall, rfl⟩ := h
  exact hall

/-- The listing of a tick succeeds when the window decodes. -/
theorem CandidatesDecode.listExpired {db : Db} (h : CandidatesDecode cfg now db) :
    ∃ candidates, RunRepository.listExpired (cfg.cutoff now) RunState.terminalStates
      candidateQueryLimit db = .ok (candidates, db) := by
  cases hm : (candidateRows cfg now db).mapM rowToRun with
  | ok candidates =>
    refine ⟨candidates, ?_⟩
    simp only [RunRepository.listExpired, Tx.ok_bind, Tx.ok_require, Tx.ok_attempt]
    exact ⟨(), db, ⟨by decide, rfl⟩, hm, rfl⟩
  | error e =>
    obtain ⟨before, row, after, hrows, -, hrow⟩ := mapM_eq_error_iff.mp hm
    obtain ⟨run, hrun⟩ := h row (by rw [hrows]; simp)
    rw [hrun] at hrow
    cases hrow

/-- **What a tick that returns does**: it prunes runs that are prunable and have report files, and
when it prunes none, no prunable run has any unless a run of the window exceeds the budget. -/
theorem runOnce_spec (hd : disk.Succeeds) {s s' : PrunerState} {result : PruneResult}
    (h : runOnce cfg disk now s = .ok (result, s')) : ∃ processed,
      Pruned s s' processed ∧ result.runsProcessed = processed.length ∧
      (∀ runId ∈ processed, ∃ row, row.runId = runId ∧ reports s.tree row.runId ≠ [] ∧
        Prunable cfg now s row) ∧
      (processed = [] → (∀ row ∈ candidateRows cfg now s.db,
        (reports s.tree row.runId).length ≤ cfg.maxPrunesPerIteration) →
        ∀ row ∈ candidateRows cfg now s.db, reports s.tree row.runId = []) := by
  unfold runOnce at h
  split at h
  · cases h
  · next candidates db' hlist =>
    have hall := listExpired_eq_ok hlist
    obtain ⟨processed, hpruned, hcount, hwithin, hnothing⟩ :=
      pruneRuns_spec cfg disk now hd candidates cfg.maxPrunesPerIteration {} s
    simp only [Except.ok.injEq] at h
    rw [h] at hpruned hcount
    refine ⟨processed, hpruned, by simpa using hcount, fun runId hmem => ?_, fun hp hfit => ?_⟩
    · obtain ⟨⟨run, hrun, hid⟩, hne, hle⟩ := hwithin runId hmem
      obtain ⟨row, hrow, hdecodes⟩ := exists_of_mem_mapM hall hrun
      obtain rfl := rowToRun_ok hdecodes
      subst hid
      refine ⟨run.toRunRow, rfl, hne, fun row' hrow' => ?_, hrow, hle⟩
      obtain ⟨run', -, hdecodes'⟩ := exists_mem_of_mapM hall hrow'
      exact ⟨run', hdecodes'⟩
    · intro row hrow
      obtain ⟨run, hrun, hdecodes⟩ := exists_mem_of_mapM hall hrow
      rw [← rowToRun_ok hdecodes]
      refine hnothing hp (fun run' hrun' => ?_) run hrun
      obtain ⟨row', hrow', hdecodes'⟩ := exists_of_mem_mapM hall hrun'
      exact rowToRun_ok hdecodes' ▸ hfit row' hrow'

/-- **What a tick does**: it prunes runs that are prunable and have report files. -/
theorem pruneTick_spec (hd : disk.Succeeds) (s : PrunerState) : ∃ processed,
    Pruned s (pruneTick cfg disk now s) processed ∧
      ∀ runId ∈ processed, ∃ row, row.runId = runId ∧ Prunable cfg now s row := by
  unfold pruneTick
  split
  · exact ⟨[], .refl s, by simp⟩
  · next result s' h =>
    obtain ⟨processed, hpruned, -, hwithin, -⟩ := runOnce_spec hd h
    refine ⟨processed, hpruned, fun runId hmem => ?_⟩
    obtain ⟨row, hid, -, hprunable⟩ := hwithin runId hmem
    exact ⟨row, hid, hprunable⟩

/-! ## Pruning and the candidates -/

section Pruned

variable {s s' : PrunerState} {processed : List RunId}

theorem candidateRows_eq (h : s'.db.runs = s.db.runs) :
    candidateRows cfg now s'.db = candidateRows cfg now s.db := by
  unfold candidateRows RunRepository.expired
  rw [h]

theorem due_iff (h : s'.db.runs = s.db.runs) {row : RunRow} :
    Due cfg now s'.db row ↔ Due cfg now s.db row := by
  unfold Due
  rw [h]

/-- A run that keeps its report files stays prunable, or not. -/
theorem prunable_iff (h : s'.db.runs = s.db.runs) {row : RunRow}
    (hreports : reports s'.tree row.runId = reports s.tree row.runId) :
    Prunable cfg now s' row ↔ Prunable cfg now s row := by
  unfold Prunable CandidatesDecode
  rw [candidateRows_eq h, hreports]

end Pruned

/-- Every due run that has report files is prunable. -/
def AllPrunable (cfg : ReportPrunerConfig) (now : Instant) (s : PrunerState) : Prop :=
  ∀ row, Due cfg now s.db row → reports s.tree row.runId ≠ [] → Prunable cfg now s row

/-- Pruning keeps the runs it leaves prunable. -/
theorem AllPrunable.pruned {s s' : PrunerState} {processed : List RunId}
    (h : AllPrunable cfg now s) (hpruned : Pruned s s' processed) : AllPrunable cfg now s' := by
  intro row hdue hfiles
  rw [due_iff hpruned.runs] at hdue
  have hreports : reports s'.tree row.runId = reports s.tree row.runId := by
    rw [hpruned.reports_eq] at hfiles ⊢
    split at hfiles
    · exact absurd rfl hfiles
    · next hmem => exact if_neg hmem
  rw [prunable_iff hpruned.runs hreports]
  exact h row hdue (hreports ▸ hfiles)

/-! ## Draining -/

/-- A tick that processes no run has drained, when every due run with report files is prunable. -/
theorem AllPrunable.drained_of_idle {s s' : PrunerState} (h : AllPrunable cfg now s)
    (hd : disk.Succeeds) {result : PruneResult}
    (hrun : runOnce cfg disk now s = .ok (result, s')) (hidle : result.runsProcessed = 0) :
    Drained cfg now s' := by
  obtain ⟨processed, hpruned, hcount, -, hnothing⟩ := runOnce_spec hd hrun
  obtain rfl : processed = [] := List.eq_nil_of_length_eq_zero (hcount.symm.trans hidle)
  have hfit : ∀ row ∈ candidateRows cfg now s.db,
      (reports s.tree row.runId).length ≤ cfg.maxPrunesPerIteration := by
    intro row hrow
    by_cases hfiles : reports s.tree row.runId = []
    · simp [hfiles]
    · exact (h row (due_of_mem_candidateRows hrow) hfiles).2.2
  intro row hdue
  rw [due_iff hpruned.runs] at hdue
  rw [hpruned.reports_eq, if_neg List.not_mem_nil]
  by_contra hfiles
  exact hfiles (hnothing rfl hfit row (h row hdue hfiles).2.1)

/-- A tick drains, or it leaves fewer files. -/
theorem AllPrunable.tick {s : PrunerState} (h : AllPrunable cfg now s) (hd : disk.Succeeds) :
    Drained cfg now (pruneTick cfg disk now s) ∨
      (pruneTick cfg disk now s).tree.filePaths.length < s.tree.filePaths.length := by
  by_cases hdrained : Drained cfg now (pruneTick cfg disk now s)
  · exact .inl hdrained
  right
  unfold pruneTick at hdrained ⊢
  split
  · next e he =>
    -- the listing raises only on a row that does not decode, and then no due run has files
    rw [he] at hdrained
    simp only [Drained, not_forall] at hdrained
    obtain ⟨row, hdue, hfiles⟩ := hdrained
    obtain ⟨candidates, hlist⟩ := (h row hdue hfiles).1.listExpired
    simp [runOnce, hlist] at he
  · next result s' hrun =>
    rw [hrun] at hdrained
    obtain ⟨processed, hpruned, hcount, hwithin, -⟩ := runOnce_spec hd hrun
    cases hp : processed with
    | nil => exact absurd (h.drained_of_idle hd hrun (by rw [hcount, hp]; rfl)) hdrained
    | cons runId rest =>
      have hmem : runId ∈ processed := hp ▸ List.mem_cons_self
      obtain ⟨row, rfl, hfiles, -⟩ := hwithin runId hmem
      exact hpruned.length_lt hmem hfiles

/-- **Enough ticks drain.** The number of files bounds how many it takes. -/
theorem AllPrunable.drains {s : PrunerState} (h : AllPrunable cfg now s) {disks : Nat → Disk}
    (hd : ∀ n, (disks n).Succeeds) : ∃ n, Drained cfg now (pruneTicks cfg now disks n s) := by
  by_contra hnever
  push Not at hnever
  have hall (n : Nat) : AllPrunable cfg now (pruneTicks cfg now disks n s) := by
    induction n with
    | zero => exact h
    | succ n ih =>
      obtain ⟨processed, hpruned, -⟩ :=
        @pruneTick_spec cfg (disks n) now (hd n) (pruneTicks cfg now disks n s)
      exact ih.pruned hpruned
  have hfewer (n : Nat) : (pruneTicks cfg now disks n s).tree.filePaths.length + n ≤
      s.tree.filePaths.length := by
    induction n with
    | zero => rfl
    | succ n ih =>
      have := ((hall n).tick (hd n)).resolve_left (hnever (n + 1))
      change (pruneTick cfg (disks n) now (pruneTicks cfg now disks n s)).tree.filePaths.length +
        (n + 1) ≤ _
      omega
  have := hfewer (s.tree.filePaths.length + 1)
  omega

/-! ## Starvation -/

/-- A due run with report files that is not prunable. -/
def Starved (cfg : ReportPrunerConfig) (now : Instant) (s : PrunerState) (row : RunRow) : Prop :=
  Due cfg now s.db row ∧ reports s.tree row.runId ≠ [] ∧ ¬Prunable cfg now s row

/-- **A starved run stays starved.** -/
theorem Starved.tick {s : PrunerState} {row : RunRow} (h : Starved cfg now s row)
    (hd : disk.Succeeds) : Starved cfg now (pruneTick cfg disk now s) row := by
  obtain ⟨hdue, hfiles, hnot⟩ := h
  obtain ⟨processed, hpruned, hwithin⟩ := @pruneTick_spec cfg disk now hd s
  have hother : row.runId ∉ processed := by
    intro hmem
    obtain ⟨row', hid, hprunable⟩ := hwithin row.runId hmem
    -- a run id is the key of one row
    have hrow : row' = row := by
      have hrow' := Table.get?_of_mem (due_of_mem_candidateRows hprunable.2.1).1
      rw [hid, Table.get?_of_mem hdue.1] at hrow'
      exact (Option.some.inj hrow').symm
    exact hnot (hrow ▸ hprunable)
  have hreports : reports (pruneTick cfg disk now s).tree row.runId =
      reports s.tree row.runId := by
    rw [hpruned.reports_eq, if_neg hother]
  exact ⟨(due_iff hpruned.runs).mpr hdue, hreports ▸ hfiles,
    fun hp => hnot ((prunable_iff hpruned.runs hreports).mp hp)⟩

/-- With a starved run the pruner never drains. -/
theorem Starved.not_drained {s : PrunerState} {row : RunRow} (h : Starved cfg now s row)
    {disks : Nat → Disk} (hd : ∀ n, (disks n).Succeeds) (n : Nat) :
    ¬Drained cfg now (pruneTicks cfg now disks n s) := by
  have hstarved : Starved cfg now (pruneTicks cfg now disks n s) row := by
    induction n with
    | zero => exact h
    | succ n ih => exact ih.tick (hd n)
  exact fun hdrained => hstarved.2.1 (hdrained row hstarved.1)

/-- A `Disk` on which nothing fails. -/
def sampleDisk : Disk where
  statFails := fun _ => false
  unlinkFails := fun _ => none
  auditFails := fun _ => false

theorem sampleDisk_succeeds : sampleDisk.Succeeds := fun _ => ⟨rfl, rfl⟩

theorem not_cannotStall_of_starved {s : PrunerState} {row : RunRow} (h : Starved cfg now s row) :
    ¬CannotStall cfg now s := by
  intro hcannot
  obtain ⟨-, n, hdrained⟩ := hcannot (fun _ => sampleDisk) fun _ => sampleDisk_succeeds
  exact h.not_drained (fun _ => sampleDisk_succeeds) n hdrained

/-- **The pruner drains its backlog exactly when no due run is starved**: when each due run that has
report files has no more of them than a tick may evict and is among the oldest 10,000 due runs, all
of whose rows decode. -/
theorem cannotStall_iff (cfg : ReportPrunerConfig) (now : Instant) (s : PrunerState) :
    CannotStall cfg now s ↔
      ∀ row, Due cfg now s.db row → reports s.tree row.runId ≠ [] → Prunable cfg now s row := by
  constructor
  · intro h row hdue hfiles
    by_contra hnot
    exact not_cannotStall_of_starved ⟨hdue, hfiles, hnot⟩ h
  · intro h disks hd
    exact ⟨fun result s' hrun hidle => AllPrunable.drained_of_idle h (hd 0) hrun hidle,
      AllPrunable.drains h hd⟩

/-! ## A starved run -/

/-- Two files a tick, kept for a week. -/
def samplePrunerConfig : ReportPrunerConfig where
  reportDirectory := "reports"
  retentionDays := 7
  maxPrunesPerIteration := 2
  retentionDays_pos := by decide
  maxPrunes_pos := by decide

/-- A run sent at second 1. -/
def sampleExpired : RunRow where
  runId := "00000000-0000-4000-8000-000000000000"
  pipelineType := "daily"
  tags := .empty
  declaredStages := []
  state := .sent
  attachmentMode := .perStage
  aggregationTemplateRef := none
  subscriptionPredicateTags := .empty
  createdAt := 0
  updatedAt := seconds 1

/-- Its report: the e-mail body and two fragments. -/
def sampleReport : Option ReportTree := do
  let tree ← FileTree.empty.mkdirs [sampleExpired.runId, "fragments"]
  let tree ← tree.write [sampleExpired.runId, "email.html"] 700
  let tree ← tree.write [sampleExpired.runId, "fragments", "load.html"] 300
  tree.write [sampleExpired.runId, "fragments", "test.html"] 400

/-- The run with its report. -/
def sampleBacklog : PrunerState where
  db := { runs := Table.empty.append sampleExpired rfl }
  tree := sampleReport.getD .empty

/-- **A run of three files is never pruned two files a tick.** -/
theorem oversized_run_stalls_pruner :
    ¬CannotStall samplePrunerConfig (seconds 1000000) sampleBacklog := by
  have hstarved : Starved samplePrunerConfig (seconds 1000000) sampleBacklog sampleExpired := by
    refine ⟨⟨List.mem_singleton_self _, rfl, by decide +kernel⟩, by decide +kernel, ?_⟩
    rintro ⟨-, -, hfit⟩
    exact absurd hfit (by decide +kernel)
  exact not_cannotStall_of_starved hstarved

end MessageService.System
