import MessageService.System.PrunerBooks

/-!
# What the report pruner guarantees

The books of the pruner (`PrunerInv`) over every interleaving of its ticks with the service and with
other tasks that write to the report directory, from every database and every report directory.

* `pruneStep_spec`: a step of a tick keeps the books, is at most one `unlink`, and brings the tick
  nearer to its end.
* `tick_ends`: a tick can always go on, and nothing but its own steps moves it.
* `pruner_exact`: the pruner deletes only what it may, and its books are exact.
-/

namespace MessageService.System

open MessageService.Domain MessageService.Lib MessageService.Infrastructure
open MessageService.Application

variable {pcfg : ReportPrunerConfig} {db db' : Db} {log : PruneLog}

/-! ## Every step of every run -/

/-- The books of the pruner, wherever its tick is. -/
def PrunerInv (pcfg : ReportPrunerConfig) (s : Pruning) : Prop :=
  match s.phase with
  | .idle | .ended none => s.log.unlinks.length ≤ pcfg.maxPrunesPerIteration
  | .started _ => s.log = { before := pruneRows s.world.db }
  | .choosing v => AtHead pcfg s.world.db s.log v
  | .evicting v run files => InRun pcfg s.world.db s.log v run files []
  | .auditing v run files u event =>
    InRun pcfg s.world.db s.log v run files [u] ∧ Tells pcfg u event
  | .ended (some result) => Returned pcfg s.world.db s.log result

/-- What a step of the pruner does to the report directory: nothing to its files, or it is one
`unlink`, of a file in the directory of a due run. -/
inductive Unlinks (pcfg : ReportPrunerConfig) (s s' : Pruning) : Prop
  | none (same : s'.log.unlinks = s.log.unlinks) (files : s'.tree.filePaths = s.tree.filePaths)
  | one {now : Instant} {row : RunRow} {u : Unlink} (tick : s.phase.now? = some now)
      (due : Due pcfg now s.world.db row) (of : u.runId = row.runId)
      (inDir : InRunDir row.runId u.path) (attempted : s'.log.unlinks = s.log.unlinks ++ [u])
      (removed : u.succeeded = true ∧ u.path ∈ s.tree.filePaths ∧ s'.tree = s.tree.erase u.path ∨
        u.succeeded = false ∧ s'.tree = s.tree)

/-- A bound on the steps a tick has left to take. -/
def stepsLeft (pcfg : ReportPrunerConfig) : PrunerPhase → Nat
  | .idle | .ended _ => 0
  | .started _ => 2 * (pcfg.maxPrunesPerIteration + candidateQueryLimit) + 2
  | .choosing v | .auditing v _ _ _ _ => 2 * (v.budgetRemaining + v.candidates.length) + 1
  | .evicting v _ _ => 2 * (v.budgetRemaining + v.candidates.length) + 2

theorem PrunerInv.within {s : Pruning} (h : PrunerInv pcfg s) :
    s.log.unlinks.length ≤ pcfg.maxPrunesPerIteration := by
  unfold PrunerInv at h
  split at h
  · exact h
  · exact h
  · rw [h]
    exact Nat.zero_le _
  · exact h.within
  · exact h.within
  · exact h.1.within
  · exact h.within

theorem PrunerInv.beside {s : Pruning} {w : World} (h : PrunerInv pcfg s)
    (hb : Beside pcfg s.world.db w.db) : PrunerInv pcfg { s with world := w } := by
  unfold PrunerInv at h ⊢
  dsimp only
  split at h
  · exact h
  · exact h
  · rw [hb.rows]
    exact h
  · exact h.beside hb
  · exact h.beside hb
  · exact ⟨h.1.beside hb, h.2⟩
  · exact h.beside hb

/-- What a step of the pruner does. -/
structure PruneStepSpec (pcfg : ReportPrunerConfig) (s s' : Pruning) : Prop where
  inv : PrunerInv pcfg s'
  unlinks : Unlinks pcfg s s'
  fewer : stepsLeft pcfg s'.phase < stepsLeft pcfg s.phase

theorem length_candidates_le {now : Instant} {candidates : List Run}
    (h : RunRepository.listExpired (pcfg.cutoff now) RunState.terminalStates candidateQueryLimit
      db = .ok (candidates, db')) : candidates.length ≤ candidateQueryLimit := by
  have hrows : candidates.length = (candidateRows pcfg now db).length := by
    rw [← map_toRunRow (listExpired_eq_ok h), List.length_map]
  rw [hrows]
  exact List.length_take_le _ _

/-- The listing of the candidates. -/
theorem started_spec {input : PrunerInput} {world : World} {tree : ReportTree} {now : Instant}
    {s' : Pruning} (hlog : log = { before := pruneRows world.db })
    (hstep : pruneStep pcfg input ⟨world, tree, .started now, log⟩ = some s') :
    PruneStepSpec pcfg ⟨world, tree, .started now, log⟩ s' := by
  obtain rfl := Option.some.inj hstep
  refine Tx.resume_rule (P := fun phase db => PruneStepSpec pcfg ⟨world, tree, .started now, log⟩
    ⟨{ world with db := db }, tree, phase, log⟩) (fun o db => ?_) fun candidates db hlist => ?_
  · exact {
      inv := by
        rw [hlog]
        exact Nat.zero_le _
      unlinks := .none rfl rfl
      fewer := Nat.succ_pos _ }
  · obtain rfl := listExpired_db hlist
    have hlength := length_candidates_le hlist
    exact {
      inv := hlog ▸ atHead_of_listExpired hlist
      unlinks := .none rfl rfl
      fewer := by
        simp only [stepsLeft]
        omega }

/-- The next candidate: there is none, it has no files, they exceed the budget, or the tick enters
it. -/
theorem choosing_spec {input : PrunerInput} {world : World} {tree : ReportTree} {v : PruneLocals}
    {s' : Pruning} (hhead : AtHead pcfg world.db log v)
    (hstep : pruneStep pcfg input ⟨world, tree, .choosing v, log⟩ = some s') :
    PruneStepSpec pcfg ⟨world, tree, .choosing v, log⟩ s' := by
  cases hv : v.candidates with
  | nil =>
    simp only [pruneStep, hv, Option.some.injEq] at hstep
    obtain rfl := hstep
    exact {
      inv := hhead.returned
      unlinks := .none rfl rfl
      fewer := Nat.succ_pos _ }
  | cons run candidates =>
    simp only [pruneStep, hv] at hstep
    have hperm := perm_listFiles tree run.runId
    by_cases hnone : listFiles tree (runDir run.runId) = []
    · simp only [hnone, if_true, Option.some.injEq] at hstep
      obtain rfl := hstep
      exact {
        inv := hhead.list hv []
        unlinks := .none rfl (filePaths_rmdirEmptySubtree _ _)
        fewer := by
          simp only [stepsLeft, hv, List.length_cons]
          omega }
    by_cases hbudget : v.budgetRemaining < (listFiles tree (runDir run.runId)).length
    · simp only [hnone, hbudget, if_true, if_false, Option.some.injEq] at hstep
      obtain rfl := hstep
      exact {
        inv := (hhead.list hv (listFiles tree (runDir run.runId))).returned
        unlinks := .none rfl rfl
        fewer := Nat.succ_pos _ }
    · simp only [hnone, hbudget, if_false, Option.some.injEq] at hstep
      obtain rfl := hstep
      exact {
        inv := hhead.enter hv hnone
          (hperm.nodup_iff.mpr (tree.nodup_filePaths.filter _))
          (fun path hpath => (FileTree.mem_below.mp (hperm.mem_iff.mp hpath)).2)
          (Nat.le_of_not_lt hbudget)
        unlinks := .none rfl rfl
        fewer := by
          simp only [stepsLeft, hv, List.length_cons]
          omega }

/-- **One step of the pruner** keeps its books, is at most one `unlink`, and brings the tick nearer
to its end. -/
theorem pruneStep_spec {input : PrunerInput} {s s' : Pruning} (h : PrunerInv pcfg s)
    (hstep : pruneStep pcfg input s = some s') : PruneStepSpec pcfg s s' := by
  obtain ⟨world, tree, phase, log⟩ := s
  cases phase with
  | idle => cases hstep
  | ended result => cases hstep
  | started now => exact started_spec h hstep
  | choosing v => exact choosing_spec h hstep
  | evicting v run files =>
    have hrun : InRun pcfg world.db log v run files [] := h
    cases files with
    | nil =>
      obtain rfl := Option.some.inj hstep
      exact {
        inv := hrun.leave
        unlinks := .none rfl (filePaths_rmdirEmptySubtree _ _)
        fewer := Nat.lt_succ_self _ }
    | cons path files =>
      obtain rfl := Option.some.inj hstep
      obtain ⟨⟨hid, hpath⟩, htells, hremoved⟩ :=
        @unlinkReport_spec pcfg input.disk v.now run path tree
      have hdir := hrun.inRunDir path List.mem_cons_self
      rw [← hpath] at hrun hdir
      exact {
        inv := ⟨hrun.unlink hid, htells⟩
        unlinks := .one rfl hrun.dueRun hid hdir rfl hremoved
        fewer := Nat.lt_succ_self _ }
  | auditing v run files u event =>
    obtain ⟨hrun, htells⟩ : InRun pcfg world.db log v run files [u] ∧ Tells pcfg u event := h
    obtain rfl := Option.some.inj hstep
    obtain ⟨hdue, hrows⟩ := beside_recordInOwnUow input.disk htells u.path ⟨world.db, tree⟩
    have hfits := hrun.fits
    simp only [List.length_cons, List.length_nil] at hfits
    exact {
      inv := hrun.audit htells hdue hrows
      unlinks := .none rfl rfl
      fewer := by
        simp only [stepsLeft, PruneLocals.counted]
        omega }

variable {cfg : Config}

theorem prunerInv_step {s s' : Pruning} {l : PruningLabel} (h : PrunerInv pcfg s)
    (hstep : pruningStep cfg pcfg s l = some s') : PrunerInv pcfg s' := by
  cases l with
  | service l =>
    simp only [pruningStep, Option.map_eq_some_iff] at hstep
    obtain ⟨w, hw, rfl⟩ := hstep
    cases l with
    | crash => exact h.within
    | _ => exact h.beside (step_beside hw)
  | files tree =>
    obtain rfl := Option.some.inj hstep
    exact h
  | start now =>
    simp only [pruningStep, Option.ite_none_right_eq_some, Option.some.injEq] at hstep
    obtain ⟨-, rfl⟩ := hstep
    exact rfl
  | prune input => exact (pruneStep_spec h hstep).inv
  | cancel =>
    obtain rfl := Option.some.inj hstep
    exact h.within

theorem prunerInv_of_reach {s : Pruning} (h : (pruning cfg pcfg).Reach s) : PrunerInv pcfg s := by
  refine System.inv_of_reach (I := PrunerInv pcfg) ⟨?_, fun s l s' => prunerInv_step⟩ h
  rintro ⟨world, tree, phase, log⟩ ⟨rfl, hnone⟩
  change log.unlinks.length ≤ _
  rw [hnone]
  exact Nat.zero_le _

/-! ## A tick ends -/

/-- **A tick ends.** While it runs it can take its next step, whatever the disk does; such a step
lowers the bound on the steps left, and no step of another task raises it. -/
theorem tick_ends (cfg : Config) (pcfg : ReportPrunerConfig) :
    (∀ (s : Pruning) input, s.phase.resting = false → (pruneStep pcfg input s).isSome) ∧
    (pruning cfg pcfg).Always fun s l s' =>
      (∀ input, l = .prune input → stepsLeft pcfg s'.phase < stepsLeft pcfg s.phase) ∧
      ((∀ now, l ≠ .start now) → stepsLeft pcfg s'.phase ≤ stepsLeft pcfg s.phase) := by
  constructor
  · rintro ⟨world, tree, phase, log⟩ input hrunning
    cases phase with
    | idle | ended _ => cases hrunning
    | started _ | auditing _ _ _ _ _ => rfl
    | evicting v run files => cases files <;> rfl
    | choosing v =>
      simp only [pruneStep]
      split
      · rfl
      · split_ifs <;> rfl
  · intro s l s' hreach hstep
    change pruningStep cfg pcfg s l = some s' at hstep
    have hprune : ∀ input, l = .prune input →
        stepsLeft pcfg s'.phase < stepsLeft pcfg s.phase := by
      rintro input rfl
      exact (pruneStep_spec (prunerInv_of_reach hreach) hstep).fewer
    refine ⟨hprune, fun hstart => ?_⟩
    cases l with
    | service l =>
      simp only [pruningStep, Option.map_eq_some_iff] at hstep
      obtain ⟨w, -, rfl⟩ := hstep
      cases l with
      | crash => exact Nat.zero_le _
      | _ => exact Nat.le_refl _
    | files tree =>
      obtain rfl := Option.some.inj hstep
      exact Nat.le_refl _
    | start now => exact absurd rfl (hstart now)
    | prune input => exact (hprune input rfl).le
    | cancel =>
      obtain rfl := Option.some.inj hstep
      exact Nat.zero_le _

/-! ## What the pruner guarantees -/

/-- No file is removed outside the directories of due runs. -/
theorem Unlinks.due {s s' : Pruning} (h : Unlinks pcfg s s') {path : List String}
    (hpath : path ∈ s.tree.filePaths) (hgone : path ∉ s'.tree.filePaths) :
    ∃ now row, s.phase.now? = some now ∧ Due pcfg now s.world.db row ∧
      InRunDir row.runId path := by
  cases h with
  | none _ files => exact absurd (files ▸ hpath) hgone
  | @one now row u tick due of inDir attempted removed =>
    obtain ⟨-, -, htree⟩ | ⟨-, htree⟩ := removed
    · rw [htree, FileTree.filePaths_erase, List.mem_filter, decide_eq_true_eq, not_and_not_right]
        at hgone
      obtain rfl := hgone hpath
      exact ⟨now, row, tick, due, inDir⟩
    · exact absurd (htree ▸ hpath) hgone

/-- The books of a tick whose audit rows were all written: one row for each attempted file, in
order, and the counts are the numbers of files deleted, of files not deleted, and of runs. -/
structure Exact (pcfg : ReportPrunerConfig) (db : Db) (log : PruneLog) (result : PruneResult) :
    Prop where
  rows : ∃ rows, pruneRows db = log.before ++ rows ∧ List.Forall₂ (Tells pcfg) log.unlinks rows
  deleted : result.filesDeleted = log.unlinks.countP Unlink.succeeded
  failed : result.filesFailed = log.unlinks.countP fun u => !u.succeeded
  runs : result.runsProcessed = runsAttempted log.unlinks

theorem Returned.exact {result : PruneResult} (h : Returned pcfg db log result)
    (hrecorded : ∀ a ∈ log.audits, a.recorded = true) : Exact pcfg db log result where
  rows := by
    refine ⟨written log.audits, h.rows, ?_⟩
    have hall : log.audits.filter PruneAudit.recorded = log.audits :=
      List.filter_eq_self.mpr hrecorded
    unfold written
    rw [← h.audited, hall, List.forall₂_map_left_iff, List.forall₂_map_right_iff,
      List.forall₂_same]
    exact h.tells
  deleted := by
    rw [h.deleted, ← h.audited, List.countP_map]
    refine List.countP_congr fun a ha => ?_
    simp [PruneAudit.ok, hrecorded a ha]
  failed := by
    rw [h.failed, ← h.audited, List.countP_map]
    refine List.countP_congr fun a ha => ?_
    simp [PruneAudit.ok, hrecorded a ha]
  runs := h.runs

/-- **The pruner deletes only what it may, and its books are exact,** over every interleaving of its
ticks with the service, from every database and every report directory.

* A step of a tick removes no file, or one in the directory of a run that is terminal, with its
  last transition at or before the cutoff.
* No more files are attempted than the cap.
* When the tick returns, the files listed for a run have all been attempted or none has, and the
  rows and the counts are those of the attempts. -/
theorem pruner_exact (cfg : Config) (pcfg : ReportPrunerConfig) :
    ((pruning cfg pcfg).Always fun s l s' => ∀ input, l = .prune input →
      Unlinks pcfg s s' ∧
      ∀ path ∈ s.tree.filePaths, path ∉ s'.tree.filePaths → ∃ now row,
        s.phase.now? = some now ∧ Due pcfg now s.world.db row ∧ InRunDir row.runId path) ∧
    ∀ s, (pruning cfg pcfg).Reach s →
      s.log.unlinks.length ≤ pcfg.maxPrunesPerIteration ∧
      ∀ result, s.phase = .ended (some result) →
        Returned pcfg s.world.db s.log result ∧
        ((∀ a ∈ s.log.audits, a.recorded = true) → Exact pcfg s.world.db s.log result) := by
  constructor
  · rintro s l s' hreach hstep input rfl
    have hunlinks := (pruneStep_spec (prunerInv_of_reach hreach) hstep).unlinks
    exact ⟨hunlinks, fun path => hunlinks.due⟩
  · intro s hreach
    have hinv := prunerInv_of_reach hreach
    refine ⟨hinv.within, fun result hphase => ?_⟩
    unfold PrunerInv at hinv
    rw [hphase] at hinv
    exact ⟨hinv, hinv.exact⟩

/-! ## A tick on a small service -/

/-- Two reports of the sample run. -/
def sampleReports : ReportTree :=
  (((FileTree.empty.mkdirs [sampleRun]).bind fun t => t.write [sampleRun, "body.html"] 10).bind
    fun t => t.write [sampleRun, "stage.html"] 20).getD .empty

/-- A step of the pruner, with one report that cannot be removed. -/
def samplePrune : PruningLabel :=
  .prune
    { disk := {
        statFails := fun _ => false
        unlinkFails := fun path =>
          if path = [sampleRun, "stage.html"] then some "[Errno 13] Permission denied" else none
        auditFails := fun _ => false }
      fate := .commits }

/-- A tick a week after the run was orphaned, with a step of the service between an `unlink` and its
audit row. -/
def samplePruning : List PruningLabel :=
  sampleOrphaned.map .service ++ [.start (seconds 604901)] ++ List.replicate 3 samplePrune ++
    [.service (.requestResend sampleRun 1)] ++ List.replicate 5 samplePrune

/-- The tick has returned one file deleted and one failed, of one run. -/
def samplePruned (s : Pruning) : Bool :=
  (match s.phase with
    | .ended (some result) => result = ⟨1, 1, 1⟩
    | _ => false) &&
  s.log.audits.all fun a => a.recorded

/-- A file that cannot be removed costs the tick nothing else: the run counts, the other file is
deleted, and each has its audit row. -/
theorem pruner_exact_sample : ∃ s, (pruning sampleConfig samplePrunerConfig).Reach s ∧
    s.phase = .ended (some ⟨1, 1, 1⟩) ∧ Exact samplePrunerConfig s.world.db s.log ⟨1, 1, 1⟩ := by
  have hinit : (pruning sampleConfig samplePrunerConfig).Reach ⟨{}, sampleReports, .idle, {}⟩ :=
    .init ⟨rfl, rfl⟩
  obtain ⟨s, hreach, hs⟩ := @System.exists_reach_of_run _ _ _ _ _ samplePruned samplePruning hinit
    (by decide +kernel)
  simp only [samplePruned, Bool.and_eq_true, List.all_eq_true] at hs
  obtain ⟨hphase, hrecorded⟩ := hs
  have hended : s.phase = .ended (some ⟨1, 1, 1⟩) := by
    split at hphase
    · next result h => rw [h, of_decide_eq_true hphase]
    · cases hphase
  exact ⟨s, hreach, hended,
    (((pruner_exact sampleConfig samplePrunerConfig).2 s hreach).2 _ hended).2 hrecorded⟩

end MessageService.System
