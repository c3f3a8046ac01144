import MessageService.System.Paging

/-!
# The detail of a run

`GetRunDetailUseCase` reads the stages of a run and puts them into the order they were declared in;
a declared stage without a row it leaves out.

* `staffed_of_reach`: in every reachable state, the stages with a row under a run are the declared
  ones (`Staffed`).
* `run_detail_complete`: so the detail of a run leaves nothing out.
-/

namespace MessageService.System

open MessageService.Domain MessageService.Lib MessageService.Infrastructure
open MessageService.Application MessageService.Interfaces

/-- The stages with a row under a run are those it declared. -/
def Staffed (db : Db) : Prop :=
  ∀ runId row, db.runs.get? runId = some row → ∀ stageId,
    db.stages.get? (runId, stageId) ≠ none ↔ stageId ∈ row.declaredStages.map DeclaredStage.stageId

/-- A run that was not there before a step has been begun by it. -/
theorem begun_of_new {cfg : Config} {w w' : World} {l : Label} (h : step cfg w l = some w')
    {k : RunId} (hnone : w.db.runs.get? k = none) (hsome : w'.db.runs.get? k ≠ none) :
    ∃ cmd r now, beginRun cfg.beginRun cmd k now w.db = .ok (r, w'.db) := by
  have hmoved : ∀ {i s now}, w'.db.runs = RunRepository.moved w.db.runs i s now → False := by
    intro i s now hruns
    rw [hruns, RunRepository.get?_moved, hnone] at hsome
    split at hsome <;> exact hsome rfl
  obtain ⟨hruns, -⟩ | @⟨cmd, runId, r, now, fate, fresh, ok⟩ | ok | ⟨-, -, -, -, hruns, -⟩ :=
    step_rows h
  · exact absurd (hruns ▸ hnone) hsome
  · obtain ⟨run, -, hruns⟩ := get?_runs_of_begun fresh ok
    by_cases hk : k = runId
    · subst hk
      exact ⟨cmd, r, now, ok⟩
    · rw [hruns, if_neg hk] at hsome
      exact absurd hnone hsome
  · obtain ⟨run, -, -, -, -, hruns, -⟩ := submitStageReport_ok ok
    split at hruns
    · exact (hmoved hruns).elim
    · exact absurd (hruns ▸ hnone) hsome
  · exact (hmoved hruns).elim

/-- **A new run has a row for each stage it declares**, and no other. -/
theorem staffed_of_begun {ports : BeginRunPorts} {cmd : BeginRunCommand} {k r : RunId}
    {now : Instant} {db db' : Db} (fresh : ∀ stageId, db.stages.get? (k, stageId) = none)
    (hnone : db.runs.get? k = none) (h : beginRun ports cmd k now db = .ok (r, db')) {row : RunRow}
    (hrow : db'.runs.get? k = some row) (stageId : StageId) :
    db'.stages.get? (k, stageId) ≠ none ↔
      stageId ∈ row.declaredStages.map DeclaredStage.stageId := by
  obtain ⟨run, declared, ref, hrun, -, -, -, -, -, hruns, -, hrows⟩ := beginRun_stages h
  have hid : (RunRepository.runToRow run).runId = k := congrArg RunRow.runId hrun
  have hdeclared : row.declaredStages = declared := by
    rw [hruns, Table.get?_upsert, hid, if_pos rfl, hnone] at hrow
    obtain rfl := Option.some.inj hrow
    exact congrArg RunRow.declaredStages hrun
  rw [Table.get?_of_rows_append (hrows fresh), fresh, Option.none_or, hdeclared,
    ← Option.isSome_iff_ne_none, List.find?_isSome]
  simp [initialStage, Stage.key]

theorem Staffed.step {cfg : Config} {w w' : World} {l : Label} (hw : Owned w.db)
    (hs : Staffed w.db) (h : MessageService.System.step cfg w l = some w') : Staffed w'.db := by
  intro k row' hrow' stageId
  cases hrow : w.db.runs.get? k with
  | none =>
    obtain ⟨cmd, r, now, ok⟩ := begun_of_new h hrow (by simp [hrow'])
    exact staffed_of_begun (hw.get?_stages_of_fresh hrow) hrow ok hrow' stageId
  | some row =>
    have hdeclared : row'.declaredStages = row.declaredStages := by
      obtain hsame | ⟨s, now, -, hmoved⟩ := run_of_step h hrow
      · rw [Option.some.inj (hrow'.symm.trans hsame)]
      · rw [Option.some.inj (hrow'.symm.trans hmoved)]
        rfl
    have hstages : w'.db.stages.get? (k, stageId) ≠ none ↔
        w.db.stages.get? (k, stageId) ≠ none := by
      obtain same | ⟨fresh, -, -, -⟩ | ⟨-, -, was, is⟩ := stage_of_step hw h (k, stageId)
      · rw [same]
      · rw [fresh] at hrow
        cases hrow
      · simp [was, is]
    rw [hstages, hs k row hrow stageId, hdeclared]

theorem staffed_of_reach {cfg : Config} {w : World} (h : (service cfg).Reach w) :
    Staffed w.db := by
  refine System.inv_of_reach_and (I := fun w => Staffed w.db) ?_
    (fun w l w' hreach hs hstep => hs.step (owned_of_reach hreach) hstep) h
  rintro w ⟨users, subscriptions, rfl⟩ k row hrow
  cases hrow

/-- **The detail of a run leaves nothing out.** In every reachable state, the stages it shows are
the declared ones, in their order, each with its row, and they are all the rows the run has. As long
as no run is moved before its creation, every run has a detail. -/
theorem run_detail_complete (cfg : Config) :
    (∀ w, (service cfg).Reach w → ∀ runId detail db',
      getRunDetail runId w.db = .ok (detail, db') → db' = w.db ∧
        detail.stages.map Stage.stageId =
          detail.run.declaredStages.map DeclaredStage.stageId ∧
        detail.stages.Perm (StageRepository.ofRun w.db runId)) ∧
      ∀ w, ((service cfg).restrict OnTime).Reach w → ∀ runId, w.db.runs.get? runId ≠ none →
        ∃ detail, getRunDetail runId w.db = .ok (detail, w.db) := by
  refine ⟨fun w h runId detail db' hok => ?_, fun w h runId hrun => ?_⟩
  · obtain ⟨rfl, hrow, hstages⟩ := getRunDetail_ok hok
    have hdeclared : ∀ stageId, w.db.stages.get? (runId, stageId) ≠ none ↔
        stageId ∈ detail.run.declaredStages.map DeclaredStage.stageId :=
      staffed_of_reach h runId _ hrow
    have hfound : ∀ ds ∈ detail.run.declaredStages,
        ∃ s ∈ StageRepository.ofRun w.db runId, s.stageId = ds.stageId := by
      intro ds hds
      obtain ⟨s, hs⟩ := Option.ne_none_iff_exists'.mp
        ((hdeclared ds.stageId).mpr (List.mem_map_of_mem hds))
      have hkey : s.key = (runId, ds.stageId) := Table.key_of_get? hs
      obtain ⟨rfl, hid⟩ := Prod.mk.inj hkey
      exact ⟨s, StageRepository.mem_ofRun.mpr ⟨rfl, hid ▸ hs⟩, hid⟩
    have hids := stageIds_inDeclaredOrder hfound
    rw [← hstages] at hids
    refine ⟨rfl, hids, ?_⟩
    have hnodup : (detail.stages.map Stage.stageId).Nodup := hids ▸ detail.run.distinct
    refine (List.perm_ext_iff_of_nodup hnodup.of_map
      (StageRepository.nodup_stageIds_ofRun w.db runId).of_map).mpr fun s => ?_
    refine ⟨fun hs => mem_of_mem_inDeclaredOrder (hstages ▸ hs), fun hs => ?_⟩
    obtain ⟨-, hget⟩ := StageRepository.mem_ofRun.mp hs
    have hmem : s.stageId ∈ detail.stages.map Stage.stageId := by
      rw [hids]
      exact (hdeclared s.stageId).mp (by simp [hget])
    obtain ⟨s', hs', hid⟩ := List.mem_map.mp hmem
    have hget' := (StageRepository.mem_ofRun.mp
      (mem_of_mem_inDeclaredOrder (hstages ▸ hs'))).2
    rw [hid, hget] at hget'
    rwa [Option.some.inj hget']
  · obtain ⟨row, hrow⟩ := Option.ne_none_iff_exists'.mp hrun
    obtain ⟨run, rfl⟩ := decodes_of_reach h _ row hrow
    refine ⟨⟨run, inDeclaredOrder run.declaredStages (StageRepository.ofRun w.db runId)⟩, ?_⟩
    simp only [getRunDetail, RunRepository.get, StageRepository.listByRun, Tx.ok_bind,
      Tx.ok_attempt, Tx.ok_read, Tx.ok_pure]
    exact ⟨run, w.db, ⟨RunRepository.find_of_get? hrow, rfl⟩, _, w.db, ⟨rfl, rfl⟩, rfl, rfl⟩

end MessageService.System
