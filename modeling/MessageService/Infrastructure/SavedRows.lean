import MessageService.Infrastructure.RowCodecs
import MessageService.Lib.Upsert

/-!
# Sequences of saves

Model of `save` and `get` of `SqliteRunRepository` and `SqliteStageRepository` on the tables as
SQLite holds them (`RunColumns`, `StageColumns`), with the `SET` list of each `_SQL_UPSERT` written
out. A save that raises leaves the tables alone.

* `runUpsert` leaves `created_at` out of its `SET` list, so a run keeps that of its first save.
* `getRun_after`, `getStage_after`: what `get` makes of any sequence of saves, of runs and stages in
  any order.
* `RunsStored.save`, `RunsStored.get`: the table of rows that the use cases are modelled on is the
  table of texts, read through `runColumns`.
* `row_codecs`: the codecs lose nothing, and **`get` returns the last value saved**, a run with
  the `created_at` of its first save. A run last saved with an `updated_at` before that `created_at`
  is not returned: its row breaks an invariant of the aggregate.
-/

namespace MessageService.Infrastructure

open MessageService.Domain MessageService.Lib

/-! ## The statements -/

/-- `_SQL_UPSERT` of `run_repository.py`. -/
def runUpsert : Upsert RunColumns.runId where
  merge excluded old := { old with
    pipelineType := excluded.pipelineType
    state := excluded.state
    attachmentMode := excluded.attachmentMode
    aggregationTemplateName := excluded.aggregationTemplateName
    aggregationTemplateVersion := excluded.aggregationTemplateVersion
    tagsJson := excluded.tagsJson
    declaredStagesJson := excluded.declaredStagesJson
    subscriptionPredicateTagsJson := excluded.subscriptionPredicateTagsJson
    updatedAt := excluded.updatedAt }
  key_merge _ _ h := h

/-- `_SQL_UPSERT` of `stage_repository.py`. -/
def stageUpsert : Upsert StageColumns.key where
  merge excluded old := { old with
    state := excluded.state
    reportTemplateName := excluded.reportTemplateName
    reportTemplateVersion := excluded.reportTemplateVersion
    reportContextJson := excluded.reportContextJson
    emailBodyContextJson := excluded.emailBodyContextJson
    emailBodyPosition := excluded.emailBodyPosition
    submittedAt := excluded.submittedAt }
  key_merge _ _ h := h

theorem runUpsert_lastWins : runUpsert.LastWins := ⟨fun _ _ _ => rfl, fun _ => rfl⟩

theorem stageUpsert_lastWins : stageUpsert.LastWins := ⟨fun _ _ _ => rfl, fun _ => rfl⟩

/-- The two tables. -/
structure Tables where
  runs : Table RunColumns.runId := Table.empty
  stages : Table StageColumns.key := Table.empty

namespace Tables

variable (t : Tables)

/-- `save` of a run. -/
def saveRun (value : DatedRun) : Except (Raised ServiceError) Tables := do
  let params ← uncaught value.toParams
  if params.checks then .ok { t with runs := runUpsert.exec t.runs params }
  else .error (.own (integrityError "CHECK constraint failed: runs"))

/-- `save` of a stage. Only an insertion looks at the foreign key. -/
def saveStage (value : DatedStage) : Except (Raised ServiceError) Tables := do
  let params ← uncaught value.toParams
  if !params.checks then .error (.own (integrityError "CHECK constraint failed: stages"))
  else if (t.stages.get? params.key).isNone && (t.runs.get? params.runId).isNone then
    .error (.own (integrityError "FOREIGN KEY constraint failed"))
  else .ok { t with stages := stageUpsert.exec t.stages params }

/-- `get` of a run. -/
def getRun (decodeError : String → String) (runId : RunId) : Except (Raised ServiceError) Run :=
  match t.runs.get? runId with
  | none => .error (.own (RunRepository.notFound runId))
  | some row => row.toRun decodeError

/-- `get` of a stage. -/
def getStage (runId : RunId) (stageId : StageId) : Except (Raised ServiceError) StageRecord :=
  match t.stages.get? (runId, stageId) with
  | none => .error (.own {
      errorClass := .unknownStageError
      message := "stage " ++ pyRepr stageId ++ " not found in run " ++ pyRepr runId
      details := [("run_id", .str runId), ("stage_id", .str stageId)] })
  | some row => row.toStage

end Tables

/-! ## One save -/

/-- The texts that a save of the run writes. -/
def DatedRun.columns (value : DatedRun) : RunColumns :=
  runColumns (RunRepository.runToRow value.run)

/-- The texts that a save of the stage writes. -/
def DatedStage.columns (value : DatedStage) : StageColumns :=
  stageColumns value.stage.toStageFields

/-- Every run passes the `CHECK`s. -/
theorem checks_columns (value : DatedRun) : value.columns.checks = true := by
  have hstate : ["INITIATED", "AGGREGATING", "READY", "SENDING", "SENT", "FAILED",
      "ORPHANED"].contains value.run.state.value = true := by
    cases value.run.state <;> decide
  cases hmode : value.run.attachmentMode with
  | singleAggregated =>
    obtain ⟨ref, href⟩ := Option.ne_none_iff_exists'.mp (value.run.aggregated hmode)
    simp only [RunColumns.checks, DatedRun.columns, runColumns, RunRepository.runToRow, hstate,
      hmode, href]
    simp [AttachmentMode.value]
  | perStage =>
    simp only [RunColumns.checks, DatedRun.columns, runColumns, RunRepository.runToRow, hstate,
      hmode]
    simp [AttachmentMode.value]

/-- The `CHECK`s keep out the reserved state, and a `TIMEOUT` or `FAILED` without a submission. -/
theorem checks_stageColumns_iff {stage : StageFields} : (stageColumns stage).checks = true ↔
    stage.state ≠ .inProgress ∧ (stage.state = .pending ↔ stage.submittedAt = none) := by
  obtain ⟨runId, stageId, state, ref, report, body, position, submittedAt⟩ := stage
  have hposition : (position.map EmailBodyPosition.value).all
      ["BEFORE_STAGES_SUMMARY", "AFTER_STAGES_SUMMARY"].contains = true := by
    rcases position with _ | _ | _ <;> decide
  simp only [StageColumns.checks, stageColumns, hposition, Bool.and_true]
  cases state <;> cases submittedAt <;> simp [StageState.value]

/-- **A run is saved** when its timestamps have dates in UTC. -/
theorem Tables.saveRun_eq_ok_iff {t t' : Tables} {value : DatedRun} :
    t.saveRun value = .ok t' ↔
      value.InRange ∧ { t with runs := runUpsert.exec t.runs value.columns } = t' := by
  rw [Tables.saveRun, bind_eq_ok_iff]
  constructor
  · rintro ⟨params, hp, h⟩
    obtain ⟨hrange, rfl⟩ := DatedRun.toParams_eq_ok_iff.mp (uncaught_eq_ok.mp hp)
    rw [← DatedRun.columns, if_pos (checks_columns value)] at h
    exact ⟨hrange, Except.ok.inj h⟩
  · rintro ⟨hrange, rfl⟩
    refine ⟨value.columns, uncaught_eq_ok.mpr (DatedRun.toParams_eq_ok_iff.mpr ⟨hrange, rfl⟩), ?_⟩
    rw [if_pos (checks_columns value)]

/-- **A stage is saved** when its timestamp has a date in UTC, the row passes the `CHECK`s and the
run or the stage is there. -/
theorem Tables.saveStage_eq_ok_iff {t t' : Tables} {value : DatedStage} :
    t.saveStage value = .ok t' ↔ value.InRange ∧ value.columns.checks = true ∧
      (t.stages.get? value.columns.key ≠ none ∨ t.runs.get? value.columns.runId ≠ none) ∧
        { t with stages := stageUpsert.exec t.stages value.columns } = t' := by
  have hguard : ((t.stages.get? value.columns.key).isNone &&
      (t.runs.get? value.columns.runId).isNone) = false ↔
        t.stages.get? value.columns.key ≠ none ∨ t.runs.get? value.columns.runId ≠ none := by
    rw [Bool.and_eq_false_iff, Option.isNone_eq_false_iff, Option.isNone_eq_false_iff,
      Option.isSome_iff_ne_none, Option.isSome_iff_ne_none]
  rw [Tables.saveStage, bind_eq_ok_iff]
  constructor
  · rintro ⟨params, hp, h⟩
    obtain ⟨hrange, rfl⟩ := DatedStage.toParams_eq_ok_iff.mp (uncaught_eq_ok.mp hp)
    rw [← DatedStage.columns] at h
    split_ifs at h with hchecks hkey
    · exact ⟨hrange, by simpa using hchecks, hguard.mp (Bool.eq_false_iff.mpr hkey), Except.ok.inj h⟩
  · rintro ⟨hrange, hchecks, hkey, rfl⟩
    refine ⟨value.columns, uncaught_eq_ok.mpr (DatedStage.toParams_eq_ok_iff.mpr ⟨hrange, rfl⟩), ?_⟩
    rw [if_neg (by simp [hchecks]), if_neg (by rw [hguard.mpr hkey]; exact Bool.false_ne_true)]

/-! ## The rows behind the texts -/

/-- The texts of `runs` are those of the rows. -/
def RunsStored (t : Tables) (db : Db) : Prop :=
  ∀ k, t.runs.get? k = (db.runs.get? k).map runColumns

/-- **Saving a run** does to the texts what it does to the rows. -/
theorem RunsStored.save {t t' : Tables} {db : Db} {value : DatedRun} (h : RunsStored t db)
    (hsave : t.saveRun value = .ok t') :
    ∃ db', RunRepository.save value.run db = .ok ((), db') ∧ RunsStored t' db' := by
  obtain ⟨-, rfl⟩ := Tables.saveRun_eq_ok_iff.mp hsave
  refine ⟨_, rfl, fun k => ?_⟩
  rw [Upsert.get?_exec, Table.get?_upsert, h k]
  have hkey : value.columns.runId = (RunRepository.runToRow value.run).runId := rfl
  rw [hkey]
  split_ifs with hk
  · cases hrow : db.runs.get? k with
    | none => rfl
    | some row =>
      -- an update keeps the id of the row that is there, which is the run's
      have hid : row.runId = value.run.runId := (Table.key_of_get? hrow).trans hk
      simp only [Upsert.latest, Option.map_some, Option.getD_some, runUpsert, DatedRun.columns,
        runColumns, RunRepository.runToRow, hid]
  · rfl

/-- **Getting a run** reads from the texts what it reads from the rows. -/
theorem RunsStored.get {t : Tables} {db : Db} (h : RunsStored t db)
    (hrange : ∀ row ∈ db.runs.rows, row.createdAt.InRange ∧ row.updatedAt.InRange)
    (decodeError : String → String) (k : RunId) :
    t.getRun decodeError k = (RunRepository.find db k).mapError .own := by
  rw [Tables.getRun, RunRepository.find, h k]
  cases hrow : db.runs.get? k with
  | none => rfl
  | some row =>
    obtain ⟨hc, hu⟩ := hrange row (Table.mem_of_get? hrow)
    exact toRun_columns decodeError hc hu

/-! ## A sequence of saves -/

/-- A save of one of the two repositories. -/
inductive Save where
  | run (value : DatedRun)
  | stage (value : DatedStage)

namespace Save

/-- Its execution. -/
def exec : Save → Tables → Except (Raised ServiceError) Tables
  | run value, t => t.saveRun value
  | stage value, t => t.saveStage value

/-- The row of `runs` it writes. -/
def runColumns? : Save → Option RunColumns
  | run value => some value.columns
  | stage _ => none

/-- The row of `stages` it writes. -/
def stageColumns? : Save → Option StageColumns
  | run _ => none
  | stage value => some value.columns

/-- The run it saves, if it has the key `k`. -/
def runUnder (k : RunId) : Save → Option DatedRun
  | run value => if value.run.runId = k then some value else none
  | stage _ => none

/-- The stage it saves, if it has the key `k`. -/
def stageUnder (k : RunId × StageId) : Save → Option DatedStage
  | run _ => none
  | stage value => if (value.stage.runId, value.stage.stageId) = k then some value else none

/-- What it saves has dates in UTC. -/
def InRange : Save → Prop
  | run value => value.InRange
  | stage value => value.InRange

/-- **One save** writes one row of one table. -/
theorem exec_ok {s : Save} {t t' : Tables} (h : s.exec t = .ok t') :
    s.InRange ∧ t'.runs = (s.runColumns?.toList).foldl runUpsert.exec t.runs ∧
      t'.stages = (s.stageColumns?.toList).foldl stageUpsert.exec t.stages := by
  cases s with
  | run value =>
    obtain ⟨hrange, rfl⟩ := Tables.saveRun_eq_ok_iff.mp h
    exact ⟨hrange, rfl, rfl⟩
  | stage value =>
    obtain ⟨hrange, -, -, rfl⟩ := Tables.saveStage_eq_ok_iff.mp h
    exact ⟨hrange, rfl, rfl⟩

end Save

namespace Tables

/-- The tables after a sequence of saves. -/
def after (t : Tables) : List Save → Tables
  | [] => t
  | s :: saves =>
    match s.exec t with
    | .ok t' => t'.after saves
    | .error _ => t.after saves

/-- The saves of the sequence that do not raise. -/
def done (t : Tables) : List Save → List Save
  | [] => []
  | s :: saves =>
    match s.exec t with
    | .ok t' => s :: t'.done saves
    | .error _ => t.done saves

theorem inRange_of_mem_done {t : Tables} {saves : List Save} {s : Save} (h : s ∈ t.done saves) :
    s.InRange := by
  induction saves generalizing t with
  | nil => cases h
  | cons s' saves ih =>
    unfold done at h
    split at h
    · next t' ht =>
      rcases List.mem_cons.mp h with rfl | h
      · exact (Save.exec_ok ht).1
      · exact ih h
    · exact ih h

/-- A save that nothing refuses, whatever has been saved before it: its run is there if it is the
save of a stage. -/
def Fits (t : Tables) : Save → Prop
  | .run value => value.InRange
  | .stage value => value.InRange ∧ value.columns.checks = true ∧
      t.runs.get? value.columns.runId ≠ none

theorem Fits.exec {t t' : Tables} {s s' : Save} (h : t.Fits s) (hexec : s'.exec t = .ok t') :
    t'.Fits s := by
  cases s with
  | run value => exact h
  | stage value =>
    refine ⟨h.1, h.2.1, ?_⟩
    rw [(Save.exec_ok hexec).2.1]
    cases s' with
    | stage _ => exact h.2.2
    | run value' =>
      have hget := runUpsert.get?_exec t.runs value'.columns value.columns.runId
      intro hnone
      rw [show (runUpsert.exec t.runs value'.columns).get? value.columns.runId = none from hnone]
        at hget
      split_ifs at hget
      · cases hget
      · exact h.2.2 hget.symm

theorem exists_exec_of_fits {t : Tables} {s : Save} (h : t.Fits s) : ∃ t', s.exec t = .ok t' := by
  cases s with
  | run value => exact ⟨_, saveRun_eq_ok_iff.mpr ⟨h, rfl⟩⟩
  | stage value => exact ⟨_, saveStage_eq_ok_iff.mpr ⟨h.1, h.2.1, .inr h.2.2, rfl⟩⟩

/-- Saves that nothing refuses are all done. -/
theorem done_of_fits {saves : List Save} {t : Tables} (h : ∀ s ∈ saves, t.Fits s) :
    t.done saves = saves := by
  induction saves generalizing t with
  | nil => rfl
  | cons s saves ih =>
    obtain ⟨hs, hsaves⟩ := List.forall_mem_cons.mp h
    obtain ⟨t', ht'⟩ := exists_exec_of_fits hs
    rw [done, ht']
    exact congrArg (s :: ·) (ih fun s' hs' => (hsaves s' hs').exec ht')

/-- **Each table is left by the upserts into it**, in their order. -/
theorem after_eq_foldl (t : Tables) (saves : List Save) :
    (t.after saves).runs =
        ((t.done saves).filterMap Save.runColumns?).foldl runUpsert.exec t.runs ∧
      (t.after saves).stages =
        ((t.done saves).filterMap Save.stageColumns?).foldl stageUpsert.exec t.stages := by
  induction saves generalizing t with
  | nil => exact ⟨rfl, rfl⟩
  | cons s saves ih =>
    unfold after done
    split
    · next t' ht =>
      obtain ⟨-, hruns, hstages⟩ := Save.exec_ok ht
      obtain ⟨ihr, ihs⟩ := ih t'
      rw [ihr, ihs, hruns, hstages]
      cases s <;> exact ⟨rfl, rfl⟩
    · exact ih t

end Tables

/-! ## What is read -/

theorem filter_runColumns (k : RunId) (saves : List Save) :
    ((saves.filterMap Save.runColumns?).filter fun row => row.runId = k) =
      (saves.filterMap (Save.runUnder k)).map DatedRun.columns := by
  induction saves with
  | nil => rfl
  | cons s saves ih =>
    cases s with
    | stage value => exact ih
    | run value =>
      by_cases hk : value.run.runId = k
      · have hkey : value.columns.runId = k := hk
        simp [Save.runColumns?, Save.runUnder, hk, hkey, ih]
      · have hkey : ¬value.columns.runId = k := hk
        simp [Save.runColumns?, Save.runUnder, hk, hkey, ih]

theorem filter_stageColumns (k : RunId × StageId) (saves : List Save) :
    ((saves.filterMap Save.stageColumns?).filter fun row => row.key = k) =
      (saves.filterMap (Save.stageUnder k)).map DatedStage.columns := by
  induction saves with
  | nil => rfl
  | cons s saves ih =>
    cases s with
    | run value => exact ih
    | stage value =>
      by_cases hk : (value.stage.runId, value.stage.stageId) = k
      · have hkey : value.columns.key = k := hk
        simp [Save.stageColumns?, Save.stageUnder, hk, hkey, ih]
      · have hkey : ¬value.columns.key = k := hk
        simp [Save.stageColumns?, Save.stageUnder, hk, hkey, ih]

namespace Tables

/-- The runs saved under a key by a sequence of saves into empty tables, in order. -/
def runsSaved (saves : List Save) (k : RunId) : List DatedRun :=
  (done {} saves).filterMap (Save.runUnder k)

/-- The stages saved under a key. -/
def stagesSaved (saves : List Save) (k : RunId × StageId) : List DatedStage :=
  (done {} saves).filterMap (Save.stageUnder k)

variable {saves : List Save}

theorem of_mem_runsSaved {k : RunId} {value : DatedRun} (h : value ∈ runsSaved saves k) :
    value.InRange ∧ value.run.runId = k := by
  obtain ⟨s, hs, hv⟩ := List.mem_filterMap.mp h
  cases s with
  | stage _ => cases hv
  | run v =>
    obtain ⟨hk, hv⟩ := Option.ite_none_right_eq_some.mp hv
    obtain rfl := Option.some.inj hv
    exact ⟨inRange_of_mem_done hs, hk⟩

theorem of_mem_stagesSaved {k : RunId × StageId} {value : DatedStage}
    (h : value ∈ stagesSaved saves k) :
    value.InRange ∧ (value.stage.runId, value.stage.stageId) = k := by
  obtain ⟨s, hs, hv⟩ := List.mem_filterMap.mp h
  cases s with
  | run _ => cases hv
  | stage v =>
    obtain ⟨hk, hv⟩ := Option.ite_none_right_eq_some.mp hv
    obtain rfl := Option.some.inj hv
    exact ⟨inRange_of_mem_done hs, hk⟩

/-- The row left by saves of which `first` is the first and `last` the last. -/
def keptRow (first last : DatedRun) : RunRow :=
  { RunRepository.runToRow last.run with createdAt := first.run.createdAt }

/-- **`get` of a run after any sequence of saves.** -/
theorem getRun_after (decodeError : String → String) {k : RunId} {first last : DatedRun}
    {rest : List DatedRun} (h : runsSaved saves k = first :: rest)
    (hlast : (first :: rest).getLast? = some last) :
    ((after {} saves).getRun decodeError k) =
      (rowToRun (keptRow first last)).mapError .own := by
  have hmem (value : DatedRun) (hv : value ∈ first :: rest) :
      value.InRange ∧ value.run.runId = k := of_mem_runsSaved (h ▸ hv)
  obtain ⟨hf, hfk⟩ := hmem first List.mem_cons_self
  obtain ⟨hl, hlk⟩ := hmem last (List.mem_of_getLast? hlast)
  have hget : (after {} saves).runs.get? k = some (runColumns (keptRow first last)) := by
    have hlatest : (rest.map DatedRun.columns).getLast?.getD first.columns = last.columns := by
      rw [List.getLast?_cons, Option.some.injEq] at hlast
      rw [List.getLast?_map, Option.getD_map, hlast]
    rw [(after_eq_foldl {} saves).1, Upsert.get?_foldl_exec, filter_runColumns, ← runsSaved, h]
    refine (Upsert.foldl_latest runUpsert_lastWins _ _).trans ?_
    rw [hlatest]
    have hid : first.run.runId = last.run.runId := hfk.trans hlk.symm
    simp only [runUpsert, DatedRun.columns, runColumns, keptRow, RunRepository.runToRow, hid]
  rw [getRun, hget]
  exact toRun_columns decodeError hf.1 hl.2

theorem getRun_after_of_nil (decodeError : String → String) {k : RunId}
    (h : runsSaved saves k = []) :
    (after {} saves).getRun decodeError k = .error (.own (RunRepository.notFound k)) := by
  have hget : (after {} saves).runs.get? k = none := by
    rw [(after_eq_foldl {} saves).1, Upsert.get?_foldl_exec, filter_runColumns, ← runsSaved, h]
    rfl
  rw [getRun, hget]

/-- **`get` of a stage after any sequence of saves.** -/
theorem getStage_after {k : RunId × StageId} {last : DatedStage}
    (h : (stagesSaved saves k).getLast? = some last) :
    (after {} saves).getStage k.1 k.2 = .ok last.stage := by
  obtain ⟨first, rest, hsaved⟩ := List.exists_cons_of_ne_nil
    (show stagesSaved saves k ≠ [] by rintro e; rw [e] at h; cases h)
  have hmem (value : DatedStage) (hv : value ∈ stagesSaved saves k) :
      value.InRange ∧ (value.stage.runId, value.stage.stageId) = k := of_mem_stagesSaved hv
  obtain ⟨-, hfk⟩ := hmem first (hsaved ▸ List.mem_cons_self)
  obtain ⟨hl, hlk⟩ := hmem last (List.mem_of_getLast? h)
  have hget : (after {} saves).stages.get? k = some last.columns := by
    have hlatest : (rest.map DatedStage.columns).getLast?.getD first.columns = last.columns := by
      rw [hsaved, List.getLast?_cons, Option.some.injEq] at h
      rw [List.getLast?_map, Option.getD_map, h]
    rw [(after_eq_foldl {} saves).2, Upsert.get?_foldl_exec, filter_stageColumns, ← stagesSaved,
      hsaved]
    refine (Upsert.foldl_latest stageUpsert_lastWins _ _).trans ?_
    rw [hlatest]
    obtain ⟨hrun, hstage⟩ := Prod.mk.inj (hfk.trans hlk.symm)
    simp only [stageUpsert, DatedStage.columns, stageColumns, hrun, hstage]
  rw [getStage, hget]
  exact DatedStage.toStage_of_toParams (DatedStage.toParams_eq_ok_iff.mpr ⟨hl, rfl⟩)

end Tables

/-! ## The last value saved -/

/-- A `PER_STAGE` run has no aggregation template, which its mode would ignore. -/
def RefUsed (run : Run) : Prop :=
  run.attachmentMode = .perStage → run.aggregationTemplateRef = none

theorem runToRow_of_refUsed {run : Run} (h : RefUsed run) :
    RunRepository.runToRow run = run.toRunRow := by
  have href : (if run.attachmentMode = .singleAggregated then run.aggregationTemplateRef
      else none) = run.aggregationTemplateRef := by
    split_ifs with hmode
    · rfl
    · cases hperStage : run.attachmentMode with
      | singleAggregated => exact absurd hperStage hmode
      | perStage => exact (h hperStage).symm
  rw [RunRepository.runToRow, href]

/-- The row kept of a run decodes if it was not last saved before it was created. -/
theorem rowToRun_keptRow {first last : DatedRun}
    (h : first.run.createdAt ≤ last.run.updatedAt) :
    ∃ run, rowToRun (Tables.keptRow first last) = .ok run ∧
      run.toRunRow = Tables.keptRow first last := by
  have hrun : (RunRepository.runToRow last.run).attachmentMode = .singleAggregated →
      (RunRepository.runToRow last.run).aggregationTemplateRef ≠ none := by
    intro hmode
    have hmode : last.run.attachmentMode = .singleAggregated := hmode
    simpa only [RunRepository.runToRow, if_pos hmode] using last.run.aggregated hmode
  exact ⟨_, rowToRun_toRunRow ⟨Tables.keptRow first last, h, hrun, last.run.distinct⟩, rfl⟩

theorem rowToRun_error {row : RunRow} (h : ¬row.createdAt ≤ row.updatedAt) :
    ∃ e, rowToRun row = .error e ∧ e.errorClass = .persistenceError := by
  unfold rowToRun
  split
  · next run hr =>
    have hrow := Run.make_ok hr
    subst hrow
    exact absurd run.ordered h
  · exact ⟨_, rfl, rfl⟩

/-- What `get` makes of the keys of a sequence of saves, `first` the first and `last` the last save
of a key. -/
structure LastSaved (decodeError : String → String) (saves : List Save) : Prop where
  run : ∀ k first rest last, Tables.runsSaved saves k = first :: rest →
    (first :: rest).getLast? = some last → RefUsed last.run →
      first.run.createdAt ≤ last.run.updatedAt →
        ∃ run, (Tables.after {} saves).getRun decodeError k = .ok run ∧
          run.toRunRow = { last.run.toRunRow with createdAt := first.run.createdAt }
  /-- A run last saved before it was created. -/
  runRefused : ∀ k first rest last, Tables.runsSaved saves k = first :: rest →
    (first :: rest).getLast? = some last → ¬first.run.createdAt ≤ last.run.updatedAt →
      ∃ e, (Tables.after {} saves).getRun decodeError k = .error (.own e) ∧
        e.errorClass = .persistenceError
  runMissing : ∀ k, Tables.runsSaved saves k = [] →
    (Tables.after {} saves).getRun decodeError k = .error (.own (RunRepository.notFound k))
  stage : ∀ k last, (Tables.stagesSaved saves k).getLast? = some last →
    (Tables.after {} saves).getStage k.1 k.2 = .ok last.stage

theorem lastSaved (decodeError : String → String) (saves : List Save) :
    LastSaved decodeError saves := by
  constructor
  case run =>
    intro k first rest last hsaved hlast href hle
    obtain ⟨run, hrun, hrow⟩ := rowToRun_keptRow hle
    refine ⟨run, ?_, ?_⟩
    · rw [Tables.getRun_after decodeError hsaved hlast, hrun]
      rfl
    · rw [hrow, Tables.keptRow, runToRow_of_refUsed href]
  case runRefused =>
    intro k first rest last hsaved hlast hlt
    have hlt' : ¬(Tables.keptRow first last).createdAt ≤ (Tables.keptRow first last).updatedAt :=
      hlt
    obtain ⟨e, he, hclass⟩ := rowToRun_error hlt'
    refine ⟨e, ?_, hclass⟩
    rw [Tables.getRun_after decodeError hsaved hlast, he]
    rfl
  case runMissing => exact fun k h => Tables.getRun_after_of_nil decodeError h
  case stage => exact fun k last h => Tables.getStage_after h

/-- The key of `runs` that a save writes under. -/
def Save.runKey? : Save → Option RunId
  | run value => some value.run.runId
  | stage _ => none

/-- The key of `stages` that a save writes under. -/
def Save.stageKey? : Save → Option (RunId × StageId)
  | run _ => none
  | stage value => some (value.stage.runId, value.stage.stageId)

/-- **Rows of other keys are unchanged.** -/
theorem Save.exec_frame {s : Save} {t t' : Tables} (h : s.exec t = .ok t') :
    (∀ k, s.runKey? ≠ some k → t'.runs.get? k = t.runs.get? k) ∧
      ∀ k, s.stageKey? ≠ some k → t'.stages.get? k = t.stages.get? k := by
  obtain ⟨-, hruns, hstages⟩ := exec_ok h
  rw [hruns, hstages]
  cases s with
  | run value =>
    refine ⟨fun k hk => runUpsert.get?_exec_ne ?_, fun _ _ => rfl⟩
    rintro rfl
    exact hk rfl
  | stage value =>
    refine ⟨fun _ _ => rfl, fun k hk => stageUpsert.get?_exec_ne ?_⟩
    rintro rfl
    exact hk rfl

/-- **Row codecs lose nothing**, and `get` returns the last value saved: a run with the `created_at`
of its first save, unless it was last saved with an `updated_at` before that. A run is saved when
its timestamps have dates in UTC; a stage, when its timestamp has one, the `CHECK`s allow its state
and the run or the stage is there. -/
theorem row_codecs (decodeError : String → String) :
    (∀ t : Tables, ∀ value : DatedRun, (∃ t', t.saveRun value = .ok t') ↔ value.InRange) ∧
      (∀ value : DatedRun, ∀ columns, value.toParams = .ok columns → RefUsed value.run →
        columns.toRun decodeError = .ok value.run) ∧
      (∀ t : Tables, ∀ value : DatedStage, (∃ t', t.saveStage value = .ok t') ↔ value.InRange ∧
        (value.stage.state ≠ .inProgress ∧
          (value.stage.state = .pending ↔ value.stage.submittedAt = none)) ∧
        (t.stages.get? (value.stage.runId, value.stage.stageId) ≠ none ∨
          t.runs.get? value.stage.runId ≠ none)) ∧
      (∀ value : DatedStage, ∀ columns, value.toParams = .ok columns →
        columns.toStage = .ok value.stage) ∧
      (∀ saves, LastSaved decodeError saves) ∧
      ∀ s : Save, ∀ t t', s.exec t = .ok t' →
        (∀ k, s.runKey? ≠ some k → t'.runs.get? k = t.runs.get? k) ∧
          ∀ k, s.stageKey? ≠ some k → t'.stages.get? k = t.stages.get? k := by
  refine ⟨?_, ?_, ?_, ?_, lastSaved decodeError, fun s t t' h => Save.exec_frame h⟩
  · intro t value
    simp only [Tables.saveRun_eq_ok_iff, exists_and_left, exists_eq', and_true]
  · intro value columns h href
    rw [DatedRun.toRun_of_toParams decodeError h, runToRow_of_refUsed href, rowToRun_toRunRow]
    rfl
  · intro t value
    simp only [Tables.saveStage_eq_ok_iff, exists_and_left, exists_eq', and_true]
    rw [DatedStage.columns, checks_stageColumns_iff]
    rfl
  · exact fun value columns h => DatedStage.toStage_of_toParams h

/-- A run of a pipeline without stages, created and last updated at the given moments, in UTC. -/
def bareRun (createdAt updatedAt : Instant) (h : createdAt ≤ updatedAt) (hc : createdAt.InRange)
    (hu : updatedAt.InRange) : DatedRun where
  run := {
    runId := "0b6ec7e1-8f0c-4d0e-9e0c-1f5b6f6a1c11"
    pipelineType := "nightly"
    tags := .empty
    declaredStages := []
    state := .initiated
    attachmentMode := .perStage
    aggregationTemplateRef := none
    subscriptionPredicateTags := .empty
    createdAt, updatedAt
    ordered := h
    aggregated := fun hmode => absurd hmode (by decide)
    distinct := List.nodup_nil }
  createdAt := .ofInstant createdAt hc
  updatedAt := .ofInstant updatedAt hu
  createdAt_aware := Option.some_ne_none _
  updatedAt_aware := Option.some_ne_none _
  createdAt_eq := Datetime.instant_ofInstant hc
  updatedAt_eq := Datetime.instant_ofInstant hu

/-- The first save of a run, and a second one with timestamps before those of the first. -/
def savedTwice : List DatedRun :=
  [bareRun 2000000 2000000 (by decide) (by decide) (by decide),
    bareRun 0 1000000 (by decide) (by decide) (by decide)]

/-- Of two saves of valid values, the last one is not read back: `get` raises. -/
theorem earlier_save_unreadable : ∃ k first last,
    Tables.runsSaved (savedTwice.map .run) k = [first, last] ∧ RefUsed first.run ∧
      RefUsed last.run ∧ ∀ decodeError, ∃ e,
        (Tables.after {} (savedTwice.map .run)).getRun decodeError k = .error (.own e) := by
  have hdone : Tables.done {} (savedTwice.map .run) = savedTwice.map .run :=
    Tables.done_of_fits (List.forall_mem_map.mpr (by decide : ∀ value ∈ savedTwice, value.InRange))
  have hsaved : Tables.runsSaved (savedTwice.map .run) "0b6ec7e1-8f0c-4d0e-9e0c-1f5b6f6a1c11" =
      savedTwice := by
    rw [Tables.runsSaved, hdone]
    rfl
  refine ⟨_, _, _, hsaved, fun _ => rfl, fun _ => rfl, fun decodeError => ?_⟩
  obtain ⟨e, he, -⟩ := (lastSaved decodeError (savedTwice.map .run)).runRefused _ _ _ _ hsaved
    rfl (by decide)
  exact ⟨e, he⟩

theorem weekly_ne (name : String) : "weekly-" ++ name ≠ "" := fun h => by
  simpa using congrArg String.length h

theorem weekly_version_ne : "1.2.0" ≠ "" := by decide

/-- A template of the weekly report. -/
def weeklyTemplate (name : String) : TemplateRef :=
  ⟨"weekly-" ++ name, "1.2.0", weekly_ne name, weekly_version_ne⟩

theorem weekly_start_inRange : Instant.InRange 0 := by decide

theorem weekly_submission_inRange : Instant.InRange 1500000 := by decide

/-- A weekly run with tags, two stages and one report for both. -/
def weeklyRun (state : RunState) (tags : List String) (updatedAt : Instant) (h : 0 ≤ updatedAt)
    (hu : updatedAt.InRange) : DatedRun where
  run := {
    runId := "5d1f3c0a-27b4-4f0e-8a53-9c1f0b6a7e22"
    pipelineType := "weekly"
    tags := .ofList tags
    declaredStages := [⟨"load", 1, weeklyTemplate "load"⟩,
      ⟨"check \"all\"", 0, weeklyTemplate "check"⟩]
    state
    attachmentMode := .singleAggregated
    aggregationTemplateRef := some (weeklyTemplate "summary")
    subscriptionPredicateTags := .ofList tags
    createdAt := 0
    updatedAt
    ordered := h
    aggregated := fun _ => Option.some_ne_none _
    distinct := by simp }
  createdAt := .ofInstant 0 weekly_start_inRange
  updatedAt := .ofInstant updatedAt hu
  createdAt_aware := Option.some_ne_none _
  updatedAt_aware := Option.some_ne_none _
  createdAt_eq := Datetime.instant_ofInstant _
  updatedAt_eq := Datetime.instant_ofInstant hu

theorem weekly_pending_blank : StageState.pending = .pending → (none : Option Instant) = none :=
  fun _ => rfl

theorem weekly_pending_submitted :
    StageState.pending.submission = true → (none : Option Instant) ≠ none :=
  fun h => by cases h

theorem weekly_pending_position :
    (none : Option EmailBodyPosition) = none ↔ (none : Option String) = none :=
  iff_of_true rfl rfl

theorem weekly_pending_aware : ∀ t ∈ (none : Option Datetime), t.offset ≠ none :=
  fun _ h => by cases h

theorem weekly_pending_moment : (none : Option Datetime).map Datetime.instant = none := rfl

/-- A stage of it that nothing is submitted to yet. -/
def weeklyPending : DatedStage where
  stage := {
    runId := "5d1f3c0a-27b4-4f0e-8a53-9c1f0b6a7e22"
    stageId := "load"
    state := .pending
    reportTemplateRef := weeklyTemplate "load"
    reportContextJson := none
    emailBodyContextJson := none
    emailBodyPosition := none
    submittedAt := none
    pending := weekly_pending_blank
    submitted := weekly_pending_submitted
    position_iff := weekly_pending_position }
  submittedAt := none
  submittedAt_aware := weekly_pending_aware
  submittedAt_eq := weekly_pending_moment

/-- The same with both contributions. -/
def weeklySubmitted : DatedStage where
  stage := {
    runId := "5d1f3c0a-27b4-4f0e-8a53-9c1f0b6a7e22"
    stageId := "load"
    state := .submitted
    reportTemplateRef := weeklyTemplate "load"
    reportContextJson := some "\x7b\"rows\": 3\x7d"
    emailBodyContextJson := some "\x7b\x7d"
    emailBodyPosition := some .afterStagesSummary
    submittedAt := some 1500000
    pending := fun h => by cases h
    submitted := fun _ => Option.some_ne_none _
    position_iff := iff_of_false (Option.some_ne_none _) (Option.some_ne_none _) }
  submittedAt := some (.ofInstant 1500000 weekly_submission_inRange)
  submittedAt_aware := fun _ h => Option.some.inj h ▸ Option.some_ne_none _
  submittedAt_eq := congrArg some (Datetime.instant_ofInstant _)

/-- The run begun. -/
def weeklyBegun : DatedRun := weeklyRun .initiated ["eu"] 0 (Int.le_refl 0) weekly_start_inRange

theorem weekly_ready_inRange : Instant.InRange 2000000 := by decide

/-- The run finalized, with one more tag. -/
def weeklyReady : DatedRun :=
  weeklyRun .ready ["eu", "quarter"] 2000000 (Int.natCast_nonneg _) weekly_ready_inRange

/-- The run begun, its stage pending and submitted, and the run finalized. -/
def weeklySaves : List Save :=
  [.run weeklyBegun, .stage weeklyPending, .stage weeklySubmitted, .run weeklyReady]

theorem done_weeklySaves : Tables.done {} weeklySaves = weeklySaves := by
  have hfirst : (Save.run weeklyBegun).exec {} = .ok _ :=
    Tables.saveRun_eq_ok_iff.mpr ⟨by decide, rfl⟩
  rw [weeklySaves, Tables.done, hfirst]
  refine congrArg (_ :: ·) (Tables.done_of_fits ?_)
  have hrun : (runUpsert.exec Table.empty weeklyBegun.columns).get?
      "5d1f3c0a-27b4-4f0e-8a53-9c1f0b6a7e22" ≠ none := by
    have hget := (runUpsert.get?_exec Table.empty weeklyBegun.columns
      "5d1f3c0a-27b4-4f0e-8a53-9c1f0b6a7e22").trans (if_pos rfl)
    exact fun hnone => Option.some_ne_none _ (hget.symm.trans hnone)
  simp only [List.forall_mem_cons, List.not_mem_nil, false_implies, implies_true, and_true]
  refine ⟨⟨fun t ht => (by cases ht), ?_, hrun⟩, ⟨fun t ht => ?_, ?_, hrun⟩, ?_⟩
  · exact checks_stageColumns_iff.mpr (by decide)
  · obtain rfl := Option.some.inj ht
    exact weekly_submission_inRange
  · exact checks_stageColumns_iff.mpr (by decide)
  · exact (by decide : weeklyReady.InRange)

/-- A run and its stage, each saved twice, and what is read back. -/
theorem row_codecs_weekly : ∃ run : Run,
    (Tables.after {} weeklySaves).getRun id "5d1f3c0a-27b4-4f0e-8a53-9c1f0b6a7e22" = .ok run ∧
      run.toRunRow = weeklyReady.run.toRunRow ∧
      (Tables.after {} weeklySaves).getStage "5d1f3c0a-27b4-4f0e-8a53-9c1f0b6a7e22" "load" =
        .ok weeklySubmitted.stage := by
  obtain ⟨-, -, -, -, hsaved, -⟩ := row_codecs id
  have hruns : Tables.runsSaved weeklySaves "5d1f3c0a-27b4-4f0e-8a53-9c1f0b6a7e22" =
      [weeklyBegun, weeklyReady] := by
    rw [Tables.runsSaved, done_weeklySaves]
    rfl
  have hstages : (Tables.stagesSaved weeklySaves
      ("5d1f3c0a-27b4-4f0e-8a53-9c1f0b6a7e22", "load")).getLast? = some weeklySubmitted := by
    rw [Tables.stagesSaved, done_weeklySaves]
    rfl
  obtain ⟨run, hget, hrow⟩ := (hsaved weeklySaves).run _ _ _ _ hruns rfl
    (fun h => by cases h) (by decide)
  exact ⟨run, hget, hrow, (hsaved weeklySaves).stage _ _ hstages⟩

end MessageService.Infrastructure
