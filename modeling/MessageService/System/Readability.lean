import MessageService.System.Rows

/-!
# Stored runs stay readable

`update_state` writes `updated_at` from the clock reading of its caller and never looks at
`created_at`, the table has no `CHECK` on the two, and `_row_to_run` rejects a row whose
`updated_at` is the earlier one.

* `readable_of_onTime`: every row decodes and no query fails on one (`Readable`), in every run of
  the service whose steps are all `OnTime`: none moves a run at a reading before its creation. A
  step that does, and is not rolled back, leaves a row that does not decode.
* `clock_step_back_poisons_listing`: a submission after the clock has gone back. No tick of the
  sweeper gets past its listing again.
-/

namespace MessageService.System

open MessageService.Domain MessageService.Lib MessageService.Infrastructure
open MessageService.Application

/-- The step moves no run at a reading before the run's creation. -/
def OnTime (w : World) (l : Label) : Prop :=
  ∀ k s now row, target? w l = some (k, s) → l.reading = some now →
    w.db.runs.get? k = some row → RunState.Edge row.state s → row.createdAt ≤ now

/-- A test for it. -/
def isOnTime (w : World) (l : Label) : Bool :=
  (target? w l).all fun (k, s) => l.reading.all fun now =>
    (w.db.runs.get? k).all fun row => !decide (RunState.Edge row.state s) || row.createdAt ≤ now

theorem isOnTime_iff {w : World} {l : Label} : isOnTime w l = true ↔ OnTime w l := by
  simp only [isOnTime, OnTime, Option.all_eq_true, Bool.or_eq_true, Bool.not_eq_true',
    decide_eq_false_iff_not, decide_eq_true_eq]
  constructor
  · intro h k s now row ht hr hrow hedge
    exact (h (k, s) ht now hr row hrow).resolve_left (not_not_intro hedge)
  · rintro h ⟨k, s⟩ ht now hr row hrow
    exact or_iff_not_imp_left.mpr fun hedge => h k s now row ht hr hrow (not_not.mp hedge)

instance (w : World) (l : Label) : Decidable (OnTime w l) := decidable_of_iff _ isOnTime_iff

/-- The exception is a `PersistenceError`. -/
def IsPersistenceError {α : Type} (r : Except ServiceError α) : Prop :=
  ∃ e, r = .error e ∧ e.errorClass = .persistenceError

/-- Every row of `runs` decodes, and no query of `SqliteRunRepository` fails on one. -/
structure Readable (db : Db) : Prop where
  rows : ∀ row ∈ db.runs.rows, ∃ run, rowToRun row = .ok run
  get : ∀ runId, ¬IsPersistenceError (RunRepository.get runId db)
  listExpired : ∀ cutoff states limit,
    ¬IsPersistenceError (RunRepository.listExpired cutoff states limit db)
  listInStates : ∀ states, ¬IsPersistenceError (RunRepository.listInStates states db)
  listPaginated : ∀ states limit offset,
    ¬IsPersistenceError (RunRepository.listPaginated states limit offset db)
  /-- The listing of a tick of the sweeper gets through. -/
  listCandidates : ∀ (cfg : SweeperConfig) (now : Instant), ∃ candidates,
    listCandidates cfg now db = .ok (candidates, db)

/-! ## Rows that decode -/

/-- Every row of `runs` is that of a `Run`. -/
def Decodes (db : Db) : Prop :=
  ∀ k row, db.runs.get? k = some row → ∃ run : Run, run.toRunRow = row

/-- A run may be stamped with any reading from its creation on. -/
theorem exists_run_withState (run : Run) (s : RunState) {now : Instant}
    (h : run.createdAt ≤ now) :
    ∃ run' : Run, run'.toRunRow = RunRepository.withState run.toRunRow s now :=
  ⟨{ RunRepository.withState run.toRunRow s now with
      ordered := h
      aggregated := run.aggregated
      distinct := run.distinct }, rfl⟩

/-- What `save` writes decodes. -/
theorem exists_run_runToRow (run : Run) :
    ∃ run' : Run, run'.toRunRow = RunRepository.runToRow run := by
  refine ⟨{ RunRepository.runToRow run with
    ordered := run.ordered
    aggregated := ?_
    distinct := run.distinct }, rfl⟩
  intro h
  have hmode : run.attachmentMode = .singleAggregated := h
  simp only [RunRepository.runToRow, if_pos hmode]
  exact run.aggregated hmode

theorem Decodes.moved {db db' : Db} (hd : Decodes db) {k : RunId} {s : RunState} {now : Instant}
    (hruns : db'.runs = RunRepository.moved db.runs k s now)
    (hon : ∀ row, db.runs.get? k = some row → row.createdAt ≤ now) : Decodes db' := by
  intro i row hrow
  rw [hruns, RunRepository.get?_moved] at hrow
  split at hrow
  · next hi =>
    subst hi
    obtain ⟨old, hold, rfl⟩ := Option.map_eq_some_iff.mp hrow
    obtain ⟨run, rfl⟩ := hd i old hold
    exact exists_run_withState run s (hon _ hold)
  · exact hd i row hrow

theorem Decodes.step {cfg : Config} {w w' : World} {l : Label} (hd : Decodes w.db)
    (h : step cfg w l = some w') (hon : OnTime w l) : Decodes w'.db := by
  obtain ⟨hruns, -⟩ | ⟨fresh, ok⟩ | ok | ⟨hreading, htarget, was, edge, hruns, -⟩ := step_rows h
  · intro k row hrow
    exact hd k row (hruns ▸ hrow)
  · obtain ⟨run, -, hruns⟩ := get?_runs_of_begun fresh ok
    intro k row hrow
    rw [hruns] at hrow
    split at hrow
    · obtain rfl := Option.some.inj hrow
      exact exists_run_runToRow run
    · exact hd k row hrow
  · obtain ⟨run, current, hrow, -, -, hruns, -⟩ := submitStageReport_ok ok
    split at hruns
    · next hi =>
      refine hd.moved hruns fun row hrow' => ?_
      obtain rfl : run.toRunRow = row := Option.some.inj (hrow.symm.trans hrow')
      exact hon _ _ _ _ rfl rfl hrow (RunState.edge_aggregating_iff.mpr hi)
    · intro k row hrow'
      exact hd k row (hruns ▸ hrow')
  · refine hd.moved hruns fun row hrow => ?_
    obtain rfl := Option.some.inj (was.symm.trans hrow)
    exact hon _ _ _ _ htarget hreading was edge

theorem decodes_of_reach {cfg : Config} {w : World}
    (h : ((service cfg).restrict OnTime).Reach w) : Decodes w.db := by
  refine System.inv_of_reach (I := fun w => Decodes w.db) ⟨?_, ?_⟩ h
  · rintro w ⟨users, subscriptions, rfl⟩ k row hrow
    cases hrow
  · rintro w l w' hd ⟨hstep, hon⟩
    exact hd.step hstep hon

/-! ## Queries -/

theorem Decodes.rowToRun_ok {db : Db} (hd : Decodes db) {row : RunRow} (h : row ∈ db.runs.rows) :
    ∃ run, rowToRun row = .ok run := by
  obtain ⟨run, rfl⟩ := hd _ row (Table.get?_of_mem h)
  exact ⟨run, rowToRun_toRunRow run⟩

/-- Rows that all decode are read. -/
theorem Decodes.mapM_ok {db : Db} (hd : Decodes db) {rows : List RunRow}
    (h : ∀ row ∈ rows, row ∈ db.runs.rows) : ∃ runs, rows.mapM rowToRun = .ok runs := by
  cases hm : rows.mapM rowToRun with
  | ok runs => exact ⟨runs, rfl⟩
  | error e =>
    obtain ⟨before, row, after, rfl, -, hrow⟩ := mapM_eq_error_iff.mp hm
    obtain ⟨run, hrun⟩ := hd.rowToRun_ok (h row (by simp))
    rw [hrun] at hrow
    cases hrow

theorem mem_of_mem_expired {db : Db} {cutoff : Instant} {states : List RunState} {limit : Nat}
    {row : RunRow} (h : row ∈ RunRepository.expired db cutoff states limit) :
    row ∈ db.runs.rows :=
  (List.mem_filter.mp ((List.perm_insertionSort _ _).mem_iff.mp (List.mem_of_mem_take h))).1

theorem mem_of_mem_inStates {db : Db} {states : List RunState} {row : RunRow}
    (h : row ∈ RunRepository.inStates db states) : row ∈ db.runs.rows :=
  (List.mem_filter.mp ((List.perm_insertionSort _ _).mem_iff.mp h)).1

theorem mem_of_mem_paginated {db : Db} {states : List RunState} {limit offset : Nat} {row : RunRow}
    (h : row ∈ RunRepository.paginated db states limit offset) : row ∈ db.runs.rows :=
  (List.mem_filter.mp ((List.perm_insertionSort _ _).mem_iff.mp
    (List.mem_of_mem_drop (List.mem_of_mem_take h)))).1

/-- **A table whose rows decode is readable.** -/
theorem Decodes.readable {db : Db} (hd : Decodes db) : Readable db where
  rows := fun _ h => hd.rowToRun_ok h
  get := by
    rintro runId ⟨e, he, hclass⟩
    simp only [RunRepository.get, Tx.attempt, RunRepository.find] at he
    cases hrow : db.runs.get? runId with
    | none =>
      simp only [hrow, Except.error.injEq] at he
      subst he
      cases hclass
    | some row =>
      obtain ⟨run, rfl⟩ := hd _ row hrow
      simp only [hrow, rowToRun_toRunRow] at he
      cases he
  listExpired := by
    rintro cutoff states limit ⟨e, he, hclass⟩
    obtain ⟨runs, hruns⟩ := hd.mapM_ok
      fun row h => @mem_of_mem_expired db cutoff states limit row h
    by_cases hl : 1 ≤ limit
    · simp [RunRepository.listExpired, bind, Tx.require, Tx.attempt, hl, hruns] at he
    · simp only [RunRepository.listExpired, bind, Tx.require, if_neg hl,
        Except.error.injEq] at he
      subst he
      cases hclass
  listInStates := by
    rintro states ⟨e, he, -⟩
    obtain ⟨runs, hruns⟩ := hd.mapM_ok fun row h => @mem_of_mem_inStates db states row h
    simp [RunRepository.listInStates, Tx.attempt, hruns] at he
  listPaginated := by
    rintro states limit offset ⟨e, he, hclass⟩
    obtain ⟨runs, hruns⟩ := hd.mapM_ok
      fun row h => @mem_of_mem_paginated db states limit.toNat offset.toNat row h
    by_cases hl : 1 ≤ limit
    · by_cases ho : 0 ≤ offset
      · simp [RunRepository.listPaginated, bind, Tx.require, Tx.attempt, hl, ho, hruns] at he
      · simp only [RunRepository.listPaginated, bind, Tx.require, if_pos hl, if_neg ho,
          Except.error.injEq] at he
        subst he
        cases hclass
    · simp only [RunRepository.listPaginated, bind, Tx.require, if_neg hl,
        Except.error.injEq] at he
      subst he
      cases hclass
  listCandidates := by
    intro cfg now
    obtain ⟨runs, hruns⟩ := hd.mapM_ok fun row h => @mem_of_mem_expired db (cfg.cutoff now)
      RunState.nonTerminalStates cfg.maxCandidatesPerIteration row h
    refine ⟨runs, ?_⟩
    simp only [Application.listCandidates, RunRepository.listExpired, Tx.ok_bind, Tx.ok_require,
      Tx.ok_attempt]
    exact ⟨(), db, ⟨cfg.maxCandidates_pos, rfl⟩, hruns, rfl⟩

/-! ## The theorem -/

/-- **Stored runs stay readable as long as no run is moved before its creation.** In every run of
the service whose steps are all `OnTime`, every row of `runs` decodes and no query fails on one. And
a step that breaks the condition and is not rolled back leaves a row that does not decode. -/
theorem readable_of_onTime (cfg : Config) :
    (∀ w, ((service cfg).restrict OnTime).Reach w → Readable w.db) ∧
      ∀ w l w', (service cfg).Reach w → step cfg w l = some w' → ¬OnTime w l →
        aborts cfg w l = false → ¬Readable w'.db := by
  refine ⟨fun w h => (decodes_of_reach h).readable, ?_⟩
  intro w l w' _ hstep hlate ha hgood
  simp only [OnTime, not_forall] at hlate
  obtain ⟨k, s, now, row, htarget, hreading, hrow, hedge, hlt⟩ := hlate
  have hrow' := moved_of_target hstep ha htarget hreading hrow hedge
  obtain ⟨run, hrun⟩ := hgood.rows _ (Table.mem_of_get? hrow')
  obtain ⟨e, he⟩ := @rowToRun_error_of_lt (RunRepository.withState row s now) hlt
  rw [hrun] at he
  cases he

/-- A run stamped at seconds 0, 1 and 2 is readable. -/
theorem readable_of_onTime_sample : ∃ w, ((service sampleConfig).restrict OnTime).Reach w ∧
    stateOf w.db sampleRun = some .ready ∧ Readable w.db := by
  have hinit : ((service sampleConfig).restrict OnTime).Reach {} :=
    .init ⟨Serial.empty, Serial.empty, rfl⟩
  obtain ⟨w, hw, hready⟩ := System.exists_reach_of_run_restrict sampleFinalized hinit
    (p := fun w => stateOf w.db sampleRun = some .ready) (by decide +kernel)
  exact ⟨w, hw, of_decide_eq_true hready, (readable_of_onTime sampleConfig).1 w hw⟩

/-- A run begun at second 100; the clock then goes back. -/
def steppedBack : List Label :=
  [.beginRun sampleBegin sampleRun (seconds 100) .commits,
    .submitStageReport sampleSubmit (seconds 50) .commits]

/-- **A clock that goes back poisons the table.** The run's row does not decode any more, and the
listing of a later tick of the sweeper raises. -/
theorem clock_step_back_poisons_listing : ∃ w, (service sampleConfig).Reach w ∧ ¬Readable w.db ∧
    ∀ candidates, listCandidates sampleConfig.sweeper (seconds 1000) w.db ≠
      .ok (candidates, w.db) := by
  obtain ⟨w, hw, hs⟩ := exists_reach_of_labels sampleConfig
    (p := fun w => (listCandidates sampleConfig.sweeper (seconds 1000) w.db).toOption.isNone)
    steppedBack (by decide +kernel)
  have hraises : ∀ candidates, listCandidates sampleConfig.sweeper (seconds 1000) w.db ≠
      .ok (candidates, w.db) := by
    intro candidates h
    rw [h] at hs
    cases hs
  refine ⟨w, hw, fun hgood => ?_, hraises⟩
  obtain ⟨candidates, h⟩ := hgood.listCandidates sampleConfig.sweeper (seconds 1000)
  exact hraises candidates h

end MessageService.System
