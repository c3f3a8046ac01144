import MessageService.System.World

/-!
# What a step writes to `runs` and `stages`

Every step does one of four things to the two tables (`RowsStep`): nothing, a `BeginRun`, a
`SubmitStageReport`, or a move of one run along an edge of the state machine, which leaves `stages`
alone. `target?` is the run a step moves, and the state it moves it to.

* `step_rows`: every step is a `RowsStep`.
* `stage_of_step`: what becomes of one row of `stages`.
* `moved_of_target`: a step that has a target and is not rolled back does move it.
* `owned_of_reach`: a row of `stages` belongs to a row of `runs`.
-/

namespace MessageService.System

open MessageService.Domain MessageService.Lib MessageService.Infrastructure
open MessageService.Application

/-- The run a step moves, and where to. -/
def target? (w : World) : Label → Option (RunId × RunState)
  | .submitStageReport cmd _ _ => some (cmd.runId, .aggregating)
  | .finalizeRun cmd _ _ => some (cmd.runId, .ready)
  | .deliver task _ =>
    w.deliveries[task]?.bind fun d =>
      match d.phase with
      | .scheduled => some (d.runId, .sending)
      | .closing how _ => some (d.runId, how.target)
      | _ => none
  | .sweep _ _ =>
    match w.sweeper with
    | .sweeping _ (candidate :: _) => some (candidate, .orphaned)
    | _ => none
  | _ => none

/-- What a step writes to `runs` and `stages`. -/
inductive RowsStep (cfg : Config) (w w' : World) : Label → Prop
  | kept {l : Label} (runs : w'.db.runs = w.db.runs) (stages : w'.db.stages = w.db.stages) :
      RowsStep cfg w w' l
  | begun {cmd : BeginRunCommand} {runId r : RunId} {now : Instant} {fate : Tx.Fate}
      (fresh : w.db.runs.get? runId = none)
      (ok : beginRun cfg.beginRun cmd runId now w.db = .ok (r, w'.db)) :
      RowsStep cfg w w' (.beginRun cmd runId now fate)
  | submitted {cmd : SubmitStageReportCommand} {now : Instant} {fate : Tx.Fate}
      {r : SubmitStageReportResult} (ok : submitStageReport cmd now w.db = .ok (r, w'.db)) :
      RowsStep cfg w w' (.submitStageReport cmd now fate)
  | moved {l : Label} {k : RunId} {s : RunState} {now : Instant} {row : RunRow}
      (reading : l.reading = some now) (target : target? w l = some (k, s))
      (was : w.db.runs.get? k = some row) (edge : RunState.Edge row.state s)
      (runs : w'.db.runs = RunRepository.moved w.db.runs k s now)
      (stages : w'.db.stages = w.db.stages) : RowsStep cfg w w' l

/-! ## The steps, one kind at a time -/

/-- A step of a delivery in `phase` leaves `stages` alone, and moves no run but its own. -/
def DeliveryRows (runId : RunId) (now : Instant) (phase : DeliveryPhase) (db db' : Db) : Prop :=
  db'.stages = db.stages ∧ (db'.runs = db.runs ∨ ∃ s row,
    (phase = .scheduled ∧ s = .sending ∨
      ∃ how notify, phase = .closing how notify ∧ s = how.target) ∧
    db.runs.get? runId = some row ∧ RunState.Edge row.state s ∧
    db'.runs = RunRepository.moved db.runs runId s now)

theorem DeliveryRows.same (runId : RunId) (now : Instant) (phase : DeliveryPhase) (db : Db) :
    DeliveryRows runId now phase db db :=
  ⟨rfl, .inl rfl⟩

theorem deliveryStep_rows (cfg : DeliveryConfig) (runId : RunId) (input : DeliveryInput)
    (phase : DeliveryPhase) (db : Db) :
    DeliveryRows runId input.now phase db (deliveryStep cfg runId input phase db).2 := by
  cases phase with
  | scheduled =>
    refine Tx.resume_induct (P := DeliveryRows runId input.now .scheduled db)
      (.same _ _ _ _) fun run db' h => ?_
    obtain ⟨hrow, -, hready, hruns, -⟩ := startSending_ok h
    refine ⟨keeps_stages_startSending _ _ _ _ _ h, .inr ⟨.sending, run.toRunRow, .inl ⟨rfl, rfl⟩,
      hrow, RunState.edge_sending_iff.mpr hready, hruns⟩⟩
  | closing how notify =>
    refine Tx.resume_induct (P := DeliveryRows runId input.now (.closing how notify) db)
      (.same _ _ _ _) fun _ db' h => ?_
    obtain ⟨run, hrow, -, ⟨-, rfl⟩ | ⟨hedge, hruns, -⟩⟩ := finalize_ok h
    · exact ⟨rfl, .inl rfl⟩
    · refine ⟨keeps_stages_finalize _ _ _ _ _ _ h, .inr ⟨how.target, run.toRunRow,
        .inr ⟨how, notify, rfl, rfl⟩, hrow, hedge, hruns⟩⟩
  | loading run =>
    simp only [deliveryStep, (readOnly_listByRun _).resume]
    exact .same _ _ _ _
  | rendering run stages =>
    simp only [deliveryStep, (readOnly_get _).resume]
    exact .same _ _ _ _
  | resolving run assembled =>
    simp only [deliveryStep, (readOnly_listRecipients _ _).resume]
    exact .same _ _ _ _
  | sending _ | notifying | ended _ => exact .same _ _ _ _

/-- A resend leaves both tables alone. -/
theorem resendStep_rows (cfg : DeliveryConfig) (runId : RunId) (adminUserId : Nat)
    (input : DeliveryInput) (phase : ResendPhase) (db : Db) :
    (resendStep cfg runId adminUserId input phase db).2.runs = db.runs ∧
      (resendStep cfg runId adminUserId input phase db).2.stages = db.stages := by
  rcases resendStep_effect cfg runId adminUserId input phase db with e | ⟨record, -, e⟩
  · rw [e]
    exact ⟨rfl, rfl⟩
  · rw [e]
    exact ⟨rfl, rfl⟩

/-- A step of the sweeper leaves `stages` alone, and moves no run but its candidate. -/
def SweepRows (now : Instant) (phase : SweeperPhase) (db db' : Db) : Prop :=
  db'.stages = db.stages ∧ (db'.runs = db.runs ∨ ∃ cutoff candidate rest row,
    phase = .sweeping cutoff (candidate :: rest) ∧ db.runs.get? candidate = some row ∧
    RunState.Edge row.state .orphaned ∧
    db'.runs = RunRepository.moved db.runs candidate .orphaned now)

theorem sweepStep_rows (cfg : SweeperConfig) (now : Instant) (fate : Tx.Fate)
    (phase : SweeperPhase) (db : Db) :
    SweepRows now phase db (sweepStep cfg now fate phase db).2 := by
  match phase with
  | .idle =>
    simp only [sweepStep, (readOnly_listCandidates _ _).resume]
    exact ⟨rfl, .inl rfl⟩
  | .sweeping cutoff [] => exact ⟨rfl, .inl rfl⟩
  | .sweeping cutoff (candidate :: candidates) =>
    refine Tx.resume_induct (P := SweepRows now (.sweeping cutoff (candidate :: candidates)) db)
      ⟨rfl, .inl rfl⟩ fun _ db' h => ?_
    refine ⟨keeps_stages_transitionAuditAndEnqueue cfg candidate now _ _ _ h, ?_⟩
    obtain ⟨rfl, -⟩ | ⟨run, -, hrow, -, hlive, hruns, -⟩ := transitionAuditAndEnqueue_ok cfg h
    · exact .inl rfl
    · exact .inr ⟨cutoff, candidate, candidates, run.toRunRow, rfl, hrow,
        RunState.edge_orphaned_iff.mpr hlive, hruns⟩

/-- The dispatcher leaves both tables alone. -/
theorem dispatchStep_rows (cfg : DispatcherConfig) (input : DispatcherInput)
    (phase : DispatcherPhase) (db : Db) :
    (dispatchStep cfg input phase db).2.runs = db.runs ∧
      (dispatchStep cfg input phase db).2.stages = db.stages := by
  let Same (db' : Db) : Prop := db'.runs = db.runs ∧ db'.stages = db.stages
  match phase with
  | .idle =>
    refine Tx.resume_induct (P := Same) ⟨rfl, rfl⟩ fun _ db' h => ?_
    obtain ⟨-, g, -, rfl⟩ := abandonExhaustedRows_ok cfg h
    exact ⟨rfl, rfl⟩
  | .claiming =>
    refine Tx.resume_induct (P := Same) ⟨rfl, rfl⟩ fun _ db' h => ?_
    obtain ⟨-, -, rfl⟩ := claimBatch_ok cfg h
    exact ⟨rfl, rfl⟩
  | .handling [] outcomes => exact ⟨rfl, rfl⟩
  | .handling ((c, run) :: todo) outcomes =>
    simp only [dispatchStep]
    split <;> exact ⟨rfl, rfl⟩
  | .settling [] => exact ⟨rfl, rfl⟩
  | .settling ((c, error) :: outcomes) =>
    refine Tx.resume_induct (P := Same) ⟨rfl, rfl⟩ fun _ db' h => ?_
    rw [settle_ok h]
    exact ⟨rfl, rfl⟩

/-- **What a step writes to `runs` and `stages`.** -/
theorem step_rows {cfg : Config} {w w' : World} {l : Label} (h : step cfg w l = some w') :
    RowsStep cfg w w' l := by
  cases l with
  | beginRun cmd runId now fate =>
    simp only [step, Option.isNone_iff_eq_none, Option.ite_none_right_eq_some,
      Option.some.injEq] at h
    obtain ⟨fresh, rfl⟩ := h
    obtain ⟨hdb, -⟩ | ⟨r, db', ok, hdb, -⟩ := Tx.commit_spec (beginRun cfg.beginRun cmd runId now)
      fate w.db
    · exact .kept (congrArg Db.runs hdb) (congrArg Db.stages hdb)
    · exact .begun fresh (by rw [ok, hdb])
  | submitStageReport cmd now fate =>
    obtain rfl := Option.some.inj h
    obtain ⟨hdb, -⟩ | ⟨r, db', ok, hdb, -⟩ := Tx.commit_spec (submitStageReport cmd now) fate w.db
    · exact .kept (congrArg Db.runs hdb) (congrArg Db.stages hdb)
    · exact .submitted (by rw [ok, hdb])
  | finalizeRun cmd now fate =>
    obtain rfl := Option.some.inj h
    obtain ⟨hdb, -⟩ | ⟨r, db', ok, hdb, -⟩ := Tx.resume_spec (finalizeRun cmd now) fate
      (fun result => some result.runId) (fun _ => none) w.db
    · exact .kept (congrArg Db.runs hdb) (congrArg Db.stages hdb)
    · obtain ⟨run, hrow, -, hstate, -, hruns, -⟩ := finalizeRun_ok ok
      refine .moved rfl rfl hrow (by rw [hstate]; decide) ?_ ?_
      · exact (congrArg Db.runs hdb).trans hruns
      · exact (congrArg Db.stages hdb).trans (keeps_stages_finalizeRun cmd now _ _ _ ok)
  | deliver task input =>
    simp only [step, Option.map_eq_some_iff] at h
    obtain ⟨d, hd, rfl⟩ := h
    obtain ⟨hstages, hruns | ⟨s, row, hphase, hrow, hedge, hruns⟩⟩ :=
      deliveryStep_rows cfg.delivery d.runId input d.phase w.db
    · exact .kept hruns hstages
    · refine .moved rfl ?_ hrow hedge hruns hstages
      rcases hphase with ⟨hp, rfl⟩ | ⟨how, notify, hp, rfl⟩ <;> simp [target?, hd, hp]
  | requestResend runId adminUserId =>
    obtain rfl := Option.some.inj h
    exact .kept rfl rfl
  | resend task input =>
    simp only [step, Option.map_eq_some_iff] at h
    obtain ⟨r, -, rfl⟩ := h
    obtain ⟨hruns, hstages⟩ := resendStep_rows cfg.delivery r.runId r.adminUserId input r.phase w.db
    exact .kept hruns hstages
  | sweep now fate =>
    obtain rfl := Option.some.inj h
    obtain ⟨hstages, hruns | ⟨cutoff, candidate, rest, row, hp, hrow, hedge, hruns⟩⟩ :=
      sweepStep_rows cfg.sweeper now fate w.sweeper w.db
    · exact .kept hruns hstages
    · exact .moved rfl (by simp [target?, hp]) hrow hedge hruns hstages
  | dispatch input =>
    obtain rfl := Option.some.inj h
    obtain ⟨hruns, hstages⟩ := dispatchStep_rows cfg.dispatcher input w.dispatcher w.db
    exact .kept hruns hstages
  | directory users subscriptions =>
    obtain rfl := Option.some.inj h
    exact .kept rfl rfl
  | abort task =>
    simp only [step, Option.map_eq_some_iff] at h
    obtain ⟨d, -, rfl⟩ := h
    exact .kept rfl rfl
  | crash =>
    obtain rfl := Option.some.inj h
    exact .kept rfl rfl

/-! ## One row of `stages` -/

/-- Every row of `stages` belongs to a row of `runs`. -/
def Owned (db : Db) : Prop := ∀ k stage, db.stages.get? k = some stage → db.runs.get? k.1 ≠ none

theorem Owned.get?_stages_of_fresh {db : Db} (hw : Owned db) {runId : RunId}
    (fresh : db.runs.get? runId = none) (stageId : StageId) :
    db.stages.get? (runId, stageId) = none := by
  cases h : db.stages.get? (runId, stageId) with
  | none => rfl
  | some stage => exact absurd fresh (hw _ _ h)

/-- What a step does to the row under `k`. -/
inductive StageStep (cfg : Config) (w w' : World) (k : RunId × StageId) : Label → Prop
  | kept {l : Label} (same : w'.db.stages.get? k = w.db.stages.get? k) : StageStep cfg w w' k l
  | begun {cmd : BeginRunCommand} {r : RunId} {now : Instant} {fate : Tx.Fate}
      {ds : DeclaredStage} (fresh : w.db.runs.get? k.1 = none)
      (ok : beginRun cfg.beginRun cmd k.1 now w.db = .ok (r, w'.db))
      (was : w.db.stages.get? k = none) (is : w'.db.stages.get? k = some (initialStage k.1 ds)) :
      StageStep cfg w w' k (.beginRun cmd k.1 now fate)
  | submitted {cmd : SubmitStageReportCommand} {now : Instant} {fate : Tx.Fate}
      {r : SubmitStageReportResult} {current : Stage} (key : (cmd.runId, cmd.stageId) = k)
      (ok : submitStageReport cmd now w.db = .ok (r, w'.db))
      (was : w.db.stages.get? k = some current)
      (is : w'.db.stages.get? k = some (submittedStage cmd cmd.runId current now)) :
      StageStep cfg w w' k (.submitStageReport cmd now fate)

theorem stage_of_step {cfg : Config} {w w' : World} {l : Label} (hw : Owned w.db)
    (h : step cfg w l = some w') (k : RunId × StageId) : StageStep cfg w w' k l := by
  obtain ⟨-, hstages⟩ | @⟨cmd, runId, r, now, fate, fresh, ok⟩ | @⟨cmd, now, fate, r, ok⟩ |
    ⟨-, -, -, -, -, hstages⟩ := step_rows h
  · exact .kept (by rw [hstages])
  · obtain ⟨run, declared, ref, -, -, -, -, -, -, -, -, hrows⟩ := beginRun_stages ok
    have hget := Table.get?_of_rows_append (hrows (hw.get?_stages_of_fresh fresh)) k
    cases hfind : (declared.map (initialStage runId)).find? fun s => s.key = k with
    | none => exact .kept (by rw [hget, hfind, Option.or_none])
    | some s =>
      obtain ⟨ds, -, rfl⟩ := List.mem_map.mp (List.mem_of_find?_eq_some hfind)
      have hkey : (initialStage runId ds).key = k := by simpa using List.find?_some hfind
      subst hkey
      have was : w.db.stages.get? (initialStage runId ds).key = none :=
        hw.get?_stages_of_fresh fresh ds.stageId
      rw [was, hfind] at hget
      exact .begun fresh ok was hget
  · obtain ⟨current, hcurrent, -, -, hstages⟩ := submitStageReport_stage ok
    have hkey : (submittedStage cmd cmd.runId current now).key = (cmd.runId, cmd.stageId) := rfl
    by_cases hk : k = (cmd.runId, cmd.stageId)
    · refine .submitted hk.symm ok (hk ▸ hcurrent) ?_
      rw [hstages, Table.get?_upsert, hkey, if_pos hk, hk, hcurrent]
      rfl
    · exact .kept (by rw [hstages, Table.get?_upsert_ne (by rw [hkey]; exact hk)])
  · exact .kept (by rw [hstages])

/-- The runs after a `BeginRun` under a fresh id. -/
theorem get?_runs_of_begun {ports : BeginRunPorts} {cmd : BeginRunCommand} {runId r : RunId}
    {now : Instant} {db db' : Db} (fresh : db.runs.get? runId = none)
    (h : beginRun ports cmd runId now db = .ok (r, db')) :
    ∃ run : Run, run.state = .initiated ∧ ∀ k, db'.runs.get? k =
      if k = runId then some (RunRepository.runToRow run) else db.runs.get? k := by
  obtain ⟨run, declared, ref, hrun, -, -, -, -, -, hruns, -⟩ := beginRun_stages h
  have hid : (RunRepository.runToRow run).runId = runId := congrArg RunRow.runId hrun
  refine ⟨run, congrArg RunRow.state hrun, fun k => ?_⟩
  rw [hruns, Table.get?_upsert, hid]
  by_cases hk : k = runId
  · rw [if_pos hk, if_pos hk, hk, fresh]
    rfl
  · rw [if_neg hk, if_neg hk]

theorem get?_moved_ne_none {runs : Table RunRow.runId} {runId k : RunId} {s : RunState}
    {now : Instant} (hk : runs.get? k ≠ none) :
    (RunRepository.moved runs runId s now).get? k ≠ none := by
  rw [RunRepository.get?_moved]
  split <;> simpa using hk

/-- A run that is there stays there. -/
theorem get?_runs_of_step {cfg : Config} {w w' : World} {l : Label} (h : step cfg w l = some w')
    {k : RunId} (hk : w.db.runs.get? k ≠ none) : w'.db.runs.get? k ≠ none := by
  obtain ⟨hruns, -⟩ | ⟨fresh, ok⟩ | ok | ⟨-, -, -, -, hruns, -⟩ := step_rows h
  · rwa [hruns]
  · obtain ⟨run, -, hruns⟩ := get?_runs_of_begun fresh ok
    rw [hruns]
    split
    · simp
    · exact hk
  · obtain ⟨run, -, -, -, -, hruns, -⟩ := submitStageReport_ok ok
    rw [hruns]
    split
    · exact get?_moved_ne_none hk
    · exact hk
  · rw [hruns]
    exact get?_moved_ne_none hk

theorem Owned.step {cfg : Config} {w w' : World} {l : Label} (hw : Owned w.db)
    (h : step cfg w l = some w') : Owned w'.db := by
  intro k stage hstage
  obtain hsame | ⟨fresh, ok, -, -⟩ | ⟨-, -, was, -⟩ := stage_of_step hw h k
  · exact get?_runs_of_step h (hw k stage (hsame.symm.trans hstage))
  · obtain ⟨run, -, hruns⟩ := get?_runs_of_begun fresh ok
    simp [hruns]
  · exact get?_runs_of_step h (hw k _ was)

theorem owned_of_reach {cfg : Config} {w : World} (h : (service cfg).Reach w) : Owned w.db := by
  refine System.inv_of_reach (I := fun w => Owned w.db) ⟨?_, fun w l w' hw => hw.step⟩ h
  rintro w ⟨users, subscriptions, rfl⟩ k stage hstage
  cases hstage

/-! ## Moves that do happen -/

theorem get?_moved_self {db db' : Db} {k : RunId} {s : RunState} {now : Instant} {row : RunRow}
    (hruns : db'.runs = RunRepository.moved db.runs k s now) (hrow : db.runs.get? k = some row) :
    db'.runs.get? k = some (RunRepository.withState row s now) := by
  rw [hruns, RunRepository.get?_moved, if_pos rfl, hrow, Option.map_some]

/-- **A step that may move its run does**, unless its unit of work is rolled back. -/
theorem moved_of_target {cfg : Config} {w w' : World} {l : Label} {k : RunId} {s : RunState}
    {now : Instant} {row : RunRow} (h : step cfg w l = some w') (ha : aborts cfg w l = false)
    (ht : target? w l = some (k, s)) (hr : l.reading = some now)
    (hrow : w.db.runs.get? k = some row) (hedge : RunState.Edge row.state s) :
    w'.db.runs.get? k = some (RunRepository.withState row s now) := by
  cases l with
  | submitStageReport cmd now' fate =>
    obtain rfl := Option.some.inj h
    obtain rfl := Option.some.inj hr
    obtain ⟨rfl, rfl⟩ := Prod.mk.inj (Option.some.inj ht)
    obtain ⟨r, db', ok, hdb⟩ := Tx.commit_of_not_aborts ha
    obtain ⟨run, current, hrun, -, -, hruns, -⟩ := submitStageReport_ok ok
    obtain rfl : run.toRunRow = row := Option.some.inj (hrun.symm.trans hrow)
    rw [if_pos (RunState.edge_aggregating_iff.mp hedge)] at hruns
    simp only [hdb]
    exact get?_moved_self hruns hrow
  | finalizeRun cmd now' fate =>
    obtain rfl := Option.some.inj h
    obtain rfl := Option.some.inj hr
    obtain ⟨rfl, rfl⟩ := Prod.mk.inj (Option.some.inj ht)
    obtain ⟨r, db', ok, hdb⟩ := @Tx.resume_of_not_aborts _ _ _ _ _ _
      (fun result => some result.runId) (fun _ => none) _ ha
    obtain ⟨run, -, -, -, -, hruns, -⟩ := finalizeRun_ok ok
    simp only [hdb]
    exact get?_moved_self hruns hrow
  | deliver task input =>
    obtain rfl := Option.some.inj hr
    simp only [step, Option.map_eq_some_iff] at h
    obtain ⟨d, hd, rfl⟩ := h
    simp only [aborts, hd, Option.any_some] at ha
    simp only [target?, hd, Option.bind_some] at ht
    change (deliveryStep cfg.delivery d.runId input d.phase w.db).2.runs.get? k = _
    cases hp : d.phase with
    | scheduled =>
      rw [hp] at ha ht
      obtain ⟨rfl, rfl⟩ := Prod.mk.inj (Option.some.inj ht)
      obtain ⟨run, db', ok, hdb⟩ := @Tx.resume_of_not_aborts _ _ _ _ _ _
        DeliveryPhase.loading DeliveryPhase.ended _ ha
      obtain ⟨-, -, -, hruns, -⟩ := startSending_ok ok
      simp only [deliveryStep, hdb]
      exact get?_moved_self hruns hrow
    | closing how notify =>
      rw [hp] at ha ht
      obtain ⟨rfl, rfl⟩ := Prod.mk.inj (Option.some.inj ht)
      obtain ⟨r, db', ok, hdb⟩ := Tx.commit_of_not_aborts ha
      simp only [deliveryStep, Tx.resume_snd, hdb]
      obtain ⟨run, hrun, -, ⟨hterminal, -⟩ | ⟨-, hruns, -⟩⟩ := finalize_ok ok
      · obtain rfl : run.toRunRow = row := Option.some.inj (hrun.symm.trans hrow)
        exact absurd hedge (RunState.not_edge_of_terminal hterminal)
      · exact get?_moved_self hruns hrow
    | loading _ | rendering _ _ | resolving _ _ | sending _ | notifying | ended _ =>
      rw [hp] at ht
      cases ht
  | sweep now' fate =>
    obtain rfl := Option.some.inj h
    obtain rfl := Option.some.inj hr
    change (sweepStep cfg.sweeper now' fate w.sweeper w.db).2.runs.get? k = _
    simp only [aborts] at ha
    simp only [target?] at ht
    cases hp : w.sweeper with
    | idle => rw [hp] at ht; cases ht
    | sweeping cutoff candidates =>
      rw [hp] at ha ht
      cases candidates with
      | nil => cases ht
      | cons candidate candidates =>
        obtain ⟨rfl, rfl⟩ := Prod.mk.inj (Option.some.inj ht)
        obtain ⟨r, db', ok, hdb⟩ := Tx.commit_of_not_aborts ha
        simp only [sweepStep, Tx.resume_snd, hdb]
        obtain ⟨-, hterminal⟩ | ⟨run, -, -, -, -, hruns, -⟩ :=
          transitionAuditAndEnqueue_ok cfg.sweeper ok
        · exact absurd hedge (RunState.not_edge_of_terminal (hterminal row hrow))
        · exact get?_moved_self hruns hrow
  | beginRun _ _ _ _ | resend _ _ | requestResend _ _ | dispatch _ | directory _ _ | abort _
  | crash => cases ht

end MessageService.System
