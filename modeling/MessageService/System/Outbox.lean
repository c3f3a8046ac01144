import MessageService.System.Replay

/-!
# The rows of the outbox

Only the sweeper enqueues rows of `sweeper_actions`, and only in the unit of work that orphans their
run; the dispatcher stamps rows and neither adds nor removes any. So the rows of a run are, in the
order of their ids, the actions resolved for its pipeline once it is `ORPHANED`, and none before.

* `OutboxEffect`, `step_outbox`: what a step does to the outbox.
* `actionsOf_of_reach`: the rows of each run.
-/

namespace MessageService.System

open MessageService.Domain MessageService.Lib MessageService.Infrastructure
open MessageService.Application

/-! ## Steps that orphan no run -/

/-- No run has become `ORPHANED`. -/
def Spares (db db' : Db) : Prop :=
  ∀ k, stateOf db' k = some .orphaned → stateOf db k = some .orphaned

theorem Spares.of_same {db db' : Db} (h : db'.runs = db.runs) : Spares db db' := by
  intro k hk
  rwa [← @stateOf_congr db db' k (by rw [h])]

theorem Spares.of_moved {db db' : Db} {runId : RunId} {s : RunState} {now : Instant}
    (h : db'.runs = RunRepository.moved db.runs runId s now) (hs : s ≠ .orphaned) :
    Spares db db' := by
  intro k hk
  unfold stateOf at hk ⊢
  rw [h, RunRepository.get?_moved] at hk
  by_cases hid : k = runId
  · rw [if_pos hid] at hk
    cases hrow : db.runs.get? k with
    | none => rw [hrow] at hk; cases hk
    | some row =>
      rw [hrow] at hk
      exact absurd (Option.some.inj hk) hs
  · rwa [if_neg hid] at hk

theorem Spares.of_commit {α : Type} {x : Transaction α} {fate : Tx.Fate} {db : Db}
    (h : ∀ a db', x db = .ok (a, db') → Spares db db') : Spares db (x.commit fate db).2 :=
  Tx.commit_induct (P := Spares db) (.of_same rfl) h

theorem Spares.of_resume {α β : Type} {x : Transaction α} {fate : Tx.Fate} {db : Db}
    {next : α → β} {stop : Tx.Outcome ServiceError Unit → β}
    (h : ∀ a db', x db = .ok (a, db') → Spares db db') : Spares db (x.resume fate next stop db).2 :=
  Tx.resume_induct (P := Spares db) (.of_same rfl) h

theorem spares_beginRun {ports : BeginRunPorts} {cmd : BeginRunCommand} {runId r : RunId}
    {now : Instant} {db db' : Db} (fresh : db.runs.get? runId = none)
    (h : beginRun ports cmd runId now db = .ok (r, db')) : Spares db db' := by
  obtain ⟨run, declared, ref, hrun, hruns, -⟩ := beginRun_ok h
  have hid : (RunRepository.runToRow run).runId = runId := congrArg RunRow.runId hrun
  have hstate : (RunRepository.runToRow run).state = .initiated := congrArg RunRow.state hrun
  intro k hk
  unfold stateOf at hk ⊢
  by_cases hk' : k = runId
  · subst hk'
    rw [hruns, Table.get?_upsert, if_pos hid.symm, fresh] at hk
    change some (RunRepository.runToRow run).state = _ at hk
    rw [hstate] at hk
    cases hk
  · rwa [hruns, Table.get?_upsert_ne (by rw [hid]; exact hk')] at hk

theorem spares_deliveryStep (cfg : DeliveryConfig) (runId : RunId) (input : DeliveryInput)
    (phase : DeliveryPhase) (db : Db) : Spares db (deliveryStep cfg runId input phase db).2 := by
  cases phase with
  | scheduled =>
    refine .of_resume fun _ db' h => ?_
    obtain ⟨-, -, -, hruns, -⟩ := startSending_ok h
    exact .of_moved hruns (by decide)
  | closing how notify =>
    refine .of_resume fun _ db' h => ?_
    obtain ⟨run, -, -, ⟨-, rfl⟩ | ⟨-, hruns, -⟩⟩ := finalize_ok h
    · exact .of_same rfl
    · refine .of_moved hruns ?_
      cases how <;> simp [Closing.target]
  | loading run =>
    simp only [deliveryStep, (readOnly_listByRun _).resume]
    exact .of_same rfl
  | rendering run stages =>
    simp only [deliveryStep, (readOnly_get _).resume]
    exact .of_same rfl
  | resolving run assembled =>
    simp only [deliveryStep, (readOnly_listRecipients _ _).resume]
    exact .of_same rfl
  | sending _ | notifying | ended _ => exact .of_same rfl

/-! ## What a step does to the outbox -/

/-- An update of the outbox that keeps what a row is about. -/
def KeepsIdentity (g : Nat → SweeperActionRow → SweeperActionRow) : Prop :=
  ∀ i r, (g i r).runId = r.runId ∧ (g i r).actionName = r.actionName ∧
    (g i r).enqueuedAt = r.enqueuedAt

/-- What a step does to the outbox and to the runs it is about. -/
inductive OutboxEffect (cfg : Config) (l : Label) (db db' : Db) : Prop
  /-- The outbox is left alone, and no run is orphaned. -/
  | quiet (rows : db'.sweeperActions = db.sweeperActions) (spares : Spares db db')
  /-- The rows of a run are enqueued, and it is orphaned. -/
  | enqueued (run : Run) (now : Instant) (stored : db.runs.get? run.runId = some run.toRunRow)
      (live : run.state.terminal = false)
      (runs : db'.runs = RunRepository.moved db.runs run.runId .orphaned now)
      (rows : db'.sweeperActions = db.sweeperActions.insertAll (outboxRows run.runId
        (cfg.sweeper.resolveDispositionActions run.pipelineType) now))
  /-- The dispatcher stamps rows. -/
  | stamped (input : DispatcherInput) (label : l = .dispatch input)
      (g : Nat → SweeperActionRow → SweeperActionRow) (identity : KeepsIdentity g)
      (runs : db'.runs = db.runs) (rows : db'.sweeperActions = db.sweeperActions.mapRows g)

theorem keepsIdentity_of_abandons {now : Instant} {ids : List Nat}
    {g : Nat → SweeperActionRow → SweeperActionRow} (h : Abandons now ids g) : KeepsIdentity g := by
  intro i r
  by_cases hi : i ∈ ids
  · obtain ⟨message, hm⟩ := h.2 i hi r
    rw [hm]
    exact ⟨rfl, rfl, rfl⟩
  · rw [h.1 i hi r]
    exact ⟨rfl, rfl, rfl⟩

theorem keepsIdentity_claimedRow (cfg : DispatcherConfig) (db : Db) (now : Instant) :
    KeepsIdentity (claimedRow cfg db now) := by
  intro i r
  unfold claimedRow
  split_ifs <;> exact ⟨rfl, rfl, rfl⟩

theorem keepsIdentity_settledRow (c : ClaimedAction) (error : Option String) (now : Instant) :
    KeepsIdentity fun i row => if i = c.actionId then settledRow error now row else row := by
  intro i r
  unfold settledRow
  cases error <;> dsimp only <;> split_ifs <;> exact ⟨rfl, rfl, rfl⟩

theorem dispatchStep_outbox (cfg : Config) (input : DispatcherInput) (phase : DispatcherPhase)
    (db : Db) : OutboxEffect cfg (.dispatch input) db
      (dispatchStep cfg.dispatcher input phase db).2 := by
  have hmove := dispatchStep_move cfg.dispatcher input phase db
  generalize dispatchStep cfg.dispatcher input phase db = next at hmove
  obtain ⟨phase', db'⟩ := next
  generalize abandons cfg.dispatcher input db phase = ids at hmove
  cases hmove with
  | stopped _ | handled _ | drained => exact .quiet rfl (.of_same rfl)
  | abandoned marks _ => exact .stamped input rfl _ (keepsIdentity_of_abandons marks) rfl rfl
  | claimed _ => exact .stamped input rfl _ (keepsIdentity_claimedRow _ _ _) rfl rfl
  | settled _ => exact .stamped input rfl _ (keepsIdentity_settledRow _ _ _) rfl rfl

theorem sweepStep_outbox (cfg : Config) (now : Instant) (fate : Tx.Fate) (phase : SweeperPhase)
    (db : Db) : OutboxEffect cfg (.sweep now fate) db
      (sweepStep cfg.sweeper now fate phase db).2 := by
  match phase with
  | .idle =>
    simp only [sweepStep, (readOnly_listCandidates _ _).resume]
    exact .quiet rfl (.of_same rfl)
  | .sweeping _ [] => exact .quiet rfl (.of_same rfl)
  | .sweeping cutoff (candidate :: candidates) =>
    refine Tx.resume_induct (P := fun db' => OutboxEffect cfg (.sweep now fate) db db')
      (.quiet rfl (.of_same rfl)) fun _ db' h => ?_
    obtain ⟨rfl, -⟩ | ⟨run, pending, hrun, rfl, hlive, hruns, -, hrows⟩ :=
      transitionAuditAndEnqueue_ok cfg.sweeper h
    · exact .quiet rfl (.of_same rfl)
    · exact .enqueued run now hrun hlive hruns hrows

/-- **What a step does to the outbox.** -/
theorem step_outbox {cfg : Config} {w w' : World} {l : Label} (h : step cfg w l = some w') :
    OutboxEffect cfg l w.db w'.db := by
  cases l with
  | beginRun cmd k now fate =>
    simp only [step, Option.isNone_iff_eq_none, Option.ite_none_right_eq_some,
      Option.some.injEq] at h
    obtain ⟨fresh, rfl⟩ := h
    exact .quiet (Tx.commit_induct (P := fun db' => db'.sweeperActions = w.db.sweeperActions) rfl
      fun _ _ h => (beginRun_effect fresh h).2) (.of_commit fun _ _ h => spares_beginRun fresh h)
  | submitStageReport cmd now fate =>
    obtain rfl := Option.some.inj h
    refine .quiet (Tx.commit_induct (P := fun db' => db'.sweeperActions = w.db.sweeperActions) rfl
      fun _ _ h => (submitStageReport_effect h).2) (.of_commit fun _ _ h => ?_)
    obtain ⟨run, current, -, -, -, hruns, -⟩ := submitStageReport_ok h
    split_ifs at hruns
    · exact .of_moved hruns (by decide)
    · exact .of_same hruns
  | finalizeRun cmd now fate =>
    obtain rfl := Option.some.inj h
    refine .quiet (Tx.resume_induct (P := fun db' => db'.sweeperActions = w.db.sweeperActions) rfl
      fun _ _ h => (finalizeRun_effect h).2) (.of_resume fun _ _ h => ?_)
    obtain ⟨run, -, -, -, -, hruns, -⟩ := finalizeRun_ok h
    exact .of_moved hruns (by decide)
  | deliver task input =>
    simp only [step, Option.map_eq_some_iff] at h
    obtain ⟨d, -, rfl⟩ := h
    exact .quiet (deliveryStep_effect cfg.delivery task d.runId input d.phase w.db).2
      (spares_deliveryStep _ _ _ _ _)
  | resend task input =>
    simp only [step, Option.map_eq_some_iff] at h
    obtain ⟨r, -, rfl⟩ := h
    rcases resendStep_effect cfg.delivery r.runId r.adminUserId input r.phase w.db with
      e | ⟨record, -, e⟩
    · exact .quiet (by rw [e]) (.of_same (by rw [e]))
    · exact .quiet (by rw [e]) (.of_same (by rw [e]))
  | sweep now fate =>
    obtain rfl := Option.some.inj h
    exact sweepStep_outbox cfg now fate w.sweeper w.db
  | dispatch input =>
    obtain rfl := Option.some.inj h
    exact dispatchStep_outbox cfg input w.dispatcher w.db
  | requestResend _ _ | directory _ _ | crash =>
    obtain rfl := Option.some.inj h
    exact .quiet rfl (.of_same rfl)
  | abort task =>
    simp only [step, Option.map_eq_some_iff] at h
    obtain ⟨d, -, rfl⟩ := h
    exact .quiet rfl (.of_same rfl)

/-! ## The rows of a run -/

/-- The rows of a run, by their ids. -/
def rowsOf (db : Db) (runId : RunId) : List (Nat × SweeperActionRow) :=
  db.sweeperActions.rows.filter fun r => r.2.runId = runId

/-- The actions of a run's rows, in the order of their ids. -/
def actionsOf (db : Db) (runId : RunId) : List DispositionAction :=
  (rowsOf db runId).map fun r => r.2.actionName

/-- The actions an orphaned run is due; a run that is not there, or not orphaned, is due none. -/
def actionsDue (cfg : Config) (db : Db) (runId : RunId) : List DispositionAction :=
  match db.runs.get? runId with
  | some row =>
    if row.state = .orphaned then cfg.sweeper.resolveDispositionActions row.pipelineType else []
  | none => []

/-- A row is an old one, or one of those enqueued. -/
theorem get?_insertAll_outboxRows {t : Serial SweeperActionRow} {runId : RunId}
    {actions : List DispositionAction} {now : Instant} {i : Nat} {row : SweeperActionRow}
    (h : (t.insertAll (outboxRows runId actions now)).get? i = some row) :
    t.get? i = some row ∨ t.get? i = none ∧ t.next ≤ i ∧
      ∃ a, row = { runId := runId, actionName := a, enqueuedAt := now } := by
  by_cases hi : i < t.next
  · rw [Serial.get?_insertAll_of_lt hi] at h
    exact .inl h
  · have hnone : t.get? i = none := by
      cases hrow : t.get? i with
      | none => rfl
      | some row => exact absurd (Serial.lt_next_of_get? hrow) hi
    have hmem := Serial.mem_iff_get?.mpr h
    rw [Serial.rows_insertAll, List.mem_append] at hmem
    rcases hmem with hmem | hmem
    · rw [Serial.mem_iff_get?, hnone] at hmem
      cases hmem
    · obtain ⟨⟨row', j⟩, hrow', heq⟩ := List.mem_map.mp hmem
      obtain ⟨a, -, ha⟩ := List.mem_map.mp (List.fst_mem_of_mem_zipIdx hrow')
      obtain ⟨rfl, rfl⟩ := Prod.mk.inj heq
      exact .inr ⟨hnone, Nat.le_of_not_lt hi, a, ha.symm⟩

theorem rowsOf_insertAll {db db' : Db} {k runId : RunId} {actions : List DispositionAction}
    {now : Instant} (h : db'.sweeperActions =
      db.sweeperActions.insertAll (outboxRows k actions now)) :
    rowsOf db' runId = rowsOf db runId ++
      if runId = k then ((outboxRows k actions now).zipIdx db.sweeperActions.next).map Prod.swap
      else [] := by
  unfold rowsOf
  rw [h, Serial.rows_insertAll, List.filter_append]
  congr 1
  by_cases hk : runId = k
  · rw [if_pos hk, List.filter_eq_self]
    intro r hr
    obtain ⟨⟨row, i⟩, hrow, rfl⟩ := List.mem_map.mp hr
    obtain ⟨a, -, rfl⟩ := List.mem_map.mp (List.fst_mem_of_mem_zipIdx hrow)
    simp [hk]
  · rw [if_neg hk, List.filter_eq_nil_iff]
    intro r hr
    obtain ⟨⟨row, i⟩, hrow, rfl⟩ := List.mem_map.mp hr
    obtain ⟨a, -, rfl⟩ := List.mem_map.mp (List.fst_mem_of_mem_zipIdx hrow)
    simp [Ne.symm hk]

theorem rowsOf_mapRows {db db' : Db} {g : Nat → SweeperActionRow → SweeperActionRow}
    (hg : KeepsIdentity g) (h : db'.sweeperActions = db.sweeperActions.mapRows g) (runId : RunId) :
    rowsOf db' runId = (rowsOf db runId).map fun r => (r.1, g r.1 r.2) := by
  unfold rowsOf
  rw [h]
  simp only [Serial.mapRows, List.filter_map]
  congr 2
  funext r
  simp [(hg r.1 r.2).1]

theorem actionsOf_insertAll {db db' : Db} {k runId : RunId} {actions : List DispositionAction}
    {now : Instant} (h : db'.sweeperActions =
      db.sweeperActions.insertAll (outboxRows k actions now)) :
    actionsOf db' runId = actionsOf db runId ++ if runId = k then actions else [] := by
  unfold actionsOf
  rw [rowsOf_insertAll h, List.map_append]
  congr 1
  split
  · have hnames : ∀ (l : List DispositionAction) (n : Nat),
        (((outboxRows k l now).zipIdx n).map Prod.swap).map (fun r => r.2.actionName) = l := by
      intro l
      induction l with
      | nil => exact fun _ => rfl
      | cons a l ih => exact fun n => congrArg (a :: ·) (ih (n + 1))
    exact hnames actions _
  · rfl

theorem actionsOf_mapRows {db db' : Db} {g : Nat → SweeperActionRow → SweeperActionRow}
    (hg : KeepsIdentity g) (h : db'.sweeperActions = db.sweeperActions.mapRows g) (runId : RunId) :
    actionsOf db' runId = actionsOf db runId := by
  unfold actionsOf
  rw [rowsOf_mapRows hg h, List.map_map]
  congr 1
  funext r
  exact (hg r.1 r.2).2.1

/-- A step that orphans no run leaves what runs are due as it is. -/
theorem actionsDue_of_spares {cfg : Config} {db db' : Db} {es : List Event}
    (he : RunEffect db db' es) (hs : Spares db db') (runId : RunId) :
    actionsDue cfg db' runId = actionsDue cfg db runId := by
  cases he with
  | silent runs log nothing =>
    unfold actionsDue
    rw [runs]
  | @entered mover k row now e others is was log about told =>
    by_cases hk : runId = k
    · subst hk
      have hlive : ∀ old, db.runs.get? runId = some old → old.state ≠ .orphaned := by
        intro old hold horphaned
        rcases was with ⟨hnone, -⟩ | ⟨old', hold', hedge, -⟩
        · unfold stateOf at hnone
          rw [hold] at hnone
          cases hnone
        · rw [hold] at hold'
          obtain rfl := Option.some.inj hold'
          rw [horphaned] at hedge
          exact RunState.not_edge_of_terminal rfl hedge
      have hnew : row.state ≠ .orphaned := by
        intro horphaned
        have hwas := hs runId (by unfold stateOf; rw [is, Option.map_some, horphaned])
        unfold stateOf at hwas
        obtain ⟨old, hold, ho⟩ := Option.map_eq_some_iff.mp hwas
        exact hlive old hold ho
      unfold actionsDue
      rw [is]
      simp only [if_neg hnew]
      cases hold : db.runs.get? runId with
      | none => rfl
      | some old => exact (if_neg (hlive old hold)).symm
    · unfold actionsDue
      rw [others runId hk]

/-- **The rows of each run are the actions it is due,** in the order of the list resolved for its
pipeline: all of them from the step that orphans it, none before. -/
theorem actionsOf_of_reach {cfg : Config} {w : World} (h : (service cfg).Reach w) (runId : RunId) :
    actionsOf w.db runId = actionsDue cfg w.db runId := by
  refine System.inv_of_reach
    (I := fun w : World => actionsOf w.db runId = actionsDue cfg w.db runId) ⟨?_, ?_⟩ h
  · rintro w ⟨users, subscriptions, rfl⟩
    rfl
  · intro w l w' hw hstep
    obtain ⟨es, rest, -, he, -⟩ := step_effect cfg hstep
    cases step_outbox hstep with
    | quiet rows spares =>
      rw [actionsDue_of_spares he spares, ← hw]
      unfold actionsOf rowsOf
      rw [rows]
    | enqueued run now stored live runs rows =>
      rw [actionsOf_insertAll rows]
      unfold actionsDue
      rw [runs, RunRepository.get?_moved]
      by_cases hk : runId = run.runId
      · subst hk
        have hnone : actionsOf w.db run.runId = [] := by
          rw [hw]
          unfold actionsDue
          rw [stored]
          refine if_neg fun horphaned => ?_
          rw [horphaned] at live
          cases live
        rw [if_pos rfl, if_pos rfl, stored, hnone]
        rfl
      · rw [if_neg hk, if_neg hk, List.append_nil]
        exact hw
    | stamped _ _ g identity runs rows =>
      rw [actionsOf_mapRows identity rows, hw]
      unfold actionsDue
      rw [runs]

/-- The run of a row of the outbox is orphaned. -/
theorem orphaned_of_row {cfg : Config} {w : World} (h : (service cfg).Reach w) {i : Nat}
    {row : SweeperActionRow} (hrow : w.db.sweeperActions.get? i = some row) :
    stateOf w.db row.runId = some .orphaned := by
  have hmem : (i, row) ∈ rowsOf w.db row.runId :=
    List.mem_filter.mpr ⟨Serial.mem_iff_get?.mpr hrow, by simp⟩
  have hactions := actionsOf_of_reach h row.runId
  unfold actionsOf actionsDue at hactions
  unfold stateOf
  cases hrun : w.db.runs.get? row.runId with
  | none =>
    rw [hrun, List.map_eq_nil_iff] at hactions
    rw [hactions] at hmem
    cases hmem
  | some r =>
    rw [hrun] at hactions
    by_cases ho : r.state = .orphaned
    · exact congrArg some ho
    · simp only [if_neg ho, List.map_eq_nil_iff] at hactions
      rw [hactions] at hmem
      cases hmem

end MessageService.System
