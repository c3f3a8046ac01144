import MessageService.Infrastructure.Store
import MessageService.Lib.Attempt

/-!
# The outbox dispatcher

Model of `application/use_cases/sweeper_action_dispatcher.py`
(`SweeperActionDispatcherUseCase.dispatch_pending`): one pass abandons exhausted rows, claims a
batch, calls the handlers and settles each row, every unit of work and every handler call a step of
its own (`DispatcherPhase`, `dispatchStep`).

* `abandonExhaustedRows_ok`, `claimBatch_ok`, `settle_ok`: what the units of work do to the rows.
* `selected` is what a claim takes, as a function of the rows before it.
-/

namespace MessageService.Application

open MessageService.Domain MessageService.Lib MessageService.Infrastructure

/-- The configuration of `SweeperActionDispatcherUseCase`. -/
structure DispatcherConfig where
  handlersById : DispositionAction → Bool
  batchLimit : Nat
  staleClaimThresholdSeconds : Nat
  maxDispatchAttempts : Nat
  batchLimit_pos : 1 ≤ batchLimit
  stale_pos : 1 ≤ staleClaimThresholdSeconds
  max_pos : 1 ≤ maxDispatchAttempts

variable (cfg : DispatcherConfig)

/-! ## Abandoning exhausted rows -/

/-- The `DISPATCHER_ACTION_ABANDONED` event. -/
def abandonedEvent (now : Instant) (row : ClaimedAction) : AuditEvent where
  timestamp := now
  action := .dispatcherActionAbandoned
  actor := "system:sweeper_action_dispatcher"
  resource := "sweeper_action:" ++ toString row.actionId
  outcome := .failure
  details := [("action_id", .int row.actionId), ("run_id", .str row.runId),
    ("action_name", .str row.actionName.value), ("attempts", .int row.attempts),
    ("max_attempts", .int cfg.maxDispatchAttempts)]

/-- One turn of the loop over the exhausted rows. -/
def abandonRow (now : Instant) (row : ClaimedAction) : Transaction Unit := do
  AuditLog.record (abandonedEvent cfg now row)
  SweeperActionRepository.markAbandoned row.actionId now
    ("abandoned after " ++ toString row.attempts ++ " attempts (max_dispatch_attempts=" ++
      toString cfg.maxDispatchAttempts ++ ")")

/-- `_abandon_exhausted_rows`; the code returns the number of the rows. -/
def abandonExhaustedRows (now : Instant) : Transaction (List ClaimedAction) := do
  let exhausted ← SweeperActionRepository.findAbandoned now cfg.staleClaimThresholdSeconds
    cfg.maxDispatchAttempts cfg.batchLimit
  Tx.forEach (abandonRow cfg now) exhausted
  pure exhausted

/-- The rows an abandonment at `now` finds. -/
def exhausted (db : Db) (now : Instant) : List (Nat × SweeperActionRow) :=
  SweeperActionRepository.stuck db (now - seconds cfg.staleClaimThresholdSeconds)
    (fun n => cfg.maxDispatchAttempts ≤ n) cfg.batchLimit

/-- `g` marks the rows in `ids` abandoned at `now` and leaves the others alone. -/
def Abandons (now : Instant) (ids : List Nat) (g : Nat → SweeperActionRow → SweeperActionRow) :
    Prop :=
  (∀ i ∉ ids, ∀ r, g i r = r) ∧
    ∀ i ∈ ids, ∀ r, ∃ message, g i r = { r with
      completedAt := some now
      lastError := some message }

theorem abandonAll_ok {now : Instant} {rows : List ClaimedAction} {db db' : Db} {r : Unit}
    (h : Tx.forEach (abandonRow cfg now) rows db = .ok (r, db')) :
    ∃ g, Abandons now (rows.map ClaimedAction.actionId) g ∧
      db' = { db with
        auditLog := db.auditLog.insertAll (rows.map (abandonedEvent cfg now))
        sweeperActions := db.sweeperActions.mapRows g } := by
  induction rows generalizing db with
  | nil =>
    simp only [Tx.forEach, Tx.ok_pure, true_and] at h
    subst h
    refine ⟨fun _ r => r, ⟨fun _ _ _ => rfl, by simp⟩, ?_⟩
    rw [Serial.mapRows_eq_self fun _ _ => rfl]
    rfl
  | cons row rows ih =>
    simp only [Tx.forEach, abandonRow, AuditLog.record, SweeperActionRepository.markAbandoned,
      Tx.ok_bind, Tx.ok_write] at h
    obtain ⟨_, mid, ⟨_, _, rfl, hmark⟩, hrest⟩ := h
    obtain ⟨g, ⟨hother, hmarked⟩, rfl⟩ := ih hrest
    have hmid := SweeperActionRepository.updateRows_ok hmark
    subst hmid
    refine ⟨_, ⟨?_, ?_⟩, by rw [Serial.mapRows_mapRows]; rfl⟩
    · intro i hi r
      simp only [List.map_cons, List.mem_cons, not_or] at hi
      simp [hi.1, hother i hi.2]
    · intro i hi r
      by_cases hrest : i ∈ rows.map ClaimedAction.actionId
      · obtain ⟨message, hm⟩ := hmarked i hrest
          (if i ∈ [row.actionId] then { r with
            completedAt := some now
            lastError := some ("abandoned after " ++ toString row.attempts ++
              " attempts (max_dispatch_attempts=" ++ toString cfg.maxDispatchAttempts ++ ")") }
          else r)
        refine ⟨message, hm.trans ?_⟩
        split_ifs <;> rfl
      · rw [hother i hrest]
        have : i = row.actionId := by
          rcases List.mem_cons.mp hi with h | h
          · exact h
          · exact absurd h hrest
        exact ⟨_, by rw [if_pos (by simp [this])]⟩

/-- **What an abandonment does**: it marks the exhausted rows, with one audit row for each. -/
theorem abandonExhaustedRows_ok {now : Instant} {rows : List ClaimedAction} {db db' : Db}
    (h : abandonExhaustedRows cfg now db = .ok (rows, db')) :
    rows = (exhausted cfg db now).map SweeperActionRepository.toClaimed ∧
      ∃ g, Abandons now ((exhausted cfg db now).map Prod.fst) g ∧
        db' = { db with
          auditLog := db.auditLog.insertAll (rows.map (abandonedEvent cfg now))
          sweeperActions := db.sweeperActions.mapRows g } := by
  simp only [abandonExhaustedRows, SweeperActionRepository.findAbandoned, Tx.ok_bind, Tx.ok_require,
    Tx.ok_read, Tx.ok_pure] at h
  obtain ⟨_, _, ⟨_, _, ⟨_, rfl⟩, _, _, ⟨_, rfl⟩, _, _, ⟨_, rfl⟩, rfl, rfl⟩, _, _, hall, rfl, rfl⟩ := h
  obtain ⟨g, hg, hdb⟩ := abandonAll_ok cfg hall
  refine ⟨rfl, g, ?_, hdb⟩
  rwa [List.map_map] at hg

/-! ## Claiming a batch -/

/-- The unit of work of phase 1: fresh rows first, then stuck ones, and the runs they belong to. -/
def claimBatch (now : Instant) : Transaction (List (ClaimedAction × Option Run)) := do
  let claimedFresh ← SweeperActionRepository.claimPending now cfg.batchLimit
  let remaining := cfg.batchLimit - claimedFresh.length
  let claimedStuck ←
    if 0 < remaining then
      SweeperActionRepository.reclaimStuck now remaining cfg.staleClaimThresholdSeconds
        cfg.maxDispatchAttempts
    else pure []
  Tx.attempt fun db => (claimedFresh ++ claimedStuck).mapM fun c =>
    (RunRepository.findOrNone db c.runId).map fun run => (c, run)

/-- The fresh rows a claim takes. -/
def freshRows (db : Db) : List (Nat × SweeperActionRow) :=
  SweeperActionRepository.pending db cfg.batchLimit

/-- The stuck rows a claim at `now` takes. -/
def stuckRows (db : Db) (now : Instant) : List (Nat × SweeperActionRow) :=
  SweeperActionRepository.stuck db (now - seconds cfg.staleClaimThresholdSeconds)
    (fun n => n < cfg.maxDispatchAttempts) (cfg.batchLimit - (freshRows cfg db).length)

/-- The rows a claim at `now` takes, in the order it takes them. -/
def selected (db : Db) (now : Instant) : List (Nat × SweeperActionRow) :=
  freshRows cfg db ++ stuckRows cfg db now

/-- What a claim at `now` makes of the row with id `i`. -/
def claimedRow (db : Db) (now : Instant) (i : Nat) (r : SweeperActionRow) : SweeperActionRow :=
  if i ∈ (freshRows cfg db).map Prod.fst then { r with claimedAt := some now }
  else if i ∈ (stuckRows cfg db now).map Prod.fst then
    { r with
      claimedAt := some now
      attempts := r.attempts + 1 }
  else r

/-- What a claim at `now` hands to the handlers for each row. -/
def claimedActions (db : Db) (now : Instant) : List ClaimedAction :=
  (freshRows cfg db).map SweeperActionRepository.toClaimed ++
    (stuckRows cfg db now).map fun r =>
      { SweeperActionRepository.toClaimed r with attempts := r.2.attempts + 1 }

/-- No row is both fresh and stuck. -/
theorem not_mem_stuckRows {db : Db} {now : Instant} {i : Nat}
    (h : i ∈ (freshRows cfg db).map Prod.fst) : i ∉ (stuckRows cfg db now).map Prod.fst := by
  intro hs
  obtain ⟨⟨j, r⟩, hr, rfl⟩ := List.mem_map.mp h
  obtain ⟨⟨j', r'⟩, hr', rfl⟩ := List.mem_map.mp hs
  obtain ⟨hmem, hfresh⟩ := SweeperActionRepository.mem_pending hr
  obtain ⟨hmem', hstuck, -⟩ := SweeperActionRepository.mem_stuck hr'
  have : r = r' := by
    have := Serial.mem_iff_get?.mp hmem
    rw [Serial.mem_iff_get?.mp hmem'] at this
    exact (Option.some.inj this).symm
  subst this
  obtain ⟨-, c, hc, -⟩ := SweeperActionRepository.isStuck_iff.mp hstuck
  rw [hfresh] at hc
  cases hc

/-- The stuck rows of a claim are the same before and after it has taken the fresh ones. -/
theorem stuck_after_fresh {db db' : Db} {now : Instant}
    (hdb : db'.sweeperActions = db.sweeperActions.mapRows fun i r =>
      if i ∈ (freshRows cfg db).map Prod.fst then { r with claimedAt := some now } else r)
    (retries : Nat → Bool) (limit : Nat) :
    SweeperActionRepository.stuck db' (now - seconds cfg.staleClaimThresholdSeconds) retries limit =
      SweeperActionRepository.stuck db (now - seconds cfg.staleClaimThresholdSeconds) retries
        limit := by
  refine SweeperActionRepository.stuck_mapRows hdb ?_
  rintro ⟨i, r⟩ hr
  by_cases hi : i ∈ (freshRows cfg db).map Prod.fst
  · obtain ⟨⟨j, r'⟩, hr', rfl⟩ := List.mem_map.mp hi
    obtain ⟨hmem, hfresh⟩ := SweeperActionRepository.mem_pending hr'
    have : r' = r := by
      have := Serial.mem_iff_get?.mp hmem
      rw [Serial.mem_iff_get?.mp hr] at this
      exact (Option.some.inj this).symm
    subst this
    have hafter : SweeperActionRepository.isStuck (now - seconds cfg.staleClaimThresholdSeconds)
        { r' with claimedAt := some now } = false := by
      rw [Bool.eq_false_iff]
      intro hstuck
      obtain ⟨-, c, hc, hle⟩ := SweeperActionRepository.isStuck_iff.mp hstuck
      obtain rfl := Option.some.inj hc
      exact absurd hle (not_le.mpr (sub_seconds_lt _ cfg.stale_pos))
    have hbefore : SweeperActionRepository.isStuck (now - seconds cfg.staleClaimThresholdSeconds)
        r' = false := by
      have : r'.claimedAt = none := hfresh
      simp [SweeperActionRepository.isStuck, this]
    simp only [hi, if_true, hafter, hbefore, true_and]
    intro h
    cases h
  · simp [hi]

theorem fst_of_loadRuns {db : Db} {claimed : List ClaimedAction}
    {batch : List (ClaimedAction × Option Run)}
    (h : (claimed.mapM fun c => (RunRepository.findOrNone db c.runId).map fun run => (c, run)) =
      .ok batch) : batch.map Prod.fst = claimed := by
  have hall := mapM_eq_ok h
  clear h
  induction hall with
  | nil => rfl
  | @cons c b claimed batch hc _ ih =>
    have hfst : b.1 = c := by
      cases hf : RunRepository.findOrNone db c.runId with
      | error e => rw [hf] at hc; cases hc
      | ok run => rw [hf] at hc; cases hc; rfl
    rw [List.map_cons, ih, hfst]

/-- A row whose run is not loaded has none. -/
theorem none_of_loadRuns {db : Db} {claimed : List ClaimedAction}
    {batch : List (ClaimedAction × Option Run)}
    (h : (claimed.mapM fun c => (RunRepository.findOrNone db c.runId).map fun run => (c, run)) =
      .ok batch) : ∀ b ∈ batch, b.2 = none → db.runs.get? b.1.runId = none := by
  intro b hb hnone
  obtain ⟨c, -, hc⟩ := exists_of_mem_mapM h hb
  cases hf : RunRepository.findOrNone db c.runId with
  | error e => rw [hf] at hc; cases hc
  | ok run =>
    rw [hf] at hc
    cases hc
    obtain ⟨-, hrow⟩ | ⟨run', rfl, -⟩ := RunRepository.findOrNone_ok hf
    · exact hrow
    · cases hnone

/-- **What a claim does**: it stamps the rows it takes, and counts an attempt for the stuck ones. -/
theorem claimBatch_ok {now : Instant} {batch : List (ClaimedAction × Option Run)} {db db' : Db}
    (h : claimBatch cfg now db = .ok (batch, db')) :
    batch.map Prod.fst = claimedActions cfg db now ∧
      (∀ b ∈ batch, b.2 = none → db.runs.get? b.1.runId = none) ∧
      db' = { db with
        sweeperActions := db.sweeperActions.mapRows (claimedRow cfg db now) } := by
  simp only [claimBatch, SweeperActionRepository.claimPending, Tx.ok_bind, Tx.ok_require,
    Tx.ok_read, Tx.ok_pure, Tx.ok_attempt, Tx.ok_ite] at h
  obtain ⟨claimedFresh, _, ⟨_, _, ⟨_, rfl⟩, _, _, ⟨rfl, rfl⟩, _, mid, hfresh, rfl, rfl⟩, h⟩ := h
  have hmid := SweeperActionRepository.updateRows_ok hfresh
  subst hmid
  rw [List.length_map] at h
  obtain ⟨-, claimedStuck, _, hstuck, hruns, rfl⟩ | ⟨hfull, _, _, ⟨rfl, rfl⟩, hruns, rfl⟩ := h
  · obtain ⟨rfl, rfl⟩ := SweeperActionRepository.reclaimStuck_ok hstuck
    rw [stuck_after_fresh cfg rfl] at hruns ⊢
    refine ⟨fst_of_loadRuns hruns, none_of_loadRuns hruns, ?_⟩
    rw [Serial.mapRows_mapRows]
    congr 2
    funext i r
    unfold claimedRow
    by_cases hi : i ∈ (freshRows cfg db).map Prod.fst
    · have hn := @not_mem_stuckRows cfg db now i hi
      rw [if_pos hi]
      unfold freshRows at hi
      unfold stuckRows freshRows at hn
      rw [if_neg hn, if_pos hi]
    · rw [if_neg hi]
      unfold freshRows at hi
      rw [if_neg hi]
      rfl
  · have hnone : stuckRows cfg db now = [] := by
      have : cfg.batchLimit - (freshRows cfg db).length = 0 := Nat.eq_zero_of_not_pos hfull
      unfold stuckRows
      rw [this]
      rfl
    refine ⟨(fst_of_loadRuns hruns).trans ?_, none_of_loadRuns hruns, ?_⟩
    · unfold claimedActions
      rw [hnone]
      rfl
    · congr 2
      funext i r
      unfold claimedRow
      rw [hnone]
      rfl

/-! ## Settling a row -/

/-- The unit of work of phase 3 for a row: `none` is a handler that returned. -/
def settle (c : ClaimedAction) (error : Option String) (now : Instant) : Transaction Unit :=
  match error with
  | none => SweeperActionRepository.markCompleted c.actionId now
  | some message => SweeperActionRepository.markFailed c.actionId now
      (if message = "" then "unknown" else message)

/-- What settling makes of a row. -/
def settledRow (error : Option String) (now : Instant) (r : SweeperActionRow) : SweeperActionRow :=
  match error with
  | none => { r with completedAt := some now }
  | some message => { r with
      completedAt := some now
      attempts := r.attempts + 1
      lastError := some (if message = "" then "unknown" else message) }

/-- **What settling does**: it completes one row, and counts an attempt for a failure. -/
theorem settle_ok {c : ClaimedAction} {error : Option String} {now : Instant} {r : Unit}
    {db db' : Db} (h : settle c error now db = .ok (r, db')) :
    db' = { db with
      sweeperActions := db.sweeperActions.mapRows fun i row =>
        if i = c.actionId then settledRow error now row else row } := by
  cases error with
  | none =>
    simp only [settle, SweeperActionRepository.markCompleted] at h
    rw [SweeperActionRepository.updateRows_ok h]
    simp only [List.mem_singleton, settledRow]
  | some message =>
    simp only [settle, SweeperActionRepository.markFailed] at h
    rw [SweeperActionRepository.updateRows_ok h]
    simp only [List.mem_singleton, settledRow]

/-! ## A pass -/

/-- Where the dispatcher stands between two steps. -/
inductive DispatcherPhase where
  | idle
  /-- The exhausted rows are abandoned. -/
  | claiming
  /-- A batch is claimed: the rows still to be handled, and the outcomes so far. -/
  | handling (todo : List (ClaimedAction × Option Run))
      (outcomes : List (ClaimedAction × Option String))
  | settling (outcomes : List (ClaimedAction × Option String))

/-- What one step takes from outside: a clock reading, the fate of its unit of work, and what the
handler raises. -/
structure DispatcherInput where
  now : Instant
  fate : Tx.Fate
  handler : Option String

/-- The outcome of a row: `none` when its handler is to be called. -/
def unhandled (c : ClaimedAction) (run : Option Run) : Option String :=
  if run.isNone then some "run no longer exists"
  else if cfg.handlersById c.actionName then none
  else some ("no handler registered for " ++ c.actionName.value)

/-- One step of a pass. An exception ends it. -/
def dispatchStep (input : DispatcherInput) : DispatcherPhase → Db → DispatcherPhase × Db
  | .idle, db =>
    (abandonExhaustedRows cfg input.now).resume input.fate (fun _ => .claiming)
      (fun _ => .idle) db
  | .claiming, db =>
    (claimBatch cfg input.now).resume input.fate (fun batch => .handling batch [])
      (fun _ => .idle) db
  | .handling [] outcomes, db => (.settling outcomes, db)
  | .handling ((c, run) :: todo) outcomes, db =>
    match unhandled cfg c run with
    | some message => (.handling todo (outcomes ++ [(c, some message)]), db)
    | none => (.handling todo (outcomes ++ [(c, input.handler)]), db)
  | .settling [], db => (.idle, db)
  | .settling ((c, error) :: outcomes), db =>
    (settle c error input.now).resume input.fate (fun _ => .settling outcomes)
      (fun _ => .idle) db

/-- The row whose handler a step calls. -/
def invokes : DispatcherPhase → Option Nat
  | .handling ((c, run) :: _) _ => if (unhandled cfg c run).isNone then some c.actionId else none
  | _ => none

/-- The rows a step abandons. -/
def abandons (input : DispatcherInput) (db : Db) : DispatcherPhase → List Nat
  | .idle =>
    if input.fate = .fails then []
    else
      match abandonExhaustedRows cfg input.now db with
      | .ok (rows, _) => rows.map ClaimedAction.actionId
      | .error _ => []
  | _ => []

/-- What one step does, from one phase and database to the next, with the rows it abandons. A unit
of work that commits may still be the last thing its pass does. -/
inductive DispatchMove (now : Instant) (db : Db) :
    DispatcherPhase → DispatcherPhase → Db → List Nat → Prop
  /-- The pass ends, and its last unit of work, if there is one, is rolled back. -/
  | stopped {phase : DispatcherPhase} (between : ∀ todo outcomes, phase ≠ .handling todo outcomes) :
      DispatchMove now db phase .idle db []
  | abandoned {phase : DispatcherPhase} {g : Nat → SweeperActionRow → SweeperActionRow}
      (marks : Abandons now ((exhausted cfg db now).map Prod.fst) g)
      (next : phase = .claiming ∨ phase = .idle) :
      DispatchMove now db .idle phase { db with
          auditLog := db.auditLog.insertAll ((exhausted cfg db now).map fun r =>
            abandonedEvent cfg now (SweeperActionRepository.toClaimed r))
          sweeperActions := db.sweeperActions.mapRows g }
        ((exhausted cfg db now).map Prod.fst)
  | claimed {phase : DispatcherPhase}
      (next : (∃ batch, phase = .handling batch [] ∧
        batch.map Prod.fst = claimedActions cfg db now ∧
        ∀ b ∈ batch, b.2 = none → db.runs.get? b.1.runId = none) ∨ phase = .idle) :
      DispatchMove now db .claiming phase { db with
        sweeperActions := db.sweeperActions.mapRows (claimedRow cfg db now) } []
  | handled {c : ClaimedAction} {run : Option Run} {todo : List (ClaimedAction × Option Run)}
      {outcomes : List (ClaimedAction × Option String)} (error : Option String) :
      DispatchMove now db (.handling ((c, run) :: todo) outcomes)
        (.handling todo (outcomes ++ [(c, error)])) db []
  | drained {outcomes : List (ClaimedAction × Option String)} :
      DispatchMove now db (.handling [] outcomes) (.settling outcomes) db []
  | settled {c : ClaimedAction} {error : Option String}
      {outcomes : List (ClaimedAction × Option String)} {phase : DispatcherPhase}
      (next : phase = .settling outcomes ∨ phase = .idle) :
      DispatchMove now db (.settling ((c, error) :: outcomes)) phase { db with
        sweeperActions := db.sweeperActions.mapRows fun i row =>
          if i = c.actionId then settledRow error now row else row } []

theorem abandons_idle (input : DispatcherInput) (db : Db) :
    (abandonExhaustedRows cfg input.now).resume input.fate (fun _ => DispatcherPhase.claiming)
        (fun _ => .idle) db = (.idle, db) ∧ abandons cfg input db .idle = [] ∨
      ∃ rows db', abandonExhaustedRows cfg input.now db = .ok (rows, db') ∧
        abandons cfg input db .idle = rows.map ClaimedAction.actionId ∧
        ∃ phase, (phase = .claiming ∨ phase = .idle) ∧
          (abandonExhaustedRows cfg input.now).resume input.fate (fun _ => DispatcherPhase.claiming)
            (fun _ => .idle) db = (phase, db') := by
  unfold abandons Tx.resume Tx.commit
  cases hx : abandonExhaustedRows cfg input.now db with
  | error e => cases input.fate <;> simp
  | ok r =>
    obtain ⟨rows, db'⟩ := r
    cases input.fate with
    | fails => simp
    | commits => exact .inr ⟨rows, db', rfl, by simp, .claiming, .inl rfl, rfl⟩
    | lost => exact .inr ⟨rows, db', rfl, by simp, .idle, .inr rfl, rfl⟩

/-- **What a step of the dispatcher can do.** -/
theorem dispatchStep_move (input : DispatcherInput) (phase : DispatcherPhase) (db : Db) :
    DispatchMove cfg input.now db phase (dispatchStep cfg input phase db).1
      (dispatchStep cfg input phase db).2 (abandons cfg input db phase) := by
  match phase with
  | .idle =>
    rcases abandons_idle cfg input db with ⟨hstep, hnone⟩ | ⟨rows, db', hx, hids, next, hnext, hstep⟩
    · simp only [dispatchStep, hstep, hnone]
      exact .stopped fun _ _ h => by cases h
    · obtain ⟨rfl, g, marks, rfl⟩ := abandonExhaustedRows_ok cfg hx
      simp only [dispatchStep, hstep, hids, List.map_map]
      exact .abandoned marks hnext
  | .claiming =>
    rcases Tx.resume_spec (claimBatch cfg input.now) input.fate
      (fun batch => DispatcherPhase.handling batch []) (fun _ => .idle) db with
      ⟨hdb, _, hphase⟩ | ⟨batch, db', hx, hdb, hphase | hphase⟩
    · simp only [dispatchStep, hdb, hphase]
      exact .stopped fun _ _ h => by cases h
    · obtain ⟨hbatch, hloaded, rfl⟩ := claimBatch_ok cfg hx
      simp only [dispatchStep, hdb, hphase]
      exact .claimed (.inl ⟨batch, rfl, hbatch, hloaded⟩)
    · obtain ⟨-, -, rfl⟩ := claimBatch_ok cfg hx
      simp only [dispatchStep, hdb, hphase]
      exact .claimed (.inr rfl)
  | .handling [] outcomes => exact .drained
  | .handling ((c, run) :: todo) outcomes =>
    simp only [dispatchStep]
    split
    · exact .handled _
    · exact .handled _
  | .settling [] => exact .stopped fun _ _ h => by cases h
  | .settling ((c, error) :: outcomes) =>
    rcases Tx.resume_spec (settle c error input.now) input.fate
      (fun _ => DispatcherPhase.settling outcomes) (fun _ => .idle) db with
      ⟨hdb, _, hphase⟩ | ⟨_, db', hx, hdb, hphase⟩
    · simp only [dispatchStep, hdb, hphase]
      exact .stopped fun _ _ h => by cases h
    · obtain rfl := settle_ok hx
      simp only [dispatchStep, hdb]
      exact .settled hphase

end MessageService.Application
