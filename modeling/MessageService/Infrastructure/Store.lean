import MessageService.Domain.Aggregates
import MessageService.Lib.Table
import MessageService.Lib.Tx
import Mathlib.Data.List.Sort

/-!
# The database and its repositories

Model of the SQLite repositories under `infrastructure/persistence/`: the tables of the schema
(`Db`) and every query and statement the use cases run on them, as steps of a transaction. A
statement that violates a constraint of the schema raises and takes the whole transaction with it.

`ORDER BY` is a stable sort of the rows in insertion order, which is the order SQLite returns rows
of one sort key in.
-/

namespace MessageService.Infrastructure

open MessageService.Domain MessageService.Lib

/-! ## The tables -/

/-- `DispositionAction`. -/
inductive DispositionAction where
  | sendPartialFlagged
  | discardSilently
  | notifySubscribers
  | notifyAdmins
  deriving DecidableEq, Repr

/-- The stored value of an action. -/
def DispositionAction.value : DispositionAction → String
  | sendPartialFlagged => "SEND_PARTIAL_FLAGGED"
  | discardSilently => "DISCARD_SILENTLY"
  | notifySubscribers => "NOTIFY_SUBSCRIBERS"
  | notifyAdmins => "NOTIFY_ADMINS"

/-- The columns of a row of `sweeper_actions`; the `action_id` is the row's id. -/
structure SweeperActionRow where
  runId : RunId
  actionName : DispositionAction
  enqueuedAt : Instant
  claimedAt : Option Instant := none
  completedAt : Option Instant := none
  attempts : Nat := 0
  lastError : Option String := none
  deriving DecidableEq, Repr

/-- The `CHECK`s of `sweeper_actions` on the order of its timestamps. -/
def SweeperActionRow.checks (r : SweeperActionRow) : Bool :=
  r.claimedAt.all (fun c => r.enqueuedAt ≤ c) &&
    r.completedAt.all fun d => r.claimedAt.any (fun c => c ≤ d)

/-- The columns of `users` that recipient resolution reads. -/
structure UserRow where
  email : String
  disabled : Bool
  deriving DecidableEq, Repr

/-- `SubscriptionGranularity`. -/
inductive SubscriptionGranularity where
  | global
  | pipeline
  | tag
  deriving DecidableEq, Repr

/-- The columns of `subscriptions` that recipient resolution reads. -/
structure SubscriptionRow where
  userId : Nat
  granularity : SubscriptionGranularity
  targetValue : Option String
  deriving DecidableEq, Repr

/-- The database. -/
structure Db where
  runs : Table RunRow.runId := Table.empty
  stages : Table Stage.key := Table.empty
  auditLog : Serial AuditEvent := Serial.empty
  sweeperActions : Serial SweeperActionRow := Serial.empty
  users : Serial UserRow := Serial.empty
  subscriptions : Serial SubscriptionRow := Serial.empty

/-- What the body of a unit of work does with the database. -/
abbrev Transaction := Tx Db ServiceError

/-- A violated constraint. -/
def integrityError (message : String) : ServiceError :=
  { errorClass := .integrityError, message := message }

/-- A failed precondition of a repository call. -/
def valueError (message : String) : ServiceError :=
  { errorClass := .valueError, message := message }

/-! ## Audit log -/

namespace AuditLog

/-- `record`. -/
def record (event : AuditEvent) : Transaction Unit :=
  Tx.write fun db => { db with auditLog := db.auditLog.insert event }

theorem keeps_stages_record (event : AuditEvent) : Tx.Keeps Db.stages (record event) :=
  .write fun _ => rfl

/-- `ORDER BY timestamp ASC, audit_id ASC`. -/
abbrev oldestFirst (a b : Nat × AuditEvent) : Prop :=
  a.2.timestamp < b.2.timestamp ∨ (a.2.timestamp = b.2.timestamp ∧ a.1 ≤ b.1)

/-- The rows that `_SQL_FETCH_OLDER_THAN` selects. -/
def olderThan (db : Db) (cutoff : Instant) (limit : Nat) : List (Nat × AuditEvent) :=
  ((db.auditLog.rows.filter fun r => r.2.timestamp < cutoff).insertionSort oldestFirst).take limit

/-- `fetch_older_than`. -/
def fetchOlderThan (cutoff : Instant) (batchSize : Int) :
    Transaction (List (Nat × AuditEvent)) := do
  Tx.require (1 ≤ batchSize) (valueError ("batch_size must be positive; got " ++ toString batchSize))
  Tx.read fun db => olderThan db cutoff batchSize.toNat

/-- The ids that the sub-select of `_SQL_DELETE_OLDER_THAN` selects. -/
def doomed (db : Db) (cutoff : Instant) (limit : Nat) : List Nat :=
  (((db.auditLog.rows.filter fun r => r.2.timestamp < cutoff).insertionSort oldestFirst).map
    Prod.fst).take limit

/-- `delete_older_than`, with the number of rows deleted. -/
def deleteOlderThan (cutoff : Instant) (batchSize : Int) : Transaction Nat := do
  Tx.require (1 ≤ batchSize) (valueError ("batch_size must be positive; got " ++ toString batchSize))
  let ids ← Tx.read fun db => doomed db cutoff batchSize.toNat
  let rows ← Tx.read fun db => db.auditLog.rows.filter fun r => r.1 ∈ ids
  Tx.write fun db => { db with auditLog := db.auditLog.filter fun r => r.1 ∉ ids }
  pure rows.length

theorem mem_olderThan {db : Db} {cutoff : Instant} {limit : Nat} {row : Nat × AuditEvent}
    (h : row ∈ olderThan db cutoff limit) :
    row ∈ db.auditLog.rows ∧ row.2.timestamp < cutoff := by
  have hsort := (List.mem_insertionSort _).mp (List.mem_of_mem_take h)
  simpa using hsort

theorem length_olderThan_le (db : Db) (cutoff : Instant) (limit : Nat) :
    (olderThan db cutoff limit).length ≤ limit := by
  rw [olderThan, List.length_take]
  exact Nat.min_le_left _ _

/-- Rows from the cutoff on change nothing for either query. -/
theorem olderThan_insertAll {db other : Db} {cutoff : Instant} {limit : Nat}
    {events : List AuditEvent} (h : ∀ e ∈ events, cutoff ≤ e.timestamp) :
    olderThan { other with auditLog := db.auditLog.insertAll events } cutoff limit =
      olderThan db cutoff limit := by
  have hnew : ((events.zipIdx db.auditLog.next).map Prod.swap).filter
      (fun r => decide (r.2.timestamp < cutoff)) = [] := by
    rw [List.filter_eq_nil_iff, List.forall_mem_map]
    intro r hr
    have hle := h r.1 (List.fst_mem_of_mem_zipIdx hr)
    simpa using hle
  simp only [olderThan, Serial.rows_insertAll, List.filter_append, hnew, List.append_nil]

theorem doomed_eq (db : Db) (cutoff : Instant) (limit : Nat) :
    doomed db cutoff limit = (olderThan db cutoff limit).map Prod.fst := by
  rw [doomed, olderThan, List.map_take]

/-- **The delete takes the rows that the fetch returns.** -/
theorem perm_doomed (db : Db) (cutoff : Instant) (limit : Nat) :
    (db.auditLog.rows.filter fun r => r.1 ∈ doomed db cutoff limit).Perm
      (olderThan db cutoff limit) := by
  have hrows := db.auditLog.nodup_rows
  have holder : (olderThan db cutoff limit).Nodup :=
    ((List.perm_insertionSort _ _).nodup_iff.mpr (hrows.filter _)).sublist (List.take_sublist _ _)
  refine (List.perm_ext_iff_of_nodup (hrows.filter _) holder).mpr fun row => ?_
  rw [List.mem_filter, decide_eq_true_eq, doomed_eq]
  constructor
  · rintro ⟨hrow, hid⟩
    obtain ⟨row', hrow', hid'⟩ := List.mem_map.mp hid
    rwa [← Serial.eq_of_mem (mem_olderThan hrow').1 hrow hid']
  · exact fun hrow => ⟨(mem_olderThan hrow).1, List.mem_map_of_mem hrow⟩

end AuditLog

/-! ## Runs -/

namespace RunRepository

/-- The error of a missing run. -/
def notFound (runId : RunId) : ServiceError :=
  { errorClass := .runNotFoundError
    message := "run " ++ pyRepr runId ++ " not found"
    details := [("run_id", .str runId)] }

/-- What `get` reads. -/
def find (db : Db) (runId : RunId) : Except ServiceError Run :=
  match db.runs.get? runId with
  | none => .error (notFound runId)
  | some row => rowToRun row

/-- `get`. -/
def get (runId : RunId) : Transaction Run := Tx.attempt fun db => find db runId

theorem find_ok {db : Db} {runId : RunId} {run : Run} (h : find db runId = .ok run) :
    db.runs.get? runId = some run.toRunRow := by
  unfold find at h
  split at h
  · cases h
  · next row hr => rw [hr, rowToRun_ok h]

theorem find_of_get? {db : Db} {runId : RunId} {run : Run}
    (h : db.runs.get? runId = some run.toRunRow) : find db runId = .ok run := by
  simp [find, h, rowToRun_toRunRow]

/-- `get` under `except RunNotFoundError`. -/
def findOrNone (db : Db) (runId : RunId) : Except ServiceError (Option Run) :=
  match find db runId with
  | .ok run => .ok (some run)
  | .error e => if e.errorClass = .runNotFoundError then .ok none else .error e

theorem get?_of_find_notFound {db : Db} {runId : RunId} {e : ServiceError}
    (h : find db runId = .error e) (he : e.errorClass = .runNotFoundError) :
    db.runs.get? runId = none := by
  unfold find at h
  split at h
  · assumption
  · unfold rowToRun at h
    split at h
    · cases h
    · cases h
      cases he

theorem runId_of_find {db : Db} {runId : RunId} {run : Run} (h : find db runId = .ok run) :
    run.runId = runId :=
  Table.key_of_get? (find_ok h)

theorem findOrNone_ok {db : Db} {runId : RunId} {r : Option Run}
    (h : findOrNone db runId = .ok r) : r = none ∧ db.runs.get? runId = none ∨
      ∃ run, r = some run ∧ db.runs.get? runId = some run.toRunRow ∧ run.runId = runId := by
  unfold findOrNone at h
  cases hf : find db runId with
  | ok run =>
    rw [hf] at h
    cases h
    exact .inr ⟨run, rfl, find_ok hf, runId_of_find hf⟩
  | error e =>
    simp only [hf] at h
    split_ifs at h with he
    cases h
    exact .inl ⟨rfl, get?_of_find_notFound hf he⟩

/-- `_run_to_params`: a `PER_STAGE` run has no aggregation template in the table. -/
def runToRow (run : Run) : RunRow :=
  { run.toRunRow with
    aggregationTemplateRef :=
      if run.attachmentMode = .singleAggregated then run.aggregationTemplateRef else none }

/-- `save`: an upsert that keeps the first `created_at`. -/
def save (run : Run) : Transaction Unit :=
  Tx.write fun db =>
    { db with
      runs := db.runs.upsert (runToRow run)
        (fun old => { runToRow run with createdAt := old.createdAt }) fun _ _ => rfl }

/-- The row of a run after `update_state`. -/
def withState (row : RunRow) (newState : RunState) (now : Instant) : RunRow :=
  { row with state := newState, updatedAt := now }

@[simp] theorem runId_withState (row : RunRow) (newState : RunState) (now : Instant) :
    (withState row newState now).runId = row.runId := rfl

/-- What `update_state` makes of the table. -/
def moved (runs : Table RunRow.runId) (runId : RunId) (newState : RunState) (now : Instant) :
    Table RunRow.runId :=
  runs.modify runId (fun r => withState r newState now) fun r h =>
    (runId_withState r newState now).trans h

theorem get?_moved (runs : Table RunRow.runId) (runId : RunId) (newState : RunState)
    (now : Instant) (k : RunId) : (moved runs runId newState now).get? k =
      if k = runId then (runs.get? k).map (withState · newState now) else runs.get? k := by
  unfold moved
  rw [Table.get?_modify]

/-- `update_state`, an unconditional `UPDATE`. -/
def updateState (runId : RunId) (newState : RunState) (now : Instant) : Transaction Unit := do
  Tx.attempt fun db =>
    if (db.runs.get? runId).isSome then .ok ()
    else .error {
      errorClass := .runNotFoundError
      message := "run " ++ pyRepr runId ++ " not found for state update"
      details := [("run_id", .str runId), ("new_state", .str newState.value)] }
  Tx.write fun db => { db with runs := moved db.runs runId newState now }

theorem updateState_ok {runId : RunId} {newState : RunState} {now : Instant} {db db' : Db}
    {r : Unit} (h : updateState runId newState now db = .ok (r, db')) :
    db' = { db with runs := moved db.runs runId newState now } := by
  simp only [updateState, Tx.ok_bind, Tx.ok_attempt, Tx.ok_write] at h
  obtain ⟨_, _, ⟨_, rfl⟩, rfl⟩ := h
  rfl

theorem keeps_stages_get (runId : RunId) : Tx.Keeps Db.stages (get runId) := .attempt _

theorem keeps_stages_updateState (runId : RunId) (newState : RunState) (now : Instant) :
    Tx.Keeps Db.stages (updateState runId newState now) :=
  .bind (.attempt _) fun _ => .write fun _ => rfl

/-- `update_state` succeeds on a row that is there. -/
theorem updateState_of_get? {runId : RunId} {newState : RunState} {now : Instant} {db : Db}
    {row : RunRow} (h : db.runs.get? runId = some row) :
    updateState runId newState now db =
      .ok ((), { db with runs := moved db.runs runId newState now }) := by
  simp [updateState, h]

/-- The rows `list_expired` selects. -/
def expired (db : Db) (cutoff : Instant) (activeStates : List RunState) (limit : Nat) :
    List RunRow :=
  ((db.runs.rows.filter fun r => r.updatedAt ≤ cutoff && r.state ∈ activeStates).insertionSort
    fun a b => a.updatedAt ≤ b.updatedAt).take limit

/-- `list_expired`. It raises when one selected row does not decode. -/
def listExpired (cutoff : Instant) (activeStates : List RunState) (limit : Nat) :
    Transaction (List Run) := do
  Tx.require (1 ≤ limit) (valueError ("limit must be positive; got " ++ toString limit))
  Tx.attempt fun db => (expired db cutoff activeStates limit).mapM rowToRun

/-- The rows `list_in_states` selects. -/
def inStates (db : Db) (states : List RunState) : List RunRow :=
  (db.runs.rows.filter fun r => r.state ∈ states).insertionSort
    fun a b => a.updatedAt ≤ b.updatedAt

/-- `list_in_states`. -/
def listInStates (states : List RunState) : Transaction (List Run) :=
  Tx.attempt fun db => (inStates db states).mapM rowToRun

/-- The rows `list_paginated` selects: the newest first, those of one moment by `run_id`. -/
def paginated (db : Db) (states : List RunState) (limit offset : Nat) : List RunRow :=
  (((db.runs.rows.filter fun r => r.state ∈ states).insertionSort fun a b =>
    b.createdAt < a.createdAt ∨ (a.createdAt = b.createdAt ∧ b.runId ≤ a.runId)).drop offset).take
      limit

/-- `list_paginated`. -/
def listPaginated (states : List RunState) (limit offset : Int) : Transaction (List Run) := do
  Tx.require (1 ≤ limit) (valueError ("limit must be positive; got " ++ toString limit))
  Tx.require (0 ≤ offset) (valueError ("offset must be non-negative; got " ++ toString offset))
  Tx.attempt fun db => (paginated db states limit.toNat offset.toNat).mapM rowToRun

end RunRepository

/-! ## Stages -/

namespace StageRepository

/-- `save`. -/
def save (stage : Stage) : Transaction Unit := do
  Tx.attempt fun db =>
    if (db.runs.get? stage.runId).isSome then .ok ()
    else .error (integrityError "FOREIGN KEY constraint failed")
  Tx.write fun db =>
    { db with stages := db.stages.upsert stage (fun _ => stage) fun _ _ => rfl }

/-- `get`. -/
def get (runId : RunId) (stageId : StageId) : Transaction Stage :=
  Tx.attempt fun db =>
    match db.stages.get? (runId, stageId) with
    | some stage => .ok stage
    | none => .error {
        errorClass := .unknownStageError
        message := "stage " ++ pyRepr stageId ++ " not found in run " ++ pyRepr runId
        details := [("run_id", .str runId), ("stage_id", .str stageId)] }

theorem get_ok {runId : RunId} {stageId : StageId} {stage : Stage} {db db' : Db}
    (h : get runId stageId db = .ok (stage, db')) :
    db.stages.get? (runId, stageId) = some stage ∧ db = db' := by
  simp only [get, Tx.ok_attempt] at h
  obtain ⟨h, rfl⟩ := h
  cases hs : db.stages.get? (runId, stageId) with
  | none => rw [hs] at h; cases h
  | some s => rw [hs] at h; cases h; exact ⟨rfl, rfl⟩

/-- The rows `list_by_run` selects. -/
def ofRun (db : Db) (runId : RunId) : List Stage :=
  db.stages.rows.filter fun s => s.runId = runId

theorem mem_ofRun {db : Db} {runId : RunId} {s : Stage} :
    s ∈ ofRun db runId ↔ s.runId = runId ∧ db.stages.get? (runId, s.stageId) = some s := by
  unfold ofRun
  rw [List.mem_filter, Table.mem_iff_get?, decide_eq_true_eq, and_comm]
  refine and_congr_right fun h => ?_
  rw [← h]
  rfl

theorem nodup_stageIds_ofRun (db : Db) (runId : RunId) :
    ((ofRun db runId).map Stage.stageId).Nodup := by
  have hkeys : ((ofRun db runId).map Stage.key).Nodup :=
    db.stages.nodup.sublist (List.filter_sublist.map Stage.key)
  have hmap : (ofRun db runId).map Stage.key =
      ((ofRun db runId).map Stage.stageId).map fun i => (runId, i) := by
    rw [List.map_map]
    refine List.map_congr_left fun s hs => ?_
    rw [← (mem_ofRun.mp hs).1]
    rfl
  rw [hmap] at hkeys
  exact hkeys.of_map

/-- Databases with the same stages under a run list the same rows for it. -/
theorem perm_ofRun {db db' : Db} {runId : RunId}
    (h : ∀ stageId, db'.stages.get? (runId, stageId) = db.stages.get? (runId, stageId)) :
    (ofRun db' runId).Perm (ofRun db runId) := by
  have hnodup (db : Db) : (ofRun db runId).Nodup := (nodup_stageIds_ofRun db runId).of_map
  refine (List.perm_ext_iff_of_nodup (hnodup db') (hnodup db)).mpr fun s => ?_
  rw [mem_ofRun, mem_ofRun, h]

/-- `list_by_run`. -/
def listByRun (runId : RunId) : Transaction (List Stage) := Tx.read fun db => ofRun db runId

/-- `list_pending_by_run`. -/
def listPendingByRun (runId : RunId) : Transaction (List StageId) :=
  Tx.read fun db =>
    (db.stages.rows.filter fun s => s.runId = runId && s.state = .pending).map Stage.stageId

end StageRepository

namespace StageRepository

theorem save_ok {stage : Stage} {db db' : Db} {r : Unit} (h : save stage db = .ok (r, db')) :
    db' = { db with
      stages := db.stages.upsert stage (fun _ => stage) fun _ _ => rfl } := by
  simp only [save, Tx.ok_bind, Tx.ok_attempt, Tx.ok_write] at h
  obtain ⟨_, _, ⟨_, rfl⟩, rfl⟩ := h
  rfl

/-- Saving stages of one run writes its rows of `stages` and nothing else. -/
theorem saveAll_ok {runId : RunId} {stages : List Stage} (hs : ∀ s ∈ stages, s.runId = runId)
    {db db' : Db} {r : Unit} (h : Tx.forEach save stages db = .ok (r, db')) :
    ∃ t : Table Stage.key, db' = { db with stages := t } ∧
      ∀ k, k.1 ≠ runId → t.get? k = db.stages.get? k := by
  induction stages generalizing db with
  | nil =>
    simp only [Tx.forEach, Tx.ok_pure, true_and] at h
    exact ⟨db.stages, h.symm, fun _ _ => rfl⟩
  | cons s stages ih =>
    simp only [Tx.forEach, Tx.ok_bind] at h
    obtain ⟨_, mid, hsave, hrest⟩ := h
    have hmid := save_ok hsave
    subst hmid
    obtain ⟨t, rfl, ht⟩ := ih (fun s hs' => hs s (List.mem_cons_of_mem _ hs')) hrest
    refine ⟨t, rfl, fun k hk => (ht k hk).trans (Table.get?_upsert_ne ?_)⟩
    rintro rfl
    exact hk (hs s List.mem_cons_self)

/-- Saving stages under new keys appends their rows. -/
theorem rows_saveAll {stages : List Stage} (hn : (stages.map Stage.key).Nodup) {db db' : Db}
    {r : Unit} (hnew : ∀ s ∈ stages, db.stages.get? s.key = none)
    (h : Tx.forEach save stages db = .ok (r, db')) :
    db'.stages.rows = db.stages.rows ++ stages := by
  induction stages generalizing db with
  | nil =>
    simp only [Tx.forEach, Tx.ok_pure, true_and] at h
    rw [h, List.append_nil]
  | cons s stages ih =>
    simp only [Tx.forEach, Tx.ok_bind] at h
    obtain ⟨_, mid, hsave, hrest⟩ := h
    obtain ⟨hs, hn⟩ := List.nodup_cons.mp hn
    have hmid := save_ok hsave
    subst hmid
    rw [ih hn ?_ hrest, Table.rows_upsert_of_none (hnew s List.mem_cons_self), List.append_assoc]
    · rfl
    · intro x hx
      have hne : x.key ≠ s.key := fun e => hs (e ▸ List.mem_map_of_mem hx)
      rw [Table.get?_upsert_ne hne]
      exact hnew x (List.mem_cons_of_mem _ hx)

end StageRepository

/-! ## Sweeper actions -/

/-- `ClaimedAction`. -/
structure ClaimedAction where
  actionId : Nat
  runId : RunId
  actionName : DispositionAction
  attempts : Nat
  deriving DecidableEq, Repr

namespace SweeperActionRepository

/-- `enqueue`. -/
def enqueue (runId : RunId) (actionName : DispositionAction) (enqueuedAt : Instant) :
    Transaction Unit := do
  Tx.attempt fun db =>
    if (db.runs.get? runId).isSome then .ok ()
    else .error (integrityError "FOREIGN KEY constraint failed")
  Tx.write fun db =>
    { db with
      sweeperActions := db.sweeperActions.insert
        { runId := runId, actionName := actionName, enqueuedAt := enqueuedAt } }

/-- A selected row as the dispatcher sees it. -/
def toClaimed (r : Nat × SweeperActionRow) : ClaimedAction :=
  { actionId := r.1, runId := r.2.runId, actionName := r.2.actionName, attempts := r.2.attempts }

/-- Rows in the order of a timestamp, those of one timestamp by `action_id`. -/
def orderedBy (time : SweeperActionRow → Instant) (rows : List (Nat × SweeperActionRow)) :
    List (Nat × SweeperActionRow) :=
  rows.insertionSort fun a b => time a.2 < time b.2 ∨ (time a.2 = time b.2 ∧ a.1 ≤ b.1)

/-- Update the rows with the given ids, all of which must then pass the `CHECK`s. -/
def updateRows (ids : List Nat) (g : SweeperActionRow → SweeperActionRow) : Transaction Unit := do
  Tx.attempt fun db =>
    if (db.sweeperActions.rows.all fun r => r.1 ∉ ids || (g r.2).checks) then .ok ()
    else .error (integrityError "CHECK constraint failed: sweeper_actions")
  Tx.write fun db =>
    { db with sweeperActions := db.sweeperActions.mapRows fun i r => if i ∈ ids then g r else r }

theorem updateRows_ok {ids : List Nat} {g : SweeperActionRow → SweeperActionRow} {db db' : Db}
    {r : Unit} (h : updateRows ids g db = .ok (r, db')) :
    db' = { db with
      sweeperActions := db.sweeperActions.mapRows fun i r => if i ∈ ids then g r else r } := by
  simp only [updateRows, Tx.ok_bind, Tx.ok_attempt, Tx.ok_write] at h
  obtain ⟨_, _, ⟨_, rfl⟩, rfl⟩ := h
  rfl

/-- The rows `claim_pending` selects. -/
def pending (db : Db) (limit : Nat) : List (Nat × SweeperActionRow) :=
  (orderedBy SweeperActionRow.enqueuedAt
    (db.sweeperActions.rows.filter fun r => r.2.claimedAt = none)).take limit

/-- `claim_pending`. -/
def claimPending (now : Instant) (limit : Nat) : Transaction (List ClaimedAction) := do
  Tx.require (1 ≤ limit) (valueError ("limit must be positive; got " ++ toString limit))
  let rows ← Tx.read fun db => pending db limit
  updateRows (rows.map Prod.fst) fun r => { r with claimedAt := some now }
  pure (rows.map toClaimed)

/-- A row claimed at or before `cutoff` and not completed. -/
def isStuck (cutoff : Instant) (r : SweeperActionRow) : Bool :=
  r.completedAt = none && r.claimedAt.any fun c => c ≤ cutoff

/-- The rows of a stuck query: those that pass `retries`, the longest claimed first. -/
def stuck (db : Db) (cutoff : Instant) (retries : Nat → Bool) (limit : Nat) :
    List (Nat × SweeperActionRow) :=
  (orderedBy (fun r => r.claimedAt.getD 0)
    (db.sweeperActions.rows.filter fun r => isStuck cutoff r.2 && retries r.2.attempts)).take limit

/-- `reclaim_stuck`: claims stuck rows with retries left again, and counts the attempt. -/
def reclaimStuck (now : Instant) (limit staleThresholdSeconds maxAttempts : Nat) :
    Transaction (List ClaimedAction) := do
  Tx.require (1 ≤ limit) (valueError ("limit must be positive; got " ++ toString limit))
  Tx.require (1 ≤ staleThresholdSeconds) (valueError
    ("stale_threshold_seconds must be positive; got " ++ toString staleThresholdSeconds))
  Tx.require (1 ≤ maxAttempts) (valueError
    ("max_attempts must be positive; got " ++ toString maxAttempts))
  let rows ← Tx.read fun db =>
    stuck db (now - seconds staleThresholdSeconds) (fun n => n < maxAttempts) limit
  updateRows (rows.map Prod.fst) fun r =>
    { r with claimedAt := some now, attempts := r.attempts + 1 }
  pure (rows.map fun r => { toClaimed r with attempts := r.2.attempts + 1 })

/-- `find_abandoned`: the stuck rows without retries left. -/
def findAbandoned (now : Instant) (staleThresholdSeconds maxAttempts limit : Nat) :
    Transaction (List ClaimedAction) := do
  Tx.require (1 ≤ limit) (valueError ("limit must be positive; got " ++ toString limit))
  Tx.require (1 ≤ staleThresholdSeconds) (valueError
    ("stale_threshold_seconds must be positive; got " ++ toString staleThresholdSeconds))
  Tx.require (1 ≤ maxAttempts) (valueError
    ("max_attempts must be positive; got " ++ toString maxAttempts))
  Tx.read fun db => (stuck db (now - seconds staleThresholdSeconds)
    (fun n => maxAttempts ≤ n) limit).map toClaimed

theorem reclaimStuck_ok {now : Instant} {limit staleThresholdSeconds maxAttempts : Nat}
    {claimed : List ClaimedAction} {db db' : Db}
    (h : reclaimStuck now limit staleThresholdSeconds maxAttempts db = .ok (claimed, db')) :
    let rows := stuck db (now - seconds staleThresholdSeconds) (fun n => n < maxAttempts) limit
    claimed = (rows.map fun r => { toClaimed r with attempts := r.2.attempts + 1 }) ∧
      db' = { db with
        sweeperActions := db.sweeperActions.mapRows fun i r =>
          if i ∈ rows.map Prod.fst then
            { r with claimedAt := some now, attempts := r.attempts + 1 }
          else r } := by
  simp only [reclaimStuck, Tx.ok_bind, Tx.ok_require, Tx.ok_read, Tx.ok_pure] at h
  obtain ⟨_, _, ⟨_, rfl⟩, _, _, ⟨_, rfl⟩, _, _, ⟨_, rfl⟩, _, _, ⟨rfl, rfl⟩, _, _, hupdate, rfl,
    rfl⟩ := h
  exact ⟨rfl, updateRows_ok hupdate⟩

theorem perm_orderedBy (time : SweeperActionRow → Instant) (rows : List (Nat × SweeperActionRow)) :
    (orderedBy time rows).Perm rows :=
  List.perm_insertionSort _ _

/-- They are in that order. -/
theorem pairwise_orderedBy (time : SweeperActionRow → Instant)
    (rows : List (Nat × SweeperActionRow)) : (orderedBy time rows).Pairwise fun a b =>
      time a.2 < time b.2 ∨ (time a.2 = time b.2 ∧ a.1 ≤ b.1) := by
  let r (a b : Nat × SweeperActionRow) : Prop :=
    time a.2 < time b.2 ∨ (time a.2 = time b.2 ∧ a.1 ≤ b.1)
  have total : Std.Total r := ⟨fun a b => by
    rcases lt_trichotomy (time a.2) (time b.2) with h | h | h
    · exact .inl (.inl h)
    · exact (Nat.le_total a.1 b.1).imp (fun hle => .inr ⟨h, hle⟩) fun hle => .inr ⟨h.symm, hle⟩
    · exact .inr (.inl h)⟩
  have trans : IsTrans _ r := ⟨fun a b c hab hbc => by
    rcases hab with hab | ⟨hab, hid⟩
    · rcases hbc with hbc | ⟨hbc, -⟩
      · exact .inl (lt_trans hab hbc)
      · exact .inl (hbc ▸ hab)
    · rcases hbc with hbc | ⟨hbc, hid'⟩
      · exact .inl (hab ▸ hbc)
      · exact .inr ⟨hab.trans hbc, hid.trans hid'⟩⟩
  exact List.pairwise_insertionSort r rows

theorem mem_pending {db : Db} {limit : Nat} {r : Nat × SweeperActionRow}
    (h : r ∈ pending db limit) : r ∈ db.sweeperActions.rows ∧ r.2.claimedAt = none := by
  have h := (perm_orderedBy _ _).mem_iff.mp (List.mem_of_mem_take h)
  simpa using h

theorem mem_stuck {db : Db} {cutoff : Instant} {retries : Nat → Bool} {limit : Nat}
    {r : Nat × SweeperActionRow} (h : r ∈ stuck db cutoff retries limit) :
    r ∈ db.sweeperActions.rows ∧ isStuck cutoff r.2 = true ∧ retries r.2.attempts = true := by
  have h := (perm_orderedBy _ _).mem_iff.mp (List.mem_of_mem_take h)
  simpa using h

theorem isStuck_iff {cutoff : Instant} {r : SweeperActionRow} :
    isStuck cutoff r = true ↔ r.completedAt = none ∧ ∃ c, r.claimedAt = some c ∧ c ≤ cutoff := by
  unfold isStuck
  cases r.claimedAt <;> simp

theorem nodup_orderedBy {t : Serial SweeperActionRow} (time : SweeperActionRow → Instant)
    (p : Nat × SweeperActionRow → Bool) (limit : Nat) :
    (((orderedBy time (t.rows.filter p)).take limit).map Prod.fst).Nodup := by
  have hrows : (t.rows.map Prod.fst).Nodup :=
    List.pairwise_map.mpr (t.sorted.imp fun h => Nat.ne_of_lt h)
  have hfilter := hrows.sublist (List.filter_sublist (p := p).map Prod.fst)
  exact (((perm_orderedBy time _).map Prod.fst).nodup_iff.mpr hfilter).sublist
    ((List.take_sublist _ _).map Prod.fst)

theorem nodup_pending (db : Db) (limit : Nat) : ((pending db limit).map Prod.fst).Nodup :=
  nodup_orderedBy _ _ _

theorem nodup_stuck (db : Db) (cutoff : Instant) (retries : Nat → Bool) (limit : Nat) :
    ((stuck db cutoff retries limit).map Prod.fst).Nodup :=
  nodup_orderedBy _ _ _

/-- An update that touches no stuck row and makes none leaves the stuck rows as they are. -/
theorem stuck_mapRows {db db' : Db} {g : Nat → SweeperActionRow → SweeperActionRow}
    (hdb : db'.sweeperActions = db.sweeperActions.mapRows g) {cutoff : Instant}
    {retries : Nat → Bool} {limit : Nat}
    (hg : ∀ r ∈ db.sweeperActions.rows,
      isStuck cutoff (g r.1 r.2) = isStuck cutoff r.2 ∧ (isStuck cutoff r.2 → g r.1 r.2 = r.2)) :
    stuck db' cutoff retries limit = stuck db cutoff retries limit := by
  have hfilter : (db'.sweeperActions.rows.filter
        fun r => isStuck cutoff r.2 && retries r.2.attempts) =
      db.sweeperActions.rows.filter fun r => isStuck cutoff r.2 && retries r.2.attempts := by
    rw [hdb]
    simp only [Serial.mapRows]
    generalize db.sweeperActions.rows = rows at hg
    induction rows with
    | nil => rfl
    | cons r rows ih =>
      have ih := ih fun x hx => hg x (List.mem_cons_of_mem _ hx)
      obtain ⟨hsame, hkeep⟩ := hg r List.mem_cons_self
      rw [List.map_cons, List.filter_cons, List.filter_cons, ih]
      by_cases hr : isStuck cutoff r.2 = true
      · simp [hkeep hr]
      · simp [hsame, hr]
  unfold stuck
  rw [hfilter]

/-- `mark_completed`. -/
def markCompleted (actionId : Nat) (completedAt : Instant) : Transaction Unit :=
  updateRows [actionId] fun r => { r with completedAt := some completedAt }

/-- `mark_failed`. -/
def markFailed (actionId : Nat) (completedAt : Instant) (errorMessage : String) :
    Transaction Unit :=
  updateRows [actionId] fun r =>
    { r with completedAt := some completedAt, attempts := r.attempts + 1,
             lastError := some errorMessage }

/-- `mark_abandoned`, which does not count an attempt. -/
def markAbandoned (actionId : Nat) (completedAt : Instant) (errorMessage : String) :
    Transaction Unit :=
  updateRows [actionId] fun r =>
    { r with completedAt := some completedAt, lastError := some errorMessage }

end SweeperActionRepository

/-! ## Subscriptions -/

namespace SubscriptionRepository

/-- The `WHERE` clause of `list_recipients_for_run` on a subscription. -/
def isMatch (pipelineType : String) (tags : SortedSet String) (s : SubscriptionRow) : Bool :=
  match s.granularity, s.targetValue with
  | .global, _ => true
  | .pipeline, some target => target = pipelineType
  | .tag, some target => target ∈ tags
  | _, none => false

/-- The addresses `list_recipients_for_run` selects. -/
def recipients (db : Db) (pipelineType : String) (tags : SortedSet String) : SortedSet String :=
  .ofList <| db.users.rows.filterMap fun (userId, user) =>
    if !user.disabled && (db.subscriptions.rows.any fun s =>
        s.2.userId = userId && isMatch pipelineType tags s.2) then some user.email
    else none

/-- `list_recipients_for_run`. -/
def listRecipientsForRun (pipelineType : String) (tags : SortedSet String) :
    Transaction (SortedSet String) :=
  Tx.read fun db => recipients db pipelineType tags

end SubscriptionRepository

end MessageService.Infrastructure
