import MessageService.Domain.Isoformat
import MessageService.Infrastructure.SessionRepository
import MessageService.Infrastructure.Store
import MessageService.Lib.SqlSelect

/-!
# Timestamps in the database

The tables hold timestamps as the text that `iso_z` writes, and SQLite compares them as text, by the
bytes of UTF-8. Here are the queries and `CHECK`s of the repositories that compare them, under the
names of their statements; the columns that hold timestamps are named, and `stored` is what is in
them.

* `select_stored`, `passes_stored`: **each of them does with the text what it does with the
  moments**.
* `expired_stored`, `pending_stored`, `olderThan_stored` and the others: what the repositories of
  `Store` select by moments is what their statements select by text.
-/

namespace MessageService.Infrastructure

open MessageService.Domain MessageService.Lib MessageService.Lib.Sql

/-- What the database holds of timestamps. -/
def stored {ρ κ : Type} (times : ρ → κ → Option Instant) (row : ρ) (c : κ) : Option String :=
  (times row c).map isoZ

theorem keepsOrder_isoZ : KeepsOrder Instant.InRange isoZ := fun _ _ ht hu => isoZ_lt_iff ht hu

/-- **A query over the text** selects the rows that it selects over the moments. -/
theorem select_stored {ρ κ : Type} {times : ρ → κ → Option Instant} {params : List Instant}
    {rows : List ρ} (q : Query ρ κ) (hps : ∀ t ∈ params, t.InRange)
    (hrows : ∀ row ∈ rows, RowMeets Instant.InRange times row) :
    q.select (stored times) (params.map isoZ) rows = q.select times params rows :=
  q.select_map keepsOrder_isoZ hps hrows

/-- **A `CHECK` on the text** lets the rows pass that it lets pass by their moments. -/
theorem passes_stored {ρ κ : Type} {times : ρ → κ → Option Instant} {row : ρ} (t : Test ρ κ)
    (hrow : RowMeets Instant.InRange times row) :
    t.Passes (stored times) [] row ↔ t.Passes times [] row :=
  t.passes_map keepsOrder_isoZ (fun _ h => absurd h List.not_mem_nil) hrow

/-! ## Runs -/

/-- The timestamps of a row of `runs`. -/
inductive RunTime where
  | createdAt
  | updatedAt

def runTimes (r : RunRow) : RunTime → Option Instant
  | .createdAt => some r.createdAt
  | .updatedAt => some r.updatedAt

namespace RunRepository

/-- `_SQL_LIST_EXPIRED_BASE`: `updated_at <= ? AND state IN (...)`, by `updated_at`. -/
def listExpiredBase (states : List RunState) : Query RunRow RunTime where
  test := .and (.lessEq (.column .updatedAt) (.param 0)) (.holds fun r => r.state ∈ states)
  order := [.ascending .updatedAt]

/-- The statement of `list_in_states`: `state IN (...)`, by `updated_at`. -/
def listInStatesQuery (states : List RunState) : Query RunRow RunTime where
  test := .holds fun r => r.state ∈ states
  order := [.ascending .updatedAt]

/-- The statement of `list_paginated`: `state IN (...)`, by `created_at DESC, run_id DESC`. -/
def listPaginatedQuery (states : List RunState) : Query RunRow RunTime where
  test := .holds fun r => r.state ∈ states
  order := [.descending .createdAt, .other fun a b => b.runId ≤ a.runId]

theorem select_listExpiredBase (db : Db) (cutoff : Instant) (states : List RunState)
    (limit : Nat) : ((listExpiredBase states).select runTimes [cutoff] db.runs.rows).take limit =
      expired db cutoff states limit := by
  have hfilter : (db.runs.rows.filter fun r =>
      (listExpiredBase states).test.eval runTimes [cutoff] r = some true) =
        db.runs.rows.filter fun r => r.updatedAt ≤ cutoff && r.state ∈ states := by
    refine List.filter_congr fun r _ => ?_
    simp [listExpiredBase, Test.eval, Term.eval, compared, runTimes]
  rw [Query.select, hfilter, expired]
  refine congrArg (List.take limit) (insertionSort_congr fun a _ b _ => ?_)
  exact precedes_ascending rfl rfl

theorem filter_states (db : Db) (states : List RunState) : (db.runs.rows.filter fun r =>
    (Test.holds fun r : RunRow => r.state ∈ states).eval runTimes [] r = some true) =
      db.runs.rows.filter fun r => r.state ∈ states :=
  List.filter_congr fun r _ => by simp [Test.eval]

theorem select_listInStates (db : Db) (states : List RunState) :
    (listInStatesQuery states).select runTimes [] db.runs.rows = inStates db states := by
  rw [Query.select, listInStatesQuery, filter_states]
  exact insertionSort_congr fun a _ b _ => precedes_ascending rfl rfl

theorem select_listPaginated (db : Db) (states : List RunState) (limit offset : Nat) :
    (((listPaginatedQuery states).select runTimes [] db.runs.rows).drop offset).take limit =
      paginated db states limit offset := by
  rw [Query.select, listPaginatedQuery, filter_states, paginated]
  congr 2
  exact insertionSort_congr fun a _ b _ => (precedes_descending_other rfl rfl).trans (by simp)

end RunRepository

/-! ## Sweeper actions -/

/-- The timestamps of a row of `sweeper_actions`. -/
inductive ActionTime where
  | enqueuedAt
  | claimedAt
  | completedAt

def actionTimes (r : Nat × SweeperActionRow) : ActionTime → Option Instant
  | .enqueuedAt => some r.2.enqueuedAt
  | .claimedAt => r.2.claimedAt
  | .completedAt => r.2.completedAt

namespace SweeperActionRepository

/-- By `action_id`. -/
def byActionId : SortKey (Nat × SweeperActionRow) ActionTime := .other fun a b => a.1 ≤ b.1

/-- `_SQL_CLAIM_SELECT_PENDING`: `claimed_at IS NULL`, by `enqueued_at, action_id`. -/
def claimSelectPending : Query (Nat × SweeperActionRow) ActionTime where
  test := .isNull .claimedAt
  order := [.ascending .enqueuedAt, byActionId]

/-- `_SQL_SELECT_STUCK` and `_SQL_SELECT_ABANDONED`: `completed_at IS NULL AND claimed_at IS NOT NULL
AND claimed_at <= ?` and a condition on the attempts, by `claimed_at, action_id`. -/
def selectStuck (retries : Nat → Bool) : Query (Nat × SweeperActionRow) ActionTime where
  test := .and (.and (.and (.isNull .completedAt) (.isNotNull .claimedAt))
    (.lessEq (.column .claimedAt) (.param 0))) (.holds fun r => retries r.2.attempts)
  order := [.ascending .claimedAt, byActionId]

/-- `CHECK (claimed_at IS NULL OR claimed_at >= enqueued_at)`. -/
def claimedCheck : Test (Nat × SweeperActionRow) ActionTime :=
  .or (.isNull .claimedAt) (.lessEq (.column .enqueuedAt) (.column .claimedAt))

/-- `CHECK (completed_at IS NULL OR (claimed_at IS NOT NULL AND completed_at >= claimed_at))`. -/
def completedCheck : Test (Nat × SweeperActionRow) ActionTime :=
  .or (.isNull .completedAt)
    (.and (.isNotNull .claimedAt) (.lessEq (.column .claimedAt) (.column .completedAt)))

theorem select_claimPending (db : Db) (limit : Nat) :
    (claimSelectPending.select actionTimes [] db.sweeperActions.rows).take limit =
      pending db limit := by
  have hfilter : (db.sweeperActions.rows.filter fun r =>
      claimSelectPending.test.eval actionTimes [] r = some true) =
        db.sweeperActions.rows.filter fun r => r.2.claimedAt = none := by
    refine List.filter_congr fun r _ => ?_
    simp [claimSelectPending, Test.eval, actionTimes]
  rw [Query.select, hfilter]
  refine congrArg (List.take limit) (insertionSort_congr fun a _ b _ => ?_)
  exact (precedes_ascending_other rfl rfl).trans (by simp)

theorem select_stuck (db : Db) (cutoff : Instant) (retries : Nat → Bool) (limit : Nat) :
    ((selectStuck retries).select actionTimes [cutoff] db.sweeperActions.rows).take limit =
      stuck db cutoff retries limit := by
  have hfilter : (db.sweeperActions.rows.filter fun r =>
      (selectStuck retries).test.eval actionTimes [cutoff] r = some true) =
        db.sweeperActions.rows.filter fun r => isStuck cutoff r.2 && retries r.2.attempts := by
    refine List.filter_congr fun r _ => ?_
    cases hc : r.2.claimedAt <;>
      simp [selectStuck, Test.eval, Term.eval, compared, actionTimes, isStuck, hc]
  have hclaimed : ∀ r ∈ db.sweeperActions.rows.filter
      (fun r => isStuck cutoff r.2 && retries r.2.attempts),
        actionTimes r .claimedAt = some (r.2.claimedAt.getD 0) := by
    intro r hr
    have hstuck := (List.mem_filter.mp hr).2
    rw [Bool.and_eq_true, isStuck_iff] at hstuck
    obtain ⟨⟨-, c, hc, -⟩, -⟩ := hstuck
    simp [actionTimes, hc]
  rw [Query.select, hfilter]
  refine congrArg (List.take limit) (insertionSort_congr fun a ha b hb => ?_)
  exact (precedes_ascending_other (hclaimed a ha) (hclaimed b hb)).trans (by simp)

/-- The `CHECK`s of a row are those of `SweeperActionRow.checks`. -/
theorem checks_iff (r : Nat × SweeperActionRow) : r.2.checks = true ↔
    claimedCheck.Passes actionTimes [] r ∧ completedCheck.Passes actionTimes [] r := by
  rw [claimedCheck, completedCheck, Test.passes_or, Test.passes_or, Test.passes_and]
  cases hc : r.2.claimedAt <;> cases hd : r.2.completedAt <;>
    simp [SweeperActionRow.checks, Test.Passes, Test.eval, Term.eval, compared, actionTimes, hc, hd]

end SweeperActionRepository

/-! ## Audit log -/

/-- The timestamp of a row of `audit_log`. -/
inductive AuditTime where
  | timestamp

def auditTimes (r : Nat × AuditEvent) : AuditTime → Option Instant
  | .timestamp => some r.2.timestamp

namespace AuditLog

/-- `_SQL_FETCH_OLDER_THAN`, and the sub-select of `_SQL_DELETE_OLDER_THAN`: `timestamp < ?`, by
`timestamp ASC, audit_id ASC`. -/
def fetchOlderThanQuery : Query (Nat × AuditEvent) AuditTime where
  test := .less (.column .timestamp) (.param 0)
  order := [.ascending .timestamp, .other fun a b => a.1 ≤ b.1]

/-- The `WHERE` clause of `query` and of `list_paginated`: `timestamp >= ?` and `timestamp <= ?`,
where they are asked for, and what is asked of the other columns. -/
def whereClause (other : Nat × AuditEvent → Bool) (since upTo : Bool) :
    Test (Nat × AuditEvent) AuditTime :=
  let other := .holds other
  let other := if since then .and other (.lessEq (.param 0) (.column .timestamp)) else other
  if upTo then .and other (.lessEq (.column .timestamp) (.param (if since then 1 else 0))) else other

/-- The statement of `query`: by `timestamp DESC, audit_id DESC`. -/
def queryQuery (other : Nat × AuditEvent → Bool) (since upTo : Bool) :
    Query (Nat × AuditEvent) AuditTime where
  test := whereClause other since upTo
  order := [.descending .timestamp, .other fun a b => b.1 ≤ a.1]

/-- The statement of `list_paginated`: by `audit_id DESC`. -/
def listPaginatedQuery (other : Nat × AuditEvent → Bool) (since upTo : Bool) :
    Query (Nat × AuditEvent) AuditTime where
  test := whereClause other since upTo
  order := [.other fun a b => b.1 ≤ a.1]

theorem select_fetchOlderThan (db : Db) (cutoff : Instant) (limit : Nat) :
    (fetchOlderThanQuery.select auditTimes [cutoff] db.auditLog.rows).take limit =
      olderThan db cutoff limit := by
  have hfilter : (db.auditLog.rows.filter fun r =>
      fetchOlderThanQuery.test.eval auditTimes [cutoff] r = some true) =
        db.auditLog.rows.filter fun r => r.2.timestamp < cutoff := by
    refine List.filter_congr fun r _ => ?_
    simp [fetchOlderThanQuery, Test.eval, Term.eval, compared, auditTimes]
  rw [Query.select, hfilter, olderThan]
  refine congrArg (List.take limit) (insertionSort_congr fun a _ b _ => ?_)
  exact (precedes_ascending_other rfl rfl).trans (by simp)

end AuditLog

/-! ## Sessions -/

/-- The timestamps of a row of `sessions`. -/
inductive SessionTime where
  | createdAt
  | lastActivityAt

/-- A row of `sessions`, checked or not. -/
structure SessionColumns where
  tokenHash : String
  userId : Int
  createdAt : Instant
  lastActivityAt : Instant

def sessionTimes (r : SessionColumns) : SessionTime → Option Instant
  | .createdAt => some r.createdAt
  | .lastActivityAt => some r.lastActivityAt

namespace Sessions

/-- `_SQL_DELETE_EXPIRED`: `last_activity_at < ?`. -/
def deleteExpired : Query SessionColumns SessionTime where
  test := .less (.column .lastActivityAt) (.param 0)

/-- `CHECK (last_activity_at >= created_at)`. -/
def activityCheck : Test SessionColumns SessionTime :=
  .lessEq (.column .createdAt) (.column .lastActivityAt)

/-- The order of the rows plays no part in a `DELETE`. -/
theorem mem_deleteExpired {rows : List SessionColumns} {r : SessionColumns}
    {idleThreshold : Instant} : r ∈ deleteExpired.select sessionTimes [idleThreshold] rows ↔
      r ∈ rows ∧ r.lastActivityAt < idleThreshold := by
  rw [Query.select, List.mem_insertionSort, List.mem_filter]
  simp [deleteExpired, Test.eval, Term.eval, compared, sessionTimes]

theorem activityCheck_passes (r : SessionColumns) :
    activityCheck.Passes sessionTimes [] r ↔ r.createdAt ≤ r.lastActivityAt := by
  simp [Test.Passes, activityCheck, Test.eval, Term.eval, compared, sessionTimes]

end Sessions

/-! ## All of them -/

/-- The timestamps of a database have dates. -/
structure TimesInRange (db : Db) : Prop where
  runs : ∀ r ∈ db.runs.rows, RowMeets Instant.InRange runTimes r
  sweeperActions : ∀ r ∈ db.sweeperActions.rows, RowMeets Instant.InRange actionTimes r
  auditLog : ∀ r ∈ db.auditLog.rows, RowMeets Instant.InRange auditTimes r

/-- What the statements make of the text is what they make of the moments. -/
structure StatementsAgree (db : Db) (sessions : List SessionColumns) : Prop where
  listExpired : ∀ cutoff : Instant, cutoff.InRange → ∀ states limit,
    ((RunRepository.listExpiredBase states).select (stored runTimes) [isoZ cutoff]
      db.runs.rows).take limit = RunRepository.expired db cutoff states limit
  listInStates : ∀ states, (RunRepository.listInStatesQuery states).select (stored runTimes) []
    db.runs.rows = RunRepository.inStates db states
  listPaginated : ∀ states limit offset,
    (((RunRepository.listPaginatedQuery states).select (stored runTimes) []
      db.runs.rows).drop offset).take limit = RunRepository.paginated db states limit offset
  claimPending : ∀ limit, (SweeperActionRepository.claimSelectPending.select (stored actionTimes) []
    db.sweeperActions.rows).take limit = SweeperActionRepository.pending db limit
  stuck : ∀ cutoff : Instant, cutoff.InRange → ∀ retries limit,
    ((SweeperActionRepository.selectStuck retries).select (stored actionTimes) [isoZ cutoff]
      db.sweeperActions.rows).take limit = SweeperActionRepository.stuck db cutoff retries limit
  olderThan : ∀ cutoff : Instant, cutoff.InRange → ∀ limit,
    (AuditLog.fetchOlderThanQuery.select (stored auditTimes) [isoZ cutoff]
      db.auditLog.rows).take limit = AuditLog.olderThan db cutoff limit
  auditQuery : ∀ other since upTo, ∀ params : List Instant, (∀ t ∈ params, t.InRange) →
    (AuditLog.queryQuery other since upTo).select (stored auditTimes) (params.map isoZ)
        db.auditLog.rows =
      (AuditLog.queryQuery other since upTo).select auditTimes params db.auditLog.rows
  auditPage : ∀ other since upTo, ∀ params : List Instant, (∀ t ∈ params, t.InRange) →
    (AuditLog.listPaginatedQuery other since upTo).select (stored auditTimes) (params.map isoZ)
        db.auditLog.rows =
      (AuditLog.listPaginatedQuery other since upTo).select auditTimes params db.auditLog.rows
  deleteExpired : ∀ idleThreshold : Instant, idleThreshold.InRange → ∀ r,
    r ∈ Sessions.deleteExpired.select (stored sessionTimes) [isoZ idleThreshold] sessions ↔
      r ∈ sessions ∧ r.lastActivityAt < idleThreshold
  actionChecks : ∀ r, RowMeets Instant.InRange actionTimes r →
    (SweeperActionRepository.claimedCheck.Passes (stored actionTimes) [] r ∧
      SweeperActionRepository.completedCheck.Passes (stored actionTimes) [] r ↔ r.2.checks = true)
  activityCheck : ∀ r, RowMeets Instant.InRange sessionTimes r →
    (Sessions.activityCheck.Passes (stored sessionTimes) [] r ↔ r.createdAt ≤ r.lastActivityAt)

theorem statementsAgree {db : Db} {sessions : List SessionColumns} (h : TimesInRange db)
    (hs : ∀ r ∈ sessions, RowMeets Instant.InRange sessionTimes r) :
    StatementsAgree db sessions := by
  have hnone : ∀ t ∈ ([] : List Instant), t.InRange := fun t ht => absurd ht List.not_mem_nil
  have hone (t : Instant) (ht : t.InRange) : ∀ u ∈ [t], Instant.InRange u :=
    fun u hu => List.mem_singleton.mp hu ▸ ht
  constructor
  case listExpired =>
    intro cutoff hc states limit
    rw [← RunRepository.select_listExpiredBase, ← select_stored _ (hone _ hc) h.runs]
    rfl
  case listInStates =>
    intro states
    rw [← RunRepository.select_listInStates, ← select_stored _ hnone h.runs]
    rfl
  case listPaginated =>
    intro states limit offset
    rw [← RunRepository.select_listPaginated, ← select_stored _ hnone h.runs]
    rfl
  case claimPending =>
    intro limit
    rw [← SweeperActionRepository.select_claimPending, ← select_stored _ hnone h.sweeperActions]
    rfl
  case stuck =>
    intro cutoff hc retries limit
    rw [← SweeperActionRepository.select_stuck, ← select_stored _ (hone _ hc) h.sweeperActions]
    rfl
  case olderThan =>
    intro cutoff hc limit
    rw [← AuditLog.select_fetchOlderThan, ← select_stored _ (hone _ hc) h.auditLog]
    rfl
  case auditQuery =>
    intro other since upTo params hps
    exact select_stored _ hps h.auditLog
  case auditPage =>
    intro other since upTo params hps
    exact select_stored _ hps h.auditLog
  case deleteExpired =>
    intro idleThreshold hi r
    rw [← Sessions.mem_deleteExpired, ← select_stored _ (hone _ hi) hs]
    rfl
  case actionChecks =>
    intro r hr
    rw [SweeperActionRepository.checks_iff, passes_stored _ hr, passes_stored _ hr]
  case activityCheck =>
    intro r hr
    rw [passes_stored _ hr, Sessions.activityCheck_passes]

/-- **Timestamps as strings keep order and value**, of aware values whatever their offsets, and so
the statements that compare them compare the moments. -/
theorem timestamps_as_text :
    (∀ t u : Datetime, ∀ o p, t.offset = some o → u.offset = some p → t.instant.InRange →
        u.instant.InRange → ∃ a b, t.isoZOf = .ok a ∧ u.isoZOf = .ok b ∧
          (a < b ↔ t.instant < u.instant)) ∧
      (∀ t : Datetime, ∀ o, t.offset = some o → t.instant.InRange → ∃ a v, t.isoZOf = .ok a ∧
        parseIsoZ a = .ok v ∧ v.offset = some 0 ∧ v.instant = t.instant) ∧
      ∀ db sessions, TimesInRange db →
        (∀ r ∈ sessions, RowMeets Instant.InRange sessionTimes r) → StatementsAgree db sessions := by
  refine ⟨?_, ?_, fun db sessions h hs => statementsAgree h hs⟩
  · intro t u o p ho hp ht hu
    exact ⟨isoZ t.instant, isoZ u.instant, Datetime.isoZOf_eq ho ht, Datetime.isoZOf_eq hp hu,
      isoZ_lt_iff ht hu⟩
  · intro t o ho ht
    exact ⟨isoZ t.instant, Datetime.ofInstant t.instant ht, Datetime.isoZOf_eq ho ht,
      parseIsoZ_isoZ ht, rfl, Datetime.instant_ofInstant ht⟩

/-- The first hour of a year, an hour ahead of UTC. -/
def newYearAhead : Datetime where
  year := 2026
  month := 1
  day := 1
  hour := 0
  minute := 30
  second := 0
  microsecond := 0
  offset := some 3600000000
  date := by decide
  year_le := by decide
  hour_lt := by decide
  minute_lt := by decide
  second_lt := by decide
  microsecond_lt := by decide
  offset_lt := by decide

/-- A moment later: half past eleven in the evening, in UTC. -/
def newYearEve : Datetime := .ofInstant 63902820600300000 (by decide)

/-- A run of the first hours of the year. -/
def newYearRun (runId : RunId) (updatedAt : Instant) : RunRow where
  runId
  pipelineType := "daily"
  tags := .ofList []
  declaredStages := []
  state := .aggregating
  attachmentMode := .perStage
  aggregationTemplateRef := none
  subscriptionPredicateTags := .ofList []
  createdAt := 63902820600000000
  updatedAt

theorem newYearRuns_nodup : (["3f", "7b"] : List RunId).Nodup := by decide

/-- Two runs, with an action and a row of the audit log. -/
def newYearDb : Db where
  runs := {
    rows := [newYearRun "3f" 63902820600300000, newYearRun "7b" 63902820600000000]
    nodup := newYearRuns_nodup }
  auditLog := Serial.empty.insert {
    timestamp := 63902820600000000
    action := .beginRun
    actor := "pipeline:daily"
    resource := runResource "3f"
    outcome := .success }
  sweeperActions := Serial.empty.insert {
    runId := "7b"
    actionName := .notifyAdmins
    enqueuedAt := 63902820600000000
    claimedAt := some 63902820600300000 }

/-- A session with a last request of its own. -/
def newYearSession : SessionColumns where
  tokenHash := "c0ffee"
  userId := 1
  createdAt := 63902820600000000
  lastActivityAt := 63902820600300000

theorem newYearDb_timesInRange : TimesInRange newYearDb where
  runs r hr c x hx := by
    simp only [newYearDb, List.mem_cons, List.not_mem_nil, or_false] at hr
    rcases hr with rfl | rfl <;> cases c <;> rw [← Option.some.inj hx] <;> decide
  sweeperActions r hr c x hx := by
    obtain rfl := List.mem_singleton.mp hr
    cases c with
    | enqueuedAt | claimedAt =>
      rw [← Option.some.inj hx]
      decide
    | completedAt => cases hx
  auditLog r hr c x hx := by
    obtain rfl := List.mem_singleton.mp hr
    cases c
    rw [← Option.some.inj hx]
    decide

/-- Of the two runs the statement finds the one that is due. -/
theorem timestamps_as_text_newYear :
    (∃ a b, newYearAhead.isoZOf = .ok a ∧ newYearEve.isoZOf = .ok b ∧ a < b) ∧
      (∃ a v, newYearAhead.isoZOf = .ok a ∧ parseIsoZ a = .ok v ∧ v.offset = some 0 ∧
        v.instant = newYearAhead.instant) ∧
      StatementsAgree newYearDb [newYearSession] ∧
      (((RunRepository.listExpiredBase [.aggregating]).select (stored runTimes)
        [isoZ 63902820600000000] newYearDb.runs.rows).take 10).map RunRow.runId = ["7b"] := by
  obtain ⟨horder, hvalue, hagree⟩ := timestamps_as_text
  have hstatements : StatementsAgree newYearDb [newYearSession] := by
    refine hagree newYearDb [newYearSession] newYearDb_timesInRange fun r hr c x hx => ?_
    obtain rfl := List.mem_singleton.mp hr
    cases c <;> rw [← Option.some.inj hx] <;> decide
  refine ⟨?_, hvalue newYearAhead 3600000000 rfl (by decide +kernel), hstatements, ?_⟩
  · obtain ⟨a, b, ha, hb, hlt⟩ := horder newYearAhead newYearEve 3600000000 0 rfl rfl
      (by decide +kernel) (by decide +kernel)
    exact ⟨a, b, ha, hb, hlt.mpr (by decide +kernel)⟩
  · rw [hstatements.listExpired 63902820600000000 (by decide) [.aggregating] 10]
    decide +kernel

end MessageService.Infrastructure
