import MessageService.Infrastructure.Listings

/-!
# What the dashboard lists

The reading routes of the REST interface: the past runs and the detail of one
(`interfaces/rest/routes/runs.py` over `list_past_runs.py` and `get_run_detail.py`), the audit-log
viewer (`admin_audit.py`) and the user roster (`admin_users.py`). `PageQuery` is a page that the
validation of the query parameters lets through.

* `listRuns_ok`, `listAudit_eq`, `listUsers_eq`: what an answer shows is a page of the rows listed.
* `listRuns_of_decodes`: rows that decode are listed.
* `stageIds_inDeclaredOrder`: the stages of a run's detail come in the order they were declared.
-/

namespace MessageService.Interfaces

open MessageService.Domain MessageService.Lib MessageService.Infrastructure

/-- `limit` and `offset` as `Query(ge=1, le=200)` and `Query(ge=0)` let them through. -/
structure PageQuery where
  limit : Nat := 50
  offset : Nat := 0
  limit_pos : 1 ≤ limit := by decide
  limit_le : limit ≤ 200 := by decide

/-- The validation of the two parameters; what it refuses is answered with 422. -/
def PageQuery.parse (limit offset : Int) : Option PageQuery :=
  if h : 1 ≤ limit ∧ limit ≤ 200 ∧ 0 ≤ offset then
    some {
      limit := limit.toNat
      offset := offset.toNat
      limit_pos := by omega
      limit_le := by omega }
  else none

/-- The next page. -/
def PageQuery.at (q : PageQuery) (offset : Nat) : PageQuery := { q with offset := offset }

/-- `_iso_z` of the routes: `isoformat()` with `Z` for the offset. -/
def isoformatZ (t : Instant) : String :=
  let (text, us) := dateAndTime t
  text ++ (if us = 0 then "" else "." ++ padded 6 us) ++ "Z"

/-! ## Runs -/

/-- `ListPastRunsUseCase.execute`. -/
def listPastRuns (limit offset : Int) (states : Option (List RunState)) :
    Transaction (List Run) :=
  RunRepository.listPaginated (states.getD RunState.terminalStates) limit offset

/-- `RunSummaryResponse`. -/
structure RunSummaryResponse where
  runId : RunId
  pipelineType : String
  state : RunState
  attachmentMode : AttachmentMode
  tags : List String
  createdAt : String
  updatedAt : String
  deriving DecidableEq

/-- `_project_run_summary`, of the row of a run. -/
def projectRunSummary (run : RunRow) : RunSummaryResponse where
  runId := run.runId
  pipelineType := run.pipelineType
  state := run.state
  attachmentMode := run.attachmentMode
  tags := run.tags.elems
  createdAt := isoformatZ run.createdAt
  updatedAt := isoformatZ run.updatedAt

/-- The states a request lists: those it names, or the terminal ones. -/
def effectiveStates (states : List RunState) : List RunState :=
  if states.isEmpty then RunState.terminalStates else states

/-- `GET /runs`. -/
def listRuns (q : PageQuery) (states : List RunState) : Transaction (List RunSummaryResponse) := do
  let runs ← listPastRuns q.limit q.offset (some (effectiveStates states))
  pure (runs.map fun run => projectRunSummary run.toRunRow)

theorem listRuns_ok {q : PageQuery} {states : List RunState} {db db' : Db}
    {items : List RunSummaryResponse} (h : listRuns q states db = .ok (items, db')) :
    db' = db ∧ items = (page (RunRepository.listed db (effectiveStates states)) q.limit
      q.offset).map projectRunSummary := by
  simp only [listRuns, listPastRuns, Option.getD_some, Tx.ok_bind, Tx.ok_pure] at h
  obtain ⟨runs, _, hruns, rfl, rfl⟩ := h
  obtain ⟨rfl, -, -, hpage⟩ := RunRepository.listPaginated_ok hruns
  refine ⟨rfl, ?_⟩
  rw [Int.toNat_natCast, Int.toNat_natCast] at hpage
  rw [← hpage, List.map_map]
  rfl

/-- A page of rows that decode is shown. -/
theorem listRuns_of_decodes {q : PageQuery} {states : List RunState} {db : Db}
    (h : ∀ row ∈ RunRepository.listed db (effectiveStates states),
      ∃ run : Run, run.toRunRow = row) :
    ∃ items, listRuns q states db = .ok (items, db) := by
  have hrows : ∀ rows : List RunRow,
      (∀ row ∈ rows, row ∈ RunRepository.listed db (effectiveStates states)) →
        ∃ runs, rows.mapM rowToRun = .ok runs := by
    intro rows hsub
    cases hm : rows.mapM rowToRun with
    | ok runs => exact ⟨runs, rfl⟩
    | error e =>
      obtain ⟨before, row, after, rfl, -, hrow⟩ := mapM_eq_error_iff.mp hm
      obtain ⟨run, rfl⟩ := h row (hsub row (by simp))
      rw [rowToRun_toRunRow] at hrow
      cases hrow
  obtain ⟨runs, hruns⟩ := hrows
    (page (RunRepository.listed db (effectiveStates states)) q.limit q.offset) fun _ => mem_of_mem_page
  refine ⟨runs.map fun run => projectRunSummary run.toRunRow, ?_⟩
  have hlimit : (1 : Int) ≤ q.limit := by exact_mod_cast q.limit_pos
  simp only [listRuns, listPastRuns, RunRepository.listPaginated, Tx.ok_bind, Tx.ok_require,
    Tx.ok_attempt, Tx.ok_pure, Option.getD_some, Int.toNat_natCast, RunRepository.paginated_eq]
  exact ⟨runs, db, ⟨(), db, ⟨hlimit, rfl⟩, (), db, ⟨Int.natCast_nonneg _, rfl⟩, hruns, rfl⟩,
    rfl, rfl⟩

/-! ## The detail of a run -/

/-- `RunDetail`. -/
structure RunDetail where
  run : Run
  stages : List Stage

/-- The stages in the order they were declared; `by_id` has the last one of an id. -/
def inDeclaredOrder (declared : List DeclaredStage) (stages : List Stage) : List Stage :=
  declared.filterMap fun ds => stages.reverse.find? fun s => s.stageId = ds.stageId

/-- `GetRunDetailUseCase.execute`. -/
def getRunDetail (runId : RunId) : Transaction RunDetail := do
  let run ← RunRepository.get runId
  let stages ← StageRepository.listByRun runId
  pure { run := run, stages := inDeclaredOrder run.declaredStages stages }

/-- Stages found for every declared one come in the declared order. -/
theorem stageIds_inDeclaredOrder {declared : List DeclaredStage} {stages : List Stage}
    (h : ∀ ds ∈ declared, ∃ s ∈ stages, s.stageId = ds.stageId) :
    (inDeclaredOrder declared stages).map Stage.stageId = declared.map DeclaredStage.stageId := by
  induction declared with
  | nil => rfl
  | cons ds rest ih =>
    obtain ⟨hds, hrest⟩ := List.forall_mem_cons.mp h
    obtain ⟨s, hs, hid⟩ := hds
    cases hfind : stages.reverse.find? fun s => s.stageId = ds.stageId with
    | none =>
      have hnone := List.find?_eq_none.mp hfind s (List.mem_reverse.mpr hs)
      simp [hid] at hnone
    | some found =>
      have hfound : found.stageId = ds.stageId := by simpa using List.find?_some hfind
      have hcons : inDeclaredOrder (ds :: rest) stages = found :: inDeclaredOrder rest stages := by
        rw [inDeclaredOrder, List.filterMap_cons, hfind]
        rfl
      rw [hcons, List.map_cons, List.map_cons, hfound, ih hrest]

theorem mem_of_mem_inDeclaredOrder {declared : List DeclaredStage} {stages : List Stage} {s : Stage}
    (h : s ∈ inDeclaredOrder declared stages) : s ∈ stages := by
  obtain ⟨ds, -, hfind⟩ := List.mem_filterMap.mp h
  exact List.mem_reverse.mp (List.mem_of_find?_eq_some hfind)

theorem getRunDetail_ok {runId : RunId} {db db' : Db} {detail : RunDetail}
    (h : getRunDetail runId db = .ok (detail, db')) :
    db' = db ∧ db.runs.get? runId = some detail.run.toRunRow ∧
      detail.stages =
        inDeclaredOrder detail.run.declaredStages (StageRepository.ofRun db runId) := by
  simp only [getRunDetail, RunRepository.get, StageRepository.listByRun, Tx.ok_bind, Tx.ok_attempt,
    Tx.ok_read, Tx.ok_pure] at h
  obtain ⟨run, _, ⟨hrun, rfl⟩, stages, _, ⟨rfl, rfl⟩, rfl, rfl⟩ := h
  exact ⟨rfl, RunRepository.find_ok hrun, rfl⟩

/-! ## Audit log -/

/-- `AuditRecordResponse`. -/
structure AuditRecordResponse where
  auditId : Nat
  timestamp : String
  action : AuditAction
  actor : String
  resource : String
  outcome : AuditOutcome
  details : Dict Json

/-- `_project_event`. -/
def projectEvent (r : Nat × AuditEvent) : AuditRecordResponse where
  auditId := r.1
  timestamp := isoformatZ r.2.timestamp
  action := r.2.action
  actor := r.2.actor
  resource := r.2.resource
  outcome := r.2.outcome
  details := r.2.details

/-- `GET /admin/audit`. -/
def listAudit (q : PageQuery) (f : AuditFilter) : Transaction (List AuditRecordResponse) := do
  let events ← AuditLog.listPaginated f q.limit q.offset
  pure (events.map projectEvent)

theorem listAudit_eq (q : PageQuery) (f : AuditFilter) (db : Db) :
    listAudit q f db =
      .ok ((page (AuditLog.listed db f) q.limit q.offset).map projectEvent, db) := by
  have hlimit : (1 : Int) ≤ q.limit := by exact_mod_cast q.limit_pos
  simp only [listAudit, AuditLog.listPaginated, Tx.ok_bind, Tx.ok_require, Tx.ok_read, Tx.ok_pure]
  exact ⟨_, db, ⟨(), db, ⟨hlimit, rfl⟩, (), db, ⟨Int.natCast_nonneg _, rfl⟩, rfl, rfl⟩, rfl, rfl⟩

/-! ## Users -/

/-- `UserListItemResponse`, without the password hash. -/
structure UserListItemResponse where
  userId : Nat
  email : String
  displayName : String
  isAdmin : Bool
  disabled : Bool
  createdAt : String
  deriving DecidableEq

/-- `_project_user_list_item`. -/
def projectUserListItem (r : Nat × User) : UserListItemResponse where
  userId := r.1
  email := r.2.email
  displayName := r.2.displayName
  isAdmin := r.2.isAdmin
  disabled := r.2.disabled
  createdAt := isoZ r.2.createdAt

/-- `GET /admin/users`. -/
def listUsers (q : PageQuery) : AccountsTx (List UserListItemResponse) := do
  let users ← UserRepository.listPaginated q.limit q.offset
  pure (users.map projectUserListItem)

theorem listUsers_eq (q : PageQuery) (a : Accounts) :
    listUsers q a =
      .ok ((page a.users.table.rows q.limit q.offset).map projectUserListItem, a) := by
  have hsorted : a.users.table.rows.Pairwise fun r s => r.1 ≤ s.1 :=
    a.users.table.sorted.imp Nat.le_of_lt
  simp only [listUsers, UserRepository.listPaginated, Tx.ok_bind, Tx.ok_read, Tx.ok_pure,
    hsorted.insertionSort_eq]
  exact ⟨_, a, ⟨rfl, rfl⟩, rfl, rfl⟩

end MessageService.Interfaces
