import MessageService.Infrastructure.TimeQueries
import MessageService.Infrastructure.UserRepository
import MessageService.Lib.Paging
import Mathlib.Data.Prod.Lex
import Mathlib.Data.String.Basic

/-!
# Listings

The statements of the repositories that hand out a page of a table: `list_paginated` of the runs
(`run_repository.py`), of the audit log (`audit_log.py`, with `query`) and of the users
(`user_repository.py`).

* `RunRepository.listPaginated_ok`: what is returned is a page of the rows in the given states.
* `RunRepository.sublist_listed`: more rows push the others back and never change their order.
* `AuditLog.select_listPaginated`, `AuditLog.select_query`: the statement put together from the
  filters that are given selects the rows that pass them all.
-/

namespace MessageService.Infrastructure

open MessageService.Domain MessageService.Lib MessageService.Lib.Sql

/-! ## Runs -/

namespace RunRepository

/-- `ORDER BY created_at DESC, run_id DESC`. -/
def NewestFirst (a b : RunRow) : Prop :=
  b.createdAt < a.createdAt ∨ a.createdAt = b.createdAt ∧ b.runId ≤ a.runId

instance : DecidableRel NewestFirst := fun _ _ => inferInstanceAs (Decidable (_ ∨ _))

/-- The rows in `states`, the newest first. -/
def listed (db : Db) (states : List RunState) : List RunRow :=
  (db.runs.rows.filter fun r => r.state ∈ states).insertionSort NewestFirst

theorem paginated_eq (db : Db) (states : List RunState) (limit offset : Nat) :
    paginated db states limit offset = page (listed db states) limit offset :=
  congrArg (page · limit offset) (insertionSort_congr fun _ _ _ _ => Iff.rfl)

theorem mem_listed {db : Db} {states : List RunState} {row : RunRow} :
    row ∈ listed db states ↔ db.runs.get? row.runId = some row ∧ row.state ∈ states := by
  rw [listed, List.mem_insertionSort, List.mem_filter, Table.mem_iff_get?, decide_eq_true_eq]

theorem nodup_listed (db : Db) (states : List RunState) :
    ((listed db states).map RunRow.runId).Nodup :=
  ((List.perm_insertionSort _ _).map _).nodup_iff.mpr
    (db.runs.nodup.sublist (List.filter_sublist.map _))

/-- What the rows are listed by. -/
def rank (r : RunRow) : Instant ×ₗ RunId := toLex (r.createdAt, r.runId)

theorem newestFirst_iff {a b : RunRow} : NewestFirst a b ↔ rank b ≤ rank a := by
  rw [rank, rank, Prod.Lex.toLex_le_toLex]
  exact or_congr_right (and_congr_left fun _ => eq_comm)

theorem map_rank_listed (db : Db) (states : List RunState) :
    (listed db states).map rank =
      ((db.runs.rows.filter fun r => r.state ∈ states).map rank).insertionSort (· ≥ ·) :=
  List.map_insertionSort _ _ _ _ fun _ _ _ _ => newestFirst_iff

/-- The listing of a table with more rows in `states` is that of the other one with rows put in
between. -/
theorem sublist_listed {db db' : Db} {states : List RunState}
    (h : ∀ row ∈ listed db states, ∃ row' ∈ listed db' states, rank row' = rank row) :
    ((listed db states).map RunRow.runId).Sublist ((listed db' states).map RunRow.runId) := by
  have hsub : ((listed db states).map rank).Sublist ((listed db' states).map rank) := by
    refine List.sublist_of_subperm_of_sortedGE (List.subperm_of_subset ?_ ?_) ?_ ?_
    · exact .of_map (fun k => (ofLex k).2) (by rw [List.map_map]; exact nodup_listed db states)
    · intro k hk
      obtain ⟨row, hrow, rfl⟩ := List.mem_map.mp hk
      obtain ⟨row', hrow', hrank⟩ := h row hrow
      exact List.mem_map.mpr ⟨row', hrow', hrank⟩
    · rw [map_rank_listed]
      exact List.sortedGE_insertionSort
    · rw [map_rank_listed]
      exact List.sortedGE_insertionSort
  have hids := hsub.map fun k => (ofLex k).2
  rwa [List.map_map, List.map_map] at hids

/-- Rows that decode are those of the runs they decode to. -/
theorem toRunRow_of_mapM {rows : List RunRow} {runs : List Run}
    (h : rows.mapM rowToRun = .ok runs) : runs.map Run.toRunRow = rows := by
  have hrows : List.Forall₂ (fun row run => row = Run.toRunRow run) rows runs :=
    (mapM_eq_ok h).imp fun _ _ hrow => (rowToRun_ok hrow).symm
  rw [← List.forall₂_map_right_iff, List.forall₂_eq_eq_eq] at hrows
  exact hrows.symm

theorem listPaginated_ok {states : List RunState} {limit offset : Int} {db db' : Db}
    {runs : List Run} (h : listPaginated states limit offset db = .ok (runs, db')) :
    db' = db ∧ 1 ≤ limit ∧ 0 ≤ offset ∧
      runs.map Run.toRunRow = page (listed db states) limit.toNat offset.toNat := by
  simp only [listPaginated, Tx.ok_bind, Tx.ok_require, Tx.ok_attempt] at h
  obtain ⟨_, _, ⟨hlimit, rfl⟩, _, _, ⟨hoffset, rfl⟩, hruns, rfl⟩ := h
  exact ⟨rfl, hlimit, hoffset, (toRunRow_of_mapM hruns).trans (paginated_eq _ _ _ _)⟩

end RunRepository

/-! ## Audit log -/

/-- The filters of `list_paginated` and `query`; the bounds of time are inclusive. -/
structure AuditFilter where
  /-- One of them; none at all asks for nothing. -/
  actions : List AuditAction := []
  actor : Option String := none
  resource : Option String := none
  since : Option Instant := none
  upTo : Option Instant := none

namespace AuditFilter

/-- The clauses that compare no timestamp. -/
def other (f : AuditFilter) (r : Nat × AuditEvent) : Bool :=
  (f.actions.isEmpty || r.2.action ∈ f.actions) && f.actor.all (r.2.actor = ·) &&
    f.resource.all (r.2.resource = ·)

/-- The row passes every filter that is given. -/
def passes (f : AuditFilter) (r : Nat × AuditEvent) : Bool :=
  f.other r && f.since.all (· ≤ r.2.timestamp) && f.upTo.all (r.2.timestamp ≤ ·)

/-- The bounds that are bound as parameters. -/
def bounds (f : AuditFilter) : List Instant := f.since.toList ++ f.upTo.toList

theorem eval_whereClause (f : AuditFilter) (r : Nat × AuditEvent) :
    decide ((AuditLog.whereClause f.other f.since.isSome f.upTo.isSome).eval auditTimes f.bounds r =
      some true) = f.passes r := by
  obtain ⟨actions, actor, resource, since, upTo⟩ := f
  cases since <;> cases upTo <;>
    simp [AuditLog.whereClause, Test.eval, Term.eval, compared, auditTimes, bounds, passes]

end AuditFilter

namespace AuditLog

/-- `ORDER BY audit_id DESC`. -/
abbrev LatestFirst (a b : Nat × AuditEvent) : Prop := b.1 ≤ a.1

/-- The rows that pass, the last recorded first. -/
def listed (db : Db) (f : AuditFilter) : List (Nat × AuditEvent) :=
  (db.auditLog.rows.filter f.passes).insertionSort LatestFirst

/-- `list_paginated`. -/
def listPaginated (f : AuditFilter) (limit offset : Int) :
    Transaction (List (Nat × AuditEvent)) := do
  Tx.require (1 ≤ limit) (valueError ("limit must be positive; got " ++ toString limit))
  Tx.require (0 ≤ offset) (valueError ("offset must be non-negative; got " ++ toString offset))
  Tx.read fun db => page (listed db f) limit.toNat offset.toNat

/-- `ORDER BY timestamp DESC, audit_id DESC`. -/
abbrev NewestFirst (a b : Nat × AuditEvent) : Prop :=
  b.2.timestamp < a.2.timestamp ∨ a.2.timestamp = b.2.timestamp ∧ b.1 ≤ a.1

/-- `query`. -/
def query (f : AuditFilter) (limit : Int) : Transaction (List (Nat × AuditEvent)) := do
  Tx.require (1 ≤ limit) (valueError ("limit must be positive; got " ++ toString limit))
  Tx.read fun db =>
    ((db.auditLog.rows.filter f.passes).insertionSort NewestFirst).take limit.toNat

/-- The rows are kept in the order of their ids. -/
theorem listed_eq (db : Db) (f : AuditFilter) :
    listed db f = (db.auditLog.rows.filter f.passes).reverse := by
  have hsorted : (db.auditLog.rows.filter f.passes).reverse.Pairwise LatestFirst := by
    rw [List.pairwise_reverse]
    exact (db.auditLog.sorted.filter _).imp Nat.le_of_lt
  have htotal : Std.Total LatestFirst := ⟨fun a b => Nat.le_total b.1 a.1⟩
  have htrans : IsTrans _ LatestFirst := ⟨fun _ _ _ hab hbc => Nat.le_trans hbc hab⟩
  refine List.Perm.eq_of_pairwise ?_ (List.pairwise_insertionSort LatestFirst _) hsorted
    ((List.perm_insertionSort _ _).trans (List.reverse_perm _).symm)
  intro a b ha hb hab hba
  have hrow {r : Nat × AuditEvent} (h : r ∈ db.auditLog.rows.filter f.passes) :
      r ∈ db.auditLog.rows := (List.mem_filter.mp h).1
  exact Serial.eq_of_mem (hrow ((List.mem_insertionSort _).mp ha)) (hrow (List.mem_reverse.mp hb))
    (Nat.le_antisymm hba hab)

theorem mem_listed {db : Db} {f : AuditFilter} {r : Nat × AuditEvent} :
    r ∈ listed db f ↔ r ∈ db.auditLog.rows ∧ f.passes r = true := by
  rw [listed, List.mem_insertionSort, List.mem_filter]

/-- **The statement of `list_paginated`** selects the rows that pass every filter given. -/
theorem select_listPaginated (db : Db) (f : AuditFilter) :
    (listPaginatedQuery f.other f.since.isSome f.upTo.isSome).select auditTimes f.bounds
      db.auditLog.rows = listed db f := by
  rw [Query.select, listPaginatedQuery, List.filter_congr fun r _ => f.eval_whereClause r, listed]
  exact insertionSort_congr fun a _ b _ => by simp [precedes, SortKey.le]

/-- **The statement of `query`** selects the same rows, by their timestamps. -/
theorem select_query (db : Db) (f : AuditFilter) :
    (queryQuery f.other f.since.isSome f.upTo.isSome).select auditTimes f.bounds db.auditLog.rows =
      (db.auditLog.rows.filter f.passes).insertionSort NewestFirst := by
  rw [Query.select, queryQuery, List.filter_congr fun r _ => f.eval_whereClause r]
  exact insertionSort_congr fun a _ b _ => (precedes_descending_other rfl rfl).trans (by simp)

end AuditLog

/-! ## Users -/

namespace UserRepository

/-- `list_paginated`: `ORDER BY user_id ASC`. -/
def listPaginated (limit offset : Nat) : AccountsTx (List (Nat × User)) :=
  Tx.read fun a => page (a.users.table.rows.insertionSort fun r s => r.1 ≤ s.1) limit offset

end UserRepository

end MessageService.Infrastructure
