import MessageService.Interfaces.DashboardViews
import MessageService.System.Administrators
import MessageService.System.Archiving
import MessageService.System.Readability

/-!
# Paging through a service that runs on

A client of the dashboard pages through a listing by limit and offset while the service goes on. An
entry that leaves the listing ahead of it makes it skip another one, an entry that comes in makes it
see one twice.

* `runs_paging_complete`: the listing of the runs in states that are never left, as the terminal
  ones, misses no run, and shows every terminal run as it stays.
* `leaving_state_hides_run`: the listing of the runs in a state that is left may miss one.
* `audit_paging_complete`: the audit-log viewer beside the pruner misses no row that is kept, as
  long as no delete leaves a row recorded before one that it takes (`TakesOldest`);
  `takesOldest_of_chronological` says when that is.
* `roster_paging_complete`: the user roster is read in order, every user once.
-/

namespace MessageService.System

open MessageService.Domain MessageService.Lib MessageService.Infrastructure
open MessageService.Application MessageService.Interfaces

/-! ## Runs -/

/-- What becomes of the row of a run: it stays, or its state moves along an edge. -/
theorem run_of_step {cfg : Config} {w w' : World} {l : Label} (h : step cfg w l = some w')
    {k : RunId} {row : RunRow} (hrow : w.db.runs.get? k = some row) :
    w'.db.runs.get? k = some row ∨ ∃ s now, RunState.Edge row.state s ∧
      w'.db.runs.get? k = some (RunRepository.withState row s now) := by
  have hmoved : ∀ {i s now old}, w.db.runs.get? i = some old → RunState.Edge old.state s →
      w'.db.runs = RunRepository.moved w.db.runs i s now →
        w'.db.runs.get? k = some row ∨ ∃ s now, RunState.Edge row.state s ∧
          w'.db.runs.get? k = some (RunRepository.withState row s now) := by
    intro i s now old hold hedge hruns
    rw [hruns, RunRepository.get?_moved]
    by_cases hk : k = i
    · subst hk
      obtain rfl := Option.some.inj (hold.symm.trans hrow)
      exact .inr ⟨s, now, hedge, by rw [if_pos rfl, hrow, Option.map_some]⟩
    · exact .inl (by rw [if_neg hk, hrow])
  obtain ⟨hruns, -⟩ | ⟨fresh, ok⟩ | ok | ⟨-, -, was, edge, hruns, -⟩ := step_rows h
  · exact .inl (by rw [hruns, hrow])
  · obtain ⟨run, -, hruns⟩ := get?_runs_of_begun fresh ok
    refine .inl ?_
    rw [hruns, if_neg ?_, hrow]
    rintro rfl
    rw [fresh] at hrow
    cases hrow
  · obtain ⟨run, current, hrun, -, -, hruns, -⟩ := submitStageReport_ok ok
    split at hruns
    · next hi => exact hmoved hrun (RunState.edge_aggregating_iff.mpr hi) hruns
    · exact .inl (by rw [hruns, hrow])
  · exact hmoved was edge hruns

/-- States that no transition leaves. -/
def Absorbing (states : List RunState) : Prop :=
  ∀ r ∈ states, ∀ s, RunState.Edge r s → s ∈ states

theorem absorbing_terminalStates : Absorbing RunState.terminalStates := fun _ hr _ hedge =>
  absurd hedge (RunState.not_edge_of_terminal (RunState.mem_terminalStates.mp hr))

/-- The listing of `GET /runs`. -/
def runsListing (q : PageQuery) (states : List RunState) :
    Listing World RunSummaryResponse RunId where
  key := RunSummaryResponse.runId
  keys w := (RunRepository.listed w.db (effectiveStates states)).map RunRow.runId
  limit := q.limit
  fetch w offset := (listRuns (q.at offset) states w.db).toOption.map Prod.fst
  fetch_eq := by
    intro w offset items h
    cases hlist : listRuns (q.at offset) states w.db with
    | error e =>
      rw [hlist] at h
      cases h
    | ok r =>
      rw [hlist] at h
      obtain rfl := Option.some.inj h
      rw [(listRuns_ok hlist).2, List.map_map, ← map_page]
      rfl

/-- No step takes a run out of a listing of states that are never left. -/
theorem sublist_runs_of_step {cfg : Config} {w w' : World} {l : Label} {states : List RunState}
    (hstates : Absorbing states) (h : step cfg w l = some w') :
    ((RunRepository.listed w.db states).map RunRow.runId).Sublist
      ((RunRepository.listed w'.db states).map RunRow.runId) := by
  refine RunRepository.sublist_listed fun row hrow => ?_
  obtain ⟨hget, hstate⟩ := RunRepository.mem_listed.mp hrow
  obtain hsame | ⟨s, now, hedge, hmoved⟩ := run_of_step h hget
  · exact ⟨row, RunRepository.mem_listed.mpr ⟨hsame, hstate⟩, rfl⟩
  · exact ⟨RunRepository.withState row s now,
      RunRepository.mem_listed.mpr ⟨hmoved, hstates _ hstate s hedge⟩, rfl⟩

/-- What a client was shown of a run: a terminal one is still as it was. -/
structure Shown (states : List RunState) (w : World) (item : RunSummaryResponse) : Prop where
  listed : ∃ row, w.db.runs.get? item.runId = some row ∧ row.state ∈ states
  final : item.state.terminal = true →
    ∃ row, w.db.runs.get? item.runId = some row ∧ item = projectRunSummary row

theorem Shown.step {cfg : Config} {w w' : World} {l : Label} {states : List RunState}
    {item : RunSummaryResponse} (hstates : Absorbing states) (hs : Shown states w item)
    (h : MessageService.System.step cfg w l = some w') : Shown states w' item where
  listed := by
    obtain ⟨row, hrow, hstate⟩ := hs.listed
    obtain hsame | ⟨s, now, hedge, hmoved⟩ := run_of_step h hrow
    · exact ⟨row, hsame, hstate⟩
    · exact ⟨_, hmoved, hstates _ hstate s hedge⟩
  final := by
    intro hterminal
    obtain ⟨row, hrow, hitem⟩ := hs.final hterminal
    obtain hsame | ⟨s, now, hedge, -⟩ := run_of_step h hrow
    · exact ⟨row, hsame, hitem⟩
    · have hstate : item.state = row.state := by rw [hitem]; rfl
      exact absurd hedge (RunState.not_edge_of_terminal (hstate ▸ hterminal))

theorem shown_of_fetch {q : PageQuery} {states : List RunState} {w : World} {offset : Nat}
    {items : List RunSummaryResponse} (h : (runsListing q states).fetch w offset = some items) :
    ∀ item ∈ items, Shown (effectiveStates states) w item := by
  intro item hitem
  cases hlist : listRuns (q.at offset) states w.db with
  | error e =>
    simp [runsListing, hlist, Except.toOption] at h
  | ok r =>
    simp only [runsListing, hlist, Except.toOption, Option.map_some, Option.some.injEq] at h
    subst h
    rw [(listRuns_ok hlist).2] at hitem
    obtain ⟨row, hrow, rfl⟩ := List.mem_map.mp hitem
    obtain ⟨hget, hstate⟩ := RunRepository.mem_listed.mp (mem_of_mem_page hrow)
    exact ⟨⟨row, hget, hstate⟩, fun _ => ⟨row, hget, rfl⟩⟩

/-- **Paging through runs in states that are never left misses none.** A client that has got a page
that is not full has seen every run that was listed when it began; what it was shown is still in
these states, and a terminal run is still as it was shown. As long as no run is moved before its
creation, no page fails. -/
theorem runs_paging_complete (cfg : Config) (q : PageQuery) (states : List RunState)
    (hstates : Absorbing (effectiveStates states)) :
    (∀ p r, ((runsListing q states).paged (service cfg)).Reach p → p.reader = some r →
        (r.ended = true → ∀ runId ∈ r.found, ∃ item ∈ r.seen, item.runId = runId) ∧
          ∀ item ∈ r.seen, Shown (effectiveStates states) p.state item) ∧
      ∀ w, ((service cfg).restrict OnTime).Reach w →
        ∀ offset, ∃ items, (runsListing q states).fetch w offset = some items := by
  refine ⟨fun p r h hr => ⟨fun hended runId hfound => ?_, ?_⟩, fun w h offset => ?_⟩
  · have hseen := Listing.complete_of_sublist (fun w => RunRepository.nodup_listed _ _)
      (fun w l w' _ hstep => sublist_runs_of_step hstates hstep) h hr hended hfound
    exact List.mem_map.mp hseen
  · exact Listing.seen_of_reach (fun _ _ _ _ => shown_of_fetch)
      (fun w l w' item _ hstep hs => hs.step hstates hstep) h hr
  · obtain ⟨items, hitems⟩ : ∃ items, listRuns (q.at offset) states w.db = .ok (items, w.db) :=
      listRuns_of_decodes fun row hrow =>
        decodes_of_reach h _ row (RunRepository.mem_listed.mp hrow).1
    exact ⟨items, by simp [runsListing, hitems, Except.toOption]⟩

/-- A second run of the small service. -/
def secondRun : RunId := "00000000-0000-4000-8000-000000000001"

/-- And a third one. -/
def thirdRun : RunId := "00000000-0000-4000-8000-000000000002"

/-- The three runs, begun at seconds 0, 1 and 2. -/
def threeRuns : List Label :=
  [.beginRun sampleBegin sampleRun (seconds 0) .commits,
    .beginRun sampleBegin secondRun (seconds 1) .commits,
    .beginRun sampleBegin thirdRun (seconds 2) .commits]

/-- Pages of one run. -/
def oneByOne : PageQuery := { limit := 1, limit_pos := Nat.one_pos }

/-- Two of the runs are orphaned before the client gets its first page of the past runs, the third
one after it. -/
def pastRunsRead : List (PagedLabel Label) :=
  threeRuns.map .own ++
    [.own (.sweep (seconds 101) .commits), .own (.sweep (seconds 102) .commits),
      .own (.sweep (seconds 103) .commits), .begin, .next, .own (.sweep (seconds 104) .commits),
      .next, .next, .next]

/-- The third run pushes the others back, so that the second one is shown twice. -/
theorem runs_paging_complete_sample : ∃ p r,
    ((runsListing oneByOne []).paged (service sampleConfig)).Reach p ∧ p.reader = some r ∧
      r.found = [secondRun, sampleRun] ∧ r.ended = true ∧
      r.seen.map RunSummaryResponse.runId = [secondRun, secondRun, sampleRun] ∧
      (∃ item ∈ r.seen, item.runId = sampleRun) ∧
      ∀ item ∈ r.seen, Shown RunState.terminalStates p.state item := by
  have hinit : Init {} := ⟨Serial.empty, Serial.empty, rfl⟩
  obtain ⟨p, r, hreach, hr, htest⟩ := Listing.exists_reach_of_run
    (L := runsListing oneByOne []) (f := step sampleConfig) (t := fun _ r =>
      decide (r.found = [secondRun, sampleRun]) && r.ended &&
        decide (r.seen.map RunSummaryResponse.runId = [secondRun, secondRun, sampleRun]))
    pastRunsRead hinit (by decide +kernel)
  simp only [Bool.and_eq_true, decide_eq_true_eq] at htest
  obtain ⟨⟨hfound, hended⟩, hseen⟩ := htest
  obtain ⟨hcomplete, hshown⟩ := (runs_paging_complete sampleConfig oneByOne []
    absorbing_terminalStates).1 p r hreach hr
  exact ⟨p, r, hreach, hr, hfound, hended, hseen, hcomplete hended sampleRun (by simp [hfound]),
    hshown⟩

/-- A submission to the third run. -/
def submitThird : Label :=
  .submitStageReport { sampleSubmit with
    runId := thirdRun
    runId_ne := by decide } (seconds 3) .commits

/-- The third run leaves `INITIATED` after the client's first page. -/
def initiatedRunsRead : List (PagedLabel Label) :=
  threeRuns.map .own ++ [.begin, .next, .own submitThird, .next, .next]

/-- **A state that is left hides a run**: a client pages through the runs in state `INITIATED`, and
one leaves it after the first page. The client never sees another one, which has been there all
along. -/
theorem leaving_state_hides_run : ∃ (p : Paged World RunSummaryResponse RunId)
    (r : Reader RunSummaryResponse RunId),
    ((runsListing oneByOne [.initiated]).paged (service sampleConfig)).Reach p ∧
      p.reader = some r ∧ r.ended = true ∧ ∃ runId ∈ r.found,
        stateOf p.state.db runId = some .initiated ∧ ∀ item ∈ r.seen, item.runId ≠ runId := by
  have hinit : Init {} := ⟨Serial.empty, Serial.empty, rfl⟩
  obtain ⟨p, r, hreach, hr, htest⟩ := Listing.exists_reach_of_run
    (L := runsListing oneByOne [.initiated]) (f := step sampleConfig) (t := fun w r =>
      r.ended && decide (secondRun ∈ r.found) &&
        decide (stateOf w.db secondRun = some .initiated) &&
        r.seen.all fun item => item.runId != secondRun)
    initiatedRunsRead hinit (by decide +kernel)
  simp only [Bool.and_eq_true, decide_eq_true_eq, List.all_eq_true, bne_iff_ne] at htest
  obtain ⟨⟨⟨hended, hfound⟩, hstate⟩, hmissed⟩ := htest
  exact ⟨p, r, hreach, hr, hended, secondRun, hfound, hstate, hmissed⟩

/-! ## Audit log -/

/-- The listing of the audit-log viewer. -/
def auditListing (q : PageQuery) (f : AuditFilter) : Listing Archiving AuditRecordResponse Nat where
  key := AuditRecordResponse.auditId
  keys s := (AuditLog.listed s.db f).map Prod.fst
  limit := q.limit
  fetch s offset := (listAudit (q.at offset) f s.db).toOption.map Prod.fst
  fetch_eq := by
    intro s offset items h
    rw [listAudit_eq] at h
    obtain rfl := Option.some.inj h
    rw [List.map_map, ← map_page]
    rfl

/-- A delete takes no row that was recorded after one that it leaves. -/
def TakesOldest (cfg : AuditLogPrunerConfig) (s : Archiving) (l : ArchivingLabel) : Prop :=
  l.isDelete = true → ∀ t ∈ s.tick.underWay?, ∀ r ∈ s.db.auditLog.rows, ∀ r' ∈ s.db.auditLog.rows,
    r'.1 ∈ AuditLog.doomed s.db (cfg.cutoff t.1) cfg.cleanupBatchSize → r.1 < r'.1 →
      r.1 ∈ AuditLog.doomed s.db (cfg.cutoff t.1) cfg.cleanupBatchSize

instance (cfg : AuditLogPrunerConfig) (s : Archiving) (l : ArchivingLabel) :
    Decidable (TakesOldest cfg s l) := inferInstanceAs (Decidable (_ → _))

/-- The ids an audit listing is made of. -/
def auditIds (t : Serial AuditEvent) (f : AuditFilter) : List Nat :=
  ((t.rows.filter f.passes).map Prod.fst).reverse

theorem auditListing_keys (q : PageQuery) (f : AuditFilter) (s : Archiving) :
    (auditListing q f).keys s = auditIds s.db.auditLog f := by
  rw [auditIds, ← List.map_reverse, ← AuditLog.listed_eq]
  rfl

theorem pairwise_auditIds (t : Serial AuditEvent) (f : AuditFilter) :
    (auditIds t f).Pairwise (· > ·) := by
  rw [auditIds, List.pairwise_reverse, List.pairwise_map]
  exact t.sorted.filter _

theorem mem_auditIds {t : Serial AuditEvent} {f : AuditFilter} {k : Nat} :
    k ∈ auditIds t f ↔ ∃ row ∈ t.rows, f.passes row = true ∧ row.1 = k := by
  simp only [auditIds, List.mem_reverse, List.mem_map, List.mem_filter, and_assoc]

/-- New rows come before those that are there. -/
theorem auditIds_insertAll (t : Serial AuditEvent) (f : AuditFilter) (events : List AuditEvent) :
    ∃ ids, auditIds (t.insertAll events) f = ids ++ auditIds t f ∧ ∀ k ∈ ids, t.next ≤ k := by
  refine ⟨((((events.zipIdx t.next).map Prod.swap).filter f.passes).map Prod.fst).reverse, ?_, ?_⟩
  · rw [auditIds, t.rows_insertAll events, List.filter_append, List.map_append,
      List.reverse_append]
    rfl
  · intro k hk
    obtain ⟨row, hrow, rfl⟩ := List.mem_map.mp (List.mem_reverse.mp hk)
    obtain ⟨r, hr, rfl⟩ := List.mem_map.mp (List.mem_filter.mp hrow).1
    exact List.le_snd_of_mem_zipIdx hr

/-- A delete takes its rows out of the listing. -/
theorem auditIds_filter (t : Serial AuditEvent) (f : AuditFilter) (ids : List Nat) :
    auditIds (t.filter fun r => r.1 ∉ ids) f = (auditIds t f).filter fun k => k ∉ ids := by
  rw [auditIds, auditIds, List.filter_reverse, List.filter_map, Serial.filter, List.filter_filter,
    List.filter_filter]
  exact congrArg _ (congrArg _ (List.filter_congr fun _ _ => Bool.and_comm _ _))

/-- What a step does to the audit log. -/
theorem auditLog_of_step {cfg : AuditLogPrunerConfig} {s t : Archiving} {l : ArchivingLabel}
    (h : Archiving.step cfg s l = some t) :
    t.db.auditLog = s.db.auditLog ∧ t.stored = s.stored ∨
      (∃ events, t.db.auditLog = s.db.auditLog.insertAll events ∧
        t.stored = s.stored.insertAll events) ∨
      ∃ u ∈ s.tick.underWay?, l.isDelete = true ∧ t.stored = s.stored ∧
        t.db.auditLog = s.db.auditLog.filter fun r =>
          r.1 ∉ AuditLog.doomed s.db (cfg.cutoff u.1) cfg.cleanupBatchSize := by
  cases Archiving.does_of_step h with
  | @unitOfWork events other _ => exact .inr (.inl ⟨events, rfl, rfl⟩)
  | @delete now batch before fate ids tick hids =>
    exact .inr (.inr ⟨(now, batch), by rw [tick]; rfl, rfl, rfl, by rw [hids]⟩)
  | _ => exact .inl ⟨rfl, rfl⟩

/-- **What the viewer lists settles**: new rows come first, and a delete takes none from ahead of one
that it leaves. -/
theorem settled_audit (cfg : AuditLogPrunerConfig) (q : PageQuery) (f : AuditFilter) :
    (auditListing q f).Settled ((archiving cfg).restrict (TakesOldest cfg))
      fun s k => k < s.db.auditLog.next where
  issued := by
    intro s k _ hk
    rw [auditListing_keys] at hk
    obtain ⟨row, hrow, -, rfl⟩ := mem_auditIds.mp hk
    exact s.db.auditLog.below row hrow
  stays := by
    rintro s l t k - ⟨hstep, -⟩ hk
    obtain ⟨h, -⟩ | ⟨events, h, -⟩ | ⟨u, -, -, -, h⟩ := auditLog_of_step hstep
    · rwa [h]
    · rw [h, Serial.next_insertAll]
      exact Nat.lt_add_right _ hk
    · rw [h]
      exact hk
  back := by
    rintro s l t k - ⟨hstep, holdest⟩ hk hkt
    rw [auditListing_keys] at hkt
    rw [auditListing_keys, auditListing_keys]
    obtain ⟨h, -⟩ | ⟨events, h, -⟩ | ⟨u, hu, hdelete, -, h⟩ := auditLog_of_step hstep
    · rw [h] at hkt ⊢
      exact ⟨hkt, Nat.le_refl _⟩
    · obtain ⟨ids, hkeys, hids⟩ := auditIds_insertAll s.db.auditLog f events
      have hnodup : (auditIds t.db.auditLog f).Nodup :=
        (pairwise_auditIds _ f).imp fun hab => Nat.ne_of_gt hab
      rw [h, hkeys] at hkt hnodup
      rw [h, hkeys]
      have hmem : k ∈ auditIds s.db.auditLog f :=
        (List.mem_append.mp hkt).resolve_left fun hnew => Nat.not_lt.mpr (hids k hnew) hk
      exact ⟨hmem, idxOf_le_of_sublist (List.sublist_append_right _ _) hnodup hmem⟩
    · rw [h, auditIds_filter] at hkt
      rw [h, auditIds_filter]
      obtain ⟨hmem, hkept⟩ := List.mem_filter.mp hkt
      refine ⟨hmem, (idxOf_filter ?_ hmem hkept).ge⟩
      refine (pairwise_auditIds _ f).imp_of_mem fun {a b} ha hb hab hbkept => ?_
      obtain ⟨rowA, hrowA, -, rfl⟩ := mem_auditIds.mp ha
      obtain ⟨rowB, hrowB, -, rfl⟩ := mem_auditIds.mp hb
      simp only [decide_eq_true_eq] at hbkept ⊢
      exact fun hdoomed => hbkept (holdest hdelete u hu rowB hrowB rowA hrowA hdoomed hab)

/-- Rows stamped in the order of their ids: an earlier one has the earlier stamp. -/
theorem timestamp_le_of_lt {t : Serial AuditEvent}
    (h : t.rows.Pairwise fun a b => a.2.timestamp ≤ b.2.timestamp) {a b : Nat × AuditEvent}
    (ha : a ∈ t.rows) (hb : b ∈ t.rows) (hlt : a.1 < b.1) : a.2.timestamp ≤ b.2.timestamp := by
  let Agree (x y : Nat × AuditEvent) : Prop := x.1 < y.1 → x.2.timestamp ≤ y.2.timestamp
  have hforth : t.rows.Pairwise Agree := h.imp fun {x y} hxy => show Agree x y from fun _ => hxy
  have hback : t.rows.Pairwise (flip Agree) :=
    t.sorted.imp fun hxy hyx => absurd hyx (Nat.lt_asymm hxy)
  exact hforth.forall_of_forall_of_flip (fun x _ hx => absurd hx (Nat.lt_irrefl _)) hback ha hb hlt

/-- **Rows stamped in the order of their ids** are deleted in that order. -/
theorem takesOldest_of_chronological {cfg : AuditLogPrunerConfig} {s : Archiving}
    (h : s.db.auditLog.rows.Pairwise fun a b => a.2.timestamp ≤ b.2.timestamp)
    (l : ArchivingLabel) : TakesOldest cfg s l := by
  rintro - t - r hr r' hr' hdoomed hlt
  have hrows : s.db.auditLog.rows.Pairwise AuditLog.oldestFirst := by
    refine (h.and s.db.auditLog.sorted).imp fun {a b} hab => ?_
    exact hab.1.lt_or_eq.imp_right fun heq => ⟨heq, Nat.le_of_lt hab.2⟩
  have hsorted := hrows.filter fun r => decide (r.2.timestamp < cfg.cutoff t.1)
  have hids := s.db.auditLog.sorted.filter fun r => decide (r.2.timestamp < cfg.cutoff t.1)
  rw [AuditLog.doomed, hsorted.insertionSort_eq] at hdoomed ⊢
  rw [← List.pairwise_map (f := Prod.fst) (R := (· < ·))] at hids
  -- both rows are expired, and the one with the smaller id comes first
  obtain ⟨row, hrow, hid⟩ := List.mem_map.mp (List.mem_of_mem_take hdoomed)
  obtain ⟨hmem, hexpired⟩ := List.mem_filter.mp hrow
  obtain rfl := Serial.eq_of_mem hmem hr' hid
  have hle : r.2.timestamp ≤ row.2.timestamp := timestamp_le_of_lt h hr hr' hlt
  have hlisted : r.1 ∈ (s.db.auditLog.rows.filter
      fun r => decide (r.2.timestamp < cfg.cutoff t.1)).map Prod.fst := by
    refine List.mem_map_of_mem (List.mem_filter.mpr ⟨hr, ?_⟩)
    have hexpired := of_decide_eq_true hexpired
    exact decide_eq_true (Int.lt_of_le_of_lt hle hexpired)
  rw [← List.take_append_drop cfg.cleanupBatchSize ((s.db.auditLog.rows.filter _).map _)]
    at hlisted hids
  refine (List.mem_append.mp hlisted).resolve_right fun hlater => ?_
  exact Nat.lt_asymm hlt ((List.pairwise_append.mp hids).2.2 _ hdoomed _ hlater)

/-- What the viewer was shown is a row as it was recorded. -/
theorem recorded_of_seen {cfg : AuditLogPrunerConfig} {q : PageQuery} {f : AuditFilter}
    {p : Paged Archiving AuditRecordResponse Nat} {r : Reader AuditRecordResponse Nat}
    (h : ((auditListing q f).paged ((archiving cfg).restrict (TakesOldest cfg))).Reach p)
    (hr : p.reader = some r) : ∀ item ∈ r.seen, ∃ row ∈ p.state.stored.rows,
      f.passes row = true ∧ item = projectEvent row := by
  refine Listing.seen_of_reach (P := fun s item => ∃ row ∈ s.stored.rows,
    f.passes row = true ∧ item = projectEvent row) ?_ ?_ h hr
  · intro s offset items hs hitems item hitem
    simp only [auditListing, listAudit_eq, Except.toOption, Option.map_some,
      Option.some.injEq] at hitems
    subst hitems
    obtain ⟨row, hrow, rfl⟩ := List.mem_map.mp hitem
    obtain ⟨hmem, hpasses⟩ := AuditLog.mem_listed.mp (mem_of_mem_page hrow)
    exact ⟨row, (tidy_of_reach (System.reach_of_restrict hs)).unchanged row hmem, hpasses, rfl⟩
  · rintro s l t item - ⟨hstep, -⟩ ⟨row, hrow, hpasses, hitem⟩
    refine ⟨row, ?_, hpasses, hitem⟩
    obtain ⟨-, h⟩ | ⟨events, -, h⟩ | ⟨u, -, -, h, -⟩ := auditLog_of_step hstep
    · rwa [h]
    · rw [h, Serial.rows_insertAll]
      exact List.mem_append_left _ hrow
    · rwa [h]

/-- **The audit-log viewer misses no row that is kept**, in every run of the pruner beside the
service in which each delete takes the rows recorded first. A viewer that has got a page that is not
full has been shown every row that it found listed and that still is, as it was recorded; and it is
shown nothing else. Deletes do take the rows recorded first as long as rows are stamped in the order
they are recorded. -/
theorem audit_paging_complete (cfg : AuditLogPrunerConfig) (q : PageQuery) (f : AuditFilter) :
    (∀ p r, ((auditListing q f).paged ((archiving cfg).restrict (TakesOldest cfg))).Reach p →
        p.reader = some r →
        (r.ended = true → ∀ row ∈ AuditLog.listed p.state.db f, row.1 ∈ r.found →
          projectEvent row ∈ r.seen) ∧
        ∀ item ∈ r.seen, ∃ row ∈ p.state.stored.rows,
          f.passes row = true ∧ item = projectEvent row) ∧
      ∀ s : Archiving, s.db.auditLog.rows.Pairwise (fun a b => a.2.timestamp ≤ b.2.timestamp) →
        ∀ l, TakesOldest cfg s l := by
  refine ⟨fun p r h hr => ⟨fun hended row hrow hfound => ?_, recorded_of_seen h hr⟩,
    fun s hs l => takesOldest_of_chronological hs l⟩
  have hlisted : row.1 ∈ (auditListing q f).keys p.state := List.mem_map_of_mem hrow
  obtain ⟨item, hitem, hid⟩ :=
    List.mem_map.mp (Listing.complete (settled_audit cfg q f) h hr hended hfound hlisted)
  obtain ⟨row', hrow', -, rfl⟩ := recorded_of_seen h hr item hitem
  have hstored := (tidy_of_reach (System.reach_of_restrict (Listing.reach_state h))).unchanged row
    (AuditLog.mem_listed.mp hrow).1
  rwa [← Serial.eq_of_mem hrow' hstored hid]

/-- A login that is deleted after the viewer has read it, and one that stays. -/
def viewedMoves : List ArchivingLabel :=
  [.fetch (seconds 40000000) .commits, .unitOfWork [sampleLogin (seconds 40000000)] {},
    .archive .synced]

theorem audit_paging_complete_sample : ∃ (p : Paged Archiving AuditRecordResponse Nat)
    (r : Reader AuditRecordResponse Nat) (row : Nat × AuditEvent),
    ((auditListing {} {}).paged
      ((archiving sampleRetention).restrict (TakesOldest sampleRetention))).Reach p ∧
      p.reader = some r ∧ r.found = [2, 1] ∧ AuditLog.listed p.state.db {} = [row] ∧
      projectEvent row ∈ r.seen := by
  have hinit : ((archiving sampleRetention).restrict (TakesOldest sampleRetention)).Reach
      sampleAudit := .init init_sampleAudit
  obtain ⟨s, hs, htest⟩ := System.exists_reach_of_run_restrict viewedMoves hinit
    (p := fun s => decide (auditIds s.db.auditLog {} = [2, 1]) &&
      decide (TakesOldest sampleRetention s (.delete .commits)) &&
        (Archiving.step sampleRetention s (.delete .commits)).any fun t =>
          decide (auditIds t.db.auditLog {} = [2])) (by decide +kernel)
  simp only [Bool.and_eq_true, decide_eq_true_eq, Option.any_eq_true] at htest
  obtain ⟨⟨hfound, holdest⟩, t, hstep, hleft⟩ := htest
  have hkeys := auditListing_keys {} {} s
  have hkeys' : (AuditLog.listed t.db {}).map Prod.fst = [2] :=
    (auditListing_keys {} {} t).trans hleft
  obtain ⟨row, hrow, hid⟩ := List.map_eq_singleton_iff.mp hkeys'
  have hfetch : (auditListing {} {}).fetch s 0 =
      some ((page (AuditLog.listed s.db {}) 50 0).map projectEvent) := by
    simp [auditListing, listAudit_eq, Except.toOption, PageQuery.at]
  have hreach := (Listing.reach_firstPage hs hfetch).step (.own ⟨hstep, holdest⟩)
  have hlen : (AuditLog.listed s.db {}).length = 2 := by
    have hlen := congrArg List.length (hkeys.trans hfound)
    simpa [auditListing] using hlen
  refine ⟨_, _, row, hreach, rfl, hkeys.trans hfound, hrow, ?_⟩
  refine ((audit_paging_complete sampleRetention {} {}).1 _ _ hreach rfl).1 ?_ row
    (hrow ▸ List.mem_singleton_self row) ?_
  · simp [Reader.turn, length_page, hlen, auditListing]
  · rw [hid]
    exact (hkeys.trans hfound) ▸ List.mem_cons_self

/-! ## Users -/

/-- The listing of the user roster. -/
def rosterListing (q : PageQuery) : Listing Dashboard UserListItemResponse Nat where
  key := UserListItemResponse.userId
  keys w := w.accounts.users.table.rows.map Prod.fst
  limit := q.limit
  fetch w offset := (listUsers (q.at offset) w.accounts).toOption.map Prod.fst
  fetch_eq := by
    intro w offset items h
    rw [listUsers_eq] at h
    obtain rfl := Option.some.inj h
    rw [List.map_map, ← map_page]
    rfl

theorem ids_update (t : Users) (userId : Nat) (u : UserUpdate) :
    (t.update userId u).table.rows.map Prod.fst = t.table.rows.map Prod.fst := by
  simp [Users.update, Serial.mapRows, List.map_map, Function.comp_def]

/-- New accounts come last, and no account goes. -/
theorem prefix_roster_of_step {cfg : DashboardConfig} {w w' : Dashboard} {l : Action}
    (h : Dashboard.step cfg w l = some w') :
    w.accounts.users.table.rows.map Prod.fst <+: w'.accounts.users.table.rows.map Prod.fst := by
  cases accountsStep_of_step h with
  | kept users _ _ => rw [users]
  | minted _ _ _ users _ _ => rw [users]
  | inserted users _ _ =>
    unfold Users.insert at users
    split at users
    · rw [← Option.some.inj users, Serial.rows_insert, List.map_append]
      exact List.prefix_append _ _
    · cases users
  | patched _ _ _ _ _ users _ _ => rw [users, ids_update]
  | reset users _ _ => rw [users, ids_update]
  | reconciled users _ _ => rw [users, ids_update]

/-- The item is of an account that is there, under its address. -/
def OfAccount (w : Dashboard) (item : UserListItemResponse) : Prop :=
  ∃ user, w.accounts.users.get? item.userId = some user ∧ item.email = user.email

theorem ofAccount_update {w w' : Dashboard} {item : UserListItemResponse} {userId : Nat}
    {u : UserUpdate} (hitem : OfAccount w item)
    (h : w'.accounts.users = w.accounts.users.update userId u) : OfAccount w' item := by
  obtain ⟨user, hget, hemail⟩ := hitem
  rw [OfAccount, h, Users.get?_update, hget]
  split
  · exact ⟨_, rfl, hemail⟩
  · exact ⟨_, rfl, hemail⟩

theorem OfAccount.step {cfg : DashboardConfig} {w w' : Dashboard} {l : Action}
    {item : UserListItemResponse} (hitem : OfAccount w item)
    (h : Dashboard.step cfg w l = some w') : OfAccount w' item := by
  cases accountsStep_of_step h with
  | kept users _ _ => rwa [OfAccount, users]
  | minted _ _ _ users _ _ => rwa [OfAccount, users]
  | inserted users _ _ =>
    obtain ⟨user, hget, hemail⟩ := hitem
    have hlt : item.userId ≠ w.accounts.users.table.next :=
      Nat.ne_of_lt (Serial.lt_next_of_get? hget)
    exact ⟨user, by rw [Users.get?_insert users, if_neg hlt, hget], hemail⟩
  | patched _ _ _ _ _ users _ _ => exact ofAccount_update hitem users
  | reset users _ _ => exact ofAccount_update hitem users
  | reconciled users _ _ => exact ofAccount_update hitem users

/-- **The roster is read in order, every account once**, whatever accounts are created and changed
meanwhile: what has been shown is its beginning, and a client that has got a page that is not full
has been shown every account that it found. Each is shown under its own address. -/
theorem roster_paging_complete (cfg : DashboardConfig) (init : Dashboard → Prop) (q : PageQuery)
    (p : Paged Dashboard UserListItemResponse Nat) (r : Reader UserListItemResponse Nat)
    (h : ((rosterListing q).paged (dashboard cfg init)).Reach p) (hr : p.reader = some r) :
    r.seen.map UserListItemResponse.userId <+: p.state.accounts.users.table.rows.map Prod.fst ∧
      (r.ended = true → r.found <+: r.seen.map UserListItemResponse.userId) ∧
      ∀ item ∈ r.seen, OfAccount p.state item := by
  have horder := Listing.inOrder_of_reach
    (fun w l w' _ hstep => prefix_roster_of_step hstep) h hr
  refine ⟨horder.seen, horder.ended, ?_⟩
  refine Listing.seen_of_reach ?_ (fun w l w' item _ hstep hitem => hitem.step hstep) h hr
  intro w offset items _ hitems item hitem
  simp only [rosterListing, listUsers_eq, Except.toOption, Option.map_some,
    Option.some.injEq] at hitems
  subst hitems
  obtain ⟨row, hrow, rfl⟩ := List.mem_map.mp hitem
  exact ⟨row.2, Serial.mem_iff_get?.mp (mem_of_mem_page hrow), rfl⟩

theorem mary_email_ne : "mary@example.org" ≠ "" := by decide

theorem mary_displayName_ne : "Mary" ≠ "" := by decide

/-- The administrators of the small dashboard are read one by one, and an account is created after
the first page. -/
def rosterRead : List (PagedLabel Action) :=
  [.begin, .next,
    .own (.request 1 (.create {
      email := "mary@example.org"
      displayName := "Mary"
      password := "correct horse"
      isAdmin := false
      disabled := false
      email_ne := mary_email_ne
      displayName_ne := mary_displayName_ne })),
    .own (.advance 0 sampleAdminInput), .own (.advance 0 sampleAdminInput),
    .own (.advance 0 sampleAdminInput), .next, .next, .next]

theorem roster_paging_complete_sample : ∃ (p : Paged Dashboard UserListItemResponse Nat)
    (r : Reader UserListItemResponse Nat),
    ((rosterListing oneByOne).paged (dashboard sampleDashboard HasAdmin)).Reach p ∧
      p.reader = some r ∧ r.found = [1, 2] ∧ r.ended = true ∧
      r.seen.map UserListItemResponse.userId = [1, 2, 3] ∧
      r.found <+: r.seen.map UserListItemResponse.userId := by
  obtain ⟨p, r, hreach, hr, htest⟩ := Listing.exists_reach_of_run
    (L := rosterListing oneByOne) (f := Dashboard.step sampleDashboard) (t := fun _ r =>
      decide (r.found = [1, 2]) && r.ended &&
        decide (r.seen.map UserListItemResponse.userId = [1, 2, 3]))
    rosterRead hasAdmin_twoAdmins (by decide +kernel)
  simp only [Bool.and_eq_true, decide_eq_true_eq] at htest
  obtain ⟨⟨hfound, hended⟩, hseen⟩ := htest
  exact ⟨p, r, hreach, hr, hfound, hended, hseen,
    (roster_paging_complete sampleDashboard HasAdmin oneByOne p r hreach hr).2.1 hended⟩

end MessageService.System
