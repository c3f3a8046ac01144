import Mathlib.Data.Finset.Card
import MessageService.System.Pruning

/-!
# The books of the report pruner

What a tick of the report pruner has done at any moment, with the service and other tasks taking
steps beside it: an invariant for each place the tick can be at (`AtHead`, `InRun`), and what is
left of it when the tick returns (`Returned`).

`Books` is what holds everywhere in a tick: the runs to come are due, the counters count the audit
rows, and the budget and the rows add up to the cap.

* `atHead_of_listExpired`, `AtHead.list`, `AtHead.enter`, `InRun.unlink`, `InRun.audit`,
  `InRun.leave`, `AtHead.returned`: one lemma for each kind of step of the tick.
* `Books.beside` and its like: the books stay right whatever the service does.
-/

namespace MessageService.System

open MessageService.Domain MessageService.Lib MessageService.Infrastructure
open MessageService.Application

/-! ## What is counted -/

/-- The path lies in the directory of the run. -/
def InRunDir (runId : RunId) (path : List String) : Prop :=
  runDir runId <+: path ∧ path ≠ runDir runId

/-- The files of a run that a tick has attempted, in order. -/
def attemptedOf (runId : RunId) (unlinks : List Unlink) : List (List String) :=
  (unlinks.filter fun u => u.runId = runId).map Unlink.path

/-- The files listed for a run were all attempted, or none of them. -/
def AllOrNone (unlinks : List Unlink) (listing : RunId × List (List String)) : Prop :=
  attemptedOf listing.1 unlinks = listing.2 ∨ attemptedOf listing.1 unlinks = []

/-- The number of runs with an attempted file. -/
def runsAttempted (unlinks : List Unlink) : Nat := (unlinks.map Unlink.runId).toFinset.card

/-- The attempts on other runs. -/
def others (runId : RunId) (unlinks : List Unlink) : List Unlink :=
  unlinks.filter fun u => u.runId ≠ runId

/-- `_evict_file` returned `True`. -/
def PruneAudit.ok (a : PruneAudit) : Bool := a.unlink.succeeded && a.recorded

/-- The rows that were written. -/
def written (audits : List PruneAudit) : List AuditEvent :=
  (audits.filter PruneAudit.recorded).map PruneAudit.event

variable {pcfg : ReportPrunerConfig} {db db' : Db} {log : PruneLog} {v : PruneLocals} {run : Run}
  {files : List (List String)} {pending : List Unlink}

theorem InRunDir.unique {runId runId' : RunId} {path : List String} (h : InRunDir runId path)
    (h' : InRunDir runId' path) : runId = runId' := by
  obtain ⟨⟨l, rfl⟩, -⟩ := h
  obtain ⟨⟨l', hl'⟩, -⟩ := h'
  exact (List.cons.inj hl').1.symm

theorem attemptedOf_eq_nil {runId : RunId} {unlinks : List Unlink}
    (h : ∀ u ∈ unlinks, u.runId ≠ runId) : attemptedOf runId unlinks = [] := by
  have hnone : (unlinks.filter fun u => u.runId = runId) = [] :=
    List.filter_eq_nil_iff.mpr fun u hu => by simpa using h u hu
  unfold attemptedOf
  rw [hnone, List.map_nil]

theorem attemptedOf_append_self {u : Unlink} (unlinks : List Unlink) :
    attemptedOf u.runId (unlinks ++ [u]) = attemptedOf u.runId unlinks ++ [u.path] := by
  simp [attemptedOf]

theorem attemptedOf_append_of_ne {runId : RunId} {u : Unlink} (unlinks : List Unlink)
    (h : u.runId ≠ runId) : attemptedOf runId (unlinks ++ [u]) = attemptedOf runId unlinks := by
  simp [attemptedOf, h]

theorem others_append_self {u : Unlink} (unlinks : List Unlink) :
    others u.runId (unlinks ++ [u]) = others u.runId unlinks := by
  simp [others]

/-- A run with an attempted file counts as one. -/
theorem runsAttempted_eq {runId : RunId} {unlinks : List Unlink}
    (h : attemptedOf runId unlinks ≠ []) :
    runsAttempted unlinks = runsAttempted (others runId unlinks) + 1 := by
  obtain ⟨path, hpath⟩ := List.exists_mem_of_ne_nil _ h
  obtain ⟨u, hu, -⟩ := List.mem_map.mp hpath
  obtain ⟨hmem, hid⟩ : u ∈ unlinks ∧ u.runId = runId := by simpa using hu
  have hnot : runId ∉ ((others runId unlinks).map Unlink.runId).toFinset := by
    simp [others]
  have hinsert : (unlinks.map Unlink.runId).toFinset =
      insert runId ((others runId unlinks).map Unlink.runId).toFinset := by
    ext k
    simp only [others, List.mem_toFinset, List.mem_map, Finset.mem_insert, List.mem_filter,
      decide_eq_true_eq]
    constructor
    · rintro ⟨w, hw, rfl⟩
      by_cases hk : w.runId = runId
      · exact .inl hk
      · exact .inr ⟨w, ⟨hw, hk⟩, rfl⟩
    · rintro (rfl | ⟨w, ⟨hw, -⟩, rfl⟩)
      · exact ⟨u, hmem, hid⟩
      · exact ⟨w, hw, rfl⟩
  unfold runsAttempted
  rw [hinsert, Finset.card_insert_of_notMem hnot]

/-! ## The books -/

/-- What holds everywhere in a tick. -/
structure Books (pcfg : ReportPrunerConfig) (db : Db) (log : PruneLog) (v : PruneLocals) :
    Prop where
  due : ∀ run ∈ v.candidates, Due pcfg v.now db run.toRunRow
  rows : pruneRows db = log.before ++ written log.audits
  tells : ∀ a ∈ log.audits, Tells pcfg a.unlink a.event
  deleted : v.result.filesDeleted = log.audits.countP PruneAudit.ok
  failed : v.result.filesFailed = log.audits.countP fun a => !a.ok
  budget : v.budgetRemaining + log.audits.length = pcfg.maxPrunesPerIteration
  fresh : (log.listings.map Prod.fst ++ v.candidates.map fun run => run.runId).Nodup
  listed : ∀ u ∈ log.unlinks, u.runId ∈ log.listings.map Prod.fst
  inDir : ∀ u ∈ log.unlinks, InRunDir u.runId u.path

/-- At the head of the loop over the candidates. -/
structure AtHead (pcfg : ReportPrunerConfig) (db : Db) (log : PruneLog) (v : PruneLocals) :
    Prop extends Books pcfg db log v where
  audited : log.audits.map PruneAudit.unlink = log.unlinks
  allOrNone : ∀ l ∈ log.listings, AllOrNone log.unlinks l
  once : (log.unlinks.map Unlink.path).Nodup
  runs : v.result.runsProcessed = runsAttempted log.unlinks

/-- In the loop over the files of `run`: `files` are still to come, and `pending` is the `unlink`
that has no audit row yet. -/
structure InRun (pcfg : ReportPrunerConfig) (db : Db) (log : PruneLog) (v : PruneLocals)
    (run : Run) (files : List (List String)) (pending : List Unlink) :
    Prop extends Books pcfg db log v where
  dueRun : Due pcfg v.now db run.toRunRow
  audited : log.audits.map PruneAudit.unlink ++ pending = log.unlinks
  listing : ∃ earlier, log.listings =
      earlier ++ [(run.runId, attemptedOf run.runId log.unlinks ++ files)] ∧
    ∀ l ∈ earlier, AllOrNone log.unlinks l
  nonempty : attemptedOf run.runId log.unlinks ++ files ≠ []
  once : (log.unlinks.map Unlink.path ++ files).Nodup
  inRunDir : ∀ path ∈ files, InRunDir run.runId path
  runs : v.result.runsProcessed = runsAttempted (others run.runId log.unlinks)
  fits : pending.length + files.length ≤ v.budgetRemaining

/-- What a tick that returned `result` has done. -/
structure Returned (pcfg : ReportPrunerConfig) (db : Db) (log : PruneLog) (result : PruneResult) :
    Prop where
  /-- No run was listed twice, and no file attempted that was not listed. -/
  distinct : (log.listings.map Prod.fst).Nodup
  listed : ∀ u ∈ log.unlinks, u.runId ∈ log.listings.map Prod.fst
  allOrNone : ∀ l ∈ log.listings, AllOrNone log.unlinks l
  /-- No file was attempted twice. -/
  once : (log.unlinks.map Unlink.path).Nodup
  within : log.unlinks.length ≤ pcfg.maxPrunesPerIteration
  /-- One audit write for each attempted file, in order. -/
  audited : log.audits.map PruneAudit.unlink = log.unlinks
  tells : ∀ a ∈ log.audits, Tells pcfg a.unlink a.event
  rows : pruneRows db = log.before ++ written log.audits
  deleted : result.filesDeleted = log.audits.countP PruneAudit.ok
  failed : result.filesFailed = log.audits.countP fun a => !a.ok
  runs : result.runsProcessed = runsAttempted log.unlinks

/-! ## The listing -/

theorem map_toRunRow {rows : List RunRow} {runs : List Run} (h : rows.mapM rowToRun = .ok runs) :
    runs.map Run.toRunRow = rows := by
  have hall := mapM_eq_ok h
  clear h
  induction hall with
  | nil => rfl
  | cons hrow _ ih => rw [List.map_cons, rowToRun_ok hrow, ih]

theorem nodup_candidateRows (pcfg : ReportPrunerConfig) (now : Instant) (db : Db) :
    ((candidateRows pcfg now db).map RunRow.runId).Nodup := by
  unfold candidateRows RunRepository.expired
  refine ((List.take_sublist _ _).map _).nodup ?_
  refine (((List.perm_insertionSort _ _).map _).nodup_iff).mpr ?_
  exact (List.filter_sublist.map _).nodup db.runs.nodup

/-- The tick has listed its candidates. -/
theorem atHead_of_listExpired {now : Instant} {candidates : List Run}
    (h : RunRepository.listExpired (pcfg.cutoff now) RunState.terminalStates candidateQueryLimit
      db = .ok (candidates, db')) :
    AtHead pcfg db { before := pruneRows db }
      ⟨now, candidates, pcfg.maxPrunesPerIteration, {}⟩ := by
  have hrows := map_toRunRow (listExpired_eq_ok h)
  exact {
    due := fun run hrun => due_of_mem_candidateRows (hrows ▸ List.mem_map_of_mem hrun)
    rows := by simp [written]
    tells := by simp
    deleted := rfl
    failed := rfl
    budget := rfl
    fresh := by
      have hnodup := nodup_candidateRows pcfg now db
      rw [← hrows, List.map_map] at hnodup
      exact hnodup
    listed := by simp
    inDir := by simp
    audited := rfl
    allOrNone := by simp
    once := List.nodup_nil
    runs := rfl }

/-! ## Beside the service -/

theorem Books.beside (h : Books pcfg db log v) (hb : Beside pcfg db db') :
    Books pcfg db' log v :=
  { h with
    due := fun run hrun => hb.due _ _ (h.due run hrun)
    rows := hb.rows.trans h.rows }

theorem AtHead.beside (h : AtHead pcfg db log v) (hb : Beside pcfg db db') :
    AtHead pcfg db' log v :=
  { h with toBooks := h.toBooks.beside hb }

theorem InRun.beside (h : InRun pcfg db log v run files pending) (hb : Beside pcfg db db') :
    InRun pcfg db' log v run files pending :=
  { h with
    toBooks := h.toBooks.beside hb
    dueRun := hb.due _ _ h.dueRun }

theorem Returned.beside {result : PruneResult} (h : Returned pcfg db log result)
    (hb : Beside pcfg db db') : Returned pcfg db' log result :=
  { h with rows := hb.rows.trans h.rows }

/-! ## The steps of the tick -/

/-- No more files were attempted than the budget had. -/
theorem AtHead.within (h : AtHead pcfg db log v) :
    log.unlinks.length ≤ pcfg.maxPrunesPerIteration := by
  have hlength : log.audits.length = log.unlinks.length := by
    rw [← h.audited, List.length_map]
  have := h.budget
  omega

theorem InRun.within (h : InRun pcfg db log v run files pending) :
    log.unlinks.length ≤ pcfg.maxPrunesPerIteration := by
  have hlength : log.audits.length + pending.length = log.unlinks.length := by
    rw [← h.audited, List.length_append, List.length_map]
  have := h.budget
  have := h.fits
  omega

/-- The tick returns what it has counted. -/
theorem AtHead.returned (h : AtHead pcfg db log v) : Returned pcfg db log v.result :=
  { h with
    distinct := h.fresh.of_append_left
    within := h.within }

/-- The log after the files of a run have been listed. -/
def PruneLog.list (log : PruneLog) (run : Run) (files : List (List String)) : PruneLog :=
  { log with listings := log.listings ++ [(run.runId, files)] }

/-- No file of a candidate has been attempted yet. -/
theorem Books.unattempted {candidates : List Run} (h : Books pcfg db log v)
    (hv : v.candidates = run :: candidates) : ∀ u ∈ log.unlinks, u.runId ≠ run.runId := by
  intro u hu heq
  have hdisjoint := List.disjoint_of_nodup_append h.fresh
  refine hdisjoint (h.listed u hu) ?_
  rw [hv, heq]
  exact List.mem_cons_self

/-- The files of the next candidate are listed. -/
theorem Books.list {candidates : List Run} (h : Books pcfg db log v)
    (hv : v.candidates = run :: candidates) (files : List (List String)) :
    Books pcfg db (log.list run files) { v with candidates := candidates } :=
  { h with
    due := fun r hr => h.due r (hv ▸ List.mem_cons_of_mem _ hr)
    fresh := by
      have hfresh := h.fresh
      rw [hv] at hfresh
      simpa [PruneLog.list, List.append_assoc] using hfresh
    listed := fun u hu => by
      simp only [PruneLog.list, List.map_append]
      exact List.mem_append_left _ (h.listed u hu) }

/-- The tick passes over a candidate. -/
theorem AtHead.list {candidates : List Run} (h : AtHead pcfg db log v)
    (hv : v.candidates = run :: candidates) (files : List (List String)) :
    AtHead pcfg db (log.list run files) { v with candidates := candidates } :=
  { h with
    toBooks := h.toBooks.list hv files
    allOrNone := by
      intro l hl
      rcases List.mem_append.mp hl with hl | hl
      · exact h.allOrNone l hl
      · obtain rfl := List.mem_singleton.mp hl
        exact .inr (attemptedOf_eq_nil (h.unattempted hv)) }

/-- The tick enters a candidate whose files fit into the budget. -/
theorem AtHead.enter {candidates : List Run} (h : AtHead pcfg db log v)
    (hv : v.candidates = run :: candidates) (hne : files ≠ []) (hnodup : files.Nodup)
    (hin : ∀ path ∈ files, InRunDir run.runId path) (hfits : files.length ≤ v.budgetRemaining) :
    InRun pcfg db (log.list run files) { v with candidates := candidates } run files [] := by
  have hother := h.unattempted hv
  have hnil : attemptedOf run.runId log.unlinks = [] := attemptedOf_eq_nil hother
  have hall : others run.runId log.unlinks = log.unlinks :=
    List.filter_eq_self.mpr fun u hu => by simpa using hother u hu
  exact {
    toBooks := h.toBooks.list hv files
    dueRun := h.due run (hv ▸ List.mem_cons_self)
    audited := (List.append_nil _).trans h.audited
    listing := ⟨log.listings, by simp [PruneLog.list, hnil], h.allOrNone⟩
    nonempty := by simpa [PruneLog.list, hnil] using hne
    once := by
      refine List.nodup_append.mpr ⟨h.once, hnodup, ?_⟩
      rintro path hpath path' hpath' rfl
      -- a path lies in the directory of one run only
      obtain ⟨u, hu, rfl⟩ := List.mem_map.mp hpath
      exact hother u hu ((h.inDir u hu).unique (hin _ hpath'))
    inRunDir := hin
    runs := by
      change v.result.runsProcessed = runsAttempted (others run.runId log.unlinks)
      rw [hall, h.runs]
    fits := by simpa using hfits }

/-- The log after an `unlink`. -/
def PruneLog.unlink (log : PruneLog) (u : Unlink) : PruneLog :=
  { log with unlinks := log.unlinks ++ [u] }

/-- The log after an audit row. -/
def PruneLog.audit (log : PruneLog) (a : PruneAudit) : PruneLog :=
  { log with audits := log.audits ++ [a] }

/-- `unlink` is called for the next file. -/
theorem InRun.unlink {u : Unlink} (h : InRun pcfg db log v run (u.path :: files) [])
    (hid : u.runId = run.runId) : InRun pcfg db (log.unlink u) v run files [u] := by
  have hattempted : attemptedOf run.runId (log.unlinks ++ [u]) ++ files =
      attemptedOf run.runId log.unlinks ++ u.path :: files := by
    rw [← hid, attemptedOf_append_self, List.append_assoc]
    rfl
  obtain ⟨earlier, hlistings, hearlier⟩ := h.listing
  have hother : ∀ l ∈ earlier, u.runId ≠ l.1 := by
    intro l hl heq
    have hnodup : (log.listings.map Prod.fst).Nodup := h.fresh.of_append_left
    rw [hlistings, List.map_append] at hnodup
    refine List.disjoint_of_nodup_append hnodup (List.mem_map_of_mem hl) ?_
    rw [← heq, hid]
    exact List.mem_singleton_self _
  exact { h with
    toBooks := { h.toBooks with
      listed := by
        intro w hw
        rcases List.mem_append.mp hw with hw | hw
        · exact h.listed w hw
        · obtain rfl := List.mem_singleton.mp hw
          simp [PruneLog.unlink, hlistings, hid]
      inDir := by
        intro w hw
        rcases List.mem_append.mp hw with hw | hw
        · exact h.inDir w hw
        · obtain rfl := List.mem_singleton.mp hw
          exact hid ▸ h.inRunDir _ List.mem_cons_self }
    audited := by
      change log.audits.map PruneAudit.unlink ++ [u] = log.unlinks ++ [u]
      rw [← h.audited, List.append_nil]
    listing := by
      refine ⟨earlier, ?_, fun l hl => ?_⟩
      · exact hlistings.trans (by rw [← hattempted]; rfl)
      · change attemptedOf l.1 (log.unlinks ++ [u]) = l.2 ∨
          attemptedOf l.1 (log.unlinks ++ [u]) = []
        rw [attemptedOf_append_of_ne _ (hother l hl)]
        exact hearlier l hl
    nonempty := fun hnil => h.nonempty (hattempted.symm.trans hnil)
    once := by simpa [PruneLog.unlink] using h.once
    inRunDir := fun path hpath => h.inRunDir path (List.mem_cons_of_mem _ hpath)
    runs := by
      change v.result.runsProcessed = runsAttempted (others run.runId (log.unlinks ++ [u]))
      rw [← hid, others_append_self, hid]
      exact h.runs
    fits := by
      have := h.fits
      simp only [List.length_cons, List.length_nil] at this ⊢
      omega }

/-- The unit of work of an audit row ends. -/
theorem InRun.audit {u : Unlink} {event : AuditEvent} {recorded : Bool}
    (h : InRun pcfg db log v run files [u]) (htells : Tells pcfg u event)
    (hdue : ∀ now row, Due pcfg now db row → Due pcfg now db' row)
    (hrows : pruneRows db' = pruneRows db ++ if recorded then [event] else []) :
    InRun pcfg db' (log.audit ⟨u, event, recorded⟩) (v.counted (u.succeeded && recorded)) run files
      [] := by
  have hfits := h.fits
  simp only [List.length_cons, List.length_nil] at hfits
  exact { h with
    toBooks := { h.toBooks with
      due := fun r hr => hdue _ _ (h.due r hr)
      rows := by
        rw [hrows, h.rows, List.append_assoc]
        congr 1
        cases recorded <;> simp [written, PruneLog.audit]
      tells := by
        intro a ha
        rcases List.mem_append.mp ha with ha | ha
        · exact h.tells a ha
        · obtain rfl := List.mem_singleton.mp ha
          exact htells
      deleted := by
        change _ = (log.audits ++ [_]).countP _
        rw [List.countP_append, ← h.deleted, List.countP_singleton]
        change (if u.succeeded && recorded then _ else _) =
          _ + if u.succeeded && recorded then 1 else 0
        cases u.succeeded && recorded <;> rfl
      failed := by
        change _ = (log.audits ++ [_]).countP _
        rw [List.countP_append, ← h.failed, List.countP_singleton]
        change (if u.succeeded && recorded then _ else _) =
          _ + if !(u.succeeded && recorded) then 1 else 0
        cases u.succeeded && recorded <;> rfl
      budget := by
        have := h.budget
        simp only [PruneLocals.counted, PruneLog.audit, List.length_append, List.length_cons,
          List.length_nil]
        omega }
    dueRun := hdue _ _ h.dueRun
    audited := by
      refine Eq.trans ?_ h.audited
      simp [PruneLog.audit]
    fits := by
      simp only [PruneLocals.counted, List.length_nil]
      omega }

/-- The files of the run are done. -/
theorem InRun.leave (h : InRun pcfg db log v run [] []) : AtHead pcfg db log v.processed := by
  obtain ⟨earlier, hlistings, hearlier⟩ := h.listing
  have hnonempty := h.nonempty
  have honce := h.once
  simp only [List.append_nil] at hlistings hnonempty honce
  exact {
    toBooks := { h.toBooks with }
    audited := (List.append_nil _).symm.trans h.audited
    allOrNone := by
      intro l hl
      rw [hlistings] at hl
      rcases List.mem_append.mp hl with hl | hl
      · exact hearlier l hl
      · obtain rfl := List.mem_singleton.mp hl
        exact .inl rfl
    once := honce
    runs := by
      rw [runsAttempted_eq hnonempty, ← h.runs]
      rfl }

end MessageService.System
