import MessageService.Application.AuditLogPruner
import MessageService.Lib.TransitionSystem

/-!
# Archived before deleted

The audit-log pruner beside the rest of the service, which only inserts audit rows. A tick may be
cut short at any step, and its append after any character.

* `tidy_of_reach`: in every run, what was deleted was expired, is what its tick had fetched and no
  more than a batch, every other row is as it was, and all but the first row of each batch stands in
  the archive (`Tidy`).
* `archived_before_deleted`: the first row as well, in every run in which a tick goes on to delete
  only after an append that began at the start of a line (`Unglued`).
* `torn_line_swallows_record`: after a torn append the next one continues its line. The first record
  of the batch is then on no line of its own, and its row is deleted.
-/

namespace MessageService.System

open MessageService.Domain MessageService.Lib MessageService.Infrastructure
open MessageService.Application

/-- A delete that was committed: the cutoff and the batch of its tick, and the rows it took. -/
structure Deletion where
  cutoff : Instant
  fetched : List (Nat × AuditEvent)
  removed : List (Nat × AuditEvent)

/-- The database, the archive and the pruner. -/
structure Archiving where
  db : Db
  files : ArchiveFiles
  tick : AuditTick
  /-- Every audit row there ever was. -/
  stored : Serial AuditEvent
  deletions : List Deletion

/-- A step of the pruner or of another part of the service. -/
inductive ArchivingLabel where
  /-- A unit of work that inserts audit rows; the other tables it leaves are those of `other`. -/
  | unitOfWork (events : List AuditEvent) (other : Db)
  | fetch (now : Instant) (fate : Tx.Fate)
  | archive (write : Write)
  | delete (fate : Tx.Fate)
  /-- The process dies and is started again. -/
  | crash

namespace Archiving

variable (cfg : AuditLogPrunerConfig)

/-- The event may be inserted now: it is at or after the cutoff of the tick under way. -/
def Admits (s : Archiving) (event : AuditEvent) : Prop :=
  HasDict event ∧ ∀ t ∈ s.tick.underWay?, cfg.cutoff t.1 ≤ event.timestamp

instance (s : Archiving) (event : AuditEvent) : Decidable (s.Admits cfg event) :=
  inferInstanceAs (Decidable (_ ∧ _))

/-- One step. -/
def step (s : Archiving) : ArchivingLabel → Option Archiving
  | .unitOfWork events other =>
    if ∀ event ∈ events, s.Admits cfg event then
      some { s with
        db := { other with auditLog := s.db.auditLog.insertAll events }
        stored := s.stored.insertAll events }
    else none
  | .fetch now fate =>
    match s.tick with
    | .idle => some { s with tick := startTick cfg now fate s.db }
    | _ => none
  | .archive write =>
    match s.tick with
    | .archiving now batch =>
      let (tick, files) := archiveBatch now batch write s.files
      some { s with tick := tick, files := files }
    | _ => none
  | .delete fate =>
    match s.tick with
    | .deleting now batch _ =>
      if deleteAborts cfg now fate s.db then some { s with tick := .idle }
      else
        let db := (deleteBatch cfg now fate s.db).2
        some { s with
          db := db
          tick := .idle
          deletions := s.deletions ++ [{
            cutoff := cfg.cutoff now
            fetched := batch
            removed := s.db.auditLog.rows.filter fun r => (db.auditLog.get? r.1).isNone }] }
    | _ => none
  | .crash => some { s with tick := .idle }

/-- No tick is under way and nothing has been deleted; the archive may hold anything. -/
structure Init (s : Archiving) : Prop where
  tick : s.tick = .idle
  stored : s.stored = s.db.auditLog
  deletions : s.deletions = []
  dicts : ∀ row ∈ s.db.auditLog.rows, HasDict row.2

end Archiving

/-- The pruner beside the rest of the service. -/
def archiving (cfg : AuditLogPrunerConfig) : Lib.System Archiving ArchivingLabel :=
  System.ofFun Archiving.Init (Archiving.step cfg)

/-- What every deletion and every row satisfies, and in the archive all but the first row of a
batch. -/
structure Tidy (cfg : AuditLogPrunerConfig) (s : Archiving) : Prop where
  rest : ∀ d ∈ s.deletions, ∀ row ∈ d.fetched.tail, Archived s.files row
  expired : ∀ d ∈ s.deletions, ∀ row ∈ d.removed, row.2.timestamp < d.cutoff
  bounded : ∀ d ∈ s.deletions, d.removed.length ≤ cfg.cleanupBatchSize
  /-- The delete of a tick takes the rows that its fetch returned. -/
  same : ∀ d ∈ s.deletions, d.removed.Perm d.fetched
  kept : ∀ row ∈ s.stored.rows, row ∈ s.db.auditLog.rows ∨ ∃ d ∈ s.deletions, row ∈ d.removed
  unchanged : ∀ row ∈ s.db.auditLog.rows, row ∈ s.stored.rows

/-- The same, and every deleted row stands in the archive. -/
structure Safe (cfg : AuditLogPrunerConfig) (s : Archiving) : Prop extends Tidy cfg s where
  archived : ∀ d ∈ s.deletions, ∀ row ∈ d.removed, Archived s.files row

/-- The file a tick appended to, as it was before. -/
def AuditTick.before? : AuditTick → Option (List Char)
  | .deleting _ _ before => some before
  | _ => none

/-- The label is a delete. -/
def ArchivingLabel.isDelete : ArchivingLabel → Bool
  | .delete _ => true
  | _ => false

/-- A tick deletes only if the file it appended to was empty or ended with a line feed. -/
def Unglued (s : Archiving) (l : ArchivingLabel) : Prop :=
  l.isDelete = true → ∀ before ∈ AuditTick.before? s.tick, Lines.AtLineStart '\n' before

instance (s : Archiving) (l : ArchivingLabel) : Decidable (Unglued s l) :=
  inferInstanceAs (Decidable (_ → _))

/-! ## One step -/

variable {cfg : AuditLogPrunerConfig}

/-- The rows a committed delete takes are those its sub-select names. -/
theorem removed_eq (db : Db) (ids : List Nat) :
    (db.auditLog.rows.filter fun r =>
        ((db.auditLog.filter fun r => r.1 ∉ ids).get? r.1).isNone) =
      db.auditLog.rows.filter fun r => r.1 ∈ ids := by
  refine List.filter_congr fun r hr => ?_
  rw [Serial.get?_filter, Serial.mem_iff_get?.mp hr, Option.filter_some]
  by_cases hid : r.1 ∈ ids <;> simp [hid]

/-- What a step does, by its label. -/
inductive Archiving.Does (cfg : AuditLogPrunerConfig) (s : Archiving) :
    ArchivingLabel → Archiving → Prop
  | unitOfWork {events : List AuditEvent} {other : Db}
      (admits : ∀ event ∈ events, s.Admits cfg event) :
      Does cfg s (.unitOfWork events other) { s with
        db := { other with auditLog := s.db.auditLog.insertAll events }
        stored := s.stored.insertAll events }
  | fetch {now : Instant} {fate : Tx.Fate} (tick : s.tick = .idle) :
      Does cfg s (.fetch now fate) { s with tick := startTick cfg now fate s.db }
  | archive {now : Instant} {batch : List (Nat × AuditEvent)} {write : Write}
      (tick : s.tick = .archiving now batch) :
      Does cfg s (.archive write) { s with
        tick := (archiveBatch now batch write s.files).1
        files := (Infrastructure.archive batch now write s.files).2 }
  | rollBack {fate : Tx.Fate} : Does cfg s (.delete fate) { s with tick := .idle }
  | delete {now : Instant} {batch : List (Nat × AuditEvent)} {before : List Char} {fate : Tx.Fate}
      {ids : List Nat} (tick : s.tick = .deleting now batch before)
      (hids : ids = AuditLog.doomed s.db (cfg.cutoff now) cfg.cleanupBatchSize) :
      Does cfg s (.delete fate) { s with
        db := { s.db with auditLog := s.db.auditLog.filter fun r => r.1 ∉ ids }
        tick := .idle
        deletions := s.deletions ++ [{
          cutoff := cfg.cutoff now
          fetched := batch
          removed := s.db.auditLog.rows.filter fun r => r.1 ∈ ids }] }
  | crash : Does cfg s .crash { s with tick := .idle }

theorem Archiving.does_of_step {s t : Archiving} {l : ArchivingLabel}
    (h : Archiving.step cfg s l = some t) : Archiving.Does cfg s l t := by
  cases l with
  | unitOfWork events other =>
    simp only [Archiving.step, Option.ite_none_right_eq_some] at h
    obtain ⟨hadmits, h⟩ := h
    cases h
    exact .unitOfWork hadmits
  | fetch now fate =>
    cases htick : s.tick with
    | idle =>
      simp only [Archiving.step, htick] at h
      cases h
      exact .fetch htick
    | archiving now batch => simp [Archiving.step, htick] at h
    | deleting now batch before => simp [Archiving.step, htick] at h
  | archive write =>
    cases htick : s.tick with
    | idle => simp [Archiving.step, htick] at h
    | archiving now batch =>
      simp only [Archiving.step, htick, (archiveBatch_spec now batch write s.files).1] at h
      cases h
      exact .archive htick
    | deleting now batch before => simp [Archiving.step, htick] at h
  | delete fate =>
    cases htick : s.tick with
    | idle => simp [Archiving.step, htick] at h
    | archiving now batch => simp [Archiving.step, htick] at h
    | deleting now batch before =>
      simp only [Archiving.step, htick] at h
      cases haborts : deleteAborts cfg now fate s.db with
      | true =>
        rw [haborts, if_pos rfl] at h
        cases h
        exact .rollBack
      | false =>
        rw [haborts, if_neg Bool.false_ne_true, deleteBatch_of_not_aborts haborts,
          removed_eq] at h
        cases h
        exact .delete htick rfl
  | crash =>
    cases h
    exact .crash

/-! ## What a tick knows -/

/-- What holds between the steps of every run. -/
structure Archiving.Inv (cfg : AuditLogPrunerConfig) (s : Archiving) : Prop where
  next : s.stored.next = s.db.auditLog.next
  dicts : ∀ row ∈ s.db.auditLog.rows, HasDict row.2
  /-- The batch of a tick is what its cutoff still selects. -/
  selected : ∀ t ∈ s.tick.underWay?,
    AuditLog.olderThan s.db (cfg.cutoff t.1) cfg.cleanupBatchSize = t.2
  /-- The append has archived all but the first row of the batch. -/
  rest : ∀ now batch before, s.tick = .deleting now batch before →
    ∀ row ∈ batch.tail, Archived s.files row
  /-- An append that began at the start of a line has archived the batch. -/
  appended : ∀ now batch before, s.tick = .deleting now batch before →
    Lines.AtLineStart '\n' before → ∀ row ∈ batch, Archived s.files row

namespace Archiving.Inv

variable {s t : Archiving}

theorem of_init (h : s.Init) : s.Inv cfg where
  next := congrArg Serial.next h.stored
  dicts := h.dicts
  selected := by simp [h.tick, AuditTick.underWay?]
  rest := by simp [h.tick]
  appended := by simp [h.tick]

/-- A tick that ends, whatever rows it leaves. -/
theorem idle (h : s.Inv cfg) {auditLog : Serial AuditEvent} {deletions : List Deletion}
    (hnext : auditLog.next = s.db.auditLog.next)
    (hrows : ∀ row ∈ auditLog.rows, row ∈ s.db.auditLog.rows) :
    Archiving.Inv cfg { s with
      db := { s.db with auditLog := auditLog }, tick := .idle, deletions := deletions } where
  next := h.next.trans hnext.symm
  dicts := fun row hrow => h.dicts row (hrows row hrow)
  selected := by simp [AuditTick.underWay?]
  rest := by simp
  appended := by simp

theorem unitOfWork (h : s.Inv cfg) {events : List AuditEvent} {other : Db}
    (hadmits : ∀ event ∈ events, s.Admits cfg event) :
    Archiving.Inv cfg { s with
      db := { other with auditLog := s.db.auditLog.insertAll events }
      stored := s.stored.insertAll events } where
  next := by rw [Serial.next_insertAll, Serial.next_insertAll, h.next]
  dicts := by
    intro row hrow
    rw [Serial.rows_insertAll, List.mem_append, List.mem_map] at hrow
    rcases hrow with hrow | ⟨r, hr, rfl⟩
    · exact h.dicts row hrow
    · exact (hadmits r.1 (List.fst_mem_of_mem_zipIdx hr)).1
  selected := by
    intro u hu
    rw [AuditLog.olderThan_insertAll fun event hevent => (hadmits event hevent).2 u hu]
    exact h.selected u hu
  rest := h.rest
  appended := h.appended

theorem fetch (h : s.Inv cfg) (now : Instant) (fate : Tx.Fate) :
    Archiving.Inv cfg { s with tick := startTick cfg now fate s.db } := by
  obtain hidle | ⟨hempty, hdeleting⟩ | ⟨hbatch, harchiving⟩ := startTick_spec now fate s.db
  · rw [hidle]
    exact h.idle rfl fun _ hrow => hrow
  · rw [hdeleting]
    refine ⟨h.next, h.dicts, ?_, ?_, ?_⟩
    · simpa [AuditTick.underWay?] using hempty
    · intro now' batch before htick row hrow
      cases htick
      cases hrow
    · intro now' batch before htick _ row hrow
      cases htick
      cases hrow
  · rw [harchiving]
    exact ⟨h.next, h.dicts, by simp [AuditTick.underWay?], by simp, by simp⟩

theorem archive (h : s.Inv cfg) {now : Instant} {batch : List (Nat × AuditEvent)}
    (write : Write) (htick : s.tick = .archiving now batch) :
    Archiving.Inv cfg { s with
      tick := (archiveBatch now batch write s.files).1
      files := (Infrastructure.archive batch now write s.files).2 } := by
  have hselected : AuditLog.olderThan s.db (cfg.cutoff now) cfg.cleanupBatchSize = batch :=
    h.selected (now, batch) (by rw [htick]; rfl)
  have hdicts : ∀ row ∈ batch, HasDict row.2 := by
    rw [← hselected]
    exact fun row hrow => h.dicts row (AuditLog.mem_olderThan hrow).1
  obtain ⟨-, hidle | ⟨hdeleting, hwrite⟩⟩ := archiveBatch_spec now batch write s.files
  · rw [hidle]
    exact ⟨h.next, h.dicts, by simp [AuditTick.underWay?], by simp, by simp⟩
  · rw [hdeleting]
    refine ⟨h.next, h.dicts, ?_, ?_, ?_⟩
    · simpa [AuditTick.underWay?] using hselected
    · intro now' batch' before e row hrow
      cases e
      rcases hwrite with rfl | rfl
      · cases hrow
      · exact archived_of_mem_tail hdicts hrow
    · intro now' batch' before e hstart row hrow
      cases e
      rcases hwrite with rfl | rfl
      · cases hrow
      · exact archived_of_atLineStart hdicts hstart hrow

theorem step {l : ArchivingLabel} (h : s.Inv cfg) (hstep : Archiving.step cfg s l = some t) :
    t.Inv cfg := by
  cases Archiving.does_of_step hstep with
  | unitOfWork admits => exact h.unitOfWork admits
  | @fetch now fate _ => exact h.fetch now fate
  | @archive now batch write tick => exact h.archive write tick
  | rollBack => exact h.idle rfl fun _ hrow => hrow
  | delete tick _ => exact h.idle rfl fun row hrow => (List.mem_filter.mp hrow).1
  | crash => exact h.idle rfl fun _ hrow => hrow

theorem of_reach (h : (archiving cfg).Reach s) : s.Inv cfg :=
  System.inv_of_reach ⟨fun _ => of_init, fun _ _ _ => step⟩ h

/-- **The delete of a tick takes the rows its fetch returned.** -/
theorem perm_removed (h : s.Inv cfg) {now : Instant} {batch : List (Nat × AuditEvent)}
    {before : List Char} (htick : s.tick = .deleting now batch before) :
    (s.db.auditLog.rows.filter fun r =>
      r.1 ∈ AuditLog.doomed s.db (cfg.cutoff now) cfg.cleanupBatchSize).Perm batch := by
  have hselected : AuditLog.olderThan s.db (cfg.cutoff now) cfg.cleanupBatchSize = batch :=
    h.selected (now, batch) (by rw [htick]; rfl)
  rw [← hselected]
  exact AuditLog.perm_doomed _ _ _

end Archiving.Inv

/-! ## Whole runs -/

namespace Tidy

variable {s t : Archiving}

theorem of_init (h : s.Init) : Tidy cfg s where
  rest := by simp [h.deletions]
  expired := by simp [h.deletions]
  bounded := by simp [h.deletions]
  same := by simp [h.deletions]
  kept := fun _ hrow => .inl (h.stored ▸ hrow)
  unchanged := fun _ hrow => h.stored ▸ hrow

/-- A step that leaves the rows and the deletions, and every archived row archived. -/
theorem of_same (h : Tidy cfg s) {files : ArchiveFiles} {tick : AuditTick}
    (hfiles : ∀ row, Archived s.files row → Archived files row) :
    Tidy cfg { s with files := files, tick := tick } where
  rest := fun d hd row hrow => hfiles row (h.rest d hd row hrow)
  expired := h.expired
  bounded := h.bounded
  same := h.same
  kept := h.kept
  unchanged := h.unchanged

theorem unitOfWork (h : Tidy cfg s) (hinv : s.Inv cfg) (events : List AuditEvent) (other : Db) :
    Tidy cfg { s with
      db := { other with auditLog := s.db.auditLog.insertAll events }
      stored := s.stored.insertAll events } where
  rest := h.rest
  expired := h.expired
  bounded := h.bounded
  same := h.same
  kept := by
    intro row hrow
    simp only [Serial.rows_insertAll, List.mem_append, hinv.next] at hrow ⊢
    rcases hrow with hrow | hrow
    · exact (h.kept row hrow).imp_left .inl
    · exact .inl (.inr hrow)
  unchanged := by
    intro row hrow
    simp only [Serial.rows_insertAll, List.mem_append, hinv.next] at hrow ⊢
    exact hrow.imp_left (h.unchanged row)

theorem delete (h : Tidy cfg s) (hinv : s.Inv cfg) {now : Instant}
    {batch : List (Nat × AuditEvent)} {before : List Char} {ids : List Nat}
    (htick : s.tick = .deleting now batch before)
    (hids : ids = AuditLog.doomed s.db (cfg.cutoff now) cfg.cleanupBatchSize) :
    Tidy cfg { s with
      db := { s.db with auditLog := s.db.auditLog.filter fun r => r.1 ∉ ids }
      tick := .idle
      deletions := s.deletions ++ [{
        cutoff := cfg.cutoff now
        fetched := batch
        removed := s.db.auditLog.rows.filter fun r => r.1 ∈ ids }] } := by
  have hselected : AuditLog.olderThan s.db (cfg.cutoff now) cfg.cleanupBatchSize = batch :=
    hinv.selected (now, batch) (by rw [htick]; rfl)
  have hperm := hinv.perm_removed htick
  rw [← hids] at hperm
  refine ⟨?_, ?_, ?_, ?_, ?_, ?_⟩
  · exact List.forall_mem_append.mpr
      ⟨h.rest, List.forall_mem_singleton.mpr (hinv.rest now batch before htick)⟩
  · refine List.forall_mem_append.mpr ⟨h.expired, List.forall_mem_singleton.mpr ?_⟩
    intro row hrow
    rw [hperm.mem_iff, ← hselected] at hrow
    exact (AuditLog.mem_olderThan hrow).2
  · refine List.forall_mem_append.mpr ⟨h.bounded, List.forall_mem_singleton.mpr ?_⟩
    rw [hperm.length_eq, ← hselected]
    exact AuditLog.length_olderThan_le _ _ _
  · exact List.forall_mem_append.mpr ⟨h.same, List.forall_mem_singleton.mpr hperm⟩
  · intro row hrow
    rcases h.kept row hrow with hrow | ⟨d, hd, hrow⟩
    · by_cases hid : row.1 ∈ ids
      · refine .inr ⟨_, List.mem_append_right _ (List.mem_singleton_self _), ?_⟩
        exact List.mem_filter.mpr ⟨hrow, by simpa using hid⟩
      · exact .inl (List.mem_filter.mpr ⟨hrow, by simpa using hid⟩)
    · exact .inr ⟨d, List.mem_append_left _ hd, hrow⟩
  · exact fun row hrow => h.unchanged row (List.mem_filter.mp hrow).1

theorem step {l : ArchivingLabel} (h : Tidy cfg s) (hinv : s.Inv cfg)
    (hstep : Archiving.step cfg s l = some t) : Tidy cfg t := by
  cases Archiving.does_of_step hstep with
  | @unitOfWork events other _ => exact h.unitOfWork hinv events other
  | fetch _ => exact h.of_same fun _ hrow => hrow
  | archive _ => exact h.of_same fun _ hrow => hrow.archive _ _ _
  | rollBack => exact h.of_same fun _ hrow => hrow
  | delete tick hids => exact h.delete hinv tick hids
  | crash => exact h.of_same fun _ hrow => hrow

end Tidy

/-- **What every run of the pruner keeps to.** -/
theorem tidy_of_reach {s : Archiving} (h : (archiving cfg).Reach s) : Tidy cfg s :=
  System.inv_of_reach_and (fun _ => Tidy.of_init)
    (fun _ _ _ hreach htidy => htidy.step (Archiving.Inv.of_reach hreach)) h

/-- Every deleted row is archived after a step that deletes only what it has archived. -/
theorem archived_of_step {s t : Archiving} {l : ArchivingLabel} (hinv : s.Inv cfg)
    (h : ∀ d ∈ s.deletions, ∀ row ∈ d.removed, Archived s.files row)
    (hstep : Archiving.step cfg s l = some t) (hl : Unglued s l) :
    ∀ d ∈ t.deletions, ∀ row ∈ d.removed, Archived t.files row := by
  cases Archiving.does_of_step hstep with
  | unitOfWork _ => exact h
  | fetch _ => exact h
  | archive _ => exact fun d hd row hrow => (h d hd row hrow).archive _ _ _
  | rollBack => exact h
  | @delete now batch before fate ids tick hids =>
    have hstart : Lines.AtLineStart '\n' before := hl rfl before (by rw [tick]; rfl)
    have hperm := hinv.perm_removed tick
    rw [← hids] at hperm
    refine List.forall_mem_append.mpr ⟨h, List.forall_mem_singleton.mpr fun row hrow => ?_⟩
    exact hinv.appended now batch before tick hstart row (hperm.mem_iff.mp hrow)
  | crash => exact h

/-- **What the pruner deletes stands in the archive**, in every run in which no tick deletes after an
append that continued a torn line. -/
theorem archived_before_deleted (cfg : AuditLogPrunerConfig) (s : Archiving)
    (h : ((archiving cfg).restrict Unglued).Reach s) : Safe cfg s := by
  refine ⟨tidy_of_reach (System.reach_of_restrict h), ?_⟩
  refine System.inv_of_reach_and
    (I := fun s => ∀ d ∈ s.deletions, ∀ row ∈ d.removed, Archived s.files row) ?_ ?_ h
  · intro s hs
    simp [hs.deletions]
  · rintro s l t hreach harchived ⟨hstep, hl⟩
    exact archived_of_step (Archiving.Inv.of_reach (System.reach_of_restrict hreach)) harchived
      hstep hl

/-! ## Two runs -/

/-- The defaults: 10,000 rows a tick, kept for a year. -/
def sampleRetention : AuditLogPrunerConfig where
  retentionDays := 365
  cleanupBatchSize := 10000
  retentionDays_pos := by decide
  cleanupBatchSize_pos := by decide

/-- A login. -/
def sampleLogin (now : Instant) : AuditEvent where
  timestamp := now
  action := .login
  actor := "user:1"
  resource := "user:1"
  outcome := .success

/-- One login at second 1, and an empty archive. -/
def sampleAudit : Archiving where
  db := { auditLog := Serial.empty.insert (sampleLogin (seconds 1)) }
  files := []
  tick := .idle
  stored := Serial.empty.insert (sampleLogin (seconds 1))
  deletions := []

theorem init_sampleAudit : sampleAudit.Init where
  tick := rfl
  stored := rfl
  deletions := rfl
  dicts := by decide +kernel

/-- A tick that cannot write, beside another login, and one that can. -/
def archivedMoves : List ArchivingLabel :=
  [.fetch (seconds 40000000) .commits, .unitOfWork [sampleLogin (seconds 40000000)] {},
    .archive (.torn 0), .fetch (seconds 40000060) .commits, .archive .synced, .delete .commits]

theorem archived_before_deleted_sample : ∃ s,
    ((archiving sampleRetention).restrict Unglued).Reach s ∧
      (s.deletions.any fun d => !d.removed.isEmpty) = true ∧ Safe sampleRetention s := by
  have hinit : ((archiving sampleRetention).restrict Unglued).Reach sampleAudit :=
    .init init_sampleAudit
  obtain ⟨s, hs, hdeleted⟩ := System.exists_reach_of_run_restrict archivedMoves hinit
    (p := fun s => s.deletions.any fun d => !d.removed.isEmpty) (by decide +kernel)
  exact ⟨s, hs, hdeleted, archived_before_deleted sampleRetention s hs⟩

/-- Every run keeps to `Safe`. -/
def ArchivesBeforeDelete (cfg : AuditLogPrunerConfig) : Prop :=
  ∀ s, (archiving cfg).Reach s → Safe cfg s

/-- Rows were deleted, and no line of the archive decodes. -/
def losesRecords (s : Archiving) : Bool :=
  (s.deletions.any fun d => !d.removed.isEmpty) &&
    s.files.all fun f => (Lines.lines '\n' f.2).all fun line => (Json.loads line).isNone

theorem not_safe_of_losesRecords {s : Archiving} (h : losesRecords s = true) :
    ¬Safe cfg s := by
  intro hsafe
  rw [losesRecords, Bool.and_eq_true, List.any_eq_true, List.all_eq_true] at h
  obtain ⟨⟨d, hd, hremoved⟩, hfiles⟩ := h
  have hne : d.removed ≠ [] := by simpa using hremoved
  obtain ⟨row, hrow⟩ := List.exists_mem_of_ne_nil _ hne
  obtain ⟨name, line, hline, record, hrecord, -⟩ := hsafe.archived d hd row hrow
  unfold ArchiveFiles.content at hline
  cases hget : s.files.get? name with
  | none =>
    rw [hget] at hline
    cases hline
  | some text =>
    rw [hget] at hline
    have hnone := List.all_eq_true.mp (hfiles _ (Dict.mem_of_get? hget)) line hline
    rw [hrecord] at hnone
    cases hnone

/-- The first append is torn after one character; the second continues its line. -/
def tornMoves : List ArchivingLabel :=
  [.fetch (seconds 40000000) .commits, .archive (.torn 1), .fetch (seconds 40000060) .commits,
    .archive .synced, .delete .commits]

/-- **A record behind a torn line is lost** with its row. -/
theorem torn_line_swallows_record : ¬ArchivesBeforeDelete sampleRetention := by
  intro h
  have hinit : (archiving sampleRetention).Reach sampleAudit := .init init_sampleAudit
  obtain ⟨s, hs, hloses⟩ := System.exists_reach_of_run tornMoves hinit
    (p := losesRecords) (by decide +kernel)
  exact not_safe_of_losesRecords hloses (h s hs)

end MessageService.System
