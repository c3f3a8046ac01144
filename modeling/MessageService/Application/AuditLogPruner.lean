import MessageService.Infrastructure.AuditArchiveWriter

/-!
# The audit-log pruner

Model of `application/use_cases/audit_log_pruner.py` (`AuditLogPrunerUseCase`) with an archive
writer. A tick (`run_once`) fetches the expired batch in one unit of work, appends it to the archive
of the day, and deletes in another unit of work, which selects its rows by itself. `AuditTick` is
where a tick stands between the three, and `startTick`, `archiveBatch` and `deleteBatch` are its
steps. Without a writer a tick is its delete alone; that and the logging are left out.
-/

namespace MessageService.Application

open MessageService.Domain MessageService.Lib MessageService.Infrastructure

/-- The configuration of `AuditLogPrunerUseCase`. -/
structure AuditLogPrunerConfig where
  retentionDays : Nat
  cleanupBatchSize : Nat
  retentionDays_pos : 1 ≤ retentionDays
  cleanupBatchSize_pos : 1 ≤ cleanupBatchSize

/-- The cutoff of a tick that starts at `now`. -/
def AuditLogPrunerConfig.cutoff (cfg : AuditLogPrunerConfig) (now : Instant) : Instant :=
  now - seconds (86400 * cfg.retentionDays)

/-- Where a tick stands. -/
inductive AuditTick where
  | idle
  /-- The batch is fetched. -/
  | archiving (now : Instant) (batch : List (Nat × AuditEvent))
  /-- The batch is archived, or empty; `before` is what the file held when the append began. -/
  | deleting (now : Instant) (batch : List (Nat × AuditEvent)) (before : List Char)

/-- The clock reading and the batch of a tick under way. -/
def AuditTick.underWay? : AuditTick → Option (Instant × List (Nat × AuditEvent))
  | idle => none
  | archiving now batch => some (now, batch)
  | deleting now batch _ => some (now, batch)

variable (cfg : AuditLogPrunerConfig)

/-- Fetch the expired batch. -/
def startTick (now : Instant) (fate : Tx.Fate) (db : Db) : AuditTick :=
  match (AuditLog.fetchOlderThan (cfg.cutoff now) cfg.cleanupBatchSize).commit fate db with
  | (.returned batch, _) => if batch = [] then .deleting now [] [] else .archiving now batch
  | _ => .idle

/-- Archive the batch. On an `OSError` the tick is over. -/
def archiveBatch (now : Instant) (batch : List (Nat × AuditEvent)) (write : Write)
    (files : ArchiveFiles) : AuditTick × ArchiveFiles :=
  match archive batch now write files with
  | (true, files') => (.deleting now batch (files.content (archiveName now)), files')
  | (false, files') => (.idle, files')

/-- Delete the expired batch. -/
def deleteBatch (now : Instant) (fate : Tx.Fate) (db : Db) : Tx.Outcome ServiceError Nat × Db :=
  (AuditLog.deleteOlderThan (cfg.cutoff now) cfg.cleanupBatchSize).commit fate db

/-- The delete is rolled back. -/
def deleteAborts (now : Instant) (fate : Tx.Fate) (db : Db) : Bool :=
  (AuditLog.deleteOlderThan (cfg.cutoff now) cfg.cleanupBatchSize).aborts fate db

variable {cfg}

/-- A tick that starts has fetched the batch its cutoff selects. -/
theorem startTick_spec (now : Instant) (fate : Tx.Fate) (db : Db) :
    startTick cfg now fate db = .idle ∨
      AuditLog.olderThan db (cfg.cutoff now) cfg.cleanupBatchSize = [] ∧
        startTick cfg now fate db = .deleting now [] [] ∨
      AuditLog.olderThan db (cfg.cutoff now) cfg.cleanupBatchSize ≠ [] ∧
        startTick cfg now fate db =
          .archiving now (AuditLog.olderThan db (cfg.cutoff now) cfg.cleanupBatchSize) := by
  have hsize : 1 ≤ (cfg.cleanupBatchSize : Int) := by
    have hpos := cfg.cleanupBatchSize_pos
    omega
  have hfetch : AuditLog.fetchOlderThan (cfg.cutoff now) cfg.cleanupBatchSize db =
      .ok (AuditLog.olderThan db (cfg.cutoff now) cfg.cleanupBatchSize, db) :=
    Tx.ok_bind.mpr ⟨(), db, Tx.ok_require.mpr ⟨hsize, rfl⟩, Tx.ok_read.mpr ⟨rfl, rfl⟩⟩
  unfold startTick Tx.commit
  rw [hfetch]
  cases fate with
  | fails => exact .inl rfl
  | lost => exact .inl rfl
  | commits =>
    by_cases hempty : AuditLog.olderThan db (cfg.cutoff now) cfg.cleanupBatchSize = []
    · exact .inr (.inl ⟨hempty, if_pos hempty⟩)
    · exact .inr (.inr ⟨hempty, if_neg hempty⟩)

/-- An append ends the tick, or it has written the batch and the delete comes next. -/
theorem archiveBatch_spec (now : Instant) (batch : List (Nat × AuditEvent)) (write : Write)
    (files : ArchiveFiles) :
    (archiveBatch now batch write files).2 = (archive batch now write files).2 ∧
      ((archiveBatch now batch write files).1 = .idle ∨
        (archiveBatch now batch write files).1 =
            .deleting now batch (files.content (archiveName now)) ∧
          (batch = [] ∨ write = .synced)) := by
  unfold archiveBatch archive
  by_cases hbatch : batch = []
  · simp [hbatch]
  · cases write with
    | synced => simp [hbatch]
    | torn n => simp [hbatch]

/-- A delete that is not rolled back takes the rows that its own cutoff selects then. -/
theorem deleteBatch_of_not_aborts {now : Instant} {fate : Tx.Fate} {db : Db}
    (h : deleteAborts cfg now fate db = false) : (deleteBatch cfg now fate db).2 =
      { db with auditLog := db.auditLog.filter fun r =>
          r.1 ∉ AuditLog.doomed db (cfg.cutoff now) cfg.cleanupBatchSize } := by
  obtain ⟨rows, db', hok, hdb⟩ := Tx.commit_of_not_aborts h
  simp only [AuditLog.deleteOlderThan, Tx.ok_bind, Tx.ok_require, Tx.ok_read, Tx.ok_write,
    Tx.ok_pure] at hok
  obtain ⟨_, _, ⟨_, rfl⟩, _, _, ⟨rfl, rfl⟩, _, _, ⟨rfl, rfl⟩, _, _, rfl, rfl, rfl⟩ := hok
  exact hdb

end MessageService.Application
