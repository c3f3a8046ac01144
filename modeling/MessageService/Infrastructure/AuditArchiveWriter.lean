import MessageService.Infrastructure.Store
import MessageService.Lib.JsonText
import MessageService.Lib.Lines

/-!
# The audit archive

Model of `infrastructure/persistence/audit_archive_writer.py` (`FilesystemAuditArchiveWriter`). The
archive directory is what each file holds, by its name. An append that raises an `OSError`, or the
process dying in the middle of one, leaves a part of the text in the file (`Write.torn`).

`Archived` is what a reader of the archive finds of a row: a whole line that decodes to its record.
No append takes that away (`Archived.archive`). An append that starts at the start of a line
archives all its rows, and any append all but the first (`archived_of_atLineStart`,
`archived_of_mem_tail`).
-/

namespace MessageService.Infrastructure

open MessageService.Domain MessageService.Lib

/-- `_event_to_record`. -/
def eventToRecord (row : Nat × AuditEvent) : Json :=
  .obj [("audit_id", .int row.1), ("timestamp", .str (isoZ row.2.timestamp)),
    ("action", .str row.2.action.value), ("actor", .str row.2.actor),
    ("resource", .str row.2.resource), ("outcome", .str row.2.outcome.value),
    ("details", .obj row.2.details)]

/-- The details are a `dict` that Python can hold. -/
def HasDict (event : AuditEvent) : Prop := (Json.obj event.details).valid = true

instance (event : AuditEvent) : Decidable (HasDict event) :=
  inferInstanceAs (Decidable (_ = true))

/-- The record of an event whose details are a `dict` is one as well. -/
theorem valid_eventToRecord {row : Nat × AuditEvent} (h : HasDict row.2) :
    (eventToRecord row).valid = true := by
  rw [eventToRecord, Json.valid_obj]
  refine ⟨by simp, ?_⟩
  simp only [List.forall_mem_cons, List.not_mem_nil, false_implies, implies_true, and_true]
  exact ⟨rfl, rfl, rfl, rfl, rfl, rfl, h⟩

/-- The archive directory. -/
abbrev ArchiveFiles := Dict (List Char)

/-- What a file holds; nothing when it is not there. -/
def ArchiveFiles.content (files : ArchiveFiles) (name : String) : List Char :=
  (files.get? name).getD []

/-- The file of the ticks of a day. -/
def archiveName (asOf : Instant) : String := "audit-archive-" ++ isoDate asOf ++ ".jsonl"

/-- The line of a row. -/
def archiveLine (row : Nat × AuditEvent) : List Char := (eventToRecord row).dumps

/-- What an append writes. -/
def archiveText (rows : List (Nat × AuditEvent)) : List Char :=
  Lines.write '\n' (rows.map archiveLine)

/-- How an append ends. -/
inductive Write where
  /-- The text is written, flushed and synced. -/
  | synced
  /-- An `OSError`, or the end of the process, after `n` characters of the text. -/
  | torn (n : Nat)
  deriving DecidableEq, Repr

/-- `archive`: whether it returns, and the files. -/
def archive (rows : List (Nat × AuditEvent)) (asOf : Instant) (write : Write)
    (files : ArchiveFiles) : Bool × ArchiveFiles :=
  if rows = [] then (true, files)
  else
    let name := archiveName asOf
    match write with
    | .synced => (true, files.set name (files.content name ++ archiveText rows))
    | .torn n => (false, files.set name (files.content name ++ (archiveText rows).take n))

/-- A whole line of an archive file decodes to the record of the row. -/
def Archived (files : ArchiveFiles) (row : Nat × AuditEvent) : Prop :=
  ∃ name, ∃ line ∈ Lines.lines '\n' (files.content name), ∃ record,
    Json.loads line = some record ∧ record.sortKeys = (eventToRecord row).sortKeys

variable {files : ArchiveFiles} {row : Nat × AuditEvent} {rows : List (Nat × AuditEvent)}
  {asOf : Instant}

theorem content_set (files : ArchiveFiles) (name : String) (text : List Char) (name' : String) :
    ArchiveFiles.content (files.set name text) name' =
      if name = name' then text else files.content name' := by
  rw [ArchiveFiles.content, Dict.get?_set]
  split <;> rfl

/-- An append writes to the file of its day and to no other. -/
theorem archive_snd (rows : List (Nat × AuditEvent)) (asOf : Instant) (write : Write)
    (files : ArchiveFiles) (name : String) : ∃ text,
    (archive rows asOf write files).2.content name = files.content name ++ text := by
  unfold archive
  split
  · exact ⟨[], (List.append_nil _).symm⟩
  · cases write with
    | synced =>
      simp only [content_set]
      split
      · next h => exact ⟨_, by rw [h]⟩
      · exact ⟨[], (List.append_nil _).symm⟩
    | torn n =>
      simp only [content_set]
      split
      · next h => exact ⟨_, by rw [h]⟩
      · exact ⟨[], (List.append_nil _).symm⟩

/-- **An archived row stays archived.** -/
theorem Archived.archive (h : Archived files row) (rows : List (Nat × AuditEvent))
    (asOf : Instant) (write : Write) : Archived (archive rows asOf write files).2 row := by
  obtain ⟨name, line, hline, hrecord⟩ := h
  obtain ⟨text, htext⟩ := archive_snd rows asOf write files name
  refine ⟨name, line, ?_, hrecord⟩
  rw [htext]
  exact (Lines.lines_prefix_append _ _).subset hline

/-- The line of a row is one line, and decodes to its record. -/
theorem newline_not_mem_archiveLine (h : HasDict row.2) : '\n' ∉ archiveLine row :=
  Json.newline_not_mem_dumps (valid_eventToRecord h)

theorem archived_of_line (name : String) (h : HasDict row.2)
    (hline : archiveLine row ∈ Lines.lines '\n' (files.content name)) : Archived files row :=
  ⟨name, _, hline, _, Json.loads_dumps (valid_eventToRecord h), Json.sortKeys_sortKeys _⟩

theorem content_archive_synced (hrows : rows ≠ []) :
    (archive rows asOf .synced files).2.content (archiveName asOf) =
      files.content (archiveName asOf) ++ Lines.write '\n' (rows.map archiveLine) := by
  simp [archive, hrows, content_set, archiveText]

theorem newline_not_mem_archiveLines (hdict : ∀ row ∈ rows, HasDict row.2) :
    ∀ line ∈ rows.map archiveLine, '\n' ∉ line :=
  List.forall_mem_map.mpr fun row hrow => newline_not_mem_archiveLine (hdict row hrow)

/-- **An append at the start of a line archives its rows.** -/
theorem archived_of_atLineStart (hdict : ∀ row ∈ rows, HasDict row.2)
    (hstart : Lines.AtLineStart '\n' (files.content (archiveName asOf))) (hrow : row ∈ rows) :
    Archived (archive rows asOf .synced files).2 row := by
  refine archived_of_line (archiveName asOf) (hdict row hrow) ?_
  rw [content_archive_synced (List.ne_nil_of_mem hrow),
    Lines.lines_append_write_of_atLineStart (newline_not_mem_archiveLines hdict) hstart]
  exact List.mem_append_right _ (List.mem_map_of_mem hrow)

/-- An append archives all its rows but the first. -/
theorem archived_of_mem_tail (hdict : ∀ row ∈ rows, HasDict row.2) (hrow : row ∈ rows.tail) :
    Archived (archive rows asOf .synced files).2 row := by
  cases rows with
  | nil => cases hrow
  | cons first rest =>
    refine archived_of_line (archiveName asOf) (hdict row (List.mem_cons_of_mem _ hrow)) ?_
    rw [content_archive_synced (List.cons_ne_nil _ _), List.map_cons,
      Lines.lines_append_write (newline_not_mem_archiveLines hdict)]
    exact List.mem_append_right _ (List.mem_cons_of_mem _ (List.mem_map_of_mem hrow))

end MessageService.Infrastructure
