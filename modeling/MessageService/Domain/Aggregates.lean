import MessageService.Domain.Clock
import MessageService.Domain.StateMachines
import MessageService.Lib.SortedSet

/-!
# Aggregates

Model of `domain/aggregates/` (`Run`, `Stage`, `DeclaredStage`, `TemplateRef`, `AuditEvent`) and of
`domain/ids.py`. What `__post_init__` checks is a field of the structure, so that a value that
breaks an invariant cannot be built.

A `Run` is read from a row of `runs`, whose columns satisfy only the `CHECK`s of the table:
`update_state` writes `updated_at` without looking at `created_at`. So the columns are a structure
of their own, `RunRow`, and a `Run` is a row that also satisfies the aggregate's invariants. A
`Stage` is only ever written from a `Stage`, and its rows are `Stage`s.

Contexts are held as the JSON value their column decodes to, and an absent one as `none`.
-/

namespace MessageService.Domain

open MessageService.Lib

/-- `RunId`, a canonical UUID string. -/
abbrev RunId := String

/-- `StageId`, any caller-supplied string. -/
abbrev StageId := String

/-- The characters of a canonical UUID: groups of 8, 4, 4, 4 and 12 lowercase hexadecimal digits,
joined by hyphens. -/
def isCanonicalUuid (cs : List Char) : Bool :=
  let hex (c : Char) := ('0' ≤ c && c ≤ '9') || ('a' ≤ c && c ≤ 'f')
  cs.length = 36 && (cs.zipIdx.all fun (c, i) =>
    if i = 8 || i = 13 || i = 18 || i = 23 then c = '-' else hex c)

/-- `_RUN_ID_PATTERN` matches. Its `$` also matches before a final line feed. -/
def matchesRunIdPattern (value : String) : Bool :=
  isCanonicalUuid value.toList ||
    (value.toList.getLast? = some (Char.ofNat 10) && isCanonicalUuid value.toList.dropLast)

/-- The text of `_RUN_ID_PATTERN`. -/
def runIdPattern : String :=
  let hex (n : String) := "[0-9a-f]\x7b" ++ n ++ "\x7d"
  "^" ++ String.intercalate "-" [hex "8", hex "4", hex "4", hex "4", hex "12"] ++ "$"

/-- `validate_run_id_str`. -/
def validateRunIdStr (value : String) : Except ServiceError RunId :=
  if matchesRunIdPattern value then .ok value
  else .error {
    errorClass := .malformedRequestError
    message := "invalid run_id: " ++ pyRepr value
    details := [("run_id", .str value), ("expected_pattern", .str runIdPattern)] }

theorem validateRunIdStr_ok {value : String} {runId : RunId}
    (h : validateRunIdStr value = .ok runId) : runId = value := by
  unfold validateRunIdStr at h
  split at h
  · cases h; rfl
  · cases h

/-- `TemplateRef`. -/
structure TemplateRef where
  name : String
  version : String
  name_ne : name ≠ ""
  version_ne : version ≠ ""
  deriving DecidableEq

/-- `repr` of a `TemplateRef`. -/
def TemplateRef.repr (ref : TemplateRef) : String :=
  "TemplateRef(name=" ++ pyRepr ref.name ++ ", version=" ++ pyRepr ref.version ++ ")"

/-- `DeclaredStage`. -/
structure DeclaredStage where
  stageId : StageId
  stageOrder : Nat
  reportTemplateRef : TemplateRef
  deriving DecidableEq

/-- `AttachmentMode`. -/
inductive AttachmentMode where
  | singleAggregated
  | perStage
  deriving DecidableEq, Repr

/-- The stored value of a mode. -/
def AttachmentMode.value : AttachmentMode → String
  | singleAggregated => "SINGLE_AGGREGATED"
  | perStage => "PER_STAGE"

/-- `AttachmentMode(value)`. -/
def AttachmentMode.ofValue? (s : String) : Option AttachmentMode :=
  [singleAggregated, perStage].find? fun m => m.value = s

@[simp] theorem AttachmentMode.ofValue?_value (m : AttachmentMode) : ofValue? m.value = some m := by
  cases m <;> decide

/-- `EmailBodyPosition`. -/
inductive EmailBodyPosition where
  | beforeStagesSummary
  | afterStagesSummary
  deriving DecidableEq, Repr

/-- The stored value of a position. -/
def EmailBodyPosition.value : EmailBodyPosition → String
  | beforeStagesSummary => "BEFORE_STAGES_SUMMARY"
  | afterStagesSummary => "AFTER_STAGES_SUMMARY"

/-- `EmailBodyPosition(value)`. -/
def EmailBodyPosition.ofValue? (s : String) : Option EmailBodyPosition :=
  [beforeStagesSummary, afterStagesSummary].find? fun p => p.value = s

@[simp] theorem EmailBodyPosition.ofValue?_value (p : EmailBodyPosition) :
    ofValue? p.value = some p := by
  cases p <;> decide

/-! ## Runs -/

/-- The columns of a row of `runs`. -/
structure RunRow where
  runId : RunId
  pipelineType : String
  tags : SortedSet String
  declaredStages : List DeclaredStage
  state : RunState
  attachmentMode : AttachmentMode
  aggregationTemplateRef : Option TemplateRef
  subscriptionPredicateTags : SortedSet String
  createdAt : Instant
  updatedAt : Instant
  deriving DecidableEq

/-- `Run`: a row that satisfies the aggregate's invariants. -/
structure Run extends RunRow where
  ordered : createdAt ≤ updatedAt
  aggregated : attachmentMode = .singleAggregated → aggregationTemplateRef ≠ none
  distinct : (declaredStages.map DeclaredStage.stageId).Nodup
  deriving DecidableEq

/-- `declared_stage_ids`. -/
def RunRow.declaredStageIds (run : RunRow) : List StageId :=
  run.declaredStages.map DeclaredStage.stageId

/-- The first id that has been seen before, or that occurs again. -/
def firstDuplicate (seen : List StageId) : List StageId → Option StageId
  | [] => none
  | stageId :: stageIds =>
    if seen.contains stageId then some stageId else firstDuplicate (stageId :: seen) stageIds

/-- The message of the first check of `Run.__post_init__` to fail. -/
def RunRow.violation? (row : RunRow) : Option String :=
  if ¬row.createdAt ≤ row.updatedAt then
    some ("Run.updated_at (" ++ datetimeStr row.updatedAt ++ ") < created_at (" ++
      datetimeStr row.createdAt ++ ")")
  else if row.attachmentMode = .singleAggregated ∧ row.aggregationTemplateRef = none then
    some "Run with attachment_mode=SINGLE_AGGREGATED requires aggregation_template_ref"
  else
    (firstDuplicate [] row.declaredStageIds).map fun stageId =>
      "Run.declared_stages contains duplicate stage_id: " ++ pyRepr stageId

theorem firstDuplicate_eq_none_iff {seen stageIds : List StageId} :
    firstDuplicate seen stageIds = none ↔ stageIds.Nodup ∧ ∀ x ∈ stageIds, x ∉ seen := by
  induction stageIds generalizing seen with
  | nil => simp [firstDuplicate]
  | cons stageId stageIds ih =>
    unfold firstDuplicate
    by_cases hseen : stageId ∈ seen
    · simp [hseen]
    · rw [if_neg (by simpa using hseen), ih, List.nodup_cons]
      grind

theorem RunRow.violation?_eq_none_iff {row : RunRow} : row.violation? = none ↔
    row.createdAt ≤ row.updatedAt ∧
      (row.attachmentMode = .singleAggregated → row.aggregationTemplateRef ≠ none) ∧
        (row.declaredStages.map DeclaredStage.stageId).Nodup := by
  have hids : firstDuplicate [] row.declaredStageIds = none ↔
      (row.declaredStages.map DeclaredStage.stageId).Nodup := by
    rw [firstDuplicate_eq_none_iff, declaredStageIds]
    simp
  rw [← hids, violation?]
  split_ifs with hordered haggregated
  · simp [haggregated]
  · rw [Option.map_eq_none_iff]
    tauto
  · simp [hordered]

/-- The constructor of `Run`, with its `__post_init__`. -/
def Run.make (row : RunRow) : Except ServiceError Run :=
  match h : row.violation? with
  | none => .ok { row with
      ordered := (RunRow.violation?_eq_none_iff.mp h).1
      aggregated := (RunRow.violation?_eq_none_iff.mp h).2.1
      distinct := (RunRow.violation?_eq_none_iff.mp h).2.2 }
  | some message => .error { errorClass := .valueError, message := message }

theorem Run.make_ok {row : RunRow} {run : Run} (h : Run.make row = .ok run) :
    run.toRunRow = row := by
  unfold Run.make at h
  split at h
  · cases h; rfl
  · cases h

theorem Run.make_toRunRow (run : Run) : Run.make run.toRunRow = .ok run := by
  have hnone : run.toRunRow.violation? = none :=
    RunRow.violation?_eq_none_iff.mpr ⟨run.ordered, run.aggregated, run.distinct⟩
  unfold Run.make
  split
  · rfl
  · next h =>
    rw [hnone] at h
    cases h

/-- `_row_to_run`. -/
def rowToRun (row : RunRow) : Except ServiceError Run :=
  match Run.make row with
  | .ok run => .ok run
  | .error e => .error {
      errorClass := .persistenceError
      message := "persisted run " ++ pyRepr row.runId ++ " violates aggregate invariants: " ++
        e.message
      details := [("run_id", .str row.runId), ("reason", .str e.message)] }

theorem rowToRun_ok {row : RunRow} {run : Run} (h : rowToRun row = .ok run) :
    run.toRunRow = row := by
  unfold rowToRun at h
  split at h
  · next hr => cases h; exact Run.make_ok hr
  · cases h

theorem rowToRun_toRunRow (run : Run) : rowToRun run.toRunRow = .ok run := by
  simp [rowToRun, Run.make_toRunRow]

/-- A row whose last transition is before its creation does not decode. -/
theorem rowToRun_error_of_lt {row : RunRow} (h : ¬row.createdAt ≤ row.updatedAt) :
    ∃ e, rowToRun row = .error e := by
  cases hr : rowToRun row with
  | error e => exact ⟨e, rfl⟩
  | ok run =>
    have hrow := rowToRun_ok hr
    exact absurd (hrow ▸ run.ordered) h

/-! ## Stages -/

/-- The states only a submission leads to. -/
def StageState.submission : StageState → Bool
  | .submitted | .accepted | .retried => true
  | _ => false

/-- `Stage`. -/
structure Stage where
  runId : RunId
  stageId : StageId
  state : StageState
  reportTemplateRef : TemplateRef
  reportContext : Option (Dict Json) := none
  emailBodyContext : Option (Dict Json) := none
  emailBodyPosition : Option EmailBodyPosition := none
  submittedAt : Option Instant := none
  pending_iff : state = .pending → submittedAt = none := by simp
  submitted_at : state.submission = true → submittedAt ≠ none := by
    simp [StageState.submission]
  position_iff : emailBodyPosition = none ↔ emailBodyContext = none := by simp

/-- The primary key of `stages`. -/
def Stage.key (s : Stage) : RunId × StageId := (s.runId, s.stageId)

/-! ## Audit events -/

/-- `AuditAction`. -/
inductive AuditAction where
  | beginRun
  | submitStageReport
  | finalizeRun
  | runStateTransition
  | stageStateTransition
  | sendReport
  | resendReport
  | sweepOrphan
  | dispatcherActionAbandoned
  | pruneReport
  | subscribe
  | unsubscribe
  | createUser
  | updateUser
  | login
  | loginFailed
  | logout
  deriving DecidableEq, Repr

/-- The stored value of an action. -/
def AuditAction.value : AuditAction → String
  | beginRun => "BEGIN_RUN"
  | submitStageReport => "SUBMIT_STAGE_REPORT"
  | finalizeRun => "FINALIZE_RUN"
  | runStateTransition => "RUN_STATE_TRANSITION"
  | stageStateTransition => "STAGE_STATE_TRANSITION"
  | sendReport => "SEND_REPORT"
  | resendReport => "RESEND_REPORT"
  | sweepOrphan => "SWEEP_ORPHAN"
  | dispatcherActionAbandoned => "DISPATCHER_ACTION_ABANDONED"
  | pruneReport => "PRUNE_REPORT"
  | subscribe => "SUBSCRIBE"
  | unsubscribe => "UNSUBSCRIBE"
  | createUser => "CREATE_USER"
  | updateUser => "UPDATE_USER"
  | login => "LOGIN"
  | loginFailed => "LOGIN_FAILED"
  | logout => "LOGOUT"

/-- `AuditOutcome`. -/
inductive AuditOutcome where
  | success
  | failure
  deriving DecidableEq, Repr

/-- The stored value of an outcome. -/
def AuditOutcome.value : AuditOutcome → String
  | success => "SUCCESS"
  | failure => "FAILURE"

/-- `AuditEvent`; the `audit_id` is the row's. -/
structure AuditEvent where
  timestamp : Instant
  action : AuditAction
  actor : String
  resource : String
  outcome : AuditOutcome
  details : Dict Json := []

/-- The resource string of a run. -/
def runResource (runId : RunId) : String := "run:" ++ runId

end MessageService.Domain
