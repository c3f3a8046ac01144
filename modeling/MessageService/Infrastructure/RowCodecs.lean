import MessageService.Domain.Isoformat
import MessageService.Infrastructure.Store
import MessageService.Lib.JsonText

/-!
# Row codecs

Model of `_run_to_params` and `_row_to_run` (`infrastructure/persistence/run_repository.py`), of
`_stage_to_params` and `_row_to_stage` (`stage_repository.py`) and of `dumps_json` and `loads_json`
(`_helpers.py`): the columns of `runs` and `stages` as the texts that SQLite holds. `NOT NULL` is in
the type of a column.

Two aware `datetime`s are equal in Python when they denote one moment, so an aggregate up to `==` is
one with moments (`Run`, `StageRecord`). `DatedRun` and `DatedStage` add the `datetime`s that it
holds, whatever their offsets. A `StageRecord` is a `Stage` of the source, whose contexts are texts.

* `toRun_columns`: decoding the texts of a row is decoding the row.
* `DatedRun.toParams_eq_ok_iff`, `DatedStage.toParams_eq_ok_iff`: a value is written when its
  timestamps have dates in UTC.
* `DatedRun.toRun_of_toParams`, `DatedStage.toStage_of_toParams`: **what is written is read back**.
-/

namespace MessageService.Infrastructure

open MessageService.Domain MessageService.Lib

/-! ## Exceptions of the language -/

/-- A `TypeError`. -/
def typeError (text : String) : PyException where
  className := "TypeError"
  bases := ["Exception", "BaseException", "object"]
  text := text

/-- A `ValueError`. -/
def pyValueError (text : String) : PyException where
  className := "ValueError"
  bases := ["Exception", "BaseException", "object"]
  text := text

/-- A `KeyError`. -/
def keyError (key : String) : PyException where
  className := "KeyError"
  bases := ["LookupError", "Exception", "BaseException", "object"]
  text := pyRepr key

/-- `Enum(value)` under `except ValueError`. -/
def known {α : Type} (e : ServiceError) : Option α → Except (Raised ServiceError) α
  | some a => .ok a
  | none => .error (.own e)

theorem known_some {α : Type} (e : ServiceError) (a : α) : known e (some a) = .ok a := rfl

/-- The constructor of `TemplateRef`, with its `__post_init__`. -/
def templateRef (name version : String) : Except PyException TemplateRef :=
  if hn : name = "" then .error (pyValueError "TemplateRef.name must be non-empty")
  else if hv : version = "" then .error (pyValueError "TemplateRef.version must be non-empty")
  else .ok ⟨name, version, hn, hv⟩

theorem templateRef_self (ref : TemplateRef) : templateRef ref.name ref.version = .ok ref := by
  rw [templateRef, dif_neg ref.name_ne, dif_neg ref.version_ne]

/-! ## JSON columns -/

/-- `dumps_json`. -/
def dumpsJson (v : Json) : String := String.ofList v.dumps

variable (decodeError : String → String)

/-- `json.loads`; `decodeError` is the text of the `JSONDecodeError` of a text. -/
def jsonLoads (value : String) : Except PyException Json :=
  match Json.loads value.toList with
  | some v => .ok v
  | none => .error {
      className := "JSONDecodeError"
      bases := ["ValueError", "Exception", "BaseException", "object"]
      text := decodeError value }

/-- `loads_json`. -/
def loadsJson (field value : String) : Except (Raised ServiceError) Json :=
  handling ["JSONDecodeError"] (fun exc => {
    errorClass := .persistenceError
    message := "could not decode persisted JSON field " ++ pyRepr field ++ ": " ++ exc.text
    details := [("field", .str field), ("value", .str value), ("reason", .str exc.text)] })
    (jsonLoads decodeError value)

theorem loadsJson_dumpsJson {v : Json} (h : v.valid = true) (field : String) :
    loadsJson decodeError field (dumpsJson v) = .ok v.sortKeys := by
  have hread : Json.loads (dumpsJson v).toList = some v.sortKeys := by
    rw [dumpsJson, String.toList_ofList, Json.loads_dumps h]
  simp only [loadsJson, jsonLoads, hread, handling]

/-- `iter(v)`. -/
def iterate : Json → Except PyException (List Json)
  | .arr xs => .ok xs
  | .obj es => .ok (es.map fun e => .str e.1)
  | .str s => .ok (s.toList.map fun c => .str (String.singleton c))
  | _ => .error (typeError "object is not iterable")

/-- A value in the place of a `str`. The source takes any value there; no save writes another. -/
def asStr : Json → Except PyException String
  | .str s => .ok s
  | _ => .error (typeError "expected str")

/-- `frozenset(v)`, of strings. -/
def frozensetOf (v : Json) : Except PyException (SortedSet String) := do
  let xs ← iterate v
  let strings ← xs.mapM asStr
  pure (SortedSet.ofList strings)

/-- The list `sorted` makes of a set. -/
def sortedList (s : SortedSet String) : Json := .arr (s.elems.map .str)

theorem valid_sortedList (s : SortedSet String) : (sortedList s).valid = true := by
  rw [sortedList, Json.valid_arr, List.forall_mem_map]
  exact fun _ _ => rfl

theorem sortKeys_sortedList (s : SortedSet String) : (sortedList s).sortKeys = sortedList s := by
  rw [sortedList, Json.sortKeys, Json.sortElements_eq, List.map_map]
  rfl

theorem frozensetOf_sortedList (s : SortedSet String) : frozensetOf (sortedList s) = .ok s := by
  have hstrings : (s.elems.map Json.str).mapM asStr = .ok s.elems := mapM_map_ok fun _ _ => rfl
  have hset : SortedSet.ofList s.elems = s := SortedSet.ext_of_mem fun _ => SortedSet.mem_ofList
  rw [frozensetOf, sortedList, iterate, bind_ok, hstrings, bind_ok, hset]
  rfl

theorem loadsJson_sortedList (s : SortedSet String) (field : String) :
    loadsJson decodeError field (dumpsJson (sortedList s)) = .ok (sortedList s) := by
  rw [loadsJson_dumpsJson decodeError (valid_sortedList s), sortKeys_sortedList]

/-! ## Declared stages -/

/-- `v[key]`. -/
def item (key : String) : Json → Except PyException Json
  | .obj es =>
    match Dict.get? es key with
    | some v => .ok v
    | none => .error (keyError key)
  | _ => .error (typeError "indices must be integers or slices, not str")

/-- `int(v)`. The source also reads numbers out of strings and floats; no save writes one. -/
def intOf : Json → Except PyException Int
  | .int n => .ok n
  | .bool b => .ok (if b then 1 else 0)
  | _ => .error (typeError "int() argument must be a string, a bytes-like object or a real number")

/-- The constructor of `DeclaredStage`, with its `__post_init__`. -/
def declaredStage (stageId : StageId) (stageOrder : Int) (ref : TemplateRef) :
    Except PyException DeclaredStage :=
  if stageOrder < 0 then .error (pyValueError
    ("DeclaredStage.stage_order must be non-negative (got " ++ toString stageOrder ++ ")"))
  else .ok ⟨stageId, stageOrder.toNat, ref⟩

/-- The members of an element of `declared_stages_payload`. -/
def declaredStageMembers (ds : DeclaredStage) : List (String × Json) :=
  [("stage_id", .str ds.stageId), ("stage_order", .int ds.stageOrder),
    ("report_template_name", .str ds.reportTemplateRef.name),
    ("report_template_version", .str ds.reportTemplateRef.version)]

/-- `declared_stages_payload`. -/
def declaredStagesPayload (stages : List DeclaredStage) : Json :=
  .arr (stages.map fun ds => .obj (declaredStageMembers ds))

/-- An element of `declared_stages`. -/
def declaredStageOf (v : Json) : Except PyException DeclaredStage := do
  let stageId ← item "stage_id" v >>= asStr
  let stageOrder ← item "stage_order" v >>= intOf
  let name ← item "report_template_name" v >>= asStr
  let version ← item "report_template_version" v >>= asStr
  let ref ← templateRef name version
  declaredStage stageId stageOrder ref

/-- The `tuple` of the declared stages. -/
def declaredStagesOf (v : Json) : Except PyException (List DeclaredStage) := do
  let items ← iterate v
  items.mapM declaredStageOf

theorem item_sortKeys {es : List (String × Json)} (h : (es.map Prod.fst).Nodup) {key : String}
    {v : Json} (hv : (key, v) ∈ es) : item key (Json.obj es).sortKeys = .ok v.sortKeys := by
  have hget := Json.get?_sortKeys h hv
  simp only [Json.sortKeys, item, hget]

theorem nodup_declaredStageMembers (ds : DeclaredStage) :
    ((declaredStageMembers ds).map Prod.fst).Nodup := by
  have hkeys : ["stage_id", "stage_order", "report_template_name",
      "report_template_version"].Nodup := by decide
  exact hkeys

theorem valid_declaredStagesPayload (stages : List DeclaredStage) :
    (declaredStagesPayload stages).valid = true := by
  rw [declaredStagesPayload, Json.valid_arr, List.forall_mem_map]
  intro ds _
  rw [Json.valid_obj]
  refine ⟨nodup_declaredStageMembers ds, fun e he => ?_⟩
  simp only [declaredStageMembers, List.mem_cons, List.not_mem_nil, or_false] at he
  rcases he with rfl | rfl | rfl | rfl <;> rfl

theorem declaredStageOf_members (ds : DeclaredStage) :
    declaredStageOf (Json.obj (declaredStageMembers ds)).sortKeys = .ok ds := by
  have horder : declaredStage ds.stageId ds.stageOrder ds.reportTemplateRef = .ok ds := by
    rw [declaredStage, if_neg (by omega), Int.toNat_natCast]
  -- the text has the keys in order, so each is looked up
  have hitem {key : String} {v : Json} (hv : (key, v) ∈ declaredStageMembers ds) :
      item key (Json.obj (declaredStageMembers ds)).sortKeys = .ok v.sortKeys :=
    item_sortKeys (nodup_declaredStageMembers ds) hv
  have hid := @hitem "stage_id" (.str ds.stageId) (by simp [declaredStageMembers])
  have hstageOrder := @hitem "stage_order" (.int ds.stageOrder) (by simp [declaredStageMembers])
  have hname := @hitem "report_template_name" (.str ds.reportTemplateRef.name)
    (by simp [declaredStageMembers])
  have hversion := @hitem "report_template_version" (.str ds.reportTemplateRef.version)
    (by simp [declaredStageMembers])
  rw [declaredStageOf, hid, hstageOrder, hname, hversion]
  simp only [bind_ok, Json.sortKeys, asStr, intOf, templateRef_self, horder]

theorem declaredStagesOf_payload (stages : List DeclaredStage) :
    declaredStagesOf (declaredStagesPayload stages).sortKeys = .ok stages := by
  rw [declaredStagesPayload, Json.sortKeys, Json.sortElements_eq, List.map_map, declaredStagesOf,
    iterate, bind_ok]
  exact mapM_map_ok fun ds _ => declaredStageOf_members ds

/-! ## Runs -/

/-- A row of `runs`, or the parameters that write one. -/
structure RunColumns where
  runId : String
  pipelineType : String
  state : String
  attachmentMode : String
  aggregationTemplateName : Option String
  aggregationTemplateVersion : Option String
  tagsJson : String
  declaredStagesJson : String
  subscriptionPredicateTagsJson : String
  createdAt : String
  updatedAt : String

/-- The `CHECK`s of `runs`. -/
def RunColumns.checks (row : RunColumns) : Bool :=
  ["INITIATED", "AGGREGATING", "READY", "SENDING", "SENT", "FAILED", "ORPHANED"].contains
      row.state &&
    ["SINGLE_AGGREGATED", "PER_STAGE"].contains row.attachmentMode &&
    (row.attachmentMode = "PER_STAGE" && row.aggregationTemplateName.isNone &&
        row.aggregationTemplateVersion.isNone ||
      row.attachmentMode = "SINGLE_AGGREGATED" && row.aggregationTemplateName.isSome &&
        row.aggregationTemplateVersion.isSome)

/-- A `Run` with the `datetime`s it holds. -/
structure DatedRun where
  run : Run
  createdAt : Datetime
  updatedAt : Datetime
  createdAt_aware : createdAt.offset ≠ none
  updatedAt_aware : updatedAt.offset ≠ none
  createdAt_eq : createdAt.instant = run.createdAt
  updatedAt_eq : updatedAt.instant = run.updatedAt

/-- Both timestamps have dates in UTC. -/
def DatedRun.InRange (value : DatedRun) : Prop :=
  value.run.createdAt.InRange ∧ value.run.updatedAt.InRange

instance (value : DatedRun) : Decidable value.InRange := inferInstanceAs (Decidable (_ ∧ _))

/-- The template whose `agg_name` and `agg_version` are written. -/
def writtenRef (run : Run) : Except PyException (Option TemplateRef) :=
  if run.attachmentMode = .singleAggregated then
    match run.aggregationTemplateRef with
    | none => .error {
        className := "RuntimeError"
        bases := ["Exception", "BaseException", "object"]
        text := "SINGLE_AGGREGATED run has no aggregation_template_ref (invariant violated)" }
    | some ref => .ok (some ref)
  else .ok none

/-- `_run_to_params`. -/
def DatedRun.toParams (value : DatedRun) : Except PyException RunColumns := do
  let run := value.run
  let ref ← writtenRef run
  let createdAt ← value.createdAt.isoZOf
  let updatedAt ← value.updatedAt.isoZOf
  pure {
    runId := run.runId
    pipelineType := run.pipelineType
    state := run.state.value
    attachmentMode := run.attachmentMode.value
    aggregationTemplateName := ref.map TemplateRef.name
    aggregationTemplateVersion := ref.map TemplateRef.version
    tagsJson := dumpsJson (sortedList run.tags)
    declaredStagesJson := dumpsJson (declaredStagesPayload run.declaredStages)
    subscriptionPredicateTagsJson := dumpsJson (sortedList run.subscriptionPredicateTags)
    createdAt, updatedAt }

/-- `aggregation_template_ref`, of its two columns. -/
def aggregationRef : Option String → Option String → Except PyException (Option TemplateRef)
  | some name, some version => (templateRef name version).map some
  | _, _ => .ok none

/-- `_row_to_run`. -/
def RunColumns.toRun (row : RunColumns) : Except (Raised ServiceError) Run := do
  let state ← known {
    errorClass := .persistenceError
    message := "persisted run has unknown state " ++ pyRepr row.state
    details := [("run_id", .str row.runId), ("state", .str row.state)] }
    (RunState.ofValue? row.state)
  let attachmentMode ← known {
    errorClass := .persistenceError
    message := "persisted run has unknown attachment_mode " ++ pyRepr row.attachmentMode
    details := [("run_id", .str row.runId), ("attachment_mode", .str row.attachmentMode)] }
    (AttachmentMode.ofValue? row.attachmentMode)
  let aggregationTemplateRef ←
    uncaught (aggregationRef row.aggregationTemplateName row.aggregationTemplateVersion)
  let tagsList ← loadsJson decodeError "tags_json" row.tagsJson
  let subTagsList ← loadsJson decodeError "subscription_predicate_tags_json"
    row.subscriptionPredicateTagsJson
  let declaredStagesList ← loadsJson decodeError "declared_stages_json" row.declaredStagesJson
  let declaredStages ← uncaught (declaredStagesOf declaredStagesList)
  let tags ← uncaught (frozensetOf tagsList)
  let subscriptionPredicateTags ← uncaught (frozensetOf subTagsList)
  let createdAt ← parseIsoZ row.createdAt
  let updatedAt ← parseIsoZ row.updatedAt
  (rowToRun {
    runId := row.runId
    pipelineType := row.pipelineType
    tags, declaredStages, state, attachmentMode, aggregationTemplateRef, subscriptionPredicateTags
    createdAt := createdAt.instant
    updatedAt := updatedAt.instant }).mapError .own

/-- The texts of a row. -/
def runColumns (row : RunRow) : RunColumns where
  runId := row.runId
  pipelineType := row.pipelineType
  state := row.state.value
  attachmentMode := row.attachmentMode.value
  aggregationTemplateName := row.aggregationTemplateRef.map TemplateRef.name
  aggregationTemplateVersion := row.aggregationTemplateRef.map TemplateRef.version
  tagsJson := dumpsJson (sortedList row.tags)
  declaredStagesJson := dumpsJson (declaredStagesPayload row.declaredStages)
  subscriptionPredicateTagsJson := dumpsJson (sortedList row.subscriptionPredicateTags)
  createdAt := isoZ row.createdAt
  updatedAt := isoZ row.updatedAt

theorem aggregationRef_self (ref : Option TemplateRef) :
    aggregationRef (ref.map TemplateRef.name) (ref.map TemplateRef.version) = .ok ref := by
  cases ref with
  | none => rfl
  | some ref =>
    rw [Option.map_some, Option.map_some, aggregationRef, templateRef_self]
    rfl

/-- **Decoding the texts of a row is decoding the row**, whatever invariants it breaks. -/
theorem toRun_columns {row : RunRow} (hc : row.createdAt.InRange) (hu : row.updatedAt.InRange) :
    (runColumns row).toRun decodeError = (rowToRun row).mapError .own := by
  simp only [RunColumns.toRun, runColumns, RunState.ofValue?_value, AttachmentMode.ofValue?_value,
    known_some, aggregationRef_self, loadsJson_sortedList, frozensetOf_sortedList,
    loadsJson_dumpsJson decodeError (valid_declaredStagesPayload _), declaredStagesOf_payload,
    uncaught, parseIsoZ_isoZ hc, parseIsoZ_isoZ hu, bind_ok, Datetime.instant_ofInstant]

theorem writtenRef_eq (run : Run) :
    writtenRef run = .ok (RunRepository.runToRow run).aggregationTemplateRef := by
  by_cases hmode : run.attachmentMode = .singleAggregated
  · obtain ⟨ref, href⟩ := Option.ne_none_iff_exists'.mp (run.aggregated hmode)
    simp only [writtenRef, RunRepository.runToRow, if_pos hmode, href]
  · simp only [writtenRef, RunRepository.runToRow, if_neg hmode]

/-- **A run is written** when its timestamps have dates in UTC. -/
theorem DatedRun.toParams_eq_ok_iff {value : DatedRun} {columns : RunColumns} :
    value.toParams = .ok columns ↔
      value.InRange ∧ runColumns (RunRepository.runToRow value.run) = columns := by
  simp only [DatedRun.toParams, writtenRef_eq, bind_ok, bind_eq_ok_iff,
    Datetime.isoZOf_eq_ok_iff value.createdAt_aware,
    Datetime.isoZOf_eq_ok_iff value.updatedAt_aware, value.createdAt_eq, value.updatedAt_eq]
  constructor
  · rintro ⟨_, ⟨hc, rfl⟩, _, ⟨hu, rfl⟩, hp⟩
    exact ⟨⟨hc, hu⟩, Except.ok.inj hp⟩
  · rintro ⟨⟨hc, hu⟩, rfl⟩
    exact ⟨_, ⟨hc, rfl⟩, _, ⟨hu, rfl⟩, rfl⟩

/-- **A run is read back** from what was written, without an aggregation template that its mode
ignores. -/
theorem DatedRun.toRun_of_toParams {value : DatedRun} {columns : RunColumns}
    (h : value.toParams = .ok columns) :
    columns.toRun decodeError =
      (rowToRun (RunRepository.runToRow value.run)).mapError .own := by
  obtain ⟨⟨hc, hu⟩, rfl⟩ := DatedRun.toParams_eq_ok_iff.mp h
  exact toRun_columns decodeError hc hu

/-! ## Stages -/

/-- What the constructor of `Stage` is given. -/
structure StageFields where
  runId : RunId
  stageId : StageId
  state : StageState
  reportTemplateRef : TemplateRef
  reportContextJson : Option String
  emailBodyContextJson : Option String
  emailBodyPosition : Option EmailBodyPosition
  submittedAt : Option Instant

/-- A `Stage` of the source, whose contexts are texts. -/
structure StageRecord extends StageFields where
  pending : state = .pending → submittedAt = none
  submitted : state.submission = true → submittedAt ≠ none
  position_iff : emailBodyPosition = none ↔ emailBodyContextJson = none

/-- `repr` of a position, or of `None`. -/
def reprPosition : Option EmailBodyPosition → String
  | none => "None"
  | some p => "<EmailBodyPosition." ++ p.value ++ ": " ++ pyRepr p.value ++ ">"

/-- The constructor of `Stage`, with its `__post_init__`. -/
def StageRecord.make (fields : StageFields) : Except PyException StageRecord :=
  if hp : fields.state = .pending → fields.submittedAt = none then
    if hs : fields.state.submission = true → fields.submittedAt ≠ none then
      if hpos : fields.emailBodyPosition = none ↔ fields.emailBodyContextJson = none then
        .ok { fields with pending := hp, submitted := hs, position_iff := hpos }
      else .error (pyValueError
        ("Stage.email_body_position must be set iff email_body_context_json is set (position=" ++
          reprPosition fields.emailBodyPosition ++ ", context=" ++
          (if fields.emailBodyContextJson = none then "None" else "present") ++ ")"))
    else .error (pyValueError
      ("Stage in " ++ fields.state.value ++ " state must have a submitted_at timestamp"))
  else .error (pyValueError ("Stage in PENDING state cannot have a submitted_at timestamp (got " ++
    (fields.submittedAt.map datetimeStr).getD "None" ++ ")"))

theorem StageRecord.make_self (stage : StageRecord) :
    StageRecord.make stage.toStageFields = .ok stage := by
  rw [StageRecord.make, dif_pos stage.pending, dif_pos stage.submitted, dif_pos stage.position_iff]

/-- A row of `stages`, or the parameters that write one. -/
structure StageColumns where
  runId : String
  stageId : String
  state : String
  reportTemplateName : String
  reportTemplateVersion : String
  reportContextJson : Option String
  emailBodyContextJson : Option String
  emailBodyPosition : Option String
  submittedAt : Option String

/-- The primary key of `stages`. -/
def StageColumns.key (row : StageColumns) : String × String := (row.runId, row.stageId)

/-- The `CHECK`s of `stages`. -/
def StageColumns.checks (row : StageColumns) : Bool :=
  ["PENDING", "SUBMITTED", "ACCEPTED", "RETRIED", "TIMEOUT", "FAILED"].contains row.state &&
    (row.state = "PENDING" && row.submittedAt.isNone ||
      row.state ≠ "PENDING" && row.submittedAt.isSome) &&
    row.emailBodyPosition.all ["BEFORE_STAGES_SUMMARY", "AFTER_STAGES_SUMMARY"].contains

/-- A `StageRecord` with the `datetime` it holds. -/
structure DatedStage where
  stage : StageRecord
  submittedAt : Option Datetime
  submittedAt_aware : ∀ t ∈ submittedAt, t.offset ≠ none
  submittedAt_eq : submittedAt.map Datetime.instant = stage.submittedAt

/-- The timestamp, if there is one, has a date in UTC. -/
def DatedStage.InRange (value : DatedStage) : Prop := ∀ t ∈ value.stage.submittedAt, t.InRange

/-- `_stage_to_params`. -/
def DatedStage.toParams (value : DatedStage) : Except PyException StageColumns := do
  let stage := value.stage
  let submittedAt ← value.submittedAt.mapM Datetime.isoZOf
  pure {
    runId := stage.runId
    stageId := stage.stageId
    state := stage.state.value
    reportTemplateName := stage.reportTemplateRef.name
    reportTemplateVersion := stage.reportTemplateRef.version
    reportContextJson := stage.reportContextJson
    emailBodyContextJson := stage.emailBodyContextJson
    emailBodyPosition := stage.emailBodyPosition.map EmailBodyPosition.value
    submittedAt }

/-- The `try` around the constructors in `_row_to_stage`. -/
def invariantsHold (row : StageColumns) (x : Except PyException StageRecord) :
    Except (Raised ServiceError) StageRecord :=
  handling ["ValueError"] (fun exc => {
    errorClass := .persistenceError
    message := "persisted stage violates aggregate invariants: " ++ exc.text
    details := [("run_id", .str row.runId), ("stage_id", .str row.stageId),
      ("reason", .str exc.text)] }) x

/-- `_row_to_stage`. -/
def StageColumns.toStage (row : StageColumns) : Except (Raised ServiceError) StageRecord := do
  let state ← known {
    errorClass := .persistenceError
    message := "persisted stage has unknown state " ++ pyRepr row.state
    details := [("run_id", .str row.runId), ("stage_id", .str row.stageId),
      ("state", .str row.state)] }
    (StageState.ofValue? row.state)
  let submittedAt ← row.submittedAt.mapM parseIsoZ
  let emailBodyPosition ← row.emailBodyPosition.mapM fun rawPosition => known {
    errorClass := .persistenceError
    message := "persisted stage has unknown email_body_position " ++ pyRepr rawPosition
    details := [("run_id", .str row.runId), ("stage_id", .str row.stageId),
      ("email_body_position", .str rawPosition)] }
    (EmailBodyPosition.ofValue? rawPosition)
  invariantsHold row do
    let reportTemplateRef ← templateRef row.reportTemplateName row.reportTemplateVersion
    StageRecord.make {
      runId := row.runId
      stageId := row.stageId
      state, reportTemplateRef
      reportContextJson := row.reportContextJson
      emailBodyContextJson := row.emailBodyContextJson
      emailBodyPosition
      submittedAt := submittedAt.map Datetime.instant }

/-- The texts of a stage. -/
def stageColumns (stage : StageFields) : StageColumns where
  runId := stage.runId
  stageId := stage.stageId
  state := stage.state.value
  reportTemplateName := stage.reportTemplateRef.name
  reportTemplateVersion := stage.reportTemplateRef.version
  reportContextJson := stage.reportContextJson
  emailBodyContextJson := stage.emailBodyContextJson
  emailBodyPosition := stage.emailBodyPosition.map EmailBodyPosition.value
  submittedAt := stage.submittedAt.map isoZ

/-- **A stage is written** when its timestamp, if it has one, has a date in UTC. -/
theorem DatedStage.toParams_eq_ok_iff {value : DatedStage} {columns : StageColumns} :
    value.toParams = .ok columns ↔
      value.InRange ∧ stageColumns value.stage.toStageFields = columns := by
  rw [DatedStage.InRange, stageColumns, ← value.submittedAt_eq, DatedStage.toParams]
  cases ht : value.submittedAt with
  | none => simp [bind_ok, pure, Except.pure]
  | some t =>
    have haware := value.submittedAt_aware t ht
    simp only [Option.mapM_some, bind_eq_ok_iff, map_eq_ok_iff, Option.map_some,
      Option.mem_some_iff, forall_eq', Datetime.isoZOf_eq_ok_iff haware]
    constructor
    · rintro ⟨_, ⟨_, ⟨hrange, rfl⟩, rfl⟩, hp⟩
      exact ⟨hrange, Except.ok.inj hp⟩
    · rintro ⟨hrange, rfl⟩
      exact ⟨_, ⟨_, ⟨hrange, rfl⟩, rfl⟩, rfl⟩

/-- **A stage is read back** from what was written. -/
theorem DatedStage.toStage_of_toParams {value : DatedStage} {columns : StageColumns}
    (h : value.toParams = .ok columns) : columns.toStage = .ok value.stage := by
  obtain ⟨hrange, rfl⟩ := DatedStage.toParams_eq_ok_iff.mp h
  have hsubmitted : ∃ u, (value.stage.submittedAt.map isoZ).mapM parseIsoZ = .ok u ∧
      u.map Datetime.instant = value.stage.submittedAt := by
    cases ht : value.stage.submittedAt with
    | none => exact ⟨none, rfl, rfl⟩
    | some t =>
      have ht' := hrange t ht
      refine ⟨some (Datetime.ofInstant t ht'), ?_, ?_⟩
      · rw [Option.map_some, Option.mapM_some, parseIsoZ_isoZ ht']
        rfl
      · rw [Option.map_some, Datetime.instant_ofInstant]
  obtain ⟨u, hu, hinstant⟩ := hsubmitted
  have hposition (f : String → ServiceError) :
      (value.stage.emailBodyPosition.map EmailBodyPosition.value).mapM
        (fun raw => known (f raw) (EmailBodyPosition.ofValue? raw)) =
          .ok value.stage.emailBodyPosition := by
    cases value.stage.emailBodyPosition with
    | none => rfl
    | some p =>
      simp only [Option.map_some, Option.mapM_some, EmailBodyPosition.ofValue?_value, known_some]
      rfl
  simp only [StageColumns.toStage, stageColumns, StageState.ofValue?_value, known_some, hu,
    hposition, templateRef_self, hinstant, bind_ok]
  exact congrArg (invariantsHold _) (StageRecord.make_self value.stage)

end MessageService.Infrastructure
