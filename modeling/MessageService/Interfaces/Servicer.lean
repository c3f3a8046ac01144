import MessageService.Application.BeginRun
import MessageService.Application.FinalizeRun
import MessageService.Application.SubmitStageReport
import MessageService.Interfaces.ContextNormalization
import MessageService.Interfaces.ErrorMapping
import MessageService.Lib.Faults
import MessageService.Lib.Python

/-!
# The gRPC servicer

Model of `interfaces/grpc/servicer.py` without its RPCs: from the fields of a request to the command
of a use case, and from an exception to what the RPC is aborted with (`translate_to_grpc_status` of
`error_mapping.py`). The messages are those of the generated module: their fields as the servicer
reads them, with what depends on the `.proto` file (`PbModule`) and `MessageToDict` (`StructReader`)
as parameters. A `ValidationError` of pydantic is here the `MalformedRequestError` that
`translate_to_grpc_status` makes of it: nothing comes between the two.

* `yields_beginRunCommand`: a `BeginRunRequest` becomes a command, or raises the first of its faults
  (`beginRunFaults`).
* `begin_run_request_exact`: the same with the round trip, from a command to a request and back, for
  the commands whose stage orders fit their field.
-/

namespace MessageService.Interfaces

open MessageService.Domain MessageService.Lib MessageService.Application

/-! ## The messages -/

/-- What the servicer knows of the generated module: the numbers of the enumerators, and the bounds
of an integer field. -/
structure PbModule where
  attachmentModeUnspecified : Int
  attachmentModeSingleAggregated : Int
  attachmentModePerStage : Int
  emailBodyPositionUnspecified : Int
  emailBodyPositionBeforeStagesSummary : Int
  emailBodyPositionAfterStagesSummary : Int
  stageOrderMin : Int
  stageOrderMax : Int
  attachmentModes : [attachmentModeUnspecified, attachmentModeSingleAggregated,
    attachmentModePerStage].Nodup
  emailBodyPositions : [emailBodyPositionUnspecified, emailBodyPositionBeforeStagesSummary,
    emailBodyPositionAfterStagesSummary].Nodup

/-- A value of `DeclaredStage.stage_order`, an integer of a fixed width. -/
abbrev PbModule.StageOrder (pb : PbModule) :=
  { n : Int // pb.stageOrderMin ≤ n ∧ n ≤ pb.stageOrderMax }

/-- `pb.TemplateRef`. -/
structure PbTemplateRef where
  name : String := ""
  version : String := ""
  deriving DecidableEq

/-- `pb.DeclaredStage`. -/
structure PbDeclaredStage (pb : PbModule) where
  stageId : String
  stageOrder : pb.StageOrder
  reportTemplate : PbTemplateRef
  deriving DecidableEq

/-- `pb.BeginRunRequest`. -/
structure BeginRunRequest (pb : PbModule) where
  pipelineType : String
  runTags : List String
  declaredStages : List (PbDeclaredStage pb)
  attachmentMode : Int
  aggregationTemplate : PbTemplateRef
  deriving DecidableEq

/-- `pb.ReportContribution`. -/
structure PbReportContribution (Struct : Type) where
  context : Struct

/-- `pb.EmailBodyContribution`. -/
structure PbEmailBodyContribution (Struct : Type) where
  context : Struct
  position : Int

/-- `pb.SubmitStageReportRequest`. -/
structure SubmitStageReportRequest (Struct : Type) where
  runId : String
  stageId : String
  reportContribution : Option (PbReportContribution Struct)
  emailBodyContribution : Option (PbEmailBodyContribution Struct)

/-- `pb.FinalizeRunRequest`. -/
structure FinalizeRunRequest where
  runId : String

/-- How a `Struct` is read: `MessageToDict`, and `repr` of a float. -/
structure StructReader (Struct : Type) where
  messageToDict : Struct → Except PyException (List (String × ContextValue))
  repr : Binary64 → String

/-! ## Contexts -/

/-- A scalar of a context in a command. -/
def ContextScalar.toJson (repr : Binary64 → String) : ContextScalar → Json
  | none => .null
  | bool b => .bool b
  | int n => .int n
  | float x => .float (repr x)
  | str s => .str s

mutual

/-- A value of a context in a command. -/
def contextJson (repr : Binary64 → String) : ContextValue → Json
  | .scalar x => x.toJson repr
  | .seq _ xs => .arr (contextElements repr xs)
  | .mapping es => .obj (contextEntries repr es)

/-- The elements of a list. -/
def contextElements (repr : Binary64 → String) : List ContextValue → List Json
  | [] => []
  | x :: xs => contextJson repr x :: contextElements repr xs

/-- The entries of a dict. -/
def contextEntries (repr : Binary64 → String) : List (String × ContextValue) → Dict Json
  | [] => []
  | (k, v) :: es => (k, contextJson repr v) :: contextEntries repr es

end

/-- `_struct_to_dict`, of a `Struct`. -/
def readContext {Struct : Type} (reader : StructReader Struct) (struct : Struct) :
    Except (Raised ServiceError) (Dict Json) :=
  match reader.messageToDict struct with
  | .ok result => .ok (contextEntries reader.repr (structToDict result))
  | .error exc => .error (.through exc)

/-! ## Enumerators and template references -/

variable (pb : PbModule)

/-- `MalformedRequestError`. -/
def malformedRequest (message : String) (details : Dict Json) : ServiceError where
  errorClass := .malformedRequestError
  message := message
  details := details

/-- The error of an enumerator that is not known. -/
def unknownEnumerator (enum field : String) (value : Int) : ServiceError :=
  malformedRequest ("unknown " ++ enum ++ " enum value: " ++ toString value)
    [("field", .str field), ("value", .int value)]

/-- `_attachment_mode_to_domain`. -/
def attachmentModeToDomain (value : Int) : Except ServiceError AttachmentMode :=
  if value = pb.attachmentModeUnspecified then .ok .singleAggregated
  else if value = pb.attachmentModeSingleAggregated then .ok .singleAggregated
  else if value = pb.attachmentModePerStage then .ok .perStage
  else .error (unknownEnumerator "AttachmentMode" "attachment_mode" value)

/-- `_email_body_position_to_domain`. -/
def emailBodyPositionToDomain (value : Int) : Except ServiceError EmailBodyPosition :=
  if value = pb.emailBodyPositionUnspecified then .ok .afterStagesSummary
  else if value = pb.emailBodyPositionBeforeStagesSummary then .ok .beforeStagesSummary
  else if value = pb.emailBodyPositionAfterStagesSummary then .ok .afterStagesSummary
  else .error (unknownEnumerator "EmailBodyPosition" "email_body_position" value)

/-- `_has_template_ref`. -/
def hasTemplateRef (tr : PbTemplateRef) : Bool := tr.name ≠ "" || tr.version ≠ ""

/-- The error of a reference that `TemplateRef` rejects. -/
def invalidTemplateRef (tr : PbTemplateRef) (field : String) : ServiceError :=
  malformedRequest ("invalid template reference: TemplateRef." ++ field ++ " must be non-empty")
    [("name", .str tr.name), ("version", .str tr.version)]

/-- `_template_ref_to_domain`. -/
def templateRefToDomain (tr : PbTemplateRef) : Except ServiceError TemplateRef :=
  if hname : tr.name = "" then .error (invalidTemplateRef tr "name")
  else if hversion : tr.version = "" then .error (invalidTemplateRef tr "version")
  else .ok ⟨tr.name, tr.version, hname, hversion⟩

/-! ## Commands -/

/-- A problem that pydantic reports: the field, and the type of the error. -/
abbrev FieldProblem := String × String

/-- `_malformed_from_pydantic`. -/
def malformedFromPydantic (problems : List FieldProblem) : ServiceError :=
  malformedRequest "request validation failed"
    [("validation_errors", .arr (problems.map fun p =>
      .obj [("field", .str p.1), ("error", .str p.2)]))]

/-- A string field with `min_length=1`. -/
def tooShort (field value : String) : List FieldProblem :=
  if value = "" then [(field, "string_too_short")] else []

/-- An integer field with `ge=0`. -/
def tooLow (field : String) (value : Int) : List FieldProblem :=
  if value < 0 then [(field, "greater_than_equal")] else []

theorem tooShort_eq_nil_iff {field value : String} : tooShort field value = [] ↔ value ≠ "" := by
  unfold tooShort
  split <;> simp_all

theorem tooLow_eq_nil_iff {field : String} {value : Int} :
    tooLow field value = [] ↔ 0 ≤ value := by
  unfold tooLow
  split <;> simp_all

section

variable {pb}

/-- The problems of `DeclaredStageInput`. -/
def declaredStageProblems (ds : PbDeclaredStage pb) : List FieldProblem :=
  tooShort "stage_id" ds.stageId ++ tooLow "stage_order" ds.stageOrder

/-- One declared stage of the command. -/
def declaredStageInput (ds : PbDeclaredStage pb) : Except ServiceError DeclaredStageInput := do
  let ref ← templateRefToDomain ds.reportTemplate
  if h : declaredStageProblems ds = [] then
    return ⟨ds.stageId, ds.stageOrder.val.toNat, ref,
      tooShort_eq_nil_iff.mp (List.append_eq_nil_iff.mp h).1⟩
  else throw (malformedFromPydantic (declaredStageProblems ds))

end

/-- The aggregation template of the command. -/
def aggregationTemplateRef (tr : PbTemplateRef) : Except ServiceError (Option TemplateRef) :=
  if hasTemplateRef tr then some <$> templateRefToDomain tr else .ok none

/-- The command of `BeginRun`. -/
def beginRunCommand (req : BeginRunRequest pb) : Except ServiceError BeginRunCommand := do
  let attachmentMode ← attachmentModeToDomain pb req.attachmentMode
  let declared ← req.declaredStages.mapM declaredStageInput
  let aggregationRef ← aggregationTemplateRef req.aggregationTemplate
  if h : tooShort "pipeline_type" req.pipelineType = [] then
    return {
      pipelineType := req.pipelineType
      tags := .ofList req.runTags
      declaredStages := declared
      attachmentMode := attachmentMode
      aggregationTemplateRef := aggregationRef
      pipelineType_ne := tooShort_eq_nil_iff.mp h }
  else throw (malformedFromPydantic (tooShort "pipeline_type" req.pipelineType))

/-- The problems of `SubmitStageReportCommand`. -/
def submitProblems (runId stageId : String) : List FieldProblem :=
  tooShort "run_id" runId ++ tooShort "stage_id" stageId

/-- The command, from what has been read of the contributions. -/
def submitCommandOf (runId stageId : String) (report : Option (Dict Json))
    (body : Option (Dict Json × EmailBodyPosition)) :
    Except (Raised ServiceError) SubmitStageReportCommand :=
  if h : submitProblems runId stageId = [] then
    .ok {
      runId := runId
      stageId := stageId
      reportContext := report
      emailBodyContext := body.map Prod.fst
      emailBodyPosition := body.map Prod.snd
      runId_ne := tooShort_eq_nil_iff.mp (List.append_eq_nil_iff.mp h).1
      stageId_ne := tooShort_eq_nil_iff.mp (List.append_eq_nil_iff.mp h).2
      position_iff := by simp }
  else .error (.own (malformedFromPydantic (submitProblems runId stageId)))

/-- The e-mail contribution. -/
def readEmailBody {Struct : Type} (reader : StructReader Struct)
    (c : PbEmailBodyContribution Struct) :
    Except (Raised ServiceError) (Dict Json × EmailBodyPosition) := do
  let context ← readContext reader c.context
  let position ← (emailBodyPositionToDomain pb c.position).mapError .own
  return (context, position)

/-- The command of `SubmitStageReport`. -/
def submitCommand {Struct : Type} (reader : StructReader Struct)
    (req : SubmitStageReportRequest Struct) :
    Except (Raised ServiceError) SubmitStageReportCommand := do
  let report ← req.reportContribution.mapM fun c => readContext reader c.context
  let body ← req.emailBodyContribution.mapM (readEmailBody pb reader)
  submitCommandOf req.runId req.stageId report body

/-- The command of `FinalizeRun`. -/
def finalizeCommand (req : FinalizeRunRequest) : Except ServiceError FinalizeRunCommand :=
  if h : tooShort "run_id" req.runId = [] then .ok ⟨req.runId, tooShort_eq_nil_iff.mp h⟩
  else .error (malformedFromPydantic (tooShort "run_id" req.runId))

/-! ## Errors -/

/-- The category that `_status_code_for` finds, and the `error_code` of the class. The built-in
exceptions have none. -/
def wireError : ErrorClass → Option (ErrorCategory × String)
  | .unknownPipelineTypeError => some (.validation, "ERROR_CODE_UNKNOWN_PIPELINE_TYPE")
  | .unknownTagError => some (.validation, "ERROR_CODE_UNKNOWN_TAG")
  | .duplicateStageIdError => some (.validation, "ERROR_CODE_DUPLICATE_STAGE_ID")
  | .unknownTemplateError => some (.validation, "ERROR_CODE_UNKNOWN_TEMPLATE")
  | .missingAggregationTemplateError =>
    some (.validation, "ERROR_CODE_MISSING_AGGREGATION_TEMPLATE")
  | .unknownStageError => some (.validation, "ERROR_CODE_UNKNOWN_STAGE")
  | .contextSchemaViolationError => some (.validation, "ERROR_CODE_CONTEXT_SCHEMA_VIOLATION")
  | .contextSizeExceededError => some (.validation, "ERROR_CODE_CONTEXT_SIZE_EXCEEDED")
  | .renderedSizeExceededError => some (.validation, "ERROR_CODE_RENDERED_SIZE_EXCEEDED")
  | .malformedRequestError => some (.validation, "ERROR_CODE_MALFORMED_REQUEST")
  | .invalidEmailError | .duplicateEmailError => some (.validation, "ERROR_CODE_UNSPECIFIED")
  | .runNotFoundError => some (.notFound, "ERROR_CODE_RUN_NOT_FOUND")
  | .userNotFoundError => some (.notFound, "ERROR_CODE_UNSPECIFIED")
  | .invalidRunStateError | .invalidStateTransitionError =>
    some (.precondition, "ERROR_CODE_INVALID_RUN_STATE")
  | .invalidStageStateError => some (.precondition, "ERROR_CODE_INVALID_STAGE_STATE")
  | .selfProtectionError => some (.precondition, "ERROR_CODE_UNSPECIFIED")
  | .persistenceError | .templateRenderError | .emailDeliveryError | .emailSizeExceededError =>
    some (.other, "ERROR_CODE_INTERNAL")
  | .valueError | .integrityError => none

/-- What the RPC is answered through: `SerializeToString`, and the correlation id that the
interceptor has bound. -/
structure RpcContext where
  serializeToString : RpcStatus → List UInt8
  correlationId : String

/-- What an RPC is aborted with. -/
structure RpcAbort extends Abort where
  /-- `x-message-service-correlation-id`. -/
  correlationId : Option String

variable (ctx : RpcContext)

/-- `_translate_unexpected`. -/
def translateUnexpected : RpcAbort :=
  let message := "internal error (correlation id: " ++ ctx.correlationId ++ ")"
  { code := ErrorCategory.other.statusCode
    details := message
    errorCode := "ERROR_CODE_INTERNAL"
    statusDetailsBin := ctx.serializeToString (statusDetails ErrorCategory.other.statusCode message
      "ERROR_CODE_INTERNAL" [("correlation_id", .str ctx.correlationId)])
    correlationId := some ctx.correlationId }

/-- `translate_to_grpc_status`, of an exception that the service constructs. -/
def translateService (e : ServiceError) : RpcAbort :=
  match wireError e.errorClass with
  | some (category, errorCode) => {
      code := category.statusCode
      details := truncateMessage e.message
      errorCode := errorCode
      statusDetailsBin := ctx.serializeToString (statusDetails category.statusCode e.message
        errorCode (redactSensitiveKeys e.details))
      correlationId := none }
  | none => translateUnexpected ctx

/-- `translate_to_grpc_status`: nothing for what goes on as it is. -/
def translateToGrpcStatus : Raised ServiceError → Option RpcAbort
  | .own e => some (translateService ctx e)
  | .through exc => if exc.isA "Exception" then some (translateUnexpected ctx) else none

/-! ## The faults of a request -/

section

variable {pb}

/-- What pydantic's problems come to. -/
def pydanticFaults (problems : List FieldProblem) : List ServiceError :=
  if problems = [] then [] else [malformedFromPydantic problems]

/-- The fault of an attachment mode. -/
def attachmentModeFaults (pb : PbModule) (value : Int) : List ServiceError :=
  if value ∈ [pb.attachmentModeUnspecified, pb.attachmentModeSingleAggregated,
    pb.attachmentModePerStage] then []
  else [unknownEnumerator "AttachmentMode" "attachment_mode" value]

/-- The fault of a template reference. -/
def templateRefFaults (tr : PbTemplateRef) : List ServiceError :=
  if tr.name = "" then [invalidTemplateRef tr "name"]
  else if tr.version = "" then [invalidTemplateRef tr "version"]
  else []

/-- The faults of a declared stage. -/
def stageFaults (ds : PbDeclaredStage pb) : List ServiceError :=
  templateRefFaults ds.reportTemplate ++ pydanticFaults (declaredStageProblems ds)

/-- The fault of the aggregation template. -/
def aggregationFaults (tr : PbTemplateRef) : List ServiceError :=
  if hasTemplateRef tr then templateRefFaults tr else []

/-- The faults of a `BeginRunRequest`, in the order in which they are found. -/
def beginRunFaults (pb : PbModule) (req : BeginRunRequest pb) : List ServiceError :=
  attachmentModeFaults pb req.attachmentMode ++ (req.declaredStages.flatMap stageFaults ++
    (aggregationFaults req.aggregationTemplate ++
      pydanticFaults (tooShort "pipeline_type" req.pipelineType)))

/-! ## What a command says of its request -/

/-- The mode of an enumerator that is known. -/
def ReadsMode (pb : PbModule) (value : Int) (mode : AttachmentMode) : Prop :=
  mode = .perStage ↔ value = pb.attachmentModePerStage

/-- The reference of a message. -/
def ReadsRef (tr : PbTemplateRef) (ref : TemplateRef) : Prop :=
  ref.name = tr.name ∧ ref.version = tr.version

/-- A declared stage of a message. -/
structure ReadsStage (ds : PbDeclaredStage pb) (input : DeclaredStageInput) : Prop where
  stageId : input.stageId = ds.stageId
  stageOrder : (input.stageOrder : Int) = ds.stageOrder
  reportTemplate : ReadsRef ds.reportTemplate input.reportTemplateRef

/-- The aggregation template of a message: an empty one stands for none. -/
def ReadsAggregation (tr : PbTemplateRef) : Option TemplateRef → Prop
  | none => hasTemplateRef tr = false
  | some ref => ReadsRef tr ref

/-- The command of a request. -/
structure ReadsBeginRun (pb : PbModule) (req : BeginRunRequest pb) (cmd : BeginRunCommand) :
    Prop where
  pipelineType : cmd.pipelineType = req.pipelineType
  tags : cmd.tags = .ofList req.runTags
  declaredStages : List.Forall₂ ReadsStage req.declaredStages cmd.declaredStages
  attachmentMode : ReadsMode pb req.attachmentMode cmd.attachmentMode
  aggregation : ReadsAggregation req.aggregationTemplate cmd.aggregationTemplateRef

theorem yields_attachmentMode (value : Int) :
    Yields (attachmentModeFaults pb value) (ReadsMode pb value)
      (attachmentModeToDomain pb value) := by
  have hdistinct := pb.attachmentModes
  simp only [List.nodup_cons, List.mem_cons, List.not_mem_nil, or_false, not_or] at hdistinct
  obtain ⟨⟨-, hunspecified⟩, hsingle, -⟩ := hdistinct
  unfold attachmentModeFaults attachmentModeToDomain ReadsMode
  by_cases h0 : value = pb.attachmentModeUnspecified
  · rw [if_pos h0, if_pos (by simp [h0])]
    exact .pure (by simp [h0, hunspecified])
  rw [if_neg h0]
  by_cases h1 : value = pb.attachmentModeSingleAggregated
  · rw [if_pos h1, if_pos (by simp [h1])]
    exact .pure (by simp [h1, hsingle])
  rw [if_neg h1]
  by_cases h2 : value = pb.attachmentModePerStage
  · rw [if_pos h2, if_pos (by simp [h2])]
    exact .pure (by simp [h2])
  · rw [if_neg h2, if_neg (by simp [h0, h1, h2])]
    exact .error _ _

theorem yields_templateRef (tr : PbTemplateRef) :
    Yields (templateRefFaults tr) (ReadsRef tr) (templateRefToDomain tr) := by
  unfold templateRefFaults templateRefToDomain
  by_cases hname : tr.name = ""
  · rw [if_pos hname, dif_pos hname]
    exact .error _ _
  rw [if_neg hname, dif_neg hname]
  by_cases hversion : tr.version = ""
  · rw [if_pos hversion, dif_pos hversion]
    exact .error _ _
  · rw [if_neg hversion, dif_neg hversion]
    exact .pure ⟨rfl, rfl⟩

/-- A command that pydantic checks. -/
theorem yields_pydantic {α : Type} {problems : List FieldProblem} {P : α → Prop}
    {command : problems = [] → α} (h : ∀ hnone, P (command hnone)) :
    Yields (pydanticFaults problems) P
      (if hnone : problems = [] then .ok (command hnone)
        else .error (malformedFromPydantic problems)) := by
  unfold pydanticFaults
  split
  · next hnone => exact .pure (h hnone)
  · exact .error _ _

theorem yields_declaredStage (ds : PbDeclaredStage pb) :
    Yields (stageFaults ds) (ReadsStage ds) (declaredStageInput ds) := by
  refine (yields_templateRef ds.reportTemplate).bind fun ref href => ?_
  refine yields_pydantic fun hnone => ⟨rfl, ?_, href⟩
  exact Int.toNat_of_nonneg (tooLow_eq_nil_iff.mp (List.append_eq_nil_iff.mp hnone).2)

theorem yields_aggregation (tr : PbTemplateRef) :
    Yields (aggregationFaults tr) (ReadsAggregation tr) (aggregationTemplateRef tr) := by
  unfold aggregationFaults aggregationTemplateRef
  cases h : hasTemplateRef tr with
  | false => exact .pure h
  | true =>
    have href := yields_templateRef tr
    simp only [if_true]
    rw [← List.append_nil (templateRefFaults tr), ← bind_pure_comp]
    exact href.bind fun ref href => .pure href

/-- **A request becomes a command, or raises the first of its faults.** -/
theorem yields_beginRunCommand (req : BeginRunRequest pb) :
    Yields (beginRunFaults pb req) (ReadsBeginRun pb req) (beginRunCommand pb req) := by
  refine (yields_attachmentMode req.attachmentMode).bind fun mode hmode => ?_
  refine (Yields.mapM fun ds _ => yields_declaredStage ds).bind fun declared hdeclared => ?_
  refine (yields_aggregation req.aggregationTemplate).bind fun ref href => ?_
  exact yields_pydantic fun _ => ⟨rfl, rfl, hdeclared, hmode, href⟩

/-! ## From a command to a request -/

/-- The number of a mode. -/
def attachmentModeNumber (pb : PbModule) : AttachmentMode → Int
  | .singleAggregated => pb.attachmentModeSingleAggregated
  | .perStage => pb.attachmentModePerStage

/-- The message of a reference. -/
def pbTemplateRef (ref : TemplateRef) : PbTemplateRef := ⟨ref.name, ref.version⟩

/-- The order of a stage is a value of its field. -/
def Representable (pb : PbModule) (input : DeclaredStageInput) : Prop :=
  pb.stageOrderMin ≤ input.stageOrder ∧ input.stageOrder ≤ pb.stageOrderMax

instance (pb : PbModule) : DecidablePred (Representable pb) :=
  fun _ => inferInstanceAs (Decidable (_ ∧ _))

/-- The message of a declared stage. -/
def pbDeclaredStage (input : DeclaredStageInput) (h : Representable pb input) :
    PbDeclaredStage pb :=
  ⟨input.stageId, ⟨input.stageOrder, h⟩, pbTemplateRef input.reportTemplateRef⟩

/-- A request for a command. -/
def beginRunRequest (pb : PbModule) (cmd : BeginRunCommand)
    (h : ∀ input ∈ cmd.declaredStages, Representable pb input) : BeginRunRequest pb where
  pipelineType := cmd.pipelineType
  runTags := cmd.tags.elems
  declaredStages := cmd.declaredStages.pmap pbDeclaredStage h
  attachmentMode := attachmentModeNumber pb cmd.attachmentMode
  aggregationTemplate := (cmd.aggregationTemplateRef.map pbTemplateRef).getD {}

/-- The commands of requests are representable. -/
theorem representable_of_reads {req : BeginRunRequest pb} {cmd : BeginRunCommand}
    (h : ReadsBeginRun pb req cmd) : ∀ input ∈ cmd.declaredStages, Representable pb input := by
  have hstages : List.Forall₂ (fun input ds => Representable pb input ∧ ReadsStage ds input)
      cmd.declaredStages req.declaredStages :=
    h.declaredStages.flip.imp fun input ds hds => by
      refine ⟨?_, hds⟩
      rw [Representable, hds.stageOrder]
      exact ds.stageOrder.property
  exact ((List.forall₂_and_left _ _).mp hstages).1

theorem reads_pbTemplateRef (ref : TemplateRef) : ReadsRef (pbTemplateRef ref) ref := ⟨rfl, rfl⟩

theorem ReadsRef.unique {tr : PbTemplateRef} {ref ref' : TemplateRef} (h : ReadsRef tr ref)
    (h' : ReadsRef tr ref') : ref = ref' := by
  obtain ⟨name, version, _, _⟩ := ref
  obtain ⟨name', version', _, _⟩ := ref'
  obtain ⟨rfl, rfl⟩ := h
  obtain ⟨rfl, rfl⟩ := h'
  rfl

theorem ReadsStage.unique {ds : PbDeclaredStage pb} {input input' : DeclaredStageInput}
    (h : ReadsStage ds input) (h' : ReadsStage ds input') : input = input' := by
  obtain ⟨stageId, stageOrder, ref, _⟩ := input
  obtain ⟨stageId', stageOrder', ref', _⟩ := input'
  obtain ⟨rfl, horder, href⟩ := h
  obtain ⟨rfl, horder', href'⟩ := h'
  obtain rfl : stageOrder = stageOrder' := Int.ofNat.inj (horder.trans horder'.symm)
  obtain rfl : ref = ref' := ReadsRef.unique href href'
  rfl

theorem ReadsAggregation.unique {tr : PbTemplateRef} {ref ref' : Option TemplateRef}
    (h : ReadsAggregation tr ref) (h' : ReadsAggregation tr ref') : ref = ref' := by
  have hsome {ref : TemplateRef} (h : ReadsRef tr ref) : hasTemplateRef tr = true := by
    simp [hasTemplateRef, ← h.1, ref.name_ne]
  cases ref with
  | none =>
    cases ref' with
    | none => rfl
    | some ref' => exact absurd (hsome h') (by rw [show hasTemplateRef tr = false from h]; decide)
  | some ref =>
    cases ref' with
    | none => exact absurd (hsome h) (by rw [show hasTemplateRef tr = false from h']; decide)
    | some ref' => rw [ReadsRef.unique h h']

/-- A request says one command at most. -/
theorem ReadsBeginRun.unique {req : BeginRunRequest pb} {cmd cmd' : BeginRunCommand}
    (h : ReadsBeginRun pb req cmd) (h' : ReadsBeginRun pb req cmd') : cmd = cmd' := by
  have hstages {l l' : List DeclaredStageInput}
      (hl : List.Forall₂ ReadsStage req.declaredStages l)
      (hl' : List.Forall₂ ReadsStage req.declaredStages l') : l = l' := by
    generalize req.declaredStages = stages at hl hl'
    induction hl generalizing l' with
    | nil =>
      cases hl'
      rfl
    | cons hx hxs ih =>
      cases hl' with
      | cons hy hys => rw [hx.unique hy, ih hys]
  have hmode : cmd.attachmentMode = cmd'.attachmentMode := by
    have hiff := h.attachmentMode.trans h'.attachmentMode.symm
    cases hm : cmd.attachmentMode <;> cases hm' : cmd'.attachmentMode <;> simp_all
  have hpipeline := h.pipelineType.trans h'.pipelineType.symm
  have htags := h.tags.trans h'.tags.symm
  have hdeclared := hstages h.declaredStages h'.declaredStages
  have hagg := h.aggregation.unique h'.aggregation
  obtain ⟨pipelineType, tags, declared, mode, agg, _⟩ := cmd
  obtain ⟨pipelineType', tags', declared', mode', agg', _⟩ := cmd'
  obtain rfl : pipelineType = pipelineType' := hpipeline
  obtain rfl : tags = tags' := htags
  obtain rfl : declared = declared' := hdeclared
  obtain rfl : mode = mode' := hmode
  obtain rfl : agg = agg' := hagg
  rfl

section

variable {cmd : BeginRunCommand} (h : ∀ input ∈ cmd.declaredStages, Representable pb input)

/-- The request for a command says the command. -/
theorem reads_beginRunRequest : ReadsBeginRun pb (beginRunRequest pb cmd h) cmd := by
  refine ⟨rfl, ?_, ?_, ?_, ?_⟩
  · exact SortedSet.ext_of_mem fun tag => SortedSet.mem_ofList.symm
  · rw [beginRunRequest]
    generalize cmd.declaredStages = inputs at h
    induction inputs with
    | nil => exact .nil
    | cons input inputs ih =>
      exact .cons ⟨rfl, rfl, reads_pbTemplateRef _⟩ (ih fun i hi => h i (List.mem_cons_of_mem _ hi))
  · have hdistinct := pb.attachmentModes
    simp only [List.nodup_cons, List.mem_cons, List.not_mem_nil, or_false, not_or] at hdistinct
    have hsingle := hdistinct.2.1
    simp only [ReadsMode, beginRunRequest]
    cases cmd.attachmentMode <;> simp [attachmentModeNumber, hsingle]
  · cases h : cmd.aggregationTemplateRef with
    | none => simp [ReadsAggregation, beginRunRequest, h, hasTemplateRef]
    | some ref => simpa [ReadsAggregation, beginRunRequest, h] using reads_pbTemplateRef ref

/-- It has no fault. -/
theorem beginRunFaults_beginRunRequest : beginRunFaults pb (beginRunRequest pb cmd h) = [] := by
  have href (ref : TemplateRef) : templateRefFaults (pbTemplateRef ref) = [] := by
    simp [templateRefFaults, pbTemplateRef, ref.name_ne, ref.version_ne]
  have hmode : attachmentModeFaults pb (attachmentModeNumber pb cmd.attachmentMode) = [] := by
    cases cmd.attachmentMode <;> simp [attachmentModeFaults, attachmentModeNumber]
  have hstages : (cmd.declaredStages.pmap pbDeclaredStage h).flatMap stageFaults = [] := by
    refine List.flatMap_eq_nil_iff.mpr fun ds hds => ?_
    obtain ⟨input, -, rfl⟩ := List.mem_pmap.mp hds
    simp [stageFaults, pbDeclaredStage, href, pydanticFaults, declaredStageProblems,
      tooShort_eq_nil_iff, tooLow_eq_nil_iff, input.stageId_ne]
  have hagg : aggregationFaults ((cmd.aggregationTemplateRef.map pbTemplateRef).getD {}) = [] := by
    cases cmd.aggregationTemplateRef with
    | none => rfl
    | some ref => simp [aggregationFaults, href]
  simp [beginRunFaults, beginRunRequest, hmode, hstages, hagg, pydanticFaults,
    tooShort_eq_nil_iff, cmd.pipelineType_ne]

/-- It becomes the command again. -/
theorem beginRunCommand_beginRunRequest :
    beginRunCommand pb (beginRunRequest pb cmd h) = .ok cmd := by
  have hyields := yields_beginRunCommand (beginRunRequest pb cmd h)
  rw [beginRunFaults_beginRunRequest] at hyields
  obtain ⟨cmd', hcmd', hreads⟩ := hyields
  rw [hcmd', hreads.unique (reads_beginRunRequest h)]

end

/-- A `MalformedRequestError`. -/
def IsMalformed (e : ServiceError) : Prop := e.errorClass = .malformedRequestError

theorem isMalformed_of_beginRunFaults {req : BeginRunRequest pb} {e : ServiceError}
    (he : e ∈ beginRunFaults pb req) : IsMalformed e := by
  have href (tr : PbTemplateRef) : ∀ e ∈ templateRefFaults tr, IsMalformed e := by
    unfold templateRefFaults
    split
    · simp [invalidTemplateRef, malformedRequest, IsMalformed]
    · split <;> simp [invalidTemplateRef, malformedRequest, IsMalformed]
  have hpydantic (problems : List FieldProblem) : ∀ e ∈ pydanticFaults problems,
      IsMalformed e := by
    unfold pydanticFaults
    split <;> simp [malformedFromPydantic, malformedRequest, IsMalformed]
  rcases List.mem_append.mp he with he | he
  · unfold attachmentModeFaults at he
    split at he
    · cases he
    · rw [List.mem_singleton.mp he]
      rfl
  rcases List.mem_append.mp he with he | he
  · obtain ⟨ds, -, he⟩ := List.mem_flatMap.mp he
    rcases List.mem_append.mp he with he | he
    · exact href _ e he
    · exact hpydantic _ e he
  rcases List.mem_append.mp he with he | he
  · unfold aggregationFaults at he
    split at he
    · exact href _ e he
    · cases he
  · exact hpydantic _ e he

theorem isMalformed_of_beginRunCommand {req : BeginRunRequest pb} {e : ServiceError}
    (h : beginRunCommand pb req = .error e) : IsMalformed e :=
  isMalformed_of_beginRunFaults
    (List.mem_of_mem_head? (Yields.eq_error (yields_beginRunCommand req) h))

theorem isMalformed_of_finalizeCommand {req : FinalizeRunRequest} {e : ServiceError}
    (h : finalizeCommand req = .error e) : IsMalformed e := by
  unfold finalizeCommand at h
  split at h
  · cases h
  · rw [← Except.error.inj h]
    rfl

theorem finalizeCommand_of_ne {req : FinalizeRunRequest} (h : req.runId ≠ "") :
    finalizeCommand req = .ok ⟨req.runId, h⟩ := dif_pos (tooShort_eq_nil_iff.mpr h)

/-- The command is about the stage of the request. -/
theorem key_of_submitCommand {Struct : Type} {reader : StructReader Struct}
    {req : SubmitStageReportRequest Struct} {cmd : SubmitStageReportCommand}
    (h : submitCommand pb reader req = .ok cmd) :
    cmd.runId = req.runId ∧ cmd.stageId = req.stageId := by
  obtain ⟨report, -, h⟩ := bind_eq_ok_iff.mp h
  obtain ⟨body, -, h⟩ := bind_eq_ok_iff.mp h
  unfold submitCommandOf at h
  split at h
  · rw [← Except.ok.inj h]
    exact ⟨rfl, rfl⟩
  · cases h

/-- What the adaptation of a submission raises itself. -/
theorem ownErrors_submitCommand {Struct : Type} (reader : StructReader Struct)
    (req : SubmitStageReportRequest Struct) :
    OwnErrors IsMalformed (submitCommand pb reader req) := by
  have hread (struct : Struct) : OwnErrors IsMalformed (readContext reader struct) := by
    unfold readContext
    split
    · exact .ok _
    · rintro e ⟨⟩
  have hposition (value : Int) :
      OwnErrors IsMalformed ((emailBodyPositionToDomain pb value).mapError .own) := by
    refine .mapError_own fun e he => ?_
    unfold emailBodyPositionToDomain at he
    split_ifs at he
    rw [← Except.error.inj he]
    rfl
  refine .bind ?_ fun report => .bind ?_ fun body => ?_
  · cases req.reportContribution with
    | none => exact .ok _
    | some c => exact .bind (hread c.context) fun _ => .ok _
  · cases req.emailBodyContribution with
    | none => exact .ok _
    | some c =>
      exact .bind (.bind (hread c.context) fun _ => .bind (hposition c.position) fun _ => .ok _)
        fun _ => .ok _
  · unfold submitCommandOf
    split
    · exact .ok _
    · exact .own rfl

/-- **The requests of `BeginRun`**, for every numbering of the enumerators and every width of the
stage orders.

* A request becomes the command that it says, or raises the first of its faults, and every fault is
  a `MalformedRequestError`.
* A request says one command at most.
* The commands that are said by a request are those whose stage orders fit their field. -/
theorem begin_run_request_exact (pb : PbModule) :
    (∀ req, Yields (beginRunFaults pb req) (ReadsBeginRun pb req) (beginRunCommand pb req) ∧
      ∀ e ∈ beginRunFaults pb req, e.errorClass = .malformedRequestError) ∧
    (∀ req cmd cmd', ReadsBeginRun pb req cmd → ReadsBeginRun pb req cmd' → cmd = cmd') ∧
    (∀ cmd h, beginRunCommand pb (beginRunRequest pb cmd h) = .ok cmd) ∧
    ∀ req cmd, beginRunCommand pb req = .ok cmd →
      ∀ input ∈ cmd.declaredStages, Representable pb input :=
  ⟨fun req => ⟨yields_beginRunCommand req, fun _ => isMalformed_of_beginRunFaults⟩,
    fun _ _ _ => ReadsBeginRun.unique, fun _ => beginRunCommand_beginRunRequest,
    fun req _ hcmd => representable_of_reads (Yields.eq_ok (yields_beginRunCommand req) hcmd).2⟩

end

end MessageService.Interfaces
