import MessageService.Interfaces.ErrorMapping
import MessageService.Lib.DataTree

/-!
# Redaction of error details

Model of the redaction in `observability/logging_setup.py`, on details as Python has them: mappings,
lists and tuples over any scalars, of which `json.dumps` writes those it does not know with `str`.
`translateKnown` is `_translate_known` with its log record.

* `toJson_redact`, `status_toJson`: what `json.dumps` makes of redacted details, and the status they
  are packed into, are those of `Interfaces/ErrorMapping.lean`.
* `redactSensitiveFields_rejected`: the processor of the log pipeline finds nothing more to redact.
* `redaction_complete`: nothing is left under a sensitive key, what is kept is all the rest, and the
  record and the status depend on nothing else.
-/

namespace MessageService.Interfaces

open MessageService.Lib

/-! ## Details -/

/-- The sequences that `_redact_value` goes into. -/
inductive SeqKind where
  | list
  | tuple
  deriving DecidableEq, Repr

/-- A scalar. `other` is an object that `json.dumps` does not know, with its `str`. -/
inductive Scalar where
  | none
  | bool (b : Bool)
  | int (n : Int)
  | float (repr : String)
  | str (s : String)
  | other (text : String)
  deriving DecidableEq, Repr

/-- A value in the details of an error. -/
abbrev Detail := DataTree SeqKind Scalar

/-- The `details` of an error, or the event dict of a log record. -/
abbrev Details := List (String × Detail)

namespace Details

/-- `_redact_value`. -/
def redactValue : Detail → Detail := DataTree.redact isSensitive (.str redactedPlaceholder)

/-- `redact_sensitive_keys`, which is `_redact_mapping`. -/
def redactSensitiveKeys (payload : Details) : Details :=
  DataTree.redactEntries isSensitive (.str redactedPlaceholder) payload

/-- `_redact_sensitive_fields`, the processor of the log pipeline. -/
def redactSensitiveFields (eventDict : Details) : Details :=
  eventDict.map fun e =>
    (e.1, if isSensitive e.1 then .scalar (.str redactedPlaceholder) else redactValue e.2)

end Details

/-! ## As JSON -/

/-- What `json.dumps` writes for a scalar. -/
def Scalar.toJson : Scalar → Json
  | none => .null
  | bool b => .bool b
  | int n => .int n
  | float repr => .float repr
  | str s => .str s
  | other text => .str text

mutual

/-- What `json.dumps` writes for a value. -/
def toJson : Detail → Json
  | .scalar x => x.toJson
  | .seq _ xs => .arr (toJsonElements xs)
  | .mapping es => .obj (toJsonEntries es)

/-- The elements of an array. -/
def toJsonElements : List Detail → List Json
  | [] => []
  | x :: xs => toJson x :: toJsonElements xs

/-- The entries of an object. -/
def toJsonEntries : Details → Dict Json
  | [] => []
  | (k, v) :: es => (k, toJson v) :: toJsonEntries es

end

/-- **Redaction commutes** with writing the details. -/
theorem toJson_redact (v : Detail) :
    toJson (Details.redactValue v) = redactValue (toJson v) := by
  unfold Details.redactValue
  induction v using DataTree.induct with
  | scalar x => cases x <;> rfl
  | seq kind xs ih =>
    rw [DataTree.redact, toJson, toJson, redactValue]
    induction xs with
    | nil => rfl
    | cons x xs ihxs =>
      obtain ⟨hx, hxs⟩ := List.forall_mem_cons.mp ih
      have hrest := Json.arr.inj (ihxs hxs)
      rw [DataTree.redactElements, toJsonElements, toJsonElements, redactElements, hx, hrest]
  | mapping es ih =>
    rw [DataTree.redact, toJson, toJson, redactValue]
    induction es with
    | nil => rfl
    | cons e es ihes =>
      obtain ⟨he, hes⟩ := List.forall_mem_cons.mp ih
      obtain ⟨k, v⟩ := e
      have hrest := Json.obj.inj (ihes hes)
      rw [DataTree.redactEntries, toJsonEntries, toJsonEntries, redactMapping, hrest]
      split_ifs with hk
      · rfl
      · rw [he]

/-! ## The translation -/

/-- A `MessageServiceError`. -/
structure KnownError where
  category : ErrorCategory
  errorCode : String
  message : String
  details : Details

/-- `status.name`. -/
def ErrorCategory.statusName : ErrorCategory → String
  | validation => "INVALID_ARGUMENT"
  | notFound => "NOT_FOUND"
  | precondition => "FAILED_PRECONDITION"
  | other => "INTERNAL"

/-- `value if isinstance(value, str) else json.dumps(value, default=str)`. -/
def detailText : Detail → String
  | .scalar (.str s) => s
  | v => String.ofList (toJson v).spacedText

/-- The status that an error with these safe details is serialised as. Only the texts of the values
go into it. -/
def KnownError.status (e : KnownError) (safeDetails : Details) : RpcStatus :=
  statusDetails e.category.statusCode e.message e.errorCode
    (safeDetails.map fun d => (d.1, .str (detailText d.2)))

/-- The event of the log record. -/
def KnownError.rejected (e : KnownError) (safeDetails : Details) : Details :=
  [("event", .scalar (.str "request_rejected")), ("error_code", .scalar (.str e.errorCode)),
    ("message", .scalar (.str e.message)), ("details", .mapping safeDetails),
    ("grpc_status", .scalar (.str e.category.statusName))]

/-- `_translate_known`: the log record, and what the RPC is aborted with. -/
def KnownError.translateKnown (serializeToString : RpcStatus → List UInt8) (e : KnownError) :
    Details × Abort :=
  let safeDetails := Details.redactSensitiveKeys e.details
  (Details.redactSensitiveFields (e.rejected safeDetails), {
    code := e.category.statusCode
    details := truncateMessage e.message
    errorCode := e.errorCode
    statusDetailsBin := serializeToString (e.status safeDetails) })

/-! ## The status -/

/-- Only the texts of the values are packed. -/
theorem stringify_texts (details : Dict Json) :
    stringify (details.map fun d => (d.1, .str (fieldText d.2))) = stringify details := by
  let text (d : String × Json) : String × Json := (d.1, .str (fieldText d.2))
  have hsorted : sortedFields (details.map text) = (sortedFields details).map text :=
    (List.map_insertionSort (r := Json.keyLE) (s := Json.keyLE) text details
      fun _ _ _ _ => Iff.rfl).symm
  have hpacked : (sortedFields (details.map text)).foldl packField {} =
      (sortedFields details).foldl packField {} := by
    rw [hsorted, List.foldl_map]
    rfl
  show stringify (details.map text) = stringify details
  rw [stringify, stringify, hpacked]

theorem detailText_eq {v : Detail} (h : ∀ text, v ≠ .scalar (.other text)) :
    detailText v = fieldText (toJson v) := by
  cases v with
  | seq kind xs => simp only [detailText, toJson, fieldText]
  | mapping es => simp only [detailText, toJson, fieldText]
  | scalar x =>
    cases x with
    | other text => exact absurd rfl (h text)
    | str s => rfl
    | none | bool b | int n | float repr => rfl

theorem toJsonEntries_eq_map (details : Details) :
    toJsonEntries details = details.map fun d => (d.1, toJson d.2) := by
  induction details with
  | nil => rfl
  | cons d details ih => rw [toJsonEntries, List.map_cons, ih]

/-- **The status** is that of the same details in JSON, if each of them can be written there. -/
theorem status_toJson (e : KnownError) {safeDetails : Details}
    (h : ∀ d ∈ safeDetails, ∀ text, d.2 ≠ .scalar (.other text)) :
    e.status safeDetails =
      statusDetails e.category.statusCode e.message e.errorCode (toJsonEntries safeDetails) := by
  have htexts : (safeDetails.map fun d => ((d.1, .str (detailText d.2)) : String × Json)) =
      (toJsonEntries safeDetails).map fun d => (d.1, .str (fieldText d.2)) := by
    rw [toJsonEntries_eq_map, List.map_map]
    refine List.map_congr_left fun d hd => ?_
    rw [detailText_eq (h d hd)]
    rfl
  rw [KnownError.status, statusDetails, statusDetails, htexts, stringify_texts]

/-! ## What redaction does -/

namespace Details

theorem redactValue_mapping (payload : Details) :
    redactValue (.mapping payload) = .mapping (redactSensitiveKeys payload) := by
  rw [redactValue, DataTree.redact]
  rfl

theorem redactSensitiveKeys_redactSensitiveKeys (payload : Details) :
    redactSensitiveKeys (redactSensitiveKeys payload) = redactSensitiveKeys payload := by
  have h : redactValue (redactValue (.mapping payload)) = redactValue (.mapping payload) :=
    DataTree.redact_redact _
  rw [redactValue_mapping, redactValue_mapping] at h
  exact DataTree.mapping.inj h

theorem agreeEntries_redactSensitiveKeys (payload : Details) :
    DataTree.AgreeEntries isSensitive payload (redactSensitiveKeys payload) :=
  DataTree.redactEntries_eq_iff.mp (redactSensitiveKeys_redactSensitiveKeys payload).symm

end Details

/-- **The record** is logged as the translation made it: its own keys are not sensitive, and its
details have been redacted. -/
theorem redactSensitiveFields_rejected (e : KnownError) (payload : Details) :
    Details.redactSensitiveFields (e.rejected (Details.redactSensitiveKeys payload)) =
      e.rejected (Details.redactSensitiveKeys payload) := by
  have hdetails : Details.redactValue (.mapping (Details.redactSensitiveKeys payload)) =
      .mapping (Details.redactSensitiveKeys payload) := by
    rw [Details.redactValue_mapping, Details.redactSensitiveKeys_redactSensitiveKeys]
  have hscalar (x : Scalar) : Details.redactValue (.scalar x) = .scalar x := by
    rw [Details.redactValue, DataTree.redact]
  have hkeys : ∀ k ∈ ["event", "error_code", "message", "details", "grpc_status"],
      isSensitive k = false := by decide +kernel
  simp only [List.forall_mem_cons] at hkeys
  obtain ⟨hevent, hcode, hmessage, hdetailsKey, hstatus, -⟩ := hkeys
  simp only [Details.redactSensitiveFields, KnownError.rejected, List.map_cons, List.map_nil,
    hevent, hcode, hmessage, hdetailsKey, hstatus, Bool.false_eq_true, if_false, hdetails, hscalar]

/-- **Redaction is complete**: nothing is left under a sensitive key at any depth; details that
differ beneath sensitive keys only give the same record and the same status; everything else is
kept; and a second redaction changes nothing. -/
theorem redaction_complete (payload payload' : Details) :
    (∀ k x, isSensitive k = true →
      DataTree.Under k (.mapping (Details.redactSensitiveKeys payload)) x →
      x = .scalar (.str redactedPlaceholder)) ∧
    (DataTree.AgreeEntries isSensitive payload payload' →
      Details.redactSensitiveKeys payload = Details.redactSensitiveKeys payload' ∧
      ∀ serializeToString category errorCode message,
        KnownError.translateKnown serializeToString ⟨category, errorCode, message, payload⟩ =
          KnownError.translateKnown serializeToString ⟨category, errorCode, message, payload'⟩) ∧
    DataTree.AgreeEntries isSensitive payload (Details.redactSensitiveKeys payload) ∧
    Details.redactSensitiveKeys (Details.redactSensitiveKeys payload) =
      Details.redactSensitiveKeys payload := by
  refine ⟨fun k x hk hunder => ?_, fun hagree => ?_,
    Details.agreeEntries_redactSensitiveKeys payload,
    Details.redactSensitiveKeys_redactSensitiveKeys payload⟩
  · rw [← Details.redactValue_mapping] at hunder
    exact DataTree.eq_placeholder_of_under hk hunder
  · have heq : Details.redactSensitiveKeys payload = Details.redactSensitiveKeys payload' :=
      DataTree.redactEntries_eq_iff.mpr hagree
    refine ⟨heq, fun serializeToString category errorCode message => ?_⟩
    simp only [KnownError.translateKnown, KnownError.rejected, KnownError.status, heq]

end MessageService.Interfaces
