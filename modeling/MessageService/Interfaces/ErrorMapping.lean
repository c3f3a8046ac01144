import MessageService.Lib.JsonText
import MessageService.Lib.Protobuf
import Mathlib.Algebra.GroupWithZero.Nat
import Mathlib.Algebra.Order.BigOperators.Group.List
import Mathlib.Data.List.Sort

/-!
# The gRPC error envelope

Model of `interfaces/grpc/error_mapping.py` (`_translate_known` and what it calls) and of
`redact_sensitive_keys` (`observability/logging_setup.py`): from a domain error to the message and
the `google.rpc.Status` that the RPC is aborted with. `SerializeToString` is a parameter; what is
used of it is the length that the wire format gives (`RpcStatus.wireSize`), and `RpcStatus.encode`
is such an encoding. Strings are without surrogates, which `encode` raises on.

* `stringify_eq`: the loop of `_stringify` in closed form (`keptFields`, `loses`).
* `envelope_ok_iff`: an envelope is bounded and honest exactly when its lengths add up (`Fits`). The
  budgets alone do not see to it: the message counts twice, and keys and framing are not counted.
* `fits_of_small`: a message of 1024 bytes and 32 fields with keys of 32 bytes do.
-/

namespace MessageService.Interfaces

open MessageService.Lib

/-! ## Domain errors -/

/-- The base classes that `_status_code_for` asks for. -/
inductive ErrorCategory where
  | validation
  | notFound
  | precondition
  | other
  deriving DecidableEq, Repr

/-- `_status_code_for`: the number of the status code. -/
def ErrorCategory.statusCode : ErrorCategory → Nat
  | validation => 3
  | notFound => 5
  | precondition => 9
  | other => 13

/-- A `MessageServiceError`, with the error code of its class. -/
structure DomainError where
  category : ErrorCategory
  errorCode : String
  message : String
  details : Dict Json
  /-- A `dict` has a key once. -/
  nodup : (details.map Prod.fst).Nodup

/-! ## Redaction -/

/-- `SENSITIVE_FIELD_NAMES`. -/
def sensitiveFieldNames : List String :=
  ["password", "passwd", "password_hash", "pwd", "secret", "smtp_password", "session_token",
    "cookie", "authorization", "email_body", "rendered_output", "template_context",
    "instance_value"]

/-- `REDACTED_PLACEHOLDER`. -/
def redactedPlaceholder : String := "<redacted>"

/-- `key.lower()`, up to characters whose lower case is not ASCII: the sign of the kelvin is the one
outside ASCII whose lower case is. -/
def lower (key : String) : String :=
  String.ofList (key.toList.map fun c => if c = Char.ofNat 0x212A then 'k' else c.toLower)

/-- A key whose value is redacted. -/
def isSensitive (key : String) : Bool := sensitiveFieldNames.contains (lower key)

mutual

/-- `_redact_value`. -/
def redactValue : Json → Json
  | .obj es => .obj (redactMapping es)
  | .arr xs => .arr (redactElements xs)
  | v => v

/-- `_redact_value` on the elements of a list. -/
def redactElements : List Json → List Json
  | [] => []
  | x :: xs => redactValue x :: redactElements xs

/-- `_redact_mapping`. -/
def redactMapping : List (String × Json) → List (String × Json)
  | [] => []
  | (k, v) :: es =>
    (k, if isSensitive k then .str redactedPlaceholder else redactValue v) :: redactMapping es

end

/-- `redact_sensitive_keys`. -/
def redactSensitiveKeys (payload : Dict Json) : Dict Json := redactMapping payload

theorem keys_redactMapping (es : List (String × Json)) :
    (redactMapping es).map Prod.fst = es.map Prod.fst := by
  induction es with
  | nil => rfl
  | cons e es ih =>
    obtain ⟨k, v⟩ := e
    rw [redactMapping, List.map_cons, List.map_cons, ih]

/-- Where there is nothing to redact, nothing is. -/
theorem redactMapping_eq_self {es : List (String × Json)}
    (h : ∀ e ∈ es, isSensitive e.1 = false ∧ redactValue e.2 = e.2) : redactMapping es = es := by
  induction es with
  | nil => rfl
  | cons e es ih =>
    obtain ⟨⟨hkey, hvalue⟩, hrest⟩ := List.forall_mem_cons.mp h
    obtain ⟨k, v⟩ := e
    rw [redactMapping, hkey, if_neg Bool.false_ne_true, hvalue, ih hrest]

/-! ## Truncation -/

/-- `_MAX_METADATA_VALUE_BYTES`. -/
def maxMetadataValueBytes : Nat := 1024

/-- `_MAX_METADATA_TOTAL_BYTES`. -/
def maxMetadataTotalBytes : Nat := 4096

/-- `_MAX_MESSAGE_BYTES`. -/
def maxMessageBytes : Nat := 2048

/-- `_TRUNCATION_MARKER`. -/
def truncationMarker : String := "…[truncated]"

/-- A text cut after so many bytes, with the marker. -/
def truncateText (limit : Nat) (text : String) : String :=
  if text.utf8ByteSize ≤ limit then text
  else String.ofList (decodeIgnore ((encodeUtf8 text.toList).take limit)) ++ truncationMarker

/-- `_truncate_message`. -/
def truncateMessage (message : String) : String := truncateText maxMessageBytes message

/-- The text of a value. -/
def fieldText : Json → String
  | .str s => s
  | v => String.ofList v.spacedText

/-- The locals of the loop of `_stringify`. -/
structure Packing where
  result : Dict String := []
  total : Nat := 0
  truncated : Bool := false

/-- One turn of it. -/
def packField (s : Packing) (e : String × Json) : Packing :=
  let text := truncateText maxMetadataValueBytes (fieldText e.2)
  let truncated := s.truncated || decide (maxMetadataValueBytes < (fieldText e.2).utf8ByteSize)
  if maxMetadataTotalBytes < s.total + text.utf8ByteSize then { s with truncated := true }
  else {
    result := s.result.set e.1 text
    total := s.total + text.utf8ByteSize
    truncated := truncated }

/-- `sorted(details)`, with the values. -/
def sortedFields (details : Dict Json) : List (String × Json) :=
  details.insertionSort Json.keyLE

/-- The key of the marker. -/
def truncatedKey : String := "_truncated"

/-- `_stringify`. -/
def stringify (details : Dict Json) : Dict String :=
  let packed := (sortedFields details).foldl packField {}
  if packed.truncated then packed.result.set truncatedKey "true" else packed.result

/-! ## The envelope -/

/-- `google.rpc.ErrorInfo`. -/
structure ErrorInfo where
  reason : String
  domain : String
  metadata : Dict String

/-- `google.rpc.Status`; each detail is packed into an `Any`. -/
structure RpcStatus where
  code : Nat
  message : String
  details : List ErrorInfo

/-- The message that `_status_details_bin` serialises. -/
def statusDetails (code : Nat) (message errorCode : String) (details : Dict Json) : RpcStatus where
  code := code
  message := truncateMessage message
  details := [{
    reason := errorCode
    domain := "message-service"
    metadata := stringify details }]

/-- What the RPC is aborted with. -/
structure Abort where
  code : Nat
  details : String
  /-- `x-message-service-error-code`. -/
  errorCode : String
  /-- `grpc-status-details-bin`. -/
  statusDetailsBin : List UInt8

/-- The status that a domain error is serialised as. -/
def DomainError.status (e : DomainError) : RpcStatus :=
  statusDetails e.category.statusCode e.message e.errorCode (redactSensitiveKeys e.details)

/-- `_translate_known`. -/
def translateKnown (serializeToString : RpcStatus → List UInt8) (e : DomainError) : Abort where
  code := e.category.statusCode
  details := truncateMessage e.message
  errorCode := e.errorCode
  statusDetailsBin := serializeToString e.status

/-! ## The length of the envelope -/

section Wire

open Protobuf

/-- The type of the packed detail. -/
def errorInfoTypeUrl : String := "type.googleapis.com/google.rpc.ErrorInfo"

/-- The length of an `ErrorInfo` on the wire. -/
def ErrorInfo.wireSize (i : ErrorInfo) : Nat :=
  bytesFieldSize i.reason.utf8ByteSize + bytesFieldSize i.domain.utf8ByteSize +
    (i.metadata.map fun e => mapEntrySize (e.1.utf8ByteSize, e.2.utf8ByteSize)).sum

/-- The length of a detail of so many bytes, packed into an `Any`. -/
def packedSize (n : Nat) : Nat :=
  delimitedSize (bytesFieldSize errorInfoTypeUrl.utf8ByteSize + bytesFieldSize n)

/-- The length of a `Status` on the wire. -/
def RpcStatus.wireSize (s : RpcStatus) : Nat :=
  numberFieldSize s.code + bytesFieldSize s.message.utf8ByteSize +
    (s.details.map fun i => packedSize i.wireSize).sum

/-- An `ErrorInfo` on the wire. -/
def ErrorInfo.encode (i : ErrorInfo) : List UInt8 :=
  stringField 1 i.reason ++ stringField 2 i.domain ++ i.metadata.flatMap (mapEntry 3)

/-- The same, packed. -/
def ErrorInfo.pack (i : ErrorInfo) : List UInt8 :=
  delimited 3 (stringField 1 errorInfoTypeUrl ++ bytesField 2 i.encode)

/-- A `Status` on the wire. -/
def RpcStatus.encode (s : RpcStatus) : List UInt8 :=
  numberField 1 s.code ++ stringField 2 s.message ++ s.details.flatMap ErrorInfo.pack

theorem length_flatMap_eq {α β : Type} {f : α → List β} {g : α → Nat} (l : List α)
    (h : ∀ a, (f a).length = g a) : (l.flatMap f).length = (l.map g).sum := by
  rw [List.length_flatMap]
  exact congrArg List.sum (List.map_congr_left fun a _ => h a)

theorem ErrorInfo.length_encode (i : ErrorInfo) : i.encode.length = i.wireSize := by
  unfold encode wireSize
  rw [List.length_append, List.length_append, length_stringField (by omega),
    length_stringField (by omega), length_flatMap_eq i.metadata fun e => length_mapEntry _ e]
  omega

theorem ErrorInfo.length_pack (i : ErrorInfo) : i.pack.length = packedSize i.wireSize := by
  unfold pack packedSize
  rw [length_delimited (by omega), List.length_append, length_stringField (by omega),
    length_bytesField (by omega), length_encode]

/-- The encoding has the length of the wire format. -/
theorem RpcStatus.length_encode (s : RpcStatus) : s.encode.length = s.wireSize := by
  unfold encode wireSize
  rw [List.length_append, List.length_append, length_numberField (by omega),
    length_stringField (by omega), length_flatMap_eq s.details ErrorInfo.length_pack]

end Wire

/-! ## What truncation does -/

/-- A string that is emitted for another: that string, or the start of it and the marker. -/
def IsTruncationOf (original emitted : String) : Prop :=
  emitted = original ∨
    ∃ start, start <+: original.toList ∧ emitted = String.ofList start ++ truncationMarker

theorem isTruncationOf_truncateText (limit : Nat) (text : String) :
    IsTruncationOf text (truncateText limit text) := by
  unfold truncateText
  split
  · exact .inl rfl
  · rw [decodeIgnore_take]
    exact .inr ⟨_, fitting_prefix limit text.toList, rfl⟩

/-- How many bytes a text has once it is bounded: those of the characters that fit, and of the
marker. -/
def boundedSize (limit : Nat) (text : String) : Nat :=
  if text.utf8ByteSize ≤ limit then text.utf8ByteSize
  else String.utf8Len (fitting limit text.toList) + 14

theorem utf8ByteSize_truncateText (limit : Nat) (text : String) :
    (truncateText limit text).utf8ByteSize = boundedSize limit text := by
  have hmarker : truncationMarker.utf8ByteSize = 14 := rfl
  unfold truncateText boundedSize
  split
  · rfl
  · rw [decodeIgnore_take, String.utf8ByteSize_append, String.utf8ByteSize_ofList, hmarker]

theorem boundedSize_le_size {limit : Nat} {text : String} (h : text.utf8ByteSize ≤ limit) :
    boundedSize limit text = text.utf8ByteSize := if_pos h

/-! ## What the loop does -/

/-- The bounded text of a value. -/
def boundedText (v : Json) : String := truncateText maxMetadataValueBytes (fieldText v)

/-- How many bytes it has. -/
def fieldSize (v : Json) : Nat := boundedSize maxMetadataValueBytes (fieldText v)

/-- The value is cut. -/
def isCut (v : Json) : Bool := decide (maxMetadataValueBytes < (fieldText v).utf8ByteSize)

/-- The fields that still fit, in order. -/
def keptFields : Nat → List (String × Json) → Dict String
  | _, [] => []
  | total, e :: es =>
    if maxMetadataTotalBytes < total + fieldSize e.2 then keptFields total es
    else (e.1, boundedText e.2) :: keptFields (total + fieldSize e.2) es

/-- A value of them is cut, or a field does not fit. -/
def loses : Nat → List (String × Json) → Bool
  | _, [] => false
  | total, e :: es =>
    if maxMetadataTotalBytes < total + fieldSize e.2 then true
    else isCut e.2 || loses (total + fieldSize e.2) es

theorem mem_keptFields {total : Nat} {es : List (String × Json)} {f : String × String}
    (h : f ∈ keptFields total es) : ∃ e ∈ es, e.1 = f.1 ∧ f.2 = boundedText e.2 := by
  induction es generalizing total with
  | nil => cases h
  | cons e es ih =>
    rw [keptFields] at h
    split at h
    · obtain ⟨e', he', hf⟩ := ih h
      exact ⟨e', List.mem_cons_of_mem _ he', hf⟩
    · rcases List.mem_cons.mp h with rfl | h
      · exact ⟨e, List.mem_cons_self, rfl, rfl⟩
      · obtain ⟨e', he', hf⟩ := ih h
        exact ⟨e', List.mem_cons_of_mem _ he', hf⟩

theorem keys_keptFields_sublist (total : Nat) (es : List (String × Json)) :
    ((keptFields total es).map Prod.fst).Sublist (es.map Prod.fst) := by
  induction es generalizing total with
  | nil => exact List.Sublist.refl _
  | cons e es ih =>
    rw [keptFields, List.map_cons]
    split
    · exact (ih total).cons _
    · exact (ih _).cons_cons _

/-- **The loop in closed form.** -/
theorem foldl_packField {es : List (String × Json)} {s : Packing}
    (h : ((s.result.map Prod.fst) ++ es.map Prod.fst).Nodup) :
    (es.foldl packField s).result = s.result ++ keptFields s.total es ∧
      (es.foldl packField s).truncated = (s.truncated || loses s.total es) := by
  induction es generalizing s with
  | nil => simp [keptFields, loses]
  | cons e es ih =>
    have hrest : ((s.result.map Prod.fst) ++ es.map Prod.fst).Nodup :=
      h.sublist ((List.sublist_cons_self _ _).append_left _)
    have habsent : s.result.get? e.1 = none := by
      refine Dict.get?_eq_none_iff.mpr fun hmem => ?_
      rw [List.nodup_append] at h
      exact h.2.2 e.1 hmem e.1 (List.mem_map_of_mem List.mem_cons_self) rfl
    have hsize : (boundedText e.2).utf8ByteSize = fieldSize e.2 := utf8ByteSize_truncateText _ _
    rw [List.foldl_cons, keptFields, loses]
    by_cases hfull : maxMetadataTotalBytes < s.total + fieldSize e.2
    · have hstep : packField s e = { s with truncated := true } := if_pos (hsize ▸ hfull)
      rw [hstep, if_pos hfull, if_pos hfull]
      obtain ⟨hresult, htruncated⟩ := ih (s := { s with truncated := true }) hrest
      exact ⟨hresult, by rw [htruncated]; simp⟩
    · have hstep : packField s e = {
          result := s.result ++ [(e.1, boundedText e.2)]
          total := s.total + fieldSize e.2
          truncated := s.truncated || isCut e.2 } := by
        rw [← Dict.set_of_absent habsent, ← hsize]
        exact if_neg (hsize ▸ hfull)
      rw [hstep, if_neg hfull, if_neg hfull]
      have hnodup : (((s.result ++ [(e.1, boundedText e.2)]).map Prod.fst) ++
          es.map Prod.fst).Nodup := by
        rw [List.map_append, List.append_assoc]
        exact h
      obtain ⟨hresult, htruncated⟩ := ih (s := {
        result := s.result ++ [(e.1, boundedText e.2)]
        total := s.total + fieldSize e.2
        truncated := s.truncated || isCut e.2 }) hnodup
      refine ⟨by rw [hresult, List.append_assoc]; rfl, ?_⟩
      rw [htruncated, Bool.or_assoc]

theorem perm_sortedFields (details : Dict Json) : (sortedFields details).Perm details :=
  List.perm_insertionSort _ _

theorem nodup_sortedFields {details : Dict Json} (h : (details.map Prod.fst).Nodup) :
    ((sortedFields details).map Prod.fst).Nodup :=
  ((perm_sortedFields details).map Prod.fst).nodup_iff.mpr h

/-- `_stringify` without its loop. -/
theorem stringify_eq {details : Dict Json} (h : (details.map Prod.fst).Nodup) :
    stringify details =
      if loses 0 (sortedFields details) then
        (keptFields 0 (sortedFields details)).set truncatedKey "true"
      else keptFields 0 (sortedFields details) := by
  obtain ⟨hresult, htruncated⟩ := @foldl_packField (sortedFields details) {}
    (nodup_sortedFields h)
  simp only [stringify, hresult, htruncated, Bool.false_or]
  rfl

/-- Something is lost exactly when a value is cut or a field is not kept. -/
theorem loses_iff {total : Nat} {es : List (String × Json)} (h : (es.map Prod.fst).Nodup) :
    loses total es = true ↔
      ∃ e ∈ es, isCut e.2 = true ∨ (keptFields total es).get? e.1 = none := by
  induction es generalizing total with
  | nil => simp [loses]
  | cons e es ih =>
    obtain ⟨hnew, hrest⟩ := List.nodup_cons.mp h
    have hkept (n : Nat) : (keptFields n es).get? e.1 = none :=
      Dict.get?_eq_none_iff.mpr fun hmem => hnew ((keys_keptFields_sublist n es).subset hmem)
    rw [loses, keptFields]
    split
    · exact iff_of_true rfl ⟨e, List.mem_cons_self, .inr (hkept total)⟩
    · rw [Bool.or_eq_true, ih hrest, List.exists_mem_cons_iff]
      refine or_congr ?_ (exists_congr fun e' => and_congr_right fun he' => or_congr_right ?_)
      · rw [Dict.get?_cons, if_pos rfl]
        simp
      · have hne : e.1 ≠ e'.1 := fun he => hnew (he ▸ List.mem_map_of_mem he')
        rw [Dict.get?_cons, if_neg hne]

/-! ## The lengths of an envelope -/

section Lengths

open Protobuf

/-- The lengths of the values of a metadata map. -/
def valueSizes (d : Dict String) : Dict Nat := d.map fun f => (f.1, f.2.utf8ByteSize)

/-- The fields that still fit, with the lengths of their bounded values. -/
def keptSizes : Nat → List (String × Json) → Dict Nat
  | _, [] => []
  | total, e :: es =>
    if maxMetadataTotalBytes < total + fieldSize e.2 then keptSizes total es
    else (e.1, fieldSize e.2) :: keptSizes (total + fieldSize e.2) es

/-- The keys of the metadata with the lengths of their values, the marker included. -/
def metadataSizes (details : Dict Json) : Dict Nat :=
  if loses 0 (sortedFields details) then
    (keptSizes 0 (sortedFields details)).set truncatedKey 4
  else keptSizes 0 (sortedFields details)

theorem valueSizes_set (d : Dict String) (k v : String) :
    valueSizes (d.set k v) = (valueSizes d).set k v.utf8ByteSize := by
  induction d with
  | nil => rfl
  | cons e d ih =>
    unfold valueSizes at ih ⊢
    rw [Dict.set, List.map_cons, Dict.set]
    split
    · rfl
    · rw [List.map_cons, ih]

theorem valueSizes_keptFields (total : Nat) (es : List (String × Json)) :
    valueSizes (keptFields total es) = keptSizes total es := by
  induction es generalizing total with
  | nil => rfl
  | cons e es ih =>
    have hsize : (boundedText e.2).utf8ByteSize = fieldSize e.2 := utf8ByteSize_truncateText _ _
    rw [keptFields, keptSizes]
    split
    · exact ih total
    · rw [← ih, ← hsize]
      rfl

theorem valueSizes_stringify {details : Dict Json} (h : (details.map Prod.fst).Nodup) :
    valueSizes (stringify details) = metadataSizes details := by
  have htrue : "true".utf8ByteSize = 4 := rfl
  rw [stringify_eq h, metadataSizes]
  split
  · rw [valueSizes_set, valueSizes_keptFields, htrue]
  · exact valueSizes_keptFields _ _

/-- The bytes of the metadata entries. -/
def metadataBytes (details : Dict Json) : Nat :=
  ((metadataSizes details).map fun f => mapEntrySize (f.1.utf8ByteSize, f.2)).sum

/-- The bytes of a status with a message, an error code and metadata of so many bytes. -/
def statusBytes (message errorCode metadata : Nat) : Nat :=
  2 + bytesFieldSize message +
    packedSize (bytesFieldSize errorCode + bytesFieldSize 15 + metadata)

/-- **The lengths add up**: the message twice, the error code, and for each field that is kept its
key and its bounded value, with the framing of each. -/
def Fits (e : DomainError) : Prop :=
  boundedSize maxMessageBytes e.message + statusBytes (boundedSize maxMessageBytes e.message)
    e.errorCode.utf8ByteSize (metadataBytes (redactSensitiveKeys e.details)) ≤ 8192

theorem numberFieldSize_statusCode (c : ErrorCategory) : numberFieldSize c.statusCode = 2 := by
  cases c <;> simp [numberFieldSize, ErrorCategory.statusCode, varintSize_of_lt]

theorem DomainError.nodup_redacted (e : DomainError) :
    ((redactSensitiveKeys e.details).map Prod.fst).Nodup := by
  unfold redactSensitiveKeys
  rw [keys_redactMapping]
  exact e.nodup

/-- The length of the serialised status of a domain error. -/
theorem wireSize_status (e : DomainError) : e.status.wireSize =
    statusBytes (boundedSize maxMessageBytes e.message) e.errorCode.utf8ByteSize
      (metadataBytes (redactSensitiveKeys e.details)) := by
  have hdomain : "message-service".utf8ByteSize = 15 := rfl
  have hmetadata : ((stringify (redactSensitiveKeys e.details)).map fun f =>
      mapEntrySize (f.1.utf8ByteSize, f.2.utf8ByteSize)).sum =
        metadataBytes (redactSensitiveKeys e.details) := by
    rw [metadataBytes, ← valueSizes_stringify e.nodup_redacted, valueSizes, List.map_map]
    rfl
  simp only [DomainError.status, statusDetails, RpcStatus.wireSize, ErrorInfo.wireSize,
    numberFieldSize_statusCode, truncateMessage, utf8ByteSize_truncateText, List.map_cons,
    List.map_nil, List.sum_cons, List.sum_nil, Nat.add_zero, hdomain, hmetadata, statusBytes]

/-- The message counts twice, and the values of the fields that are kept once. -/
theorem lt_of_fits {e : DomainError} (h : Fits e) :
    2 * boundedSize maxMessageBytes e.message +
      ((metadataSizes (redactSensitiveKeys e.details)).map Prod.snd).sum < 8192 := by
  have hvalues : ((metadataSizes (redactSensitiveKeys e.details)).map Prod.snd).sum ≤
      metadataBytes (redactSensitiveKeys e.details) := by
    unfold metadataBytes
    refine List.sum_le_sum fun f _ => ?_
    have h := lt_mapEntrySize (f.1.utf8ByteSize, f.2)
    exact (Nat.le_add_left _ _).trans h.le
  have hmessage := le_bytesFieldSize (boundedSize maxMessageBytes e.message)
  have hpacked (n : Nat) : n < packedSize n := by
    have h1 := le_bytesFieldSize n
    have h2 := lt_delimitedSize (bytesFieldSize errorInfoTypeUrl.utf8ByteSize + bytesFieldSize n)
    unfold packedSize
    omega
  have hdetail := hpacked (bytesFieldSize e.errorCode.utf8ByteSize + bytesFieldSize 15 +
    metadataBytes (redactSensitiveKeys e.details))
  unfold Fits statusBytes at h
  omega

/-- The values that are kept stay within the budget. -/
theorem sum_keptSizes_le {total : Nat} (h : total ≤ maxMetadataTotalBytes)
    (es : List (String × Json)) :
    total + ((keptSizes total es).map Prod.snd).sum ≤ maxMetadataTotalBytes := by
  induction es generalizing total with
  | nil => exact h
  | cons e es ih =>
    rw [keptSizes]
    split
    · exact ih h
    · next hfits =>
      have hrest := ih (Nat.le_of_not_lt hfits)
      rw [List.map_cons, List.sum_cons]
      omega

theorem keys_keptSizes_sublist (total : Nat) (es : List (String × Json)) :
    ((keptSizes total es).map Prod.fst).Sublist (es.map Prod.fst) := by
  have hkeys : (keptSizes total es).map Prod.fst = (keptFields total es).map Prod.fst := by
    rw [← valueSizes_keptFields, valueSizes, List.map_map]
    rfl
  exact hkeys ▸ keys_keptFields_sublist total es

theorem sum_map_set_le {α : Type} (g : String × α → Nat) (d : Dict α) (k : String) (v : α) :
    ((d.set k v).map g).sum ≤ (d.map g).sum + g (k, v) := by
  induction d with
  | nil => simp [Dict.set]
  | cons e d ih =>
    obtain ⟨k', v'⟩ := e
    rw [Dict.set]
    split
    · next hk =>
      rw [List.map_cons, List.map_cons, List.sum_cons, List.sum_cons, hk]
      omega
    · rw [List.map_cons, List.map_cons, List.sum_cons, List.sum_cons]
      omega

/-- Few fields with short keys are not much more than their values. -/
theorem metadataBytes_le {details : Dict Json} (hcount : details.length ≤ 32)
    (hkeys : ∀ k ∈ details.map Prod.fst, k.utf8ByteSize ≤ 32) : metadataBytes details ≤ 5398 := by
  have hentry : ∀ f ∈ keptSizes 0 (sortedFields details),
      mapEntrySize (f.1.utf8ByteSize, f.2) ≤ f.2 + 40 := by
    intro f hf
    have hkey := hkeys f.1 (((perm_sortedFields details).map Prod.fst).mem_iff.mp
      ((keys_keptSizes_sublist 0 _).subset (List.mem_map_of_mem hf)))
    have hvalue : f.2 ≤ maxMetadataTotalBytes := by
      have hsum := sum_keptSizes_le (Nat.zero_le _) (sortedFields details)
      have hle := List.single_le_sum (fun _ _ => Nat.zero_le _) f.2 (List.mem_map_of_mem hf)
      omega
    unfold maxMetadataTotalBytes at hvalue
    have h := @mapEntrySize_le (f.1.utf8ByteSize, f.2) (by simp only; omega) (by simp only; omega)
    simp only at h
    omega
  have hkept : ((keptSizes 0 (sortedFields details)).map
      fun f => mapEntrySize (f.1.utf8ByteSize, f.2)).sum ≤ 4096 + 40 * 32 := by
    have hsum := sum_keptSizes_le (Nat.zero_le _) (sortedFields details)
    have hlength : (keptSizes 0 (sortedFields details)).length ≤ 32 := by
      have hle := (keys_keptSizes_sublist 0 (sortedFields details)).length_le
      rw [List.length_map, List.length_map, (perm_sortedFields details).length_eq] at hle
      omega
    have hle := List.sum_le_sum hentry
    have hadd : ((keptSizes 0 (sortedFields details)).map fun f => f.2 + 40).sum =
        ((keptSizes 0 (sortedFields details)).map Prod.snd).sum +
          40 * (keptSizes 0 (sortedFields details)).length := by
      rw [List.sum_map_add]
      simp [Nat.mul_comm]
    unfold maxMetadataTotalBytes at hsum
    omega
  unfold metadataBytes metadataSizes
  split
  · have hset := sum_map_set_le (fun f => mapEntrySize (f.1.utf8ByteSize, f.2))
      (keptSizes 0 (sortedFields details)) truncatedKey 4
    have hmarker : mapEntrySize (truncatedKey.utf8ByteSize, 4) ≤ 22 :=
      @mapEntrySize_le (10, 4) (by simp) (by simp)
    simp only at hset
    omega
  · omega

theorem bytesFieldSize_le {n : Nat} (h : n < 16384) : bytesFieldSize n ≤ n + 3 := by
  have hsize := varintSize_le_two h
  unfold bytesFieldSize delimitedSize
  split <;> omega

/-- **A short message and few fields with short keys** are within the limit, whatever the values. -/
theorem fits_of_small {e : DomainError} (hmessage : e.message.utf8ByteSize ≤ 1024)
    (hcode : e.errorCode.utf8ByteSize ≤ 128) (hcount : e.details.length ≤ 32)
    (hkeys : ∀ k ∈ e.details.map Prod.fst, k.utf8ByteSize ≤ 32) : Fits e := by
  have hredacted := keys_redactMapping e.details
  have hmetadata : metadataBytes (redactSensitiveKeys e.details) ≤ 5398 := by
    refine metadataBytes_le ?_ (hredacted ▸ hkeys)
    have hlength := congrArg List.length hredacted
    rw [List.length_map, List.length_map] at hlength
    exact hlength.le.trans hcount
  have hbounded : boundedSize maxMessageBytes e.message = e.message.utf8ByteSize :=
    boundedSize_le_size (hmessage.trans (by decide))
  have hurl : errorInfoTypeUrl.utf8ByteSize = 40 := rfl
  have h1 := @bytesFieldSize_le e.message.utf8ByteSize (by omega)
  have h2 := @bytesFieldSize_le e.errorCode.utf8ByteSize (by omega)
  have h3 := @bytesFieldSize_le 15 (by omega)
  have h4 := @bytesFieldSize_le 40 (by omega)
  have h5 := @bytesFieldSize_le (bytesFieldSize e.errorCode.utf8ByteSize + bytesFieldSize 15 +
    metadataBytes (redactSensitiveKeys e.details)) (by omega)
  have h6 := @varintSize_le_two (bytesFieldSize 40 + bytesFieldSize
    (bytesFieldSize e.errorCode.utf8ByteSize + bytesFieldSize 15 +
      metadataBytes (redactSensitiveKeys e.details))) (by omega)
  unfold Fits statusBytes packedSize
  rw [hbounded, hurl]
  unfold delimitedSize
  omega

end Lengths

/-! ## Bounded and honest -/

/-- What a client can rely on. -/
structure IsBoundedAndHonest (serializeToString : RpcStatus → List UInt8) (e : DomainError) :
    Prop where
  /-- Message and status are within the limit of the trailing metadata. -/
  bounded : (translateKnown serializeToString e).details.utf8ByteSize +
    (translateKnown serializeToString e).statusDetailsBin.length ≤ 8192
  message : IsTruncationOf e.message (translateKnown serializeToString e).details
  statusMessage : IsTruncationOf e.message e.status.message
  codes : ∀ info ∈ e.status.details, info.reason = e.errorCode ∧ info.domain = "message-service"
  /-- Every other entry of the metadata is a field of the details. -/
  fields : ∀ info ∈ e.status.details, ∀ f ∈ info.metadata, f = (truncatedKey, "true") ∨
    ∃ v, (redactSensitiveKeys e.details).get? f.1 = some v ∧ IsTruncationOf (fieldText v) f.2
  /-- The marker is there when a value is cut or a field is left out. -/
  marker : (redactSensitiveKeys e.details).get? truncatedKey = none →
    ∀ info ∈ e.status.details, (info.metadata.get? truncatedKey).isSome = true ↔
      ∃ k v, (redactSensitiveKeys e.details).get? k = some v ∧
        (maxMetadataValueBytes < (fieldText v).utf8ByteSize ∨ info.metadata.get? k = none)

section

variable {details : Dict Json}

/-- An entry of the metadata is the marker or the bounded text of a field. -/
theorem mem_stringify (h : (details.map Prod.fst).Nodup) {f : String × String}
    (hf : f ∈ stringify details) : f = (truncatedKey, "true") ∨
      ∃ v, details.get? f.1 = some v ∧ IsTruncationOf (fieldText v) f.2 := by
  have hkept (hf : f ∈ keptFields 0 (sortedFields details)) :
      ∃ v, details.get? f.1 = some v ∧ IsTruncationOf (fieldText v) f.2 := by
    obtain ⟨e, he, hkey, hvalue⟩ := mem_keptFields hf
    refine ⟨e.2, ?_, ?_⟩
    · rw [← hkey]
      exact Dict.get?_of_mem h ((perm_sortedFields details).mem_iff.mp he)
    · rw [hvalue]
      exact isTruncationOf_truncateText _ _
  rw [stringify_eq h] at hf
  split at hf
  · exact (Dict.mem_set hf).symm.imp_right hkept
  · exact .inr (hkept hf)

/-- The marker is there exactly when something is lost. -/
theorem marker_iff (h : (details.map Prod.fst).Nodup) (hkey : details.get? truncatedKey = none) :
    ((stringify details).get? truncatedKey).isSome = true ↔
      ∃ k v, details.get? k = some v ∧ (maxMetadataValueBytes < (fieldText v).utf8ByteSize ∨
        (stringify details).get? k = none) := by
  have habsent : (keptFields 0 (sortedFields details)).get? truncatedKey = none := by
    refine Dict.get?_eq_none_iff.mpr fun hmem => Dict.get?_eq_none_iff.mp hkey ?_
    exact ((perm_sortedFields details).map Prod.fst).mem_iff.mp
      ((keys_keptFields_sublist 0 _).subset hmem)
  have hget (k : String) (hk : k ≠ truncatedKey) :
      (stringify details).get? k = (keptFields 0 (sortedFields details)).get? k := by
    rw [stringify_eq h]
    split
    · rw [Dict.get?_set, if_neg hk.symm]
    · rfl
  have hmarker : ((stringify details).get? truncatedKey).isSome = true ↔
      loses 0 (sortedFields details) = true := by
    rw [stringify_eq h]
    split
    · next hl => exact iff_of_true (by rw [Dict.get?_set, if_pos rfl]; rfl) hl
    · next hl => exact iff_of_false (by rw [habsent]; exact Bool.false_ne_true) hl
  rw [hmarker, loses_iff (nodup_sortedFields h)]
  constructor
  · rintro ⟨e, he, hlost⟩
    have hmem := Dict.get?_of_mem h ((perm_sortedFields details).mem_iff.mp he)
    have hne : e.1 ≠ truncatedKey := by
      intro hk
      rw [hk, hkey] at hmem
      cases hmem
    exact ⟨e.1, e.2, hmem, hlost.imp of_decide_eq_true fun hnone => (hget e.1 hne).trans hnone⟩
  · rintro ⟨k, v, hk, hlost⟩
    have hne : k ≠ truncatedKey := by
      rintro rfl
      rw [hkey] at hk
      cases hk
    refine ⟨(k, v), (perm_sortedFields details).mem_iff.mpr (Dict.mem_of_get? hk), ?_⟩
    exact hlost.imp decide_eq_true fun hnone => (hget k hne).symm.trans hnone

end

/-- Within the limit are the envelopes whose lengths add up. -/
theorem bounded_iff {serializeToString : RpcStatus → List UInt8}
    (hwire : ∀ e : DomainError, (serializeToString e.status).length = e.status.wireSize)
    (e : DomainError) : (translateKnown serializeToString e).details.utf8ByteSize +
      (translateKnown serializeToString e).statusDetailsBin.length ≤ 8192 ↔ Fits e := by
  rw [translateKnown, hwire, wireSize_status, truncateMessage, utf8ByteSize_truncateText]
  rfl

/-- **The envelope is bounded and honest exactly when its lengths add up.** -/
theorem envelope_ok_iff {serializeToString : RpcStatus → List UInt8}
    (hwire : ∀ e : DomainError, (serializeToString e.status).length = e.status.wireSize)
    (e : DomainError) : IsBoundedAndHonest serializeToString e ↔ Fits e := by
  constructor
  · intro h
    exact (bounded_iff hwire e).mp h.bounded
  · intro h
    refine ⟨(bounded_iff hwire e).mpr h, ?_, ?_, ?_, ?_, ?_⟩
    · exact isTruncationOf_truncateText _ _
    · exact isTruncationOf_truncateText _ _
    · intro info hinfo
      obtain rfl := List.mem_singleton.mp hinfo
      exact ⟨rfl, rfl⟩
    · intro info hinfo f hf
      obtain rfl := List.mem_singleton.mp hinfo
      exact mem_stringify e.nodup_redacted hf
    · intro hkey info hinfo
      obtain rfl := List.mem_singleton.mp hinfo
      exact marker_iff e.nodup_redacted hkey

/-- A small error. -/
def smallError : DomainError where
  category := .notFound
  errorCode := "ERROR_CODE_RUN_NOT_FOUND"
  message := "run not found"
  details := [("run_id", .str "1f0e6b1c-5d5e-4c1a-9a55-0d3c2b1a4f60")]
  nodup := List.nodup_singleton _

theorem envelope_ok_small : IsBoundedAndHonest RpcStatus.encode smallError ↔ Fits smallError :=
  envelope_ok_iff (fun e => RpcStatus.length_encode e.status) smallError

/-- A validation error of 2048 bytes with four details of 1024. -/
def overfullError : DomainError where
  category := .validation
  errorCode := "ERROR_CODE_UNSPECIFIED"
  message := String.ofList (List.replicate 2048 'm')
  details := ["a", "b", "c", "d"].map fun k => (k, .str (String.ofList (List.replicate 1024 'v')))
  nodup := by decide

theorem utf8ByteSize_replicate {c : Char} (hc : c.utf8Size = 1) (n : Nat) :
    (String.ofList (List.replicate n c)).utf8ByteSize = n := by
  have hascii : IsAscii (List.replicate n c) := fun d hd => by
    rw [List.eq_of_mem_replicate hd]
    exact hc
  rw [String.utf8ByteSize_ofList, hascii.utf8Len, List.length_replicate]

theorem fieldSize_replicate : fieldSize (.str (String.ofList (List.replicate 1024 'v'))) = 1024 := by
  have hsize := @utf8ByteSize_replicate 'v' rfl 1024
  exact (boundedSize_le_size (hsize.le.trans (Nat.le_refl 1024))).trans hsize

/-- Its values are kept as they are. -/
theorem metadataSizes_overfull : metadataSizes (redactSensitiveKeys overfullError.details) =
    [("a", 1024), ("b", 1024), ("c", 1024), ("d", 1024)] := by
  have hredact : redactSensitiveKeys overfullError.details = overfullError.details := by
    have hplain : ∀ k ∈ ["a", "b", "c", "d"], isSensitive k = false := by decide +kernel
    refine redactMapping_eq_self fun e he => ?_
    obtain ⟨k, hk, rfl⟩ := List.mem_map.mp he
    exact ⟨hplain k hk, rfl⟩
  have hsorted : sortedFields overfullError.details = overfullError.details := by
    refine List.Pairwise.insertionSort_eq (List.pairwise_map.mpr ?_)
    exact @id (["a", "b", "c", "d"].Pairwise (· ≤ ·)) (by decide)
  have hcut : isCut (.str (String.ofList (List.replicate 1024 'v'))) = false := by
    have hsize := @utf8ByteSize_replicate 'v' rfl 1024
    exact decide_eq_false (Nat.not_lt.mpr (hsize.le.trans (Nat.le_refl 1024)))
  rw [hredact, metadataSizes, hsorted]
  simp only [overfullError, List.map_cons, List.map_nil, loses, keptSizes, fieldSize_replicate,
    hcut, maxMetadataTotalBytes]
  rfl

/-- Nothing of it is cut or left out, and it is over the limit. -/
theorem overfull_unbounded : ¬IsBoundedAndHonest RpcStatus.encode overfullError := by
  intro h
  have hfits := (bounded_iff (fun e => RpcStatus.length_encode e.status) overfullError).mp h.bounded
  have hlt := lt_of_fits hfits
  have hmessage : boundedSize maxMessageBytes overfullError.message = 2048 := by
    have hsize := @utf8ByteSize_replicate 'm' rfl 2048
    exact (boundedSize_le_size (hsize.le.trans (Nat.le_refl 2048))).trans hsize
  rw [hmessage, metadataSizes_overfull] at hlt
  simp at hlt

end MessageService.Interfaces
