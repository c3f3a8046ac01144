import MessageService.Domain.Aggregates

/-!
# Outbound e-mail

Model of the mailer port (`application/ports/mailer.py`) and of the pieces of an e-mail that
`assemble_and_deliver.py` builds besides its contents: attachment names, the subject, the
administrators' notification.

What `__post_init__` checks of an `OutboundEmail` is a field of it. An attachment's content is the
text whose UTF-8 encoding it is.
-/

namespace MessageService.Application

open MessageService.Domain MessageService.Lib

/-! ## Names and subjects -/

/-- A character `_FILENAME_UNSAFE` leaves alone. -/
def isFilenameSafe (c : Char) : Bool :=
  ('a' ≤ c && c ≤ 'z') || ('A' ≤ c && c ≤ 'Z') || ('0' ≤ c && c ≤ '9') || c = '.' || c = '_' ||
    c = '-'

/-- `_sanitize_filename_component`. -/
def sanitizeFilenameComponent (component : String) : String :=
  component.map fun c => if isFilenameSafe c then c else '_'

/-- The ASCII characters among the first `n` bytes of a text. -/
def asciiPrefix : Nat → List Char → List Char
  | _, [] => []
  | n, c :: cs =>
    if n = 0 then []
    else if c.utf8Size = 1 then c :: asciiPrefix (n - 1) cs
    else asciiPrefix (n - c.utf8Size) cs

/-- `_build_attachment_filename`. -/
def buildAttachmentFilename (pipelineType : String) (runId : RunId) (stageId : Option StageId) :
    String :=
  let pipelineSafe := sanitizeFilenameComponent pipelineType
  let base := match stageId with
    | none => pipelineSafe ++ "_" ++ runId
    | some s => pipelineSafe ++ "_" ++ runId ++ "_" ++ sanitizeFilenameComponent s
  let suffix := ".html"
  let maxBaseBytes := 255 - suffix.utf8ByteSize
  if maxBaseBytes < base.utf8ByteSize then
    String.ofList (asciiPrefix maxBaseBytes base.toList) ++ suffix
  else base ++ suffix

/-- A subject template: what its `str.format` makes of `pipeline_type` and `run_id`. -/
abbrev SubjectTemplate := String → RunId → Except ServiceError String

/-- `_build_subject`. -/
def buildSubject (pipelineType : String) (runId : RunId) (template : Option SubjectTemplate) :
    Except ServiceError String :=
  let pipelineSafe := sanitizeFilenameComponent pipelineType
  match template with
  | some format => format pipelineSafe runId
  | none => .ok ("[" ++ pipelineSafe ++ "] run " ++ runId)

/-! ## The port -/

/-- `EmailAttachment`. -/
structure EmailAttachment where
  filename : String
  contentType : String
  content : String
  deriving DecidableEq

/-- A header value without CR or LF. -/
def isSingleLine (s : String) : Bool :=
  !s.toList.contains (Char.ofNat 10) && !s.toList.contains (Char.ofNat 13)

theorem isSingleLine_iff {s : String} :
    isSingleLine s = true ↔ '\n' ∉ s.toList ∧ '\r' ∉ s.toList := by
  simp [isSingleLine]

/-- `OutboundEmail`. -/
structure OutboundEmail where
  recipients : SortedSet String
  subject : String
  bodyHtml : String
  fromAddress : String
  attachments : List EmailAttachment
  recipients_ne : recipients.elems ≠ []
  fromAddress_ne : fromAddress ≠ ""
  subject_line : isSingleLine subject = true
  fromAddress_line : isSingleLine fromAddress = true

/-- The constructor of `OutboundEmail`, with its `__post_init__`. -/
def OutboundEmail.make (recipients : SortedSet String) (subject bodyHtml fromAddress : String)
    (attachments : List EmailAttachment) : Except ServiceError OutboundEmail :=
  let invalid (what : String) : Except ServiceError OutboundEmail :=
    .error { errorClass := .valueError, message := "OutboundEmail." ++ what }
  if h1 : recipients.elems = [] then invalid "recipients must be non-empty"
  else if h2 : fromAddress = "" then invalid "from_address must be non-empty"
  else if h3 : isSingleLine subject = false then
    invalid "subject must not contain newline characters"
  else if h4 : isSingleLine fromAddress = false then
    invalid "from_address must not contain newline characters"
  else .ok {
    recipients, subject, bodyHtml, fromAddress, attachments
    recipients_ne := h1
    fromAddress_ne := h2
    subject_line := by simpa using h3
    fromAddress_line := by simpa using h4 }

theorem OutboundEmail.make_isOk_iff {recipients : SortedSet String}
    {subject bodyHtml fromAddress : String} {attachments : List EmailAttachment} :
    (∃ email, OutboundEmail.make recipients subject bodyHtml fromAddress attachments = .ok email) ↔
      recipients.elems ≠ [] ∧ fromAddress ≠ "" ∧ isSingleLine subject = true ∧
        isSingleLine fromAddress = true := by
  constructor
  · rintro ⟨email, h⟩
    unfold OutboundEmail.make at h
    split_ifs at h with h1 h2 h3 h4
    exact ⟨h1, h2, by simpa using h3, by simpa using h4⟩
  · rintro ⟨h1, h2, h3, h4⟩
    simp [OutboundEmail.make, h1, h2, h3, h4]

theorem OutboundEmail.make_ok {recipients : SortedSet String} {subject bodyHtml fromAddress : String}
    {attachments : List EmailAttachment} {email : OutboundEmail}
    (h : OutboundEmail.make recipients subject bodyHtml fromAddress attachments = .ok email) :
    email.bodyHtml = bodyHtml ∧ email.attachments = attachments := by
  unfold OutboundEmail.make at h
  split_ifs at h
  obtain rfl := Except.ok.inj h
  exact ⟨rfl, rfl⟩

/-- The keys a delivery's audit row gives a meaning of its own. -/
def reservedKeys : List String :=
  ["run_id", "prior_state", "new_state", "timestamp", "reconciled_terminal_state"]

/-- A payload without a reserved key. No payload of the two adapters has one. -/
def Unreserved (details : Dict Json) : Prop := ∀ k ∈ reservedKeys, details.get? k = none

/-- `EmailDeliveryError`, or its subclass `EmailSizeExceededError`. -/
structure MailError where
  sizeExceeded : Bool
  message : String
  details : Dict Json
  unreserved : Unreserved details

/-! ## The administrators' notification -/

/-- `html.escape` of one character, as the autoescaping of a template has it. -/
def htmlEscape (c : Char) : String :=
  if c = '&' then "&amp;"
  else if c = '<' then "&lt;"
  else if c = '>' then "&gt;"
  else if c = Char.ofNat 39 then "&#39;"
  else if c = Char.ofNat 34 then "&#34;"
  else c.toString

/-- The template `admin_notification.j2`, rendered. -/
def adminNotificationBody (runId : RunId) (failureReason timestamp : String) : String :=
  let escape (s : String) := String.join (s.toList.map htmlEscape)
  "\nMessage-Service operational alert.\n\n" ++
  "A run could not be delivered because the rendered email exceeded the\n" ++
  "configured maximum size.\n\n" ++
  "  Run ID:        " ++ escape runId ++ "\n" ++
  "  Failure:       " ++ escape failureReason ++ "\n" ++
  "  Timestamp:     " ++ escape timestamp ++ "\n\n" ++
  "The rendered report has been persisted and is available through the\n" ++
  "dashboard's resend interface for review or manual delivery.\n\n" ++
  "This is an automated notification from the Message Service. No reply\n" ++
  "is expected; please consult the service log for the structured\n" ++
  "\"admin_notification_sent\" event keyed by run_id for further detail."

/-- `_ADMIN_NOTIFICATION_SUBJECT`, formatted. -/
def adminNotificationSubject (runId : RunId) : String :=
  "Message Service: EMAIL_SIZE_EXCEEDED for run " ++ runId

end MessageService.Application
