import MessageService.Application.Mail
import MessageService.Lib.Python
import Mathlib.Algebra.Order.Field.Rat

/-!
# The retry loop of the mailer

Model of the rest of `infrastructure/email/aiosmtplib_mailer.py`: the classification of SMTP errors
and `AiosmtplibMailer.send` with `_send_with_retries`. What an attempt (`_open_and_send`) comes to
is given for each number of an attempt, and a run of the loop is the attempts and sleeps it goes
through beside what it raises. Encoding the message is a parameter.

* `sendWithRetries_spec`: from any attempt on, the loop makes one attempt after the other until one
  does not fail transiently, or is the last that `max_retries` allows.
* `send_retries`: an oversize message is not attempted, and for any other this is the whole run,
  with the backoff between the attempts and the reason that is given.
-/

namespace MessageService.Infrastructure

open MessageService.Domain MessageService.Lib MessageService.Application

/-! ## Classification -/

/-- What `_classify_smtp_error` tells apart of the exceptions that the loop catches. -/
inductive SmtpFailure where
  | authentication (code : Int)
  | recipientsRefused (codes : List Int)
  | response (code : Int)
  | serverDisconnected
  | connectTimeout
  | gaierror
  /-- Another `SMTPException`, a `TimeoutError` or an `OSError`. -/
  | other

/-- `getattr(exc, "code", None)`. -/
def SmtpFailure.code : SmtpFailure → Option Int
  | authentication code => some code
  | response code => some code
  | _ => none

/-- An exception that the loop catches. -/
structure SmtpError where
  failure : SmtpFailure
  className : String
  text : String

/-- `_FAILURE_TYPE_TRANSIENT` and `_FAILURE_TYPE_PERMANENT`. -/
inductive FailureType where
  | transient
  | permanent
  deriving DecidableEq, Repr

/-- `_PERMANENT_4XX_CODES`. -/
def permanent4xxCodes : List Int := [421]

/-- `_classify_response_code`. -/
def classifyResponseCode (code : Int) : FailureType :=
  if code ∈ permanent4xxCodes then .permanent
  else if 400 ≤ code ∧ code < 500 then .transient
  else if 500 ≤ code ∧ code < 600 then .permanent
  else .permanent

/-- `_classify_smtp_error`. -/
def classifySmtpError : SmtpFailure → FailureType
  | .authentication _ => .permanent
  | .recipientsRefused codes =>
    if !codes.isEmpty && codes.all fun c => classifyResponseCode c = .permanent then .permanent
    else .transient
  | .response code => classifyResponseCode code
  | .serverDisconnected => .transient
  | .connectTimeout => .transient
  | .gaierror => .transient
  | .other => .transient

theorem classifyResponseCode_eq_transient_iff {code : Int} :
    classifyResponseCode code = .transient ↔ 400 ≤ code ∧ code < 500 ∧ code ≠ 421 := by
  unfold classifyResponseCode permanent4xxCodes
  split_ifs with h421 h4xx h5xx
  · rw [List.mem_singleton] at h421
    simp [h421]
  · rw [List.mem_singleton] at h421
    simp [h421, h4xx]
  · simp only [false_iff]
    omega
  · simp only [false_iff]
    omega

/-- A refusal is permanent if every one of its recipients, at least one, is refused for good. -/
theorem classifySmtpError_recipientsRefused {codes : List Int} :
    classifySmtpError (.recipientsRefused codes) = .permanent ↔
      codes ≠ [] ∧ ∀ c ∈ codes, classifyResponseCode c = .permanent := by
  unfold classifySmtpError
  simp

/-! ## The mailer -/

/-- `AiosmtplibMailer`, of which the loop reads the limits, as its constructor accepts them. -/
structure AiosmtplibMailer where
  maxEmailSizeBytes : ℕ
  maxRetries : ℕ
  initialIntervalSeconds : ℚ
  maxIntervalSeconds : ℚ
  maxEmailSizeBytes_pos : 1 ≤ maxEmailSizeBytes
  initialIntervalSeconds_pos : 0 < initialIntervalSeconds
  initial_le_max : initialIntervalSeconds ≤ maxIntervalSeconds

/-- `AiosmtplibMailer.__init__`. -/
def AiosmtplibMailer.make (port maxEmailSizeBytes maxRetries : Int)
    (initialIntervalSeconds maxIntervalSeconds timeoutSeconds : ℚ) :
    Except PyException AiosmtplibMailer :=
  let valueError (text : String) : Except PyException AiosmtplibMailer := .error {
    className := "ValueError"
    bases := ["Exception", "BaseException", "object"]
    text }
  if port < 1 ∨ 65535 < port then
    valueError ("port must be in [1, 65535]; got " ++ toString port)
  else if hsize : maxEmailSizeBytes < 1 then valueError "max_email_size_bytes must be positive"
  else if maxRetries < 0 then valueError "max_retries must be non-negative"
  else if hinitial : initialIntervalSeconds ≤ 0 then
    valueError "initial_interval_seconds must be positive"
  else if hmax : maxIntervalSeconds < initialIntervalSeconds then
    valueError "max_interval_seconds must be >= initial_interval_seconds"
  else if timeoutSeconds ≤ 0 then valueError "timeout_seconds must be positive"
  else .ok {
    maxEmailSizeBytes := maxEmailSizeBytes.toNat
    maxRetries := maxRetries.toNat
    initialIntervalSeconds
    maxIntervalSeconds
    maxEmailSizeBytes_pos := by omega
    initialIntervalSeconds_pos := not_le.mp hinitial
    initial_le_max := not_lt.mp hmax }

theorem AiosmtplibMailer.make_ok {port maxEmailSizeBytes maxRetries : Int}
    {initialIntervalSeconds maxIntervalSeconds timeoutSeconds : ℚ} {m : AiosmtplibMailer}
    (h : AiosmtplibMailer.make port maxEmailSizeBytes maxRetries initialIntervalSeconds
      maxIntervalSeconds timeoutSeconds = .ok m) :
    (m.maxEmailSizeBytes : Int) = maxEmailSizeBytes ∧ (m.maxRetries : Int) = maxRetries ∧
      m.initialIntervalSeconds = initialIntervalSeconds ∧
      m.maxIntervalSeconds = maxIntervalSeconds := by
  unfold AiosmtplibMailer.make at h
  simp only at h
  split_ifs at h with hport hsize hretries
  obtain rfl := Except.ok.inj h
  exact ⟨Int.toNat_of_nonneg (by omega), Int.toNat_of_nonneg (by omega), rfl, rfl⟩

variable (m : AiosmtplibMailer)

/-- The backoff behind an attempt. -/
def AiosmtplibMailer.backoff (attempt : ℕ) : ℚ :=
  min m.maxIntervalSeconds (m.initialIntervalSeconds * (2 ^ (attempt - 1) : ℕ))

/-- The backoff stays between the two intervals. -/
theorem AiosmtplibMailer.backoff_bounds (attempt : ℕ) :
    m.initialIntervalSeconds ≤ m.backoff attempt ∧ m.backoff attempt ≤ m.maxIntervalSeconds := by
  have hpow : (1 : ℚ) ≤ (2 ^ (attempt - 1) : ℕ) := by exact_mod_cast Nat.one_le_two_pow
  have hgrows : m.initialIntervalSeconds ≤ m.initialIntervalSeconds * (2 ^ (attempt - 1) : ℕ) :=
    le_mul_of_one_le_right m.initialIntervalSeconds_pos.le hpow
  exact ⟨le_min m.initial_le_max hgrows, min_le_left _ _⟩

/-! ## Errors -/

/-- The `details` of a failed attempt. `attemptKey` is `attempt`, or `attempts` for the last. -/
def attemptDetails (reason : String) (e : SmtpError) (recipientCount : ℕ) (attemptKey : String)
    (attempt : ℕ) : Dict Json :=
  [("failure_reason", .str reason), ("exception_class", .str e.className),
    ("message", .str e.text), ("smtp_code", (e.failure.code.map Json.int).getD .null),
    ("recipient_count", .int recipientCount), (attemptKey, .int attempt)]

theorem unreserved_attemptDetails {reason : String} {e : SmtpError} {recipientCount : ℕ}
    {attemptKey : String} {attempt : ℕ} (hkey : attemptKey ∉ reservedKeys) :
    Unreserved (attemptDetails reason e recipientCount attemptKey attempt) := by
  intro k hk
  rw [Dict.get?_eq_none_iff]
  have hkeys : ∀ k ∈ reservedKeys, k ∉ ["failure_reason", "exception_class", "message",
      "smtp_code", "recipient_count"] := by decide
  have hne : k ≠ attemptKey := fun h => hkey (h ▸ hk)
  have := hkeys k hk
  simp only [attemptDetails, List.map_cons, List.map_nil, List.mem_cons, List.not_mem_nil,
    or_false] at this ⊢
  tauto

/-- The error of a permanent failure. -/
def permanentFailure (email : OutboundEmail) (e : SmtpError) (attempt : ℕ) : MailError where
  sizeExceeded := false
  message := "permanent SMTP failure: " ++ e.className ++ ": " ++ e.text
  details := attemptDetails "PERMANENT_SMTP_FAILURE" e email.recipients.elems.length "attempt"
    attempt
  unreserved := unreserved_attemptDetails (by decide)

/-- The error behind the last attempt. -/
def retriesExhausted (email : OutboundEmail) (e : SmtpError) (attempt : ℕ) : MailError where
  sizeExceeded := false
  message := "transient SMTP failure; retries exhausted after " ++ toString attempt ++
    " attempts: " ++ e.className ++ ": " ++ e.text
  details := attemptDetails "RETRIES_EXHAUSTED" e email.recipients.elems.length "attempts" attempt
  unreserved := unreserved_attemptDetails (by decide)

/-- `EmailSizeExceededError`. -/
def emailSizeExceeded (email : OutboundEmail) (sizeBytes : ℕ) : MailError where
  sizeExceeded := true
  message := "encoded email size " ++ toString sizeBytes ++ " bytes exceeds limit " ++
    toString m.maxEmailSizeBytes ++ " bytes"
  details := [("failure_reason", .str "EMAIL_SIZE_EXCEEDED"), ("measured_bytes", .int sizeBytes),
    ("limit_bytes", .int m.maxEmailSizeBytes),
    ("recipient_count", .int email.recipients.elems.length)]
  unreserved := by
    intro k hk
    have hkeys : ∀ k ∈ reservedKeys, k ∉ ["failure_reason", "measured_bytes", "limit_bytes",
      "recipient_count"] := by decide
    exact Dict.get?_eq_none_iff.mpr (hkeys k hk)

/-! ## The loop -/

/-- What `_open_and_send` comes to. -/
inductive AttemptOutcome where
  | sent
  | failed (e : SmtpError)
  /-- An exception that the loop does not catch. -/
  | raised (exc : PyException)

/-- What the loop does. -/
inductive MailerEvent where
  | attempt (number : ℕ)
  | sleep (seconds : ℚ)
  deriving DecidableEq

variable (email : OutboundEmail) (outcomes : ℕ → AttemptOutcome)

/-- `_send_with_retries`, from an attempt on. -/
def AiosmtplibMailer.sendWithRetries (attempt : ℕ) :
    List MailerEvent × Except (Raised MailError) Unit :=
  match outcomes attempt with
  | .sent => ([.attempt attempt], .ok ())
  | .raised exc => ([.attempt attempt], .error (.through exc))
  | .failed e =>
    if classifySmtpError e.failure = .permanent then
      ([.attempt attempt], .error (.own (permanentFailure email e attempt)))
    else if m.maxRetries < attempt then
      ([.attempt attempt], .error (.own (retriesExhausted email e attempt)))
    else
      let rest := sendWithRetries (attempt + 1)
      (.attempt attempt :: .sleep (m.backoff attempt) :: rest.1, rest.2)
termination_by m.maxRetries + 1 - attempt

/-- `AiosmtplibMailer.send`. `rawSize` is `len(message.as_bytes())` of the encoded message. -/
def AiosmtplibMailer.send (rawSize : OutboundEmail → Except PyException ℕ) :
    List MailerEvent × Except (Raised MailError) Unit :=
  match rawSize email with
  | .error exc => ([], .error (.through exc))
  | .ok sizeBytes =>
    if m.maxEmailSizeBytes < sizeBytes then
      ([], .error (.own (emailSizeExceeded m email sizeBytes)))
    else m.sendWithRetries email outcomes 1

/-- A failure that another attempt may not have. -/
def FailsTransiently (o : AttemptOutcome) : Prop :=
  ∃ e, o = .failed e ∧ classifySmtpError e.failure = .transient

/-- A failure that every attempt would have. -/
def FailsPermanently (o : AttemptOutcome) : Prop :=
  ∃ e, o = .failed e ∧ classifySmtpError e.failure = .permanent

/-- The attempts `first` to `last`, a backoff between each and the next. -/
def AiosmtplibMailer.attempts (first last : ℕ) : List MailerEvent :=
  (List.range' first (last - first)).flatMap
    (fun k => [.attempt k, .sleep (m.backoff k)]) ++ [.attempt last]

/-- What the loop comes to with its last attempt. -/
def lastResult (email : OutboundEmail) (last : ℕ) :
    AttemptOutcome → Except (Raised MailError) Unit
  | .sent => .ok ()
  | .raised exc => .error (.through exc)
  | .failed e =>
    if classifySmtpError e.failure = .permanent then .error (.own (permanentFailure email e last))
    else .error (.own (retriesExhausted email e last))

theorem AiosmtplibMailer.attempts_self (last : ℕ) :
    m.attempts last last = [.attempt last] := by
  rw [attempts, Nat.sub_self]
  rfl

theorem AiosmtplibMailer.attempts_succ {first last : ℕ} (h : first < last) :
    m.attempts first last =
      .attempt first :: .sleep (m.backoff first) :: m.attempts (first + 1) last := by
  obtain ⟨d, rfl⟩ : ∃ d, last = first + 1 + d := ⟨last - (first + 1), by omega⟩
  have hsub : first + 1 + d - first = d + 1 := by omega
  rw [attempts, attempts, hsub, List.range'_succ, Nat.add_sub_cancel_left]
  rfl

theorem not_failsTransiently_of_permanent {e : SmtpError}
    (h : classifySmtpError e.failure = .permanent) : ¬FailsTransiently (.failed e) := by
  rintro ⟨e', he, htransient⟩
  cases he
  rw [h] at htransient
  cases htransient

/-- **The loop** makes one attempt after the other, up to one that does not fail transiently or is
the last that is allowed. -/
theorem AiosmtplibMailer.sendWithRetries_spec {attempt : ℕ} (h : attempt ≤ m.maxRetries + 1) :
    ∃ last, attempt ≤ last ∧ last ≤ m.maxRetries + 1 ∧
      (∀ k, attempt ≤ k → k < last → FailsTransiently (outcomes k)) ∧
      (FailsTransiently (outcomes last) → last = m.maxRetries + 1) ∧
      m.sendWithRetries email outcomes attempt =
        (m.attempts attempt last, lastResult email last (outcomes last)) := by
  fun_induction m.sendWithRetries email outcomes attempt with
  | case1 attempt hsent =>
    refine ⟨attempt, le_rfl, h, fun k hk hk' => by omega, ?_, ?_⟩
    · rintro ⟨e, he, -⟩
      rw [hsent] at he
      cases he
    · rw [m.attempts_self, hsent]
      rfl
  | case2 attempt exc hraised =>
    refine ⟨attempt, le_rfl, h, fun k hk hk' => by omega, ?_, ?_⟩
    · rintro ⟨e, he, -⟩
      rw [hraised] at he
      cases he
    · rw [m.attempts_self, hraised]
      rfl
  | case3 attempt e hfailed hpermanent =>
    refine ⟨attempt, le_rfl, h, fun k hk hk' => by omega, ?_, ?_⟩
    · rw [hfailed]
      exact fun htransient => absurd htransient (not_failsTransiently_of_permanent hpermanent)
    · rw [m.attempts_self, hfailed, lastResult, if_pos hpermanent]
  | case4 attempt e hfailed hpermanent hlast =>
    refine ⟨attempt, le_rfl, h, fun k hk hk' => by omega, fun _ => by omega, ?_⟩
    rw [m.attempts_self, hfailed, lastResult, if_neg hpermanent]
  | case5 attempt e hfailed hpermanent hlast rest ih =>
    obtain ⟨last, hle, hbound, hbefore, hstop, heq⟩ := ih (by omega)
    refine ⟨last, by omega, hbound, fun k hk hk' => ?_, hstop, ?_⟩
    · rcases Nat.eq_or_lt_of_le hk with rfl | hk
      · refine ⟨e, hfailed, ?_⟩
        cases hclass : classifySmtpError e.failure with
        | transient => rfl
        | permanent => exact absurd hclass hpermanent
      · exact hbefore k hk hk'
    · rw [m.attempts_succ (by omega)]
      simp only [rest, heq]

/-! ## Sending -/

/-- The run raises with this `details["failure_reason"]`. -/
def GivesReason (result : Except (Raised MailError) Unit) (reason : String) : Prop :=
  ∃ e, result = .error (.own e) ∧ e.details.get? "failure_reason" = some (.str reason)

theorem givesReason_lastResult_failed {e : SmtpError} {last : ℕ} {reason : String} :
    GivesReason (lastResult email last (.failed e)) reason ↔
      (classifySmtpError e.failure = .permanent ∧ reason = "PERMANENT_SMTP_FAILURE") ∨
      (classifySmtpError e.failure = .transient ∧ reason = "RETRIES_EXHAUSTED") := by
  have hgives (error : MailError) (given : String)
      (h : error.details.get? "failure_reason" = some (.str given)) :
      GivesReason (.error (.own error)) reason ↔ reason = given := by
    constructor
    · rintro ⟨e', he', hreason⟩
      cases he'
      rw [h] at hreason
      cases hreason
      rfl
    · rintro rfl
      exact ⟨error, rfl, h⟩
  rw [lastResult]
  split_ifs with hpermanent
  · rw [hgives _ "PERMANENT_SMTP_FAILURE" rfl]
    simp [hpermanent]
  · have htransient : classifySmtpError e.failure = .transient := by
      cases h : classifySmtpError e.failure with
      | transient => rfl
      | permanent => exact absurd h hpermanent
    rw [hgives _ "RETRIES_EXHAUSTED" rfl]
    simp [htransient]

/-- **A run of the retry loop**: its attempts, the sleeps between them, and what it comes to. -/
structure AiosmtplibMailer.Retries (run : List MailerEvent × Except (Raised MailError) Unit)
    (last : ℕ) : Prop where
  one_le : 1 ≤ last
  le_max : last ≤ m.maxRetries + 1
  events : run.1 = m.attempts 1 last
  /-- There is another attempt only behind a transient failure. -/
  transient : ∀ k, 1 ≤ k → k < last → FailsTransiently (outcomes k)
  /-- A transient failure is the end only if no attempt is left. -/
  stopped : FailsTransiently (outcomes last) → last = m.maxRetries + 1
  returned : run.2 = .ok () ↔ outcomes last = .sent
  exhausted : GivesReason run.2 "RETRIES_EXHAUSTED" ↔
    ∀ k, 1 ≤ k → k ≤ m.maxRetries + 1 → FailsTransiently (outcomes k)
  permanent : GivesReason run.2 "PERMANENT_SMTP_FAILURE" ↔ FailsPermanently (outcomes last)

theorem AiosmtplibMailer.retries_of_sendWithRetries :
    ∃ last, m.Retries outcomes (m.sendWithRetries email outcomes 1) last := by
  obtain ⟨last, hone, hmax, hbefore, hstop, heq⟩ :=
    m.sendWithRetries_spec email outcomes (show 1 ≤ m.maxRetries + 1 by omega)
  -- the last attempt fails transiently exactly if all that are allowed do
  have hall : FailsTransiently (outcomes last) ↔
      ∀ k, 1 ≤ k → k ≤ m.maxRetries + 1 → FailsTransiently (outcomes k) := by
    constructor
    · intro hlast k hk hk'
      rcases Nat.eq_or_lt_of_le (hstop hlast ▸ hk') with rfl | hlt
      · exact hlast
      · exact hbefore k hk hlt
    · exact fun h => h last hone hmax
  rw [heq]
  refine ⟨last, hone, hmax, rfl, hbefore, hstop, ?_, ?_, ?_⟩
  all_goals simp only
  · cases hlast : outcomes last with
    | sent => simp [lastResult]
    | raised exc => simp [lastResult]
    | failed e =>
      rw [lastResult]
      split_ifs <;> simp
  · rw [← hall]
    cases hlast : outcomes last with
    | sent => simp [lastResult, GivesReason, FailsTransiently]
    | raised exc => simp [lastResult, GivesReason, FailsTransiently]
    | failed e =>
      rw [givesReason_lastResult_failed]
      simp [FailsTransiently]
  · cases hlast : outcomes last with
    | sent => simp [lastResult, GivesReason, FailsPermanently]
    | raised exc => simp [lastResult, GivesReason, FailsPermanently]
    | failed e =>
      rw [givesReason_lastResult_failed]
      simp [FailsPermanently]

end MessageService.Infrastructure
