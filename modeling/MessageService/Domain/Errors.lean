import MessageService.Lib.Json

/-!
# Errors

The exceptions of `domain/errors.py` that the modelled code raises or catches. An exception is its
class, its message and its `details`.

`pyRepr` is Python's `repr` of a string, which several messages are built with, up to the escapes
of non-printable characters outside ASCII. `isSpace` is the test of `str.isspace` and of `\s`.
-/

namespace MessageService.Domain

open MessageService.Lib

/-- The exception classes. -/
inductive ErrorClass where
  | unknownPipelineTypeError
  | unknownTagError
  | duplicateStageIdError
  | unknownTemplateError
  | missingAggregationTemplateError
  | unknownStageError
  | contextSchemaViolationError
  | contextSizeExceededError
  | renderedSizeExceededError
  | malformedRequestError
  | runNotFoundError
  | invalidRunStateError
  | invalidStateTransitionError
  | invalidStageStateError
  | persistenceError
  | templateRenderError
  | emailDeliveryError
  | emailSizeExceededError
  | userNotFoundError
  | selfProtectionError
  | invalidEmailError
  | duplicateEmailError
  /-- The built-in `ValueError`. -/
  | valueError
  /-- `sqlite3.IntegrityError`. -/
  | integrityError
  deriving DecidableEq, Repr

/-- `type(exc).__name__`. -/
def ErrorClass.name : ErrorClass → String
  | .unknownPipelineTypeError => "UnknownPipelineTypeError"
  | .unknownTagError => "UnknownTagError"
  | .duplicateStageIdError => "DuplicateStageIdError"
  | .unknownTemplateError => "UnknownTemplateError"
  | .missingAggregationTemplateError => "MissingAggregationTemplateError"
  | .unknownStageError => "UnknownStageError"
  | .contextSchemaViolationError => "ContextSchemaViolationError"
  | .contextSizeExceededError => "ContextSizeExceededError"
  | .renderedSizeExceededError => "RenderedSizeExceededError"
  | .malformedRequestError => "MalformedRequestError"
  | .runNotFoundError => "RunNotFoundError"
  | .invalidRunStateError => "InvalidRunStateError"
  | .invalidStateTransitionError => "InvalidStateTransitionError"
  | .invalidStageStateError => "InvalidStageStateError"
  | .persistenceError => "PersistenceError"
  | .templateRenderError => "TemplateRenderError"
  | .emailDeliveryError => "EmailDeliveryError"
  | .emailSizeExceededError => "EmailSizeExceededError"
  | .userNotFoundError => "UserNotFoundError"
  | .selfProtectionError => "SelfProtectionError"
  | .invalidEmailError => "InvalidEmailError"
  | .duplicateEmailError => "DuplicateEmailError"
  | .valueError => "ValueError"
  | .integrityError => "IntegrityError"

/-- `MessageServiceError` and its subclasses, with the built-in exceptions the code lets through. -/
structure ServiceError where
  errorClass : ErrorClass
  message : String
  details : Dict Json := []
  deriving Repr

/-- `str.isspace` of one character. -/
def isSpace (c : Char) : Bool :=
  (9 ≤ c.toNat && c.toNat ≤ 13) || (28 ≤ c.toNat && c.toNat ≤ 32) ||
    (0x2000 ≤ c.toNat && c.toNat ≤ 0x200A) ||
    c.toNat ∈ [0x85, 0xA0, 0x1680, 0x2028, 0x2029, 0x202F, 0x205F, 0x3000]

/-- `repr` of a string: in single quotes, or in double quotes when it holds a single quote and no
double one. -/
def pyRepr (s : String) : String :=
  let single := Char.ofNat 39
  let double := Char.ofNat 34
  let backslash := Char.ofNat 92
  let quote := if s.toList.contains single && !s.toList.contains double then double else single
  let escape (c : Char) : List Char :=
    if c = backslash || c = quote then [backslash, c]
    else if c = Char.ofNat 10 then [backslash, 'n']
    else if c = Char.ofNat 13 then [backslash, 'r']
    else if c = Char.ofNat 9 then [backslash, 't']
    else if c.toNat < 32 || c.toNat = 127 then
      [backslash, 'x', Nat.digitChar (c.toNat / 16), Nat.digitChar (c.toNat % 16)]
    else [c]
  String.ofList (quote :: s.toList.flatMap escape ++ [quote])

/-- `repr` of a list of strings. -/
def pyReprList (xs : List String) : String :=
  "[" ++ String.intercalate ", " (xs.map pyRepr) ++ "]"

end MessageService.Domain
