import Mathlib.Tactic.Common

/-!
# The configuration schema

The models of the schema as the loader walks them (`config/schema.py`): the names of their fields,
which of them are typed `SubstitutableStr`, and the models that a field's annotation is, or wraps in
a union or a dictionary. The paths to the substitutable fields are collected from it.
-/

namespace MessageService.Config

/-- A field of a model: `members` is `_model_members(field.annotation)`. -/
inductive Field where
  | field (name : String) (substitutable : Bool) (members : List (List Field))

namespace Field

/-- A field whose annotation names no model. -/
def plain (name : String) : Field := field name false []

/-- A field typed `SubstitutableStr`. -/
def substitutable (name : String) : Field := field name true []

/-- A field typed as a model, as an optional one, or as a dictionary of them. -/
def model (name : String) (fields : List Field) : Field := field name false [fields]

end Field

open MessageService.Config.Field (plain substitutable model)

def grpcConfig : List Field :=
  [plain "host", plain "port", plain "max_concurrent_rpcs", plain "max_in_flight_rpcs"]

def dashboardConfig : List Field := [plain "host", plain "port", plain "https_only"]

def filesystemPersistenceConfig : List Field :=
  [plain "report_directory", plain "report_retention_days", plain "prune_interval_seconds",
    plain "max_prunes_per_iteration"]

def persistenceConfig : List Field :=
  [plain "sqlite_path", model "filesystem" filesystemPersistenceConfig]

def templateRefConfig : List Field := [plain "name", plain "version"]

def templatesConfig : List Field :=
  [plain "manifest_path", plain "max_context_bytes", plain "max_rendered_bytes",
    model "email_body_template_ref" templateRefConfig]

def tagsConfig : List Field := [plain "vocabulary_path"]

def pipelinesConfig : List Field :=
  [plain "registered", plain "subject_templates",
    model "email_body_template_overrides" templateRefConfig, plain "orphan_disposition_overrides"]

def sweeperConfig : List Field :=
  [plain "run_timeout_seconds", plain "poll_interval_seconds",
    plain "max_candidates_per_iteration", plain "stale_claim_threshold_seconds",
    plain "max_dispatch_attempts", plain "disposition_actions"]

def smtpConfig : List Field :=
  [plain "host", plain "port", substitutable "username", substitutable "password",
    plain "use_starttls"]

def mailRetryConfig : List Field :=
  [plain "max_retries", plain "initial_interval_seconds", plain "max_interval_seconds"]

def mailConfig : List Field :=
  [plain "from_address", plain "max_email_size_bytes", plain "admin_recipients",
    model "smtp" smtpConfig, model "retry" mailRetryConfig]

def argon2Config : List Field :=
  [plain "memory_cost", plain "time_cost", plain "parallelism", plain "hash_len",
    plain "salt_len"]

def adminAccountConfig : List Field := [plain "email", substitutable "password"]

def authConfig : List Field :=
  [plain "session_idle_timeout_seconds", model "argon2" argon2Config,
    model "admin" adminAccountConfig]

def auditConfig : List Field :=
  [plain "retention_days", plain "cleanup_interval_hours", plain "cleanup_batch_size",
    plain "archive_directory"]

def observabilityConfig : List Field := [plain "log_level", model "audit" auditConfig]

def serviceConfig : List Field := [plain "shutdown_grace_period_seconds"]

/-- `Config`. -/
def config : List Field :=
  [model "grpc" grpcConfig, model "dashboard" dashboardConfig,
    model "persistence" persistenceConfig, model "templates" templatesConfig,
    model "tags" tagsConfig, model "sweeper" sweeperConfig, model "mail" mailConfig,
    model "auth" authConfig, model "observability" observabilityConfig,
    model "service" serviceConfig, model "pipelines" pipelinesConfig]

mutual

/-- `_walk` over the fields of a model. -/
def walk (path : List String) : List Field → List (List String)
  | [] => []
  | f :: fs => walkField path f ++ walk path fs

/-- One field. -/
def walkField (path : List String) : Field → List (List String)
  | .field name true _ => [path ++ [name]]
  | .field name false members => walkMembers (path ++ [name]) members

/-- The models of a field. -/
def walkMembers (path : List String) : List (List Field) → List (List String)
  | [] => []
  | m :: ms => walk path m ++ walkMembers path ms

end

/-- `_collect_substitutable_paths`. -/
def collectSubstitutablePaths : List (List String) := walk [] config

theorem collectSubstitutablePaths_eq :
    collectSubstitutablePaths =
      [["mail", "smtp", "username"], ["mail", "smtp", "password"], ["auth", "admin", "password"]] :=
  rfl

end MessageService.Config
