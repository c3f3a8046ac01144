import MessageService.Config.Schema
import MessageService.Lib.ParsedPath
import MessageService.Lib.Placeholders
import MessageService.Lib.Python
import MessageService.Lib.TreeSites

/-!
# The configuration loader

Model of `load_config` (`config/loader.py`) over any TOML parser and any validation: the document of
a file, the replacement of the references `${env:NAME}` in the substitutable fields, and the
resolution of the path fields against the directory of the file.
-/

namespace MessageService.Config

open MessageService.Lib
open MessageService.Lib.DataTree (Step sites rewrite rewriteM)

/-- A scalar of a TOML document; numbers and times are kept as they are written. -/
inductive TomlScalar where
  | str (s : List Char)
  | int (n : Int)
  | float (text : List Char)
  | bool (b : Bool)
  | datetime (text : List Char)
  | date (text : List Char)
  | time (text : List Char)
  deriving DecidableEq, Repr

/-- A value of a TOML document. -/
abbrev Toml := DataTree Unit TomlScalar

/-- `type(value).__name__`. -/
def typeName : Toml → String
  | .mapping _ => "dict"
  | .seq _ _ => "list"
  | .scalar (.str _) => "str"
  | .scalar (.int _) => "int"
  | .scalar (.float _) => "float"
  | .scalar (.bool _) => "bool"
  | .scalar (.datetime _) => "datetime"
  | .scalar (.date _) => "date"
  | .scalar (.time _) => "time"

structure ConfigurationError where
  message : String
  details : List (String × String)
  deriving DecidableEq, Repr

/-! ## Substitution -/

/-- `_ENV_PATTERN`. -/
def envPattern : Placeholder where
  mark := '$'
  opening := ['{', 'e', 'n', 'v', ':']
  closing := '}'
  start c := c.isAlpha || c == '_'
  inner c := c.isAlphanum || c == '_'
  mark_notMem_opening := by decide
  not_inner_mark := by decide
  not_inner_closing := by decide
  mark_ne_closing := by decide
  inner_of_start c h := by
    rw [Bool.or_eq_true] at h ⊢
    exact h.imp_left fun h => Bool.or_eq_true _ _ ▸ Or.inl h

/-- `os.environ.get`. -/
abbrev Environ := List Char → Option (List Char)

/-- What `replacer` raises. -/
def notSet (value name : List Char) : ConfigurationError where
  message := "environment variable not set: " ++ String.ofList name
  details := [("env_var", String.ofList name), ("raw_value", String.ofList value)]

/-- `replacer`. -/
def replacer (environ : Environ) (value name : List Char) :
    Except ConfigurationError (List Char) :=
  match environ name with
  | none => .error (notSet value name)
  | some envValue => .ok envValue

/-- `_apply_substitution`. -/
def applySubstitution (environ : Environ) (value : List Char) :
    Except ConfigurationError (List Char) :=
  envPattern.expand (replacer environ value) value

/-- `_apply_substitution` of a string, and nothing else. -/
def substituteScalar (environ : Environ) : TomlScalar → Except ConfigurationError TomlScalar
  | .str s => .str <$> applySubstitution environ s
  | x => .ok x

/-- An item of a list at a substitutable path. -/
def substituteItem (environ : Environ) : Toml → Except ConfigurationError Toml
  | .scalar x => .scalar <$> substituteScalar environ x
  | v => .ok v

mutual

/-- `_substitute_at_paths`. -/
def substituteAtPaths (environ : Environ) (paths : List (List String)) (path : List String) :
    Toml → Except ConfigurationError Toml
  | .mapping es => .mapping <$> substituteEntries environ paths path es
  | .seq kind xs =>
    if paths.contains path then .seq kind <$> xs.mapM (substituteItem environ)
    else .ok (.seq kind xs)
  | .scalar x =>
    if paths.contains path then .scalar <$> substituteScalar environ x else .ok (.scalar x)

/-- The items of a table. -/
def substituteEntries (environ : Environ) (paths : List (List String)) (path : List String) :
    List (String × Toml) → Except ConfigurationError (List (String × Toml))
  | [] => .ok []
  | (key, subvalue) :: es => do
    let subvalue ← substituteAtPaths environ paths (path ++ [key]) subvalue
    let es ← substituteEntries environ paths path es
    return (key, subvalue) :: es

end

/-- `_substitute_env_vars`. -/
def substituteEnvVars (environ : Environ) (data : List (String × Toml)) :
    Except ConfigurationError (List (String × Toml)) := do
  match ← substituteAtPaths environ collectSubstitutablePaths [] (.mapping data) with
  | .mapping es => return es
  | result => throw {
      message := "config root is not a TOML table after env substitution"
      details := [("actual_type", typeName result)] }

/-! ## Path resolution -/

/-- `_PATH_FIELDS`. -/
def pathFields : List (List String) :=
  [["persistence", "sqlite_path"], ["persistence", "filesystem", "report_directory"],
    ["templates", "manifest_path"], ["tags", "vocabulary_path"],
    ["observability", "audit", "archive_directory"]]

/-- What `os.lstat` raises for a name with a null character. -/
def embeddedNull : PyException where
  className := "ValueError"
  bases := ["Exception", "BaseException"]
  text := "embedded null byte"

/-- `path.resolve(strict=False)` of a path without null characters: where the symbolic links of a
file system lead, or what is raised where they run in a loop. -/
abbrev Resolve := ParsedPath → Except PyException ParsedPath

section

variable (resolve : Resolve) (base : ParsedPath)

/-- The string of a path field. -/
def resolveString (raw : List Char) : Except PyException (List Char) :=
  if raw.head? = some '/' then .ok (base.join raw).chars
  else if raw.contains (Char.ofNat 0) then .error embeddedNull
  else ParsedPath.chars <$> resolve (base.join raw)

/-- The value of a path field. -/
def resolveScalar : TomlScalar → Except PyException TomlScalar
  | .str raw => .str <$> resolveString resolve base raw
  | x => .ok x

/-- `_resolve_one`: the keys of a table are distinct, so that at most one is the one looked for. -/
def resolveOne : List String → Toml → Except PyException Toml
  | [], .scalar x => .scalar <$> resolveScalar resolve base x
  | key :: keys, .mapping es =>
    .mapping <$> es.mapM fun e =>
      if e.1 = key then Prod.mk e.1 <$> resolveOne keys e.2 else .ok e
  | _, v => .ok v

/-- `_resolve_paths`. -/
def resolvePaths (data : Toml) : Except PyException Toml :=
  pathFields.foldlM (fun data field => resolveOne resolve base field data) data

end

/-! ## The file -/

section

/-- The machine that the service starts on. -/
structure Machine where
  environ : Environ
  cwd : ParsedPath
  resolve : Resolve
  isFile : ParsedPath → Bool
  /-- `read_bytes`, or the text of the `OSError`. -/
  readBytes : ParsedPath → Except (List Char) (List UInt8)

/-- What `load_config` raises. -/
inductive LoadError (V : Type) where
  | configuration (e : ConfigurationError)
  | validation (e : V)

variable {V C : Type} (decode : List UInt8 → Except (List Char) (List Char))
  (tomlLoads : List Char → Except (List Char) (List (String × Toml)))
  (validate : Toml → Except V C)

/-- An error about the file at a path. -/
def fileError (message : String) (path : ParsedPath) (details : List (String × String)) :
    LoadError V :=
  .configuration {
    message := message
    details := ("config_path", String.ofList path.chars) :: details }

/-- The document of a file. -/
def readDocument (machine : Machine) (path : ParsedPath) :
    Except (LoadError V) (List (String × Toml)) :=
  let shown := String.ofList path.chars
  if machine.isFile path = false then
    .error (fileError ("config file not found: " ++ shown) path [])
  else
    match machine.readBytes path with
    | .error exc =>
      .error (fileError ("config file unreadable: " ++ shown ++ ": " ++ String.ofList exc) path
        [("reason", String.ofList exc)])
    | .ok rawBytes =>
      match decode rawBytes with
      | .error exc =>
        .error (fileError ("config file is not valid UTF-8: " ++ shown) path
          [("reason", String.ofList exc)])
      | .ok text =>
        match tomlLoads text with
        | .error exc =>
          .error (fileError ("config file is not valid TOML: " ++ shown ++ ": " ++
            String.ofList exc) path [("reason", String.ofList exc)])
        | .ok raw => .ok raw

/-- `load_config`. -/
def loadConfig (machine : Machine) (configPath : List Char) : Except (Raised (LoadError V)) C :=
  if configPath.contains (Char.ofNat 0) then .error (.through embeddedNull)
  else do
    let path ← (machine.resolve (machine.cwd.join configPath)).mapError .through
    let raw ← (readDocument decode tomlLoads machine path).mapError .own
    let substituted ← (substituteEnvVars machine.environ raw).mapError fun e =>
      .own (.configuration e)
    let resolved ←
      (resolvePaths machine.resolve path.parent (.mapping substituted)).mapError .through
    (validate resolved).mapError fun e => .own (.validation e)

end

end MessageService.Config
