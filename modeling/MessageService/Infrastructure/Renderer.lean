import MessageService.Application.Assembly
import MessageService.Infrastructure.ManifestLoader
import MessageService.Lib.Python

/-!
# The sandboxed renderer

Model of `Jinja2SandboxedTemplateRenderer` (`infrastructure/templating/renderer.py`). What `json`,
`jsonschema`, Jinja and the file system return or raise for the given arguments is a parameter
(`Renderer`), of contexts of any type; an exception of theirs is any exception. `engineCalls` counts
the calls of the template engine.

* `Raises`: the outside calls of one `render`, in the order they are made, and what they raise.
* `render_honours_port_iff`: the theorem.
-/

namespace MessageService.Infrastructure

open MessageService.Domain MessageService.Lib MessageService.Application

/-- `exc.absolute_path`, one element. -/
inductive PathPart where
  | key (name : String)
  | index (i : Nat)
  deriving DecidableEq, Repr

/-- `str(p)`. -/
def PathPart.text : PathPart → String
  | .key name => name
  | .index i => toString i

/-- `_to_json_pointer`. -/
def toJsonPointer (absolutePath : List PathPart) : String :=
  String.join <| absolutePath.map fun p => "/" ++ ((p.text.replace "~" "~0").replace "/" "~1")

/-- What a `jsonschema.ValidationError` carries. -/
structure SchemaViolation where
  absolutePath : List PathPart
  validator : String
  instanceValue : Json
  message : String

/-- `Jinja2SandboxedTemplateRenderer`, with what it calls. -/
structure Renderer (κ τ : Type) where
  repository : Manifest
  maxContextBytes : Nat
  maxRenderedBytes : Nat
  maxContextBytes_pos : 1 ≤ maxContextBytes
  maxRenderedBytes_pos : 1 ≤ maxRenderedBytes
  /-- `json.dumps(context, sort_keys=True, separators=(",", ":"))`. -/
  dumps : κ → Except PyException PyStr
  /-- `validator.validate(context)`, of the templates that have a schema. -/
  validators : String × String → Option (κ → Except PyException Unit)
  /-- What the exception of a validator carries. -/
  violation : PyException → SchemaViolation
  /-- `source_path.read_text(encoding="utf-8")`. -/
  readText : String → Except PyException PyStr
  /-- `env.from_string(source)`. -/
  fromString : PyStr → Except PyException τ
  /-- `str(template.render(context))`. -/
  evaluate : τ → κ → Except PyException PyStr

/-- The state of the renderer. -/
structure RendererState (τ : Type) where
  cache : List ((String × String) × τ) := []
  engineCalls : Nat := 0

/-- `_cache.get((ref.name, ref.version))`. -/
def RendererState.cached {τ : Type} (s : RendererState τ) (ref : TemplateRef) : Option τ :=
  (s.cache.find? fun e => e.1 = (ref.name, ref.version)).map Prod.snd

/-! ## The errors -/

/-- The details every error has. -/
def refDetails (ref : TemplateRef) : Dict Json :=
  [("name", .str ref.name), ("version", .str ref.version)]

def notSerializable (ref : TemplateRef) (exc : PyException) : ServiceError where
  errorClass := .templateRenderError
  message := "template context is not JSON-serializable: " ++ exc.text
  details := refDetails ref ++ [("reason", .str exc.text)]

/-- A size over its limit. -/
def sizeExceeded (errorClass : ErrorClass) (what : String) (ref : TemplateRef)
    (measured limit : Nat) : ServiceError where
  errorClass := errorClass
  message := what ++ " " ++ toString measured ++ " bytes exceeds limit " ++ toString limit ++
    " bytes"
  details := refDetails ref ++ [("measured_bytes", .int measured), ("limit_bytes", .int limit)]

def contextSizeExceeded : TemplateRef → Nat → Nat → ServiceError :=
  sizeExceeded .contextSizeExceededError "template context size"

def renderedSizeExceeded : TemplateRef → Nat → Nat → ServiceError :=
  sizeExceeded .renderedSizeExceededError "template rendered output"

def schemaViolated (ref : TemplateRef) (v : SchemaViolation) : ServiceError where
  errorClass := .contextSchemaViolationError
  message := "context failed schema for " ++ pyRepr ref.name ++ "@" ++ pyRepr ref.version ++ ": " ++
    v.message
  details := refDetails ref ++ [("json_pointer", .str (toJsonPointer v.absolutePath)),
    ("validator", .str v.validator), ("instance_value", v.instanceValue),
    ("message", .str v.message)]

def sourceUnreadable (ref : TemplateRef) (sourcePath : String) (exc : PyException) :
    ServiceError where
  errorClass := .templateRenderError
  message := "could not read template source " ++ sourcePath ++ ": " ++ exc.text
  details := refDetails ref ++ [("source_path", .str sourcePath), ("reason", .str exc.text)]

def compileFailed (ref : TemplateRef) (sourcePath : String) (exc : PyException) :
    ServiceError where
  errorClass := .templateRenderError
  message := "template compile failed: " ++ exc.className ++ ": " ++ exc.text
  details := refDetails ref ++ [("source_path", .str sourcePath),
    ("exception_class", .str exc.className), ("message", .str exc.text)]

def renderRaised (ref : TemplateRef) (exc : PyException) : ServiceError where
  errorClass := .templateRenderError
  message := "template render failed: " ++ exc.className ++ ": " ++ exc.text
  details := refDetails ref ++ [("exception_class", .str exc.className), ("message", .str exc.text)]

/-! ## Rendering -/

/-- The calls of a `render` that can raise. -/
inductive RenderStage where
  | dumps
  | encodeContext
  | validate
  | read
  | compile
  | evaluate
  | encodeRendered
  deriving DecidableEq, Repr

/-- The classes of the `except` clause around it. -/
def RenderStage.clause : RenderStage → List String
  | dumps => ["TypeError", "ValueError"]
  | validate => ["ValidationError"]
  | read => ["OSError"]
  | compile | evaluate => ["TemplateError"]
  | encodeContext | encodeRendered => []

namespace Renderer

variable {κ τ : Type} (r : Renderer κ τ) (ref : TemplateRef) (context : κ)

/-- The check of the context against the schema of its template, if there is one. -/
def checkSchema : Except (Raised ServiceError) Unit :=
  match r.validators (ref.name, ref.version) with
  | none => .ok ()
  | some validate =>
    handling RenderStage.validate.clause (fun exc => schemaViolated ref (r.violation exc))
      (validate context)

/-- `render`, up to its use of the template engine. -/
def prepare : Except (Raised ServiceError) TemplateMetadata := do
  let contextJson ← handling RenderStage.dumps.clause (notSerializable ref) (r.dumps context)
  let contextBytes ← uncaught (encodedLength contextJson)
  if r.maxContextBytes < contextBytes then
    .error (.own (contextSizeExceeded ref contextBytes r.maxContextBytes))
  else do
    r.checkSchema ref context
    (r.repository.get ref).mapError .own

/-- `_compile`. -/
def compile (sourcePath : String) : Except (Raised ServiceError) τ := do
  let source ← handling RenderStage.read.clause (sourceUnreadable ref sourcePath) (r.readText sourcePath)
  handling RenderStage.compile.clause (compileFailed ref sourcePath) (r.fromString source)

/-- The template from the cache, or from `_compile`, which calls the engine on a source it has
read. -/
def template (sourcePath : String) (s : RendererState τ) :
    Except (Raised ServiceError) τ × RendererState τ :=
  match s.cached ref with
  | some template => (.ok template, s)
  | none =>
    let s := { s with engineCalls := s.engineCalls + (r.readText sourcePath).toBool.toNat }
    match r.compile ref sourcePath with
    | .error e => (.error e, s)
    | .ok template =>
      (.ok template, { s with cache := ((ref.name, ref.version), template) :: s.cache })

/-- The evaluation, and the check of what it gives. -/
def finish (template : τ) : Except (Raised ServiceError) PyStr := do
  let rendered ← handling RenderStage.evaluate.clause (renderRaised ref) (r.evaluate template context)
  let renderedBytes ← uncaught (encodedLength rendered)
  if r.maxRenderedBytes < renderedBytes then
    .error (.own (renderedSizeExceeded ref renderedBytes r.maxRenderedBytes))
  else .ok rendered

/-- `render`. -/
def render (s : RendererState τ) : Except (Raised ServiceError) PyStr × RendererState τ :=
  match r.prepare ref context with
  | .error e => (.error e, s)
  | .ok m =>
    match r.template ref m.sourcePath s with
    | (.error e, s) => (.error e, s)
    | (.ok template, s) =>
      (r.finish ref context template, { s with engineCalls := s.engineCalls + 1 })

/-! ## The calls that are made -/

/-- The context fits, and meets the schema of its template. -/
structure Valid : Prop where
  fits : ∃ contextJson n, r.dumps context = .ok contextJson ∧ encodedLength contextJson = .ok n ∧
    n ≤ r.maxContextBytes
  schema : ∀ validate, r.validators (ref.name, ref.version) = some validate →
    validate context = .ok ()

/-- The template that is evaluated. -/
inductive Template (s : RendererState τ) (sourcePath : String) : τ → Prop
  | cached {t : τ} (h : s.cached ref = some t) : Template s sourcePath t
  | compiled {source : PyStr} {t : τ} (h : s.cached ref = none)
      (read : r.readText sourcePath = .ok source) (compile : r.fromString source = .ok t) :
      Template s sourcePath t

/-- A call is made, and raises. -/
inductive Raises (s : RendererState τ) : RenderStage → PyException → Prop
  | dumps {exc : PyException} (raises : r.dumps context = .error exc) : Raises s .dumps exc
  | encodeContext {contextJson : PyStr} {exc : PyException}
      (dumped : r.dumps context = .ok contextJson)
      (raises : encodedLength contextJson = .error exc) : Raises s .encodeContext exc
  | validate {contextJson : PyStr} {n : Nat} {validate : κ → Except PyException Unit}
      {exc : PyException} (dumped : r.dumps context = .ok contextJson)
      (encoded : encodedLength contextJson = .ok n) (fits : n ≤ r.maxContextBytes)
      (schema : r.validators (ref.name, ref.version) = some validate)
      (raises : validate context = .error exc) : Raises s .validate exc
  | read {m : TemplateMetadata} {exc : PyException} (valid : r.Valid ref context)
      (known : r.repository.get ref = .ok m) (new : s.cached ref = none)
      (raises : r.readText m.sourcePath = .error exc) : Raises s .read exc
  | compile {m : TemplateMetadata} {source : PyStr} {exc : PyException}
      (valid : r.Valid ref context) (known : r.repository.get ref = .ok m)
      (new : s.cached ref = none) (read : r.readText m.sourcePath = .ok source)
      (raises : r.fromString source = .error exc) : Raises s .compile exc
  | evaluate {m : TemplateMetadata} {t : τ} {exc : PyException} (valid : r.Valid ref context)
      (known : r.repository.get ref = .ok m) (template : r.Template ref s m.sourcePath t)
      (raises : r.evaluate t context = .error exc) : Raises s .evaluate exc
  | encodeRendered {m : TemplateMetadata} {t : τ} {text : PyStr} {exc : PyException}
      (valid : r.Valid ref context) (known : r.repository.get ref = .ok m)
      (template : r.Template ref s m.sourcePath t) (evaluated : r.evaluate t context = .ok text)
      (raises : encodedLength text = .error exc) : Raises s .encodeRendered exc

/-! ## What escapes -/

/-- The call is made, and its exception is not of a class its `except` clause names. -/
def Uncaught (s : RendererState τ) (stage : RenderStage) (exc : PyException) : Prop :=
  r.Raises ref context s stage exc ∧ exc.isOneOf stage.clause = false

variable {r ref context} {s : RendererState τ} {exc : PyException}

theorem checkSchema_ok : r.checkSchema ref context = .ok () ↔
    ∀ validate, r.validators (ref.name, ref.version) = some validate →
      validate context = .ok () := by
  unfold checkSchema
  cases r.validators (ref.name, ref.version) <;> simp

theorem escapes_checkSchema : Escapes (r.checkSchema ref context) exc ↔
    ∃ validate, r.validators (ref.name, ref.version) = some validate ∧
      validate context = .error exc ∧ exc.isOneOf RenderStage.validate.clause = false := by
  unfold checkSchema
  cases r.validators (ref.name, ref.version) with
  | none => simp [not_escapes_ok]
  | some validate => simp [escapes_handling]

theorem prepare_ok {m : TemplateMetadata} : r.prepare ref context = .ok m ↔
    r.Valid ref context ∧ r.repository.get ref = .ok m := by
  simp only [prepare, bind_eq_ok_iff, handling_eq_ok, uncaught_eq_ok]
  constructor
  · rintro ⟨contextJson, hdumps, n, hencode, h⟩
    split at h
    · cases h
    · next hfits =>
      obtain ⟨⟨⟩, hschema, hknown⟩ := bind_eq_ok_iff.mp h
      exact ⟨⟨⟨contextJson, n, hdumps, hencode, Nat.le_of_not_lt hfits⟩,
        checkSchema_ok.mp hschema⟩, mapError_eq_ok_iff.mp hknown⟩
  · rintro ⟨⟨⟨contextJson, n, hdumps, hencode, hfits⟩, hschema⟩, hknown⟩
    refine ⟨contextJson, hdumps, n, hencode, ?_⟩
    rw [if_neg (Nat.not_lt_of_le hfits)]
    exact bind_eq_ok_iff.mpr ⟨(), checkSchema_ok.mpr hschema, mapError_eq_ok_iff.mpr hknown⟩

/-- An exception that leaves `prepare` comes from one of its calls. -/
theorem escapes_prepare (s : RendererState τ) : Escapes (r.prepare ref context) exc ↔
    r.Uncaught ref context s .dumps exc ∨ r.Uncaught ref context s .encodeContext exc ∨
      r.Uncaught ref context s .validate exc := by
  simp only [prepare, escapes_bind, escapes_handling, escapes_uncaught, handling_eq_ok,
    uncaught_eq_ok]
  constructor
  · rintro (⟨h, hc⟩ | ⟨contextJson, hdumps, h | ⟨n, hencode, h⟩⟩)
    · exact .inl ⟨.dumps h, hc⟩
    · exact .inr (.inl ⟨.encodeContext hdumps h, rfl⟩)
    · split at h
      · exact absurd h not_escapes_own
      · next hfits =>
        obtain h | ⟨-, -, h⟩ := escapes_bind.mp h
        · obtain ⟨validate, hschema, h, hc⟩ := escapes_checkSchema.mp h
          exact .inr (.inr ⟨.validate hdumps hencode (Nat.le_of_not_lt hfits) hschema h, hc⟩)
        · exact absurd h not_escapes_mapError_own
  · rintro (⟨h, hc⟩ | ⟨h, hc⟩ | ⟨h, hc⟩)
    · cases h with
      | dumps raises => exact .inl ⟨raises, hc⟩
    · cases h with
      | encodeContext dumped raises => exact .inr ⟨_, dumped, .inl raises⟩
    · cases h with
      | validate dumped encoded fits schema raises =>
        refine .inr ⟨_, dumped, .inr ⟨_, encoded, ?_⟩⟩
        rw [if_neg (Nat.not_lt_of_le fits)]
        exact escapes_bind.mpr (.inl (escapes_checkSchema.mpr ⟨_, schema, raises, hc⟩))

theorem template_fst (sourcePath : String) : (r.template ref sourcePath s).1 =
    match s.cached ref with
    | some t => .ok t
    | none => r.compile ref sourcePath := by
  unfold template
  cases s.cached ref with
  | some t => rfl
  | none =>
    simp only
    cases r.compile ref sourcePath <;> rfl

/-- The template that is found or compiled is the one that is evaluated. -/
theorem template_ok {sourcePath : String} {t : τ} :
    (r.template ref sourcePath s).1 = .ok t ↔ r.Template ref s sourcePath t := by
  rw [template_fst]
  cases hcached : s.cached ref with
  | some t' =>
    simp only [Except.ok.injEq]
    constructor
    · rintro rfl
      exact .cached hcached
    · intro h
      cases h with
      | cached h => exact Option.some.inj (hcached.symm.trans h)
      | compiled h _ _ =>
        rw [hcached] at h
        cases h
  | none =>
    simp only [compile, bind_eq_ok_iff, handling_eq_ok]
    constructor
    · rintro ⟨source, hread, hcompile⟩
      exact .compiled hcached hread hcompile
    · intro h
      cases h with
      | cached h =>
        rw [hcached] at h
        cases h
      | compiled _ read compile => exact ⟨_, read, compile⟩

theorem escapes_template {sourcePath : String} :
    Escapes (r.template ref sourcePath s).1 exc ↔ s.cached ref = none ∧
      (r.readText sourcePath = .error exc ∧ exc.isOneOf RenderStage.read.clause = false ∨
        ∃ source, r.readText sourcePath = .ok source ∧ r.fromString source = .error exc ∧
          exc.isOneOf RenderStage.compile.clause = false) := by
  rw [template_fst]
  cases s.cached ref with
  | some t => simp [not_escapes_ok]
  | none => simp only [compile, escapes_bind, escapes_handling, handling_eq_ok, true_and]

theorem escapes_finish {t : τ} : Escapes (r.finish ref context t) exc ↔
    r.evaluate t context = .error exc ∧ exc.isOneOf RenderStage.evaluate.clause = false ∨
      ∃ text, r.evaluate t context = .ok text ∧ encodedLength text = .error exc := by
  have hlast (text : PyStr) (n : Nat) : ¬Escapes (if r.maxRenderedBytes < n then
      .error (.own (renderedSizeExceeded ref n r.maxRenderedBytes)) else .ok text) exc := by
    split
    · exact not_escapes_own
    · exact not_escapes_ok
  simp only [finish, escapes_bind, escapes_handling, escapes_uncaught, handling_eq_ok,
    uncaught_eq_ok, hlast, and_false, exists_false, or_false]

/-- What `render` ends with, stage by stage. -/
theorem render_fst : (r.render ref context s).1 = (do
    let m ← r.prepare ref context
    let t ← (r.template ref m.sourcePath s).1
    r.finish ref context t) := by
  unfold render
  cases r.prepare ref context with
  | error e => rfl
  | ok m =>
    simp only [bind, Except.bind]
    generalize r.template ref m.sourcePath s = result
    obtain ⟨t, s'⟩ := result
    cases t <;> rfl

/-- **What escapes `render`** are the exceptions of its calls that no `except` clause names. -/
theorem escapes_render : Escapes (r.render ref context s).1 exc ↔
    ∃ stage, r.Uncaught ref context s stage exc := by
  rw [render_fst, escapes_bind, escapes_prepare s]
  simp only [escapes_bind, escapes_template, escapes_finish, prepare_ok, template_ok]
  constructor
  · rintro ((h | h | h) | ⟨m, ⟨valid, known⟩, ⟨new, h | h⟩ | ⟨t, template, h | h⟩⟩)
    · exact ⟨_, h⟩
    · exact ⟨_, h⟩
    · exact ⟨_, h⟩
    · exact ⟨_, .read valid known new h.1, h.2⟩
    · obtain ⟨source, read, h, hc⟩ := h
      exact ⟨_, .compile valid known new read h, hc⟩
    · exact ⟨_, .evaluate valid known template h.1, h.2⟩
    · obtain ⟨text, evaluated, h⟩ := h
      exact ⟨_, .encodeRendered valid known template evaluated h, rfl⟩
  · rintro ⟨stage, h, hc⟩
    cases h with
    | dumps raises => exact .inl (.inl ⟨.dumps raises, hc⟩)
    | encodeContext dumped raises => exact .inl (.inr (.inl ⟨.encodeContext dumped raises, hc⟩))
    | validate dumped encoded fits schema raises =>
      exact .inl (.inr (.inr ⟨.validate dumped encoded fits schema raises, hc⟩))
    | read valid known new raises =>
      exact .inr ⟨_, ⟨valid, known⟩, .inl ⟨new, .inl ⟨raises, hc⟩⟩⟩
    | compile valid known new read raises =>
      exact .inr ⟨_, ⟨valid, known⟩, .inl ⟨new, .inr ⟨_, read, raises, hc⟩⟩⟩
    | evaluate valid known template raises =>
      exact .inr ⟨_, ⟨valid, known⟩, .inr ⟨_, template, .inl ⟨raises, hc⟩⟩⟩
    | encodeRendered valid known template evaluated raises =>
      exact .inr ⟨_, ⟨valid, known⟩, .inr ⟨_, template, .inr ⟨_, evaluated, raises⟩⟩⟩

/-! ## The port -/

/-- One of the five classes the port declares. -/
def Declared (e : ServiceError) : Prop := ∃ f : RenderFailure, e.errorClass = f.errorClass

/-- The renderer's own errors are declared. -/
theorem ownErrors_render : OwnErrors Declared (r.render ref context s).1 := by
  have hcheck : OwnErrors Declared (r.checkSchema ref context) := by
    unfold checkSchema
    split
    · exact .ok ()
    · exact .handling (fun _ => ⟨.contextSchemaViolation, rfl⟩) _
  have hprepare : OwnErrors Declared (r.prepare ref context) := by
    refine .bind (.handling (fun _ => ⟨.templateRender, rfl⟩) _) fun contextJson => ?_
    refine .bind (.uncaught _) fun n => ?_
    split
    · exact .own ⟨.contextSizeExceeded, rfl⟩
    · refine .bind hcheck fun _ => .mapError_own fun e he => ⟨.unknownTemplate, ?_⟩
      unfold Manifest.get at he
      split at he
      · cases he
      · obtain rfl := Except.error.inj he
        rfl
  have htemplate (sourcePath : String) :
      OwnErrors Declared (r.template ref sourcePath s).1 := by
    rw [template_fst]
    split
    · exact .ok _
    · exact .bind (.handling (fun _ => ⟨.templateRender, rfl⟩) _) fun _ =>
        .handling (fun _ => ⟨.templateRender, rfl⟩) _
  have hfinish (t : τ) : OwnErrors Declared (r.finish ref context t) := by
    refine .bind (.handling (fun _ => ⟨.templateRender, rfl⟩) _) fun text => ?_
    refine .bind (.uncaught _) fun n => ?_
    split
    · exact .own ⟨.renderedSizeExceeded, rfl⟩
    · exact .ok _
  rw [render_fst]
  exact hprepare.bind fun m => (htemplate _).bind fun t => hfinish t

/-- A rendered text fits. -/
theorem fits_of_render {text : PyStr} (h : (r.render ref context s).1 = .ok text) :
    ∃ n, encodedLength text = .ok n ∧ n ≤ r.maxRenderedBytes := by
  rw [render_fst] at h
  obtain ⟨m, -, h⟩ := bind_eq_ok_iff.mp h
  obtain ⟨t, -, h⟩ := bind_eq_ok_iff.mp h
  obtain ⟨text', -, h⟩ := bind_eq_ok_iff.mp h
  obtain ⟨n, hn, h⟩ := bind_eq_ok_iff.mp h
  split at h
  · cases h
  · next hfits =>
    obtain rfl := Except.ok.inj h
    exact ⟨n, uncaught_eq_ok.mp hn, Nat.le_of_not_lt hfits⟩

variable (r ref context s)

/-- `render` ends as the port says: with a text that fits, or with one of the five errors. -/
def HonoursPort : Prop :=
  match (r.render ref context s).1 with
  | .ok text => ∃ n, encodedLength text = .ok n ∧ n ≤ r.maxRenderedBytes
  | .error e => ∃ own, e = .own own ∧ Declared own

/-- A context that is too large or violates its schema does not get to the engine. -/
def SparesEngine : Prop :=
  ((∃ contextJson n, r.dumps context = .ok contextJson ∧ encodedLength contextJson = .ok n ∧
      r.maxContextBytes < n) ∨
    ∃ validate exc, r.validators (ref.name, ref.version) = some validate ∧
      validate context = .error exc) →
    (r.render ref context s).2 = s

theorem sparesEngine : r.SparesEngine ref context s := by
  intro h
  have hinvalid : ¬r.Valid ref context := by
    rintro ⟨⟨contextJson, n, hdumps, hencode, hfits⟩, hschema⟩
    rcases h with ⟨contextJson', n', hdumps', hencode', hlarge⟩ | ⟨validate, exc, hv, hraises⟩
    · obtain rfl := Except.ok.inj (hdumps.symm.trans hdumps')
      obtain rfl := Except.ok.inj (hencode.symm.trans hencode')
      exact absurd hfits (Nat.not_le_of_lt hlarge)
    · have := hschema validate hv
      rw [hraises] at this
      cases this
  unfold render
  cases hp : r.prepare ref context with
  | error e => rfl
  | ok m => exact absurd (prepare_ok.mp hp).1 hinvalid

/-- **When the renderer honours its port.** On any reference, context and cache, `render` ends as
the port says, and keeps invalid contexts from the engine, if and only if each exception raised by
a call it makes is of a class the `except` clause around that call names. -/
theorem render_honours_port_iff :
    r.HonoursPort ref context s ∧ r.SparesEngine ref context s ↔
      ∀ stage exc, r.Raises ref context s stage exc → exc.isOneOf stage.clause = true := by
  have hport : r.HonoursPort ref context s ↔ ∀ exc, ¬Escapes (r.render ref context s).1 exc := by
    unfold HonoursPort
    cases h : (r.render ref context s).1 with
    | ok text => exact iff_of_true (fits_of_render h) fun _ => not_escapes_ok
    | error e =>
      cases e with
      | own e => exact iff_of_true ⟨e, rfl, ownErrors_render e h⟩ fun _ => not_escapes_own
      | through exc => exact iff_of_false (by rintro ⟨_, h, -⟩; cases h) fun h => h exc rfl
  rw [hport, and_iff_left (r.sparesEngine ref context s)]
  simp only [escapes_render, Uncaught, not_exists, not_and, Bool.not_eq_false]
  exact forall_comm

end Renderer

/-! ## Two exceptions that escape -/

/-- The entry of a template. -/
def quotientEntry : TemplateMetadata where
  name := "quotient"
  version := "0.1"
  kind := .reportFragment
  sourcePath := "quotient.html"

/-- Dividing by zero. -/
def zeroDivisionError : PyException where
  className := "ZeroDivisionError"
  bases := ["ArithmeticError", "Exception", "BaseException"]
  text := "division by zero"

/-- Reading a byte that UTF-8 does not have. -/
def unicodeDecodeError : PyException where
  className := "UnicodeDecodeError"
  bases := ["UnicodeError", "ValueError", "Exception", "BaseException"]
  text := "invalid start byte"

/-- Jinja's error for a key the context does not have. -/
def undefinedError : PyException where
  className := "UndefinedError"
  bases := ["TemplateRuntimeError", "TemplateError", "Exception", "BaseException"]
  text := "'count' is undefined"

/-- The context with one key. -/
def countContext (n : Int) : Json := .obj [("count", .int n)]

/-- A renderer whose one template reads `100 // count`, from a source that `readText` gives. -/
def quotientRenderer (readText : String → Except PyException PyStr) : Renderer Json Unit where
  repository := Table.empty.append quotientEntry rfl
  maxContextBytes := 1000
  maxRenderedBytes := 1000
  maxContextBytes_pos := by decide
  maxRenderedBytes_pos := by decide
  dumps
    | .obj [("count", .int n)] => .ok (PyStr.ofString ("\x7b\"count\":" ++ toString n ++ "\x7d"))
    | _ => .ok (PyStr.ofString "\x7b\x7d")
  validators := fun _ => none
  violation := fun exc => ⟨[], "", .null, exc.text⟩
  readText := readText
  fromString := fun _ => .ok ()
  evaluate
    | _, .obj [("count", .int 0)] => .error zeroDivisionError
    | _, .obj [("count", .int n)] => .ok (PyStr.ofString (toString (Int.fdiv 100 n)))
    | _, _ => .error undefinedError

/-- **An expression that divides by zero, and a source that is not UTF-8, escape the renderer.** -/
theorem render_lets_exceptions_through :
    let divides := quotientRenderer fun _ => .ok (PyStr.ofString "\x7b\x7b 100 // count \x7d\x7d")
    let latin1 := quotientRenderer fun _ => .error unicodeDecodeError
    Escapes (divides.render quotientEntry.ref (countContext 0) {}).1 zeroDivisionError ∧
      ¬divides.HonoursPort quotientEntry.ref (countContext 0) {} ∧
      Escapes (latin1.render quotientEntry.ref (countContext 4) {}).1 unicodeDecodeError ∧
      ¬latin1.HonoursPort quotientEntry.ref (countContext 4) {} := by
  intro divides latin1
  have not_honours {r : Renderer Json Unit} {ref : TemplateRef} {context : Json}
      {exc : PyException} (h : Escapes (r.render ref context {}).1 exc) :
      ¬r.HonoursPort ref context {} := by
    intro hp
    unfold Renderer.HonoursPort at hp
    rw [show (r.render ref context {}).1 = _ from h] at hp
    obtain ⟨_, h, -⟩ := hp
    cases h
  have h1 : Escapes (divides.render quotientEntry.ref (countContext 0) {}).1 zeroDivisionError := by
    rfl
  have h2 : Escapes (latin1.render quotientEntry.ref (countContext 4) {}).1 unicodeDecodeError := by
    rfl
  exact ⟨h1, not_honours h1, h2, not_honours h2⟩

end MessageService.Infrastructure
