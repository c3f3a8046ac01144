import MessageService.Application.BeginRun
import Mathlib.Data.List.MinMax

/-!
# The template manifest

Model of `InMemoryTemplateRepository` (`infrastructure/templating/manifest_loader.py`): the manifest
is a table under `(name, version)`, in the order of its entries. `packaging.version.Version` is a
partial parser into a totally preordered type.

* `resolveLatest_ok`: `resolve_latest` returns an entry's own version string, the first of those
  whose parsed version is maximal.
* `get_of_extends`: adding entries does not change what a known reference stands for.
-/

namespace MessageService.Infrastructure

open MessageService.Domain MessageService.Lib MessageService.Application

/-- `TemplateKind`. -/
inductive TemplateKind where
  | reportFragment
  | aggregation
  | emailBody
  deriving DecidableEq, Repr

/-- `TemplateMetadata`. -/
structure TemplateMetadata where
  name : String
  version : String
  kind : TemplateKind
  sourcePath : String
  contextSchemaPath : Option String := none
  description : Option String := none
  name_ne : name ≠ "" := by decide
  version_ne : version ≠ "" := by decide

/-- The key of an entry. -/
def TemplateMetadata.key (m : TemplateMetadata) : String × String := (m.name, m.version)

/-- The reference to an entry. -/
def TemplateMetadata.ref (m : TemplateMetadata) : TemplateRef :=
  ⟨m.name, m.version, m.name_ne, m.version_ne⟩

/-- The `_entries` of a repository. -/
abbrev Manifest := Table TemplateMetadata.key

namespace Manifest

/-- `exists`. -/
def contains (entries : Manifest) (ref : TemplateRef) : Bool :=
  (entries.get? (ref.name, ref.version)).isSome

/-- `get`. -/
def get (entries : Manifest) (ref : TemplateRef) : Except ServiceError TemplateMetadata :=
  match entries.get? (ref.name, ref.version) with
  | some m => .ok m
  | none => .error {
      errorClass := .unknownTemplateError
      message := "template not found: " ++ pyRepr ref.name ++ " @ " ++ pyRepr ref.version
      details := [("name", .str ref.name), ("version", .str ref.version)] }

section

variable {V : Type} [Preorder V] [DecidableLT V] (parse : String → Option V)

/-- The entries of a name whose version parses, with it. -/
def candidates (entries : Manifest) (name : String) : List (V × TemplateMetadata) :=
  entries.rows.filterMap fun m =>
    if m.name = name then (parse m.version).map fun v => (v, m) else none

/-- `resolve_latest`. Of equal versions `max` keeps the first. -/
def resolveLatest (entries : Manifest) (name : String) : Except ServiceError TemplateRef :=
  match (candidates parse entries name).argmax Prod.fst with
  | some (_, m) => .ok m.ref
  | none => .error {
      errorClass := .unknownTemplateError
      message := "no manifest entry for template name " ++ pyRepr name
      details := [("template_name", .str name)] }

/-- `InMemoryTemplateRepository` as the port of `BeginRunUseCase`. -/
def toRepository (entries : Manifest) : TemplateRepository where
  contains := entries.contains
  resolveLatest := entries.resolveLatest parse

variable {parse} {entries : Manifest}

omit [Preorder V] [DecidableLT V] in
theorem mem_candidates {name : String} {v : V} {m : TemplateMetadata} :
    (v, m) ∈ candidates parse entries name ↔
      m ∈ entries.rows ∧ m.name = name ∧ parse m.version = some v := by
  unfold candidates
  rw [List.mem_filterMap]
  constructor
  · rintro ⟨m', hm', h⟩
    simp only [Option.ite_none_right_eq_some, Option.map_eq_some_iff, Prod.mk.injEq] at h
    obtain ⟨hname, v', hv, rfl, rfl⟩ := h
    exact ⟨hm', hname, hv⟩
  · rintro ⟨hm, hname, hv⟩
    exact ⟨m, hm, by simp [hname, hv]⟩

/-- `m` is an entry of `name`, and no parsable entry of that name has a greater version. -/
structure IsLatest (parse : String → Option V) (entries : Manifest) (name : String)
    (m : TemplateMetadata) : Prop where
  mem : m ∈ entries.rows
  name_eq : m.name = name
  maximal : ∃ v, parse m.version = some v ∧ ∀ m' ∈ entries.rows, m'.name = name →
    ∀ v', parse m'.version = some v' → v' ≤ v

/-- **What `resolve_latest` returns.** -/
theorem resolveLatest_ok [Std.Total (α := V) (· ≤ ·)] {name : String} {ref : TemplateRef}
    (h : resolveLatest parse entries name = .ok ref) :
    ∃ m, m.ref = ref ∧ IsLatest parse entries name m := by
  unfold resolveLatest at h
  split at h
  · next v m hmax =>
    obtain rfl := Except.ok.inj h
    obtain ⟨hm, hname, hv⟩ := mem_candidates.mp (List.argmax_mem hmax)
    refine ⟨m, rfl, hm, hname, v, hv, fun m' hm' hname' v' hv' => ?_⟩
    have hnot : ¬v < v' :=
      List.not_lt_of_mem_argmax (mem_candidates.mpr ⟨hm', hname', hv'⟩) hmax
    rcases Std.Total.total (r := (· ≤ ·)) v v' with hle | hle
    · exact not_lt_iff_le_imp_ge.mp hnot hle
    · exact hle
  · cases h

end

/-! ## A manifest that grows -/

/-- Every entry of `entries` is one of `entries'`. -/
def Extends (entries entries' : Manifest) : Prop :=
  ∀ k m, entries.get? k = some m → entries'.get? k = some m

theorem get_of_extends {entries entries' : Manifest} (h : entries.Extends entries')
    {ref : TemplateRef} (hin : entries.contains ref = true) : entries'.get ref = entries.get ref := by
  obtain ⟨m, hm⟩ := Option.isSome_iff_exists.mp hin
  simp only [get, hm, h _ _ hm]

end Manifest

end MessageService.Infrastructure
