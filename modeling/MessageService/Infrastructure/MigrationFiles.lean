import MessageService.Domain.Errors
import MessageService.Lib.Python
import Mathlib.Data.Char
import Mathlib.Data.List.Lex
import Mathlib.Data.List.Range
import Mathlib.Data.List.Sort

/-!
# Migration files

Model of the discovery of `infrastructure/persistence/migration_runner.py`: the files of a directory
or of the package, the name each must have, and the sequence that their versions must make. What
`\d` matches is a parameter (`decimal`), the value that `int` gives it.

* `resolve_ok_iff`: **a list of files is accepted** exactly when every name has the form and the
  versions are `1..n`, in whatever order the files come.
* `resolve_of_refused`: a name out of form, a number twice or a number left out is a
  `PersistenceError`.
* `resolve_versions`: what is accepted comes back in the order of the versions.
-/

namespace MessageService.Infrastructure

open MessageService.Domain MessageService.Lib

/-- An entry of a directory. -/
structure DirEntry where
  name : String
  isFile : Bool := true
  /-- `read_text(encoding="utf-8")`. -/
  text : Except PyException String

/-- Where the migrations come from: `migrations_dir`, or the package. -/
inductive MigrationSource where
  | override (entries : List DirEntry)
  | packaged (entries : List DirEntry)

/-- `_MigrationFile`. -/
structure MigrationFile where
  version : Nat
  name : String
  source : String
  deriving DecidableEq, Repr

/-! ## Names -/

/-- `.sql`. -/
def sqlSuffix : List Char := ['.', 's', 'q', 'l']

/-- `path.suffix`, of the name: from its last dot on, if something is before it and something
after. -/
def pathSuffix (name : List Char) : List Char :=
  let extension := (name.reverse.takeWhile (· ≠ '.')).reverse
  if extension ≠ [] ∧ extension.length + 1 < name.length then '.' :: extension else []

/-- `[A-Za-z0-9_]`. -/
def isWordChar (c : Char) : Bool := c.isAlphanum || c = '_'

/-- `([A-Za-z0-9_]+)\.sql$`. The `$` also matches before a line feed at the end. -/
def isDescription (cs : List Char) : Bool :=
  let line := if cs.getLast? = some (Char.ofNat 10) then cs.dropLast else cs
  let stem := line.take (line.length - 4)
  stem ≠ [] && stem.all isWordChar && line.drop (line.length - 4) = sqlSuffix

/-- `filename.removesuffix(".sql")`. -/
def removeSqlSuffix (filename : String) : String :=
  if sqlSuffix.isSuffixOf filename.toList then
    String.ofList (filename.toList.take (filename.toList.length - 4))
  else filename

section

variable (decimal : Char → Option Nat)

/-- `_MIGRATION_NAME_RE.match(filename)`, and `int(match.group(1))`. -/
def matchVersion (filename : String) : Option Nat :=
  match filename.toList with
  | a :: b :: c :: sep :: rest =>
    if sep = '_' ∧ isDescription rest then do
      let x ← decimal a
      let y ← decimal b
      let z ← decimal c
      some (100 * x + 10 * y + z)
    else none
  | _ => none

/-! ## Discovery -/

/-- The files that the loop of `_discover` or `_load_packaged_migrations` collects. -/
def MigrationSource.load : MigrationSource → Except PyException (List (String × String))
  | .override entries =>
    ((entries.insertionSort fun a b => a.name.toList ≤ b.name.toList).filter fun e =>
      pathSuffix e.name.toList = sqlSuffix).mapM fun e => e.text.map (e.name, ·)
  | .packaged entries =>
    (entries.filter fun e => e.isFile && sqlSuffix.isSuffixOf e.name.toList).mapM fun e =>
      e.text.map (e.name, ·)

/-- One round of the parsing loop. -/
def parseFile (file : String × String) : Except ServiceError MigrationFile :=
  match matchVersion decimal file.1 with
  | some version => .ok { version, name := removeSqlSuffix file.1, source := file.2 }
  | none => .error {
      errorClass := .persistenceError
      message := "migration file " ++ pyRepr file.1 ++ " does not match NNN_description.sql"
      details := [("filename", .str file.1),
        ("pattern", .str "^(\\d\x7b3\x7d)_([A-Za-z0-9_]+)\\.sql$")] }

/-- The loop over `enumerate(parsed, start=1)`. -/
def checkSequence (parsed : List MigrationFile) :
    Nat → List MigrationFile → Except ServiceError Unit
  | _, [] => .ok ()
  | expected, m :: ms =>
    if m.version = expected then checkSequence parsed (expected + 1) ms
    else .error {
      errorClass := .persistenceError
      message := "migration version sequence has a gap: expected " ++ toString expected ++
        ", found " ++ toString m.version
      details := [("expected_version", .int expected), ("found_version", .int m.version),
        ("name", .str m.name),
        ("discovered_versions", .arr (parsed.map fun x => .int x.version))] }

/-- `parsed.sort(key=lambda m: m.version)`. -/
def sortByVersion (parsed : List MigrationFile) : List MigrationFile :=
  parsed.insertionSort fun a b => a.version ≤ b.version

/-- `_discover`, from the files it has read. -/
def resolve (files : List (String × String)) : Except ServiceError (List MigrationFile) := do
  let parsed ← files.mapM (parseFile decimal)
  checkSequence (sortByVersion parsed) 1 (sortByVersion parsed)
  pure (sortByVersion parsed)

/-- `_discover`. -/
def discover (source : MigrationSource) : Except (Raised ServiceError) (List MigrationFile) := do
  let files ← uncaught source.load
  (resolve decimal files).mapError .own

end

/-! ## What is accepted -/

variable {decimal : Char → Option Nat}

theorem checkSequence_ok_iff {parsed ms : List MigrationFile} {i : Nat} :
    checkSequence parsed i ms = .ok () ↔
      ms.map MigrationFile.version = List.range' i ms.length := by
  induction ms generalizing i with
  | nil => simp [checkSequence]
  | cons m ms ih =>
    simp only [checkSequence, List.map_cons, List.length_cons, List.range'_succ, List.cons.injEq]
    by_cases h : m.version = i
    · simp [h, ih]
    · simp [h]

theorem checkSequence_error {parsed ms : List MigrationFile} {i : Nat} {e : ServiceError}
    (h : checkSequence parsed i ms = .error e) : e.errorClass = .persistenceError := by
  induction ms generalizing i with
  | nil => cases h
  | cons m ms ih =>
    unfold checkSequence at h
    split at h
    · exact ih h
    · cases h
      rfl

theorem parseFile_ok_iff {file : String × String} {m : MigrationFile} :
    parseFile decimal file = .ok m ↔
      matchVersion decimal file.1 = some m.version ∧ m.name = removeSqlSuffix file.1 ∧
        m.source = file.2 := by
  obtain ⟨version, name, source⟩ := m
  unfold parseFile
  cases matchVersion decimal file.1 with
  | none => simp
  | some v => simp [eq_comm]

theorem parseFile_error {file : String × String} {e : ServiceError}
    (h : parseFile decimal file = .error e) : e.errorClass = .persistenceError := by
  unfold parseFile at h
  split at h
  · cases h
  · cases h
    rfl

theorem map_sortByVersion (parsed : List MigrationFile) :
    (sortByVersion parsed).map MigrationFile.version =
      (parsed.map MigrationFile.version).insertionSort (· ≤ ·) :=
  List.map_insertionSort _ _ _ _ fun _ _ _ _ => Iff.rfl

/-- Sorting gives `1..n` exactly when the versions are `1..n` in some order. -/
theorem map_sortByVersion_eq_iff {parsed : List MigrationFile} :
    (sortByVersion parsed).map MigrationFile.version = List.range' 1 (sortByVersion parsed).length ↔
      (parsed.map MigrationFile.version).Perm (List.range' 1 parsed.length) := by
  rw [map_sortByVersion, sortByVersion, List.length_insertionSort]
  constructor
  · intro h
    rw [← h]
    exact (List.perm_insertionSort _ _).symm
  · intro h
    have hs := (List.perm_insertionSort (· ≤ ·) (parsed.map MigrationFile.version)).trans h
    exact hs.eq_of_pairwise (fun _ _ _ _ => Nat.le_antisymm) (List.pairwise_insertionSort _ _)
      (List.pairwise_le_range' 1)

/-- What is accepted comes back in the order of the versions. -/
theorem resolve_versions {files : List (String × String)} {ms : List MigrationFile}
    (h : resolve decimal files = .ok ms) :
    ms.map MigrationFile.version = List.range' 1 ms.length := by
  obtain ⟨parsed, -, h⟩ := bind_eq_ok_iff.mp h
  obtain ⟨_, hcheck, h⟩ := bind_eq_ok_iff.mp h
  cases h
  exact checkSequence_ok_iff.mp hcheck

theorem resolve_error {files : List (String × String)} {e : ServiceError}
    (h : resolve decimal files = .error e) : e.errorClass = .persistenceError := by
  rcases bind_eq_error_iff.mp h with h | ⟨parsed, -, h⟩
  · obtain ⟨_, file, _, -, -, hfile⟩ := mapM_eq_error_iff.mp h
    exact parseFile_error hfile
  · rcases bind_eq_error_iff.mp h with h | ⟨_, -, h⟩
    · exact checkSequence_error h
    · cases h

/-- The versions in the names. -/
def versions (decimal : Char → Option Nat) (files : List (String × String)) : List Nat :=
  files.filterMap fun file => matchVersion decimal file.1

theorem versions_of_mapM {files : List (String × String)} {parsed : List MigrationFile}
    (h : files.mapM (parseFile decimal) = .ok parsed) :
    parsed.map MigrationFile.version = versions decimal files := by
  have hall := mapM_eq_ok h
  clear h
  induction hall with
  | nil => rfl
  | cons h _ ih => simp [versions, (parseFile_ok_iff.mp h).1, ih]

theorem exists_mapM_parseFile_iff {files : List (String × String)} :
    (∃ parsed, files.mapM (parseFile decimal) = .ok parsed) ↔
      ∀ file ∈ files, matchVersion decimal file.1 ≠ none := by
  constructor
  · rintro ⟨parsed, h⟩ file hf hnone
    obtain ⟨m, -, hm⟩ := exists_mem_of_mapM h hf
    rw [(parseFile_ok_iff.mp hm).1] at hnone
    cases hnone
  · intro h
    cases hp : files.mapM (parseFile decimal) with
    | ok parsed => exact ⟨parsed, rfl⟩
    | error e =>
      obtain ⟨before, file, after, rfl, -, hfile⟩ := mapM_eq_error_iff.mp hp
      have hsome := h file (by simp)
      unfold parseFile at hfile
      split at hfile
      · cases hfile
      · next hnone => exact absurd hnone hsome

/-- **What discovery accepts**: names of the form, whose versions are `1..n` in some order. -/
theorem resolve_ok_iff {files : List (String × String)} :
    (∃ ms, resolve decimal files = .ok ms) ↔
      (∀ file ∈ files, matchVersion decimal file.1 ≠ none) ∧
        (versions decimal files).Perm (List.range' 1 files.length) := by
  constructor
  · rintro ⟨ms, h⟩
    obtain ⟨parsed, hparsed, h⟩ := bind_eq_ok_iff.mp h
    obtain ⟨_, hcheck, -⟩ := bind_eq_ok_iff.mp h
    have hperm := map_sortByVersion_eq_iff.mp (checkSequence_ok_iff.mp hcheck)
    rw [versions_of_mapM hparsed, ← (mapM_eq_ok hparsed).length_eq] at hperm
    exact ⟨exists_mapM_parseFile_iff.mp ⟨parsed, hparsed⟩, hperm⟩
  · rintro ⟨hnames, hperm⟩
    obtain ⟨parsed, hparsed⟩ := exists_mapM_parseFile_iff.mpr hnames
    rw [← versions_of_mapM hparsed, (mapM_eq_ok hparsed).length_eq] at hperm
    have hcheck : checkSequence (sortByVersion parsed) 1 (sortByVersion parsed) = .ok () :=
      checkSequence_ok_iff.mpr (map_sortByVersion_eq_iff.mpr hperm)
    exact ⟨sortByVersion parsed, bind_eq_ok_iff.mpr ⟨parsed, hparsed,
      bind_eq_ok_iff.mpr ⟨(), hcheck, rfl⟩⟩⟩

/-- What discovery has to refuse: a name out of form, a number twice, or a number left out. -/
def Refused (decimal : Char → Option Nat) (files : List (String × String)) : Prop :=
  (∃ file ∈ files, matchVersion decimal file.1 = none) ∨
    ¬(versions decimal files).Nodup ∨
    ∃ v ∈ versions decimal files, ∃ u, 1 ≤ u ∧ u < v ∧ u ∉ versions decimal files

/-- **It does refuse it.** -/
theorem resolve_of_refused {files : List (String × String)} (h : Refused decimal files) :
    ∃ e, resolve decimal files = .error e ∧ e.errorClass = .persistenceError := by
  cases hr : resolve decimal files with
  | error e => exact ⟨e, rfl, resolve_error hr⟩
  | ok ms =>
    obtain ⟨hnames, hperm⟩ := resolve_ok_iff.mp ⟨ms, hr⟩
    rcases h with ⟨file, hf, hnone⟩ | hdup | ⟨v, hv, u, hu, huv, hmiss⟩
    · exact absurd hnone (hnames file hf)
    · exact absurd (hperm.nodup_iff.mpr List.nodup_range') hdup
    · rw [hperm.mem_iff, List.mem_range'_1] at hv hmiss
      omega

end MessageService.Infrastructure
