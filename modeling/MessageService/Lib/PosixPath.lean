import Mathlib.Data.List.Infix

/-!
# POSIX paths

Absolute paths as `PurePosixPath` keeps them: the root and the names between the slashes, without
the empty ones and the dots. `join` is the operator `/`, which drops what is before an absolute
path, and `resolve` is `os.path.realpath` where there are no symbolic links: a double dot leaves a
directory, and the root has no parent but itself.

A path whose last name carries a suffix resolves to one whose last name does
(`exists_resolve_join`), whatever comes before it.
-/

namespace MessageService.Lib

/-- The name of a directory entry. -/
abbrev Name := List Char

/-- An absolute path. -/
structure PosixPath where
  /-- One slash, or the two that POSIX leaves to the implementation. -/
  root : List Char := ['/']
  parts : List Name
  deriving DecidableEq, Repr

namespace PosixPath

/-- The names that `_parse_path` keeps of a string. -/
def parse (s : List Char) : List Name := (s.splitOn '/').filter fun n => n ≠ [] ∧ n ≠ ['.']

/-- The root of an absolute path (`posixpath.splitroot`): two slashes count only without a third. -/
def splitRoot : List Char → List Char
  | '/' :: '/' :: '/' :: _ => ['/']
  | '/' :: '/' :: _ => ['/', '/']
  | _ => ['/']

/-- `path / s`. -/
def join (path : PosixPath) (s : List Char) : PosixPath :=
  if s.head? = some '/' then { root := splitRoot s, parts := parse s }
  else { path with parts := path.parts ++ parse s }

/-- `str(path)`. -/
def str (path : PosixPath) : String :=
  String.ofList (path.root ++ ['/'].intercalate path.parts)

/-- Follow one name. -/
def follow (dir : List Name) (n : Name) : List Name :=
  if n = ['.', '.'] then dir.dropLast else dir ++ [n]

/-- `path.resolve()`. -/
def resolve (path : PosixPath) : List Name := path.parts.foldl follow []

/-- A suffix stays with the last name of a string. -/
theorem exists_splitOn_append {suffix : List Char} (h : '/' ∉ suffix) (s : List Char) :
    ∃ before x, (s ++ suffix).splitOn '/' = before ++ [x ++ suffix] := by
  induction s with
  | nil => exact ⟨[], [], by simpa using List.splitOn_eq_singleton h⟩
  | cons c s ih =>
    obtain ⟨before, x, hs⟩ := ih
    rw [List.cons_append, List.splitOn_cons_eq_if_modifyHead, hs]
    by_cases hc : c = '/'
    · exact ⟨[] :: before, x, by simp [hc]⟩
    · cases before with
      | nil => exact ⟨[], c :: x, by simp [hc]⟩
      | cons n before => exact ⟨(c :: n) :: before, x, by simp [hc]⟩

/-- **The last name of a path keeps its suffix**, whatever the string before it. -/
theorem exists_resolve_join {suffix : List Char} (hslash : '/' ∉ suffix)
    (hlong : 2 < suffix.length) (path : PosixPath) (s : List Char) :
    ∃ dir x, (path.join (s ++ suffix)).resolve = dir ++ [x ++ suffix] := by
  obtain ⟨before, x, hs⟩ := exists_splitOn_append hslash s
  have hne (n : List Char) (hn : n.length ≤ 2) : x ++ suffix ≠ n := by
    rintro rfl
    rw [List.length_append] at hn
    omega
  have hparse : parse (s ++ suffix) =
      (before.filter fun n => n ≠ [] ∧ n ≠ ['.']) ++ [x ++ suffix] := by
    have hkept : [x ++ suffix].filter (fun n => n ≠ [] ∧ n ≠ ['.']) = [x ++ suffix] := by
      refine List.filter_eq_self.mpr fun n hn => ?_
      obtain rfl := List.mem_singleton.mp hn
      exact decide_eq_true ⟨hne [] (by simp), hne ['.'] (by simp)⟩
    unfold parse
    rw [hs, List.filter_append, hkept]
  have hfollow (dir : List Name) : follow dir (x ++ suffix) = dir ++ [x ++ suffix] :=
    if_neg (hne ['.', '.'] (by simp))
  unfold join resolve
  split
  · simp only [hparse, List.foldl_append, List.foldl_cons, List.foldl_nil, hfollow]
    exact ⟨_, x, rfl⟩
  · simp only [hparse, List.foldl_append, List.foldl_cons, List.foldl_nil, hfollow]
    exact ⟨_, x, rfl⟩

/-! ## Plain names -/

/-- A string that is one name, and neither a dot nor a double dot. -/
def IsPlain (n : List Char) : Prop := '/' ∉ n ∧ n ≠ [] ∧ n ≠ ['.'] ∧ n ≠ ['.', '.']

instance (n : List Char) : Decidable (IsPlain n) := inferInstanceAs (Decidable (_ ∧ _))

/-- Joining a plain name adds it. -/
theorem join_of_isPlain {n : List Char} (h : IsPlain n) (path : PosixPath) :
    path.join n = { path with parts := path.parts ++ [n] } := by
  have hhead : n.head? ≠ some '/' := fun hn => h.1 (List.mem_of_mem_head? hn)
  have hparse : parse n = [n] := by
    unfold parse
    rw [List.splitOn_eq_singleton h.1, List.filter_eq_self.mpr]
    intro m hm
    obtain rfl := List.mem_singleton.mp hm
    exact decide_eq_true ⟨h.2.1, h.2.2.1⟩
  rw [join, if_neg hhead, hparse]

/-- Names none of which is a double dot are followed downwards. -/
theorem resolve_append (path : PosixPath) {names : List Name}
    (h : ∀ n ∈ names, n ≠ ['.', '.']) :
    resolve { path with parts := path.parts ++ names } = path.resolve ++ names := by
  unfold resolve
  rw [List.foldl_append]
  generalize path.parts.foldl follow [] = dir
  induction names generalizing dir with
  | nil => simp
  | cons n names ih =>
    have hn : follow dir n = dir ++ [n] := if_neg (h n List.mem_cons_self)
    rw [List.foldl_cons, hn, ih (fun m hm => h m (List.mem_cons_of_mem _ hm)), List.append_assoc]
    rfl

end PosixPath

end MessageService.Lib
