import MessageService.Lib.PosixPath

/-!
# Parsed paths

The paths that `PurePosixPath` builds: their names are those that the parser keeps.

* `join`, `parent`: the operations of a path keep that.
* `join_chars`: the string of a path is parsed to the path, whatever it is joined to.
-/

namespace MessageService.Lib

namespace PosixPath

/-- A name that the parser keeps. -/
def IsPart (n : Name) : Prop := '/' ∉ n ∧ n ≠ [] ∧ n ≠ ['.']

theorem notMem_of_mem_splitOn {s n : List Char} (h : n ∈ s.splitOn '/') : '/' ∉ n := by
  induction s generalizing n with
  | nil =>
    obtain rfl := List.mem_singleton.mp h
    exact List.not_mem_nil
  | cons c s ih =>
    rw [List.splitOn_cons_eq_if_modifyHead] at h
    by_cases hc : c = '/'
    · rw [if_pos (beq_iff_eq.mpr hc), List.mem_cons] at h
      rcases h with rfl | h
      · exact List.not_mem_nil
      · exact ih h
    · rw [if_neg (by simpa using hc)] at h
      cases hs : s.splitOn '/' with
      | nil => exact absurd hs (List.splitOn_ne_nil _ _)
      | cons m ms =>
        rw [hs, List.modifyHead_cons, List.mem_cons] at h
        rcases h with rfl | h
        · rw [List.mem_cons, not_or]
          exact ⟨fun heq => hc heq.symm, ih (hs ▸ List.mem_cons_self)⟩
        · exact ih (hs ▸ List.mem_cons_of_mem _ h)

theorem isPart_of_mem_parse {s : List Char} {n : Name} (h : n ∈ parse s) : IsPart n := by
  obtain ⟨hmem, hkept⟩ := List.mem_filter.mp h
  exact ⟨notMem_of_mem_splitOn hmem, of_decide_eq_true hkept⟩

/-- The names of a path are read back from the string between its slashes. -/
theorem parse_intercalate {parts : List Name} (h : ∀ n ∈ parts, IsPart n) :
    parse (['/'].intercalate parts) = parts := by
  cases parts with
  | nil => rfl
  | cons n parts =>
    unfold parse
    rw [List.splitOn_intercalate _ (fun m hm => (h m hm).1) (List.cons_ne_nil _ _),
      List.filter_eq_self.mpr fun m hm => decide_eq_true (h m hm).2]

theorem parse_cons_slash (s : List Char) : parse ('/' :: s) = parse s := by
  unfold parse
  rw [List.splitOn_cons_eq_if_modifyHead, if_pos (beq_self_eq_true _)]
  rfl

end PosixPath

/-- A path whose names and root the parser has kept. -/
structure ParsedPath where
  path : PosixPath
  root_eq : path.root = ['/'] ∨ path.root = ['/', '/']
  isPart : ∀ n ∈ path.parts, PosixPath.IsPart n

namespace ParsedPath

open PosixPath (IsPart)

variable (p q : ParsedPath)

@[ext] theorem ext {p q : ParsedPath} (h : p.path = q.path) : p = q := by
  cases p
  cases q
  congr

/-- `path / s`. -/
def join (s : List Char) : ParsedPath where
  path := p.path.join s
  root_eq := by
    unfold PosixPath.join
    split
    · unfold PosixPath.splitRoot
      split <;> simp
    · exact p.root_eq
  isPart := by
    unfold PosixPath.join
    split
    · exact fun n hn => PosixPath.isPart_of_mem_parse hn
    · intro n hn
      rcases List.mem_append.mp hn with hn | hn
      · exact p.isPart n hn
      · exact PosixPath.isPart_of_mem_parse hn

/-- `path.parent`. -/
def parent : ParsedPath where
  path := { p.path with parts := p.path.parts.dropLast }
  root_eq := p.root_eq
  isPart n hn := p.isPart n (List.dropLast_subset _ hn)

/-- The characters of `str(path)`. -/
def chars : List Char := p.path.root ++ ['/'].intercalate p.path.parts

theorem head?_chars : p.chars.head? = some '/' := by
  unfold chars
  rcases p.root_eq with h | h <;> rw [h] <;> rfl

/-- No name starts with a slash. -/
theorem head?_intercalate (parts : List Name) (h : ∀ n ∈ parts, IsPart n) :
    (['/'].intercalate parts).head? ≠ some '/' := by
  cases parts with
  | nil => simp
  | cons n parts =>
    have hn := h n List.mem_cons_self
    obtain ⟨c, n, rfl⟩ := List.exists_cons_of_ne_nil hn.2.1
    have hhead : (['/'].intercalate ((c :: n) :: parts)).head? = some c := by
      cases parts <;> rfl
    rw [hhead]
    rintro ⟨⟩
    exact hn.1 List.mem_cons_self

theorem splitRoot_chars : PosixPath.splitRoot p.chars = p.path.root := by
  have hhead := head?_intercalate p.path.parts p.isPart
  unfold chars
  rcases p.root_eq with h | h <;> rw [h]
  all_goals
    cases hs : ['/'].intercalate p.path.parts with
    | nil => rfl
    | cons c s =>
      rw [hs] at hhead
      have hc : c ≠ '/' := fun hc => hhead (congrArg some hc)
      simp only [List.cons_append, List.nil_append, PosixPath.splitRoot]
      split <;> simp_all

/-- **The string of a path is parsed to the path**, whatever it is joined to. -/
theorem join_chars : p.join q.chars = q := by
  have hparse : PosixPath.parse q.chars = q.path.parts := by
    have hparts := PosixPath.parse_intercalate q.isPart
    unfold chars
    rcases q.root_eq with h | h <;> rw [h]
    · exact (PosixPath.parse_cons_slash _).trans hparts
    · exact (PosixPath.parse_cons_slash _).trans ((PosixPath.parse_cons_slash _).trans hparts)
  ext1
  change PosixPath.join _ _ = _
  rw [PosixPath.join, if_pos q.head?_chars, splitRoot_chars, hparse]

end ParsedPath

end MessageService.Lib
