import MessageService.Lib.Table
import Mathlib.Data.List.Infix

/-!
# File trees

A file system without links: its files with their contents and its directories, each under its
path, the list of the names on the way from the root `[]`. The fields are what a file system
guarantees: what contains a file or a directory is a directory, and no path is both.

`unlink`, `rmdir`, `mkdirs`, `write` and `replace` are the system calls. Each is `none` where the
call fails for a reason the tree gives. `read` is described after each of them (`read_erase`,
`read_mkdirs`, `read_write`, `read_replace`), and `filePaths` after those that only remove.
-/

namespace MessageService.Lib

universe u v

/-- Files with their contents, and directories. -/
structure FileTree (κ : Type u) (χ : Type v) where
  files : Table (Prod.fst : List κ × χ → List κ)
  dirs : List (List κ)
  root : [] ∈ dirs
  closed : ∀ p, p ∈ files.rows.map Prod.fst ∨ p ∈ dirs → ∀ d, d <+: p → d ≠ p → d ∈ dirs
  disjoint : ∀ p ∈ files.rows.map Prod.fst, p ∉ dirs

namespace FileTree

variable {κ : Type u} {χ : Type v}

theorem prefix_dropLast {d p : List κ} (h : d <+: p) (hne : d ≠ p) : d <+: p.dropLast := by
  obtain ⟨l, rfl⟩ := h
  have hl : l ≠ [] := by
    rintro rfl
    exact hne (List.append_nil d).symm
  rw [List.dropLast_append_of_ne_nil hl]
  exact List.prefix_append d _

/-- Nothing but the root. -/
def empty : FileTree κ χ where
  files := ⟨[], List.nodup_nil⟩
  dirs := [[]]
  root := List.mem_singleton_self _
  closed := by
    intro p hp d hd hne
    rcases hp with hp | hp
    · exact absurd hp List.not_mem_nil
    · rw [List.mem_singleton.mp hp] at hd hne
      exact absurd (List.prefix_nil.mp hd) hne
  disjoint := fun p hp => absurd hp List.not_mem_nil

/-- The paths of the files. -/
def filePaths (t : FileTree κ χ) : List (List κ) := t.files.rows.map Prod.fst

theorem nodup_filePaths (t : FileTree κ χ) : t.filePaths.Nodup := t.files.nodup

/-- The paths among `paths` that lie below `d`. -/
def below [DecidableEq κ] (d : List κ) (paths : List (List κ)) : List (List κ) :=
  paths.filter fun p => d <+: p ∧ p ≠ d

variable [DecidableEq κ]

@[simp] theorem mem_below {d p : List κ} {paths : List (List κ)} :
    p ∈ below d paths ↔ p ∈ paths ∧ d <+: p ∧ p ≠ d := by
  simp [below]

theorem below_filter (d : List κ) (keep : List κ → Bool) (paths : List (List κ)) :
    below d (paths.filter keep) = (below d paths).filter keep :=
  List.filter_comm _ _ _

/-- What contains a file is a directory. -/
theorem mem_dirs_of_below {t : FileTree κ χ} {d p : List κ} (h : p ∈ below d t.filePaths) :
    d ∈ t.dirs := by
  obtain ⟨hp, hprefix, hne⟩ := mem_below.mp h
  exact t.closed p (.inl hp) d hprefix (Ne.symm hne)

/-- The contents of the file at `p`. -/
def read (t : FileTree κ χ) (p : List κ) : Option χ := (t.files.get? p).map Prod.snd

theorem read_eq_none_iff {t : FileTree κ χ} {p : List κ} : t.read p = none ↔ p ∉ t.filePaths := by
  unfold filePaths read
  rw [Table.mem_keys_iff, Option.map_eq_none_iff, not_not]

/-! ## Removal -/

/-- The tree without the file at `p`. -/
def erase (t : FileTree κ χ) (p : List κ) : FileTree κ χ where
  files := t.files.filter fun f => f.1 ≠ p
  dirs := t.dirs
  root := t.root
  closed := by
    intro q hq
    refine t.closed q (hq.imp_left fun hq => ?_)
    obtain ⟨f, hf, rfl⟩ := List.mem_map.mp hq
    exact List.mem_map_of_mem (List.mem_filter.mp hf).1
  disjoint := by
    intro q hq
    obtain ⟨f, hf, rfl⟩ := List.mem_map.mp hq
    exact t.disjoint _ (List.mem_map_of_mem (List.mem_filter.mp hf).1)

theorem filePaths_erase (t : FileTree κ χ) (p : List κ) :
    (t.erase p).filePaths = t.filePaths.filter fun q => q ≠ p := by
  unfold filePaths
  rw [List.filter_map]
  rfl

theorem read_erase (t : FileTree κ χ) (p q : List κ) :
    (t.erase p).read q = if q = p then none else t.read q := by
  unfold read
  rw [erase, Table.get?_filter]
  cases hq : t.files.get? q with
  | none => simp
  | some f =>
    obtain ⟨r, contents⟩ := f
    obtain rfl : r = q := Table.key_of_get? hq
    by_cases h : r = p
    · simp [h]
    · simp [h]

/-- `unlink`. -/
def unlink (t : FileTree κ χ) (p : List κ) : Option (FileTree κ χ) :=
  if p ∈ t.filePaths then some (t.erase p) else none

/-- `rmdir`, which removes an empty directory. -/
def rmdir (t : FileTree κ χ) (d : List κ) : Option (FileTree κ χ) :=
  if h : d ∈ t.dirs ∧ d ≠ [] ∧ below d t.filePaths = [] ∧ below d t.dirs = [] then
    some {
      files := t.files
      dirs := t.dirs.filter fun q => q ≠ d
      root := List.mem_filter.mpr ⟨t.root, decide_eq_true (Ne.symm h.2.1)⟩
      closed := by
        intro p hp q hq hne
        replace hp : p ∈ t.filePaths ∨ p ∈ t.dirs :=
          hp.imp_right fun hp => (List.mem_filter.mp hp).1
        refine List.mem_filter.mpr ⟨t.closed p hp q hq hne, decide_eq_true ?_⟩
        -- were `q` the removed directory, `p` would lie below it
        rintro rfl
        rcases hp with hp | hp
        · exact List.eq_nil_iff_forall_not_mem.mp h.2.2.1 p (mem_below.mpr ⟨hp, hq, Ne.symm hne⟩)
        · exact List.eq_nil_iff_forall_not_mem.mp h.2.2.2 p (mem_below.mpr ⟨hp, hq, Ne.symm hne⟩)
      disjoint := fun p hp hd => t.disjoint p hp (List.mem_filter.mp hd).1 }
  else none

theorem files_rmdir {t t' : FileTree κ χ} {d : List κ} (h : t.rmdir d = some t') :
    t'.files = t.files := by
  unfold rmdir at h
  split at h
  · cases h; rfl
  · cases h

/-! ## Creation -/

/-- `mkdir` with its parents, where a directory that is there already is no failure. -/
def mkdirs (t : FileTree κ χ) (p : List κ) : Option (FileTree κ χ) :=
  if h : ∀ d ∈ p.inits, d ∉ t.filePaths then
    some {
      files := t.files
      dirs := t.dirs ++ p.inits.filter fun d => d ∉ t.dirs
      root := List.mem_append_left _ t.root
      closed := by
        intro q hq d hd hne
        by_cases hold : d ∈ t.dirs
        · exact List.mem_append_left _ hold
        refine List.mem_append_right _ (List.mem_filter.mpr ⟨?_, decide_eq_true hold⟩)
        rcases hq with hq | hq
        · exact absurd (t.closed q (.inl hq) d hd hne) hold
        · rcases List.mem_append.mp hq with hq | hq
          · exact absurd (t.closed q (.inr hq) d hd hne) hold
          · have hq := (List.mem_inits _ _).mp (List.mem_filter.mp hq).1
            exact (List.mem_inits _ _).mpr (hd.trans hq)
      disjoint := by
        intro q hq hd
        rcases List.mem_append.mp hd with hd | hd
        · exact t.disjoint q hq hd
        · exact h q (List.mem_filter.mp hd).1 hq }
  else none

theorem mkdirs_spec {t t' : FileTree κ χ} {p : List κ} (h : t.mkdirs p = some t') :
    t'.files = t.files ∧ ∀ d, d ∈ t'.dirs ↔ d ∈ t.dirs ∨ d <+: p := by
  unfold mkdirs at h
  split at h
  · cases h
    refine ⟨rfl, fun d => ?_⟩
    by_cases hd : d ∈ t.dirs
    · simp [hd]
    · simp [hd, List.mem_inits]
  · cases h

theorem read_mkdirs {t t' : FileTree κ χ} {p : List κ} (h : t.mkdirs p = some t') (q : List κ) :
    t'.read q = t.read q := by
  unfold read
  rw [(mkdirs_spec h).1]

theorem mkdirs_isSome_iff {t : FileTree κ χ} {p : List κ} :
    (t.mkdirs p).isSome ↔ ∀ d, d <+: p → t.read d = none := by
  unfold mkdirs
  split
  · next h => simpa [read_eq_none_iff, List.mem_inits] using h
  · next h => simpa [read_eq_none_iff, List.mem_inits] using h

/-- Create the file at `p`, or overwrite the one that is there. -/
def write (t : FileTree κ χ) (p : List κ) (contents : χ) : Option (FileTree κ χ) :=
  if h : p ∉ t.dirs ∧ p.dropLast ∈ t.dirs then
    some {
      files := t.files.upsert (p, contents) (fun _ => (p, contents)) fun _ _ => rfl
      dirs := t.dirs
      root := t.root
      closed := by
        intro q hq d hd hne
        rw [Table.mem_keys_iff, Table.get?_upsert] at hq
        by_cases hqp : q = p
        · subst hqp
          -- a proper prefix of `q` is its parent or a prefix of that
          by_cases hparent : d = q.dropLast
          · exact hparent ▸ h.2
          · exact t.closed _ (.inr h.2) d (prefix_dropLast hd hne) hparent
        · rw [if_neg hqp, ← Table.mem_keys_iff] at hq
          exact t.closed q hq d hd hne
      disjoint := by
        intro q hq
        rw [Table.mem_keys_iff, Table.get?_upsert] at hq
        by_cases hqp : q = p
        · exact hqp ▸ h.1
        · rw [if_neg hqp, ← Table.mem_keys_iff] at hq
          exact t.disjoint q hq }
  else none

theorem read_write {t t' : FileTree κ χ} {p : List κ} {contents : χ}
    (h : t.write p contents = some t') (q : List κ) :
    t'.read q = if q = p then some contents else t.read q := by
  unfold write at h
  split at h
  · cases h
    unfold read
    rw [Table.get?_upsert]
    by_cases hq : q = p
    · cases t.files.get? q <;> simp [hq]
    · simp [hq]
  · cases h

theorem write_isSome_iff {t : FileTree κ χ} {p : List κ} {contents : χ} :
    (t.write p contents).isSome ↔ p ∉ t.dirs ∧ p.dropLast ∈ t.dirs := by
  unfold write
  split
  · next h => simpa using h
  · next h => simpa using h

theorem dirs_write {t t' : FileTree κ χ} {p : List κ} {contents : χ}
    (h : t.write p contents = some t') : t'.dirs = t.dirs := by
  unfold write at h
  split at h
  · cases h; rfl
  · cases h

/-- `rename`, which replaces a file that is at `dst`. -/
def replace (t : FileTree κ χ) (src dst : List κ) : Option (FileTree κ χ) :=
  match t.read src with
  | none => none
  | some contents => (t.erase src).write dst contents

theorem read_replace {t t' : FileTree κ χ} {src dst : List κ} {contents : χ}
    (hsrc : t.read src = some contents) (h : t.replace src dst = some t') (q : List κ) :
    t'.read q = if q = dst then some contents else if q = src then none else t.read q := by
  unfold replace at h
  rw [hsrc] at h
  rw [read_write h, read_erase]

theorem replace_isSome_iff {t : FileTree κ χ} {src dst : List κ} {contents : χ}
    (hsrc : t.read src = some contents) :
    (t.replace src dst).isSome ↔ dst ∉ t.dirs ∧ dst.dropLast ∈ t.dirs := by
  unfold replace
  rw [hsrc]
  exact write_isSome_iff

end FileTree

end MessageService.Lib
