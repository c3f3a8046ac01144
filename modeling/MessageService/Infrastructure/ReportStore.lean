import MessageService.Domain.Aggregates
import MessageService.Lib.FileTree
import MessageService.Lib.PosixPath
import MessageService.Lib.Python

/-!
# The report store

Model of `infrastructure/persistence/filesystem/report_store.py` (`FilesystemReportStore`) over a
file system without symbolic links: which file a key names (`Key.path`, `contained`), the write to a
temporary file that then replaces it (`save`), and the reading (`read`).

* The contents of a file are the string its bytes decode to. Writing raises on a surrogate
  (`encodedLength`); reading is in text mode (`universalNewlines`).
* A `Fault` is a failure the tree does not give, such as a full disk or a name that is too long: at
  which of the three calls it occurs, and what it leaves behind.

`save_ok` and `save_error` are what a save does to the report files, `save_ok_iff` when it succeeds,
and `writeAndReplace_through` what it lets through.
-/

namespace MessageService.Infrastructure.ReportStore

open MessageService.Domain MessageService.Lib

/-- What is saved and read. -/
inductive Key where
  | emailBody (runId : RunId)
  | fragment (runId : RunId) (stageId : StageId)
  deriving DecidableEq, Repr

/-- The file system below the root directory `/`. -/
abbrev Tree := FileTree Name PyStr

/-- `_EMAIL_BODY_FILENAME`. -/
def emailBodyFilename : Name := "email.html".toList

/-- `_FRAGMENTS_DIRNAME`. -/
def fragmentsDirname : Name := "fragments".toList

/-- The suffix of every report file. -/
def htmlSuffix : Name := ".html".toList

variable (root : PosixPath)

/-- The path that `_email_body_path` or `_fragment_path` builds. -/
def Key.path : Key → PosixPath
  | .emailBody runId => (root.join runId.toList).join emailBodyFilename
  | .fragment runId stageId =>
    ((root.join runId.toList).join fragmentsDirname).join (stageId.toList ++ htmlSuffix)

/-- `_contained`. -/
def contained (path : PosixPath) : Except (Raised ServiceError) (List Name) :=
  if path.parts.any fun n => n.contains (Char.ofNat 0) then
    .error (.through {
      className := "ValueError"
      bases := ["Exception", "BaseException"]
      text := "embedded null byte" })
  else if root.resolve <+: path.resolve then .ok path.resolve
  else .error (.own {
    errorClass := .persistenceError
    message := "report path escapes the report root"
    details := [("path", .str path.str)] })

/-- The file a key names. -/
def Key.file (key : Key) : Except (Raised ServiceError) (List Name) := contained root (key.path root)

/-! ## Writing -/

/-- `str` of a resolved path. -/
def pathStr (path : List Name) : String := { parts := path : PosixPath }.str

/-- An `OSError`. -/
def osError (className text : String) : PyException where
  className := className
  bases := ["OSError", "Exception", "BaseException"]
  text := text

/-- A failure that the tree does not give. -/
inductive Fault where
  /-- `mkdir` raises, with the first `depth` directories of the path in place. -/
  | mkdir (depth : Nat) (exc : PyException)
  /-- `write_text` raises, with `left` in the temporary file, or the file not opened. -/
  | write (left : Option PyStr) (exc : PyException)
  /-- `replace` raises. -/
  | replace (exc : PyException)

/-- A step of the write: an exception leaves a tree too. -/
abbrev Step := Except (PyException × Tree) Tree

/-- `path.parent.mkdir(parents=True, exist_ok=True)`. -/
def mkdirParents (parent : List Name) (fault : Option Fault) (t : Tree) : Step :=
  match fault with
  | some (.mkdir depth exc) => .error (exc, (t.mkdirs (parent.take depth)).getD t)
  | _ =>
    match t.mkdirs parent with
    | some t' => .ok t'
    | none =>
      if (t.read parent).isSome then
        .error (osError "FileExistsError" ("[Errno 17] File exists: " ++ pyRepr (pathStr parent)), t)
      else
        .error (osError "NotADirectoryError"
          ("[Errno 20] Not a directory: " ++ pyRepr (pathStr parent)), t)

/-- `tmp_path.write_text(html, encoding="utf-8")`. -/
def writeText (tmp : List Name) (html : PyStr) (fault : Option Fault) (t : Tree) : Step :=
  let isADirectory :=
    osError "IsADirectoryError" ("[Errno 21] Is a directory: " ++ pyRepr (pathStr tmp))
  match fault with
  | some (.write left exc) => .error (exc, (left.bind fun text => t.write tmp text).getD t)
  | _ =>
    match encodedLength html with
    | .ok _ =>
      match t.write tmp html with
      | some t' => .ok t'
      | none => .error (isADirectory, t)
    | .error exc =>
      -- the file is opened, and with that truncated, before anything is encoded
      match t.write tmp [] with
      | some t' => .error (exc, t')
      | none => .error (isADirectory, t)

/-- `tmp_path.replace(path)`. -/
def replaceFile (tmp path : List Name) (fault : Option Fault) (t : Tree) : Step :=
  match fault with
  | some (.replace exc) => .error (exc, t)
  | _ =>
    match t.replace tmp path with
    | some t' => .ok t'
    | none =>
      .error (osError "IsADirectoryError" ("[Errno 21] Is a directory: " ++
        pyRepr (pathStr tmp) ++ " -> " ++ pyRepr (pathStr path)), t)

/-- `path.with_name(path.name + ".tmp")`. -/
def tmpPath (path : List Name) : List Name :=
  path.dropLast ++ [path.getLastD [] ++ ".tmp".toList]

/-- The three calls of `_atomic_write_text`. -/
def writeAndReplace (path : List Name) (html : PyStr) (fault : Option Fault) (t : Tree) : Step := do
  let t ← mkdirParents path.dropLast fault t
  let t ← writeText (tmpPath path) html fault t
  replaceFile (tmpPath path) path fault t

/-- The error a failed write becomes. -/
def saveError (path : List Name) (exc : PyException) : ServiceError where
  errorClass := .persistenceError
  message := "failed to save report file: " ++ pathStr path
  details := [("path", .str (pathStr path)), ("os_error", .str exc.text)]

/-- `_atomic_write_text`. -/
def atomicWriteText (path : List Name) (html : PyStr) (fault : Option Fault) (t : Tree) :
    Except (Raised ServiceError) Unit × Tree :=
  match writeAndReplace path html fault t with
  | .ok t' => (.ok (), t')
  | .error (exc, t') => (handling ["OSError"] (saveError path) (.error exc), t')

/-- `save_email_body` and `save_fragment`. -/
def save (key : Key) (html : PyStr) (fault : Option Fault) (t : Tree) :
    Except (Raised ServiceError) Unit × Tree :=
  match key.file root with
  | .error e => (.error e, t)
  | .ok path => atomicWriteText path html fault t

/-- `read_email_body` and `read_fragment`. -/
def read (key : Key) (t : Tree) : Except (Raised ServiceError) (Option PyStr) := do
  let path ← key.file root
  pure ((t.read path).map universalNewlines)

variable {root}

/-! ## The names of the files -/

/-- The path of a report file. -/
def IsReportPath (path : List Name) : Prop := ∃ dir x, path = dir ++ [x ++ htmlSuffix]

/-- Every key names a report file, or none. -/
theorem isReportPath_of_file {key : Key} {path : List Name} (h : key.file root = .ok path) :
    IsReportPath path := by
  unfold Key.file contained at h
  split at h
  · cases h
  · split at h
    · cases h
      cases key with
      | emailBody runId =>
        exact @PosixPath.exists_resolve_join htmlSuffix (by decide) (by decide)
          (root.join runId.toList) "email".toList
      | fragment runId stageId =>
        exact PosixPath.exists_resolve_join (by decide) (by decide) _ _
    · cases h

/-- A temporary file is not a report file. -/
theorem ne_tmpPath {path q : List Name} (hq : IsReportPath q) : q ≠ tmpPath path := by
  obtain ⟨dir, x, rfl⟩ := hq
  intro h
  have hlast := (List.append_inj' h rfl).2
  have hname := List.singleton_inj.mp hlast
  have hchar := congrArg List.getLast? hname
  simp [htmlSuffix, List.getLast?_append] at hchar

/-! ## What a save does -/

/-- UTF-8 has the string. -/
def IsEncodable (html : PyStr) : Prop := ∃ n, encodedLength html = .ok n

section Steps

variable {path : List Name} {html : PyStr} {fault : Option Fault} {t t' : Tree} {exc : PyException}

/-- A step that raises writes to nothing but the temporary file. -/
def Spares (tmp : List Name) (t t' : Tree) : Prop := ∀ q, q ≠ tmp → t'.read q = t.read q

theorem spares_getD_write {tmp : List Name} (text : Option PyStr) (t : Tree) :
    Spares tmp t ((text.bind fun text => t.write tmp text).getD t) := by
  intro q hq
  cases text with
  | none => rfl
  | some text =>
    cases hw : t.write tmp text with
    | none => simp [hw]
    | some t' => simp [hw, FileTree.read_write hw, hq]

theorem mkdirParents_error {tmp parent : List Name}
    (h : mkdirParents parent fault t = .error (exc, t')) : Spares tmp t t' := by
  intro q _
  unfold mkdirParents at h
  split at h
  · next depth e =>
    cases h
    cases hm : t.mkdirs (parent.take depth) with
    | none => rfl
    | some t' => exact FileTree.read_mkdirs hm q
  · split at h
    · cases h
    · split_ifs at h <;> · cases h; rfl

theorem writeText_error {tmp : List Name} (h : writeText tmp html fault t = .error (exc, t')) :
    Spares tmp t t' := by
  unfold writeText at h
  simp only at h
  split at h
  · cases h
    exact spares_getD_write _ _
  · split at h
    · split at h
      · cases h
      · cases h; exact fun _ _ => rfl
    · split at h
      · next e _ t' hw =>
        cases h
        exact fun q hq => by rw [FileTree.read_write hw, if_neg hq]
      · cases h; exact fun _ _ => rfl

theorem replaceFile_error {tmp : List Name}
    (h : replaceFile tmp path fault t = .error (exc, t')) : t' = t := by
  unfold replaceFile at h
  split at h
  · cases h; rfl
  · split at h
    · cases h
    · cases h; rfl

theorem mkdirParents_ok_iff {parent : List Name} : mkdirParents parent fault t = .ok t' ↔
    (∀ depth exc, fault ≠ some (.mkdir depth exc)) ∧ t.mkdirs parent = some t' := by
  unfold mkdirParents
  split
  · next depth e => simp
  · next hfault =>
    cases hm : t.mkdirs parent with
    | some t1 => simpa using fun _ => hfault
    | none => split_ifs <;> simp

theorem writeText_ok_iff {tmp : List Name} : writeText tmp html fault t = .ok t' ↔
    (∀ left exc, fault ≠ some (.write left exc)) ∧ IsEncodable html ∧
      t.write tmp html = some t' := by
  unfold writeText IsEncodable
  simp only
  split
  · next left e => simp
  · next hfault =>
    cases he : encodedLength html with
    | ok n =>
      cases t.write tmp html with
      | none => simp
      | some t1 => simpa using fun _ => hfault
    | error e => cases t.write tmp [] <;> simp

theorem replaceFile_ok_iff {tmp : List Name} : replaceFile tmp path fault t = .ok t' ↔
    (∀ exc, fault ≠ some (.replace exc)) ∧ t.replace tmp path = some t' := by
  unfold replaceFile
  split
  · next e => simp
  · next hfault =>
    cases t.replace tmp path with
    | none => simp
    | some t1 => simpa using fun _ => hfault

/-- When the three calls succeed, and with what result. -/
theorem writeAndReplace_ok_iff : writeAndReplace path html fault t = .ok t' ↔
    fault = none ∧ IsEncodable html ∧ ∃ t1 t2, t.mkdirs path.dropLast = some t1 ∧
      t1.write (tmpPath path) html = some t2 ∧ t2.replace (tmpPath path) path = some t' := by
  simp only [writeAndReplace, bind_eq_ok_iff, mkdirParents_ok_iff, writeText_ok_iff,
    replaceFile_ok_iff]
  constructor
  · rintro ⟨t1, ⟨hmkdir, h1⟩, t2, ⟨hwrite, he, h2⟩, hreplace, h3⟩
    refine ⟨?_, he, t1, t2, h1, h2, h3⟩
    cases fault with
    | none => rfl
    | some f =>
      cases f with
      | mkdir depth exc => exact absurd rfl (hmkdir depth exc)
      | write left exc => exact absurd rfl (hwrite left exc)
      | replace exc => exact absurd rfl (hreplace exc)
  · rintro ⟨rfl, he, t1, t2, h1, h2, h3⟩
    exact ⟨t1, ⟨by simp, h1⟩, t2, ⟨by simp, he, h2⟩, by simp, h3⟩

/-- A write that raises leaves every report file as it was. -/
theorem writeAndReplace_error (h : writeAndReplace path html fault t = .error (exc, t')) :
    Spares (tmpPath path) t t' := by
  rcases bind_eq_error_iff.mp h with h | ⟨t1, h1, h⟩
  · exact mkdirParents_error h
  have hread1 := FileTree.read_mkdirs (mkdirParents_ok_iff.mp h1).2
  intro q hq
  rcases bind_eq_error_iff.mp h with h | ⟨t2, h2, h⟩
  · rw [writeText_error h q hq, hread1]
  · rw [replaceFile_error h, FileTree.read_write (writeText_ok_iff.mp h2).2.2, if_neg hq, hread1]

end Steps

section Save

variable {key : Key} {html : PyStr} {fault : Option Fault} {t t' : Tree}

/-- **A save that succeeds** writes its file and no other report file. -/
theorem save_ok (h : save root key html fault t = (.ok (), t')) :
    ∃ path, key.file root = .ok path ∧
      ∀ q, IsReportPath q → t'.read q = if q = path then some html else t.read q := by
  unfold save at h
  split at h
  · cases h
  · next path hpath =>
    refine ⟨path, hpath, fun q hq => ?_⟩
    unfold atomicWriteText at h
    split at h
    · next t3 hsteps =>
      cases h
      obtain ⟨-, -, t1, t2, h1, h2, h3⟩ := writeAndReplace_ok_iff.mp hsteps
      have htmp : t2.read (tmpPath path) = some html := by rw [FileTree.read_write h2, if_pos rfl]
      rw [FileTree.read_replace htmp h3, if_neg (ne_tmpPath hq), FileTree.read_write h2,
        if_neg (ne_tmpPath hq), FileTree.read_mkdirs h1]
    · next exc t3 hsteps =>
      unfold handling at h
      cases h

/-- **A save that raises** leaves every report file as it was. -/
theorem save_error {e : Raised ServiceError} (h : save root key html fault t = (.error e, t'))
    {q : List Name} (hq : IsReportPath q) : t'.read q = t.read q := by
  unfold save at h
  split at h
  · cases h; rfl
  · next path hpath =>
    unfold atomicWriteText at h
    split at h
    · cases h
    · next exc t3 hsteps =>
      cases h
      exact writeAndReplace_error hsteps q (ne_tmpPath hq)

end Save

/-- A save goes through: its key names a file, the string has an encoding, no file stands where a
directory is needed and no directory where a file is, and nothing else fails. -/
def CanSave (root : PosixPath) (key : Key) (html : PyStr) (fault : Option Fault) (t : Tree) : Prop :=
  ∃ path, key.file root = .ok path ∧ fault = none ∧ IsEncodable html ∧
    (∀ d, d <+: path.dropLast → t.read d = none) ∧ tmpPath path ∉ t.dirs ∧ path ∉ t.dirs

/-- When the three calls find the tree in order. -/
theorem exists_writeAndReplace_ok_iff {path : List Name} (hpath : IsReportPath path) {html : PyStr}
    {fault : Option Fault} {t : Tree} :
    (∃ t', writeAndReplace path html fault t = .ok t') ↔
      fault = none ∧ IsEncodable html ∧ (∀ d, d <+: path.dropLast → t.read d = none) ∧
        tmpPath path ∉ t.dirs ∧ path ∉ t.dirs := by
  obtain ⟨dir, x, hdir⟩ := hpath
  have hparent : path.dropLast = dir := by rw [hdir, List.dropLast_concat]
  have htmp : tmpPath path = dir ++ [path.getLastD [] ++ ".tmp".toList] := by
    rw [tmpPath, hparent]
  have htmpParent : (tmpPath path).dropLast = dir := by rw [htmp, List.dropLast_concat]
  -- `mkdir` makes neither of the two paths a directory
  have hnew (n : Name) : ¬dir ++ [n] <+: dir := by
    intro h
    have hlength := h.length_le
    rw [List.length_append, List.length_singleton] at hlength
    omega
  simp only [writeAndReplace_ok_iff, ← FileTree.mkdirs_isSome_iff]
  constructor
  · rintro ⟨t', rfl, he, t1, t2, h1, h2, h3⟩
    have hdirs1 := (FileTree.mkdirs_spec h1).2
    have hread2 : t2.read (tmpPath path) = some html := by rw [FileTree.read_write h2, if_pos rfl]
    refine ⟨rfl, he, by rw [h1]; rfl, fun hd => ?_, fun hd => ?_⟩
    · have hwrite := FileTree.write_isSome_iff.mp (by rw [h2]; rfl)
      exact hwrite.1 ((hdirs1 _).mpr (.inl hd))
    · have hreplace := (FileTree.replace_isSome_iff hread2).mp (by rw [h3]; rfl)
      rw [FileTree.dirs_write h2] at hreplace
      exact hreplace.1 ((hdirs1 _).mpr (.inl hd))
  · rintro ⟨rfl, he, hmkdir, htmpDir, hpathDir⟩
    obtain ⟨t1, h1⟩ := Option.isSome_iff_exists.mp hmkdir
    have hdirs1 (d : List Name) : d ∈ t1.dirs ↔ d ∈ t.dirs ∨ d <+: dir := by
      rw [(FileTree.mkdirs_spec h1).2, hparent]
    have htmp1 : tmpPath path ∉ t1.dirs := by
      rw [hdirs1, not_or]
      exact ⟨htmpDir, htmp ▸ hnew _⟩
    have hpath1 : path ∉ t1.dirs := by
      rw [hdirs1, not_or]
      exact ⟨hpathDir, hdir ▸ hnew _⟩
    have hdir1 : dir ∈ t1.dirs := (hdirs1 dir).mpr (.inr List.prefix_rfl)
    have hwrite : (t1.write (tmpPath path) html).isSome :=
      FileTree.write_isSome_iff.mpr ⟨htmp1, by rw [htmpParent]; exact hdir1⟩
    obtain ⟨t2, h2⟩ := Option.isSome_iff_exists.mp hwrite
    have hread2 : t2.read (tmpPath path) = some html := by rw [FileTree.read_write h2, if_pos rfl]
    obtain ⟨t3, h3⟩ := Option.isSome_iff_exists.mp ((FileTree.replace_isSome_iff hread2).mpr
      (by rw [FileTree.dirs_write h2]; exact ⟨hpath1, by rw [hparent]; exact hdir1⟩))
    exact ⟨t3, rfl, he, t1, t2, h1, h2, h3⟩

/-- **When a save succeeds.** -/
theorem save_ok_iff {key : Key} {html : PyStr} {fault : Option Fault} {t : Tree} :
    (save root key html fault t).1 = .ok () ↔ CanSave root key html fault t := by
  unfold save CanSave
  cases hfile : key.file root with
  | error e => simp
  | ok path =>
    simp only [Except.ok.injEq, exists_eq_left',
      ← exists_writeAndReplace_ok_iff (isReportPath_of_file hfile), atomicWriteText]
    cases writeAndReplace path html fault t with
    | ok t' => simp
    | error r => simp [handling]

/-! ## What a save lets through -/

/-- What a fault raises. -/
def Fault.exc : Fault → PyException
  | mkdir _ exc => exc
  | write _ exc => exc
  | replace exc => exc

/-- The call that a fault strikes is reached. -/
def Fault.Occurs (path : List Name) (html : PyStr) (t : Tree) : Fault → Prop
  | mkdir _ _ => True
  | write _ _ => (t.mkdirs path.dropLast).isSome
  | replace _ => ((t.mkdirs path.dropLast).bind fun t => t.write (tmpPath path) html).isSome

section Through

variable {path : List Name} {html : PyStr} {fault : Option Fault} {t : Tree} {exc : PyException}

theorem isEncodable_ofString (s : String) : IsEncodable (.ofString s) := by
  have hs : ¬(PyStr.ofString s).any (fun c => 0xD800 ≤ c.val && c.val ≤ 0xDFFF) = true := by
    intro h
    obtain ⟨c, hc, hsurrogate⟩ := List.any_eq_true.mp h
    obtain ⟨d, -, rfl⟩ := List.mem_map.mp hc
    have hvalid : d.toNat < 0xD800 ∨ 0xDFFF < d.toNat ∧ d.toNat < 0x110000 := d.valid
    have hval : (Fin.ofNat 0x110000 d.toNat).val = d.toNat := Nat.mod_eq_of_lt (by omega)
    simp only [hval, Bool.and_eq_true, decide_eq_true_eq] at hsurrogate
    omega
  exact ⟨_, if_neg hs⟩

theorem mkdirParents_through {parent : List Name} (hexc : exc.isA "OSError" = false) :
    (∃ t', mkdirParents parent fault t = .error (exc, t')) ↔
      ∃ depth, fault = some (.mkdir depth exc) := by
  unfold mkdirParents
  split
  · next depth e =>
    simp only [Except.error.injEq, Prod.mk.injEq, Option.some.injEq, Fault.mkdir.injEq]
    constructor
    · rintro ⟨-, rfl, -⟩
      exact ⟨depth, rfl, rfl⟩
    · rintro ⟨-, -, rfl⟩
      exact ⟨_, rfl, rfl⟩
  · next hfault =>
    have hne : ¬∃ depth, fault = some (.mkdir depth exc) := fun ⟨depth, h⟩ => hfault depth exc h
    simp only [hne, iff_false, not_exists]
    intro t' h
    split at h
    · cases h
    · split_ifs at h <;> · cases h; exact absurd hexc (by simp [osError, PyException.isA])

theorem writeText_through {tmp : List Name} (he : IsEncodable html)
    (hexc : exc.isA "OSError" = false) :
    (∃ t', writeText tmp html fault t = .error (exc, t')) ↔
      ∃ left, fault = some (.write left exc) := by
  obtain ⟨n, hn⟩ := he
  unfold writeText
  simp only [hn]
  split
  · next left e =>
    simp only [Except.error.injEq, Prod.mk.injEq, Option.some.injEq, Fault.write.injEq]
    constructor
    · rintro ⟨-, rfl, -⟩
      exact ⟨left, rfl, rfl⟩
    · rintro ⟨-, -, rfl⟩
      exact ⟨_, rfl, rfl⟩
  · next hfault =>
    have hne : ¬∃ left, fault = some (.write left exc) := fun ⟨left, h⟩ => hfault left exc h
    simp only [hne, iff_false, not_exists]
    intro t' h
    split at h
    · cases h
    · cases h
      exact absurd hexc (by simp [osError, PyException.isA])

theorem replaceFile_through {tmp : List Name} (hexc : exc.isA "OSError" = false) :
    (∃ t', replaceFile tmp path fault t = .error (exc, t')) ↔ fault = some (.replace exc) := by
  unfold replaceFile
  split
  · next e =>
    simp only [Except.error.injEq, Prod.mk.injEq, Option.some.injEq, Fault.replace.injEq]
    exact ⟨fun ⟨_, h, _⟩ => h, fun h => ⟨_, h, rfl⟩⟩
  · next hfault =>
    have hne : ¬fault = some (.replace exc) := hfault exc
    simp only [hne, iff_false, not_exists]
    intro t' h
    split at h
    · cases h
    · cases h
      exact absurd hexc (by simp [osError, PyException.isA])

/-- **Only a fault raises what `_atomic_write_text` does not catch.** -/
theorem writeAndReplace_through (he : IsEncodable html) (hexc : exc.isA "OSError" = false) :
    (∃ t', writeAndReplace path html fault t = .error (exc, t')) ↔
      ∃ f, fault = some f ∧ f.exc = exc ∧ f.Occurs path html t := by
  have hsplit : (∃ t', writeAndReplace path html fault t = .error (exc, t')) ↔
      (∃ t', mkdirParents path.dropLast fault t = .error (exc, t')) ∨
      ∃ t1, mkdirParents path.dropLast fault t = .ok t1 ∧
        ((∃ t', writeText (tmpPath path) html fault t1 = .error (exc, t')) ∨
          ∃ t2, writeText (tmpPath path) html fault t1 = .ok t2 ∧
            ∃ t', replaceFile (tmpPath path) path fault t2 = .error (exc, t')) := by
    unfold writeAndReplace
    simp only [bind_eq_error_iff]
    constructor
    · rintro ⟨t', h | ⟨t1, h1, h | ⟨t2, h2, h⟩⟩⟩
      · exact .inl ⟨t', h⟩
      · exact .inr ⟨t1, h1, .inl ⟨t', h⟩⟩
      · exact .inr ⟨t1, h1, .inr ⟨t2, h2, t', h⟩⟩
    · rintro (⟨t', h⟩ | ⟨t1, h1, ⟨t', h⟩ | ⟨t2, h2, t', h⟩⟩)
      · exact ⟨t', .inl h⟩
      · exact ⟨t', .inr ⟨t1, h1, .inl h⟩⟩
      · exact ⟨t', .inr ⟨t1, h1, .inr ⟨t2, h2, h⟩⟩⟩
  rw [hsplit]
  simp only [mkdirParents_through hexc, writeText_through he hexc, replaceFile_through hexc,
    mkdirParents_ok_iff, writeText_ok_iff]
  constructor
  · rintro (⟨depth, rfl⟩ | ⟨t1, ⟨-, h1⟩, ⟨left, rfl⟩ | ⟨t2, ⟨-, -, h2⟩, rfl⟩⟩)
    · exact ⟨_, rfl, rfl, trivial⟩
    · exact ⟨_, rfl, rfl, Option.isSome_of_eq_some h1⟩
    · refine ⟨_, rfl, rfl, ?_⟩
      simp only [Fault.Occurs, h1, Option.bind_some, h2, Option.isSome_some]
  · rintro ⟨f, rfl, rfl, hf⟩
    cases f with
    | mkdir depth e => exact .inl ⟨depth, rfl⟩
    | write left e =>
      obtain ⟨t1, h1⟩ := Option.isSome_iff_exists.mp hf
      exact .inr ⟨t1, ⟨nofun, h1⟩, .inl ⟨left, rfl⟩⟩
    | replace e =>
      obtain ⟨t2, h2⟩ := Option.isSome_iff_exists.mp hf
      obtain ⟨t1, h1, h2⟩ := Option.bind_eq_some_iff.mp h2
      exact .inr ⟨t1, ⟨nofun, h1⟩, .inr ⟨t2, ⟨nofun, he, h2⟩, rfl⟩⟩

end Through

end MessageService.Infrastructure.ReportStore
