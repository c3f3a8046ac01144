import MessageService.Infrastructure.ReportStore
import Mathlib.Logic.Function.Basic

/-!
# The report store as a map

What the report store is for: a map from keys to strings. `StoreState.saved` is that map, ghost: the
string of the last save under each key that succeeded. A sequence of calls finds the store behaving
as the map when at every moment every key of the sequence reads back what the map has for it
(`BehavesAsMap`).

The path of a file is built from strings that a producer chooses, and is held against the root of
all reports only. So two keys may name one file: a stage id with a parent segment names the e-mail
body of its run or a report of another run, `./a` names what `a` does. And reading is in text mode.

* `saved_none_of_shared`: where the store behaves as a map, no key that shares its file is saved.
* `behavesAsMap_iff`: the theorem.
* `behavesAsMap_of_plain`: stage ids without a slash never share a file.
-/

namespace MessageService.System

open MessageService.Domain MessageService.Lib MessageService.Infrastructure
  MessageService.Infrastructure.ReportStore

/-- A call of the report store. -/
inductive StoreCall where
  | save (key : Key) (html : PyStr) (fault : Option Fault)
  | read (key : Key)

/-- The key of a call. -/
def StoreCall.key : StoreCall → Key
  | .save key _ _ => key
  | .read key => key

/-- The store, and the map it stands for. -/
structure StoreState where
  tree : Tree
  /-- The string of the last successful save under each key. -/
  saved : Key → Option PyStr := fun _ => none

variable (root : PosixPath)

/-- The report directory, empty. -/
def emptyStore : StoreState where
  tree := (FileTree.empty.mkdirs root.resolve).getD .empty

/-- One call. -/
def StoreState.call (s : StoreState) : StoreCall → StoreState
  | .save key html fault =>
    match ReportStore.save root key html fault s.tree with
    | (.ok _, tree) => { tree := tree, saved := Function.update s.saved key (some html) }
    | (.error _, tree) => { s with tree := tree }
  | .read _ => s

/-- The state after a sequence of calls. -/
def afterCalls (calls : List StoreCall) : StoreState :=
  calls.foldl (StoreState.call root) (emptyStore root)

/-- A read under `key` returns the string last saved under it, and no string when there is none. -/
def ReadsBack (s : StoreState) (key : Key) : Prop :=
  match s.saved key with
  | some html => ReportStore.read root key s.tree = .ok (some html)
  | none => ∀ html, ReportStore.read root key s.tree ≠ .ok (some html)

/-- The store behaves as a map: after each of the calls, every key of the sequence reads back. -/
def BehavesAsMap (calls : List StoreCall) : Prop :=
  ∀ before, before <+: calls → ∀ call ∈ calls, ReadsBack root (afterCalls root before) call.key

variable {root}

theorem afterCalls_concat (calls : List StoreCall) (call : StoreCall) :
    afterCalls root (calls ++ [call]) = (afterCalls root calls).call root call := by
  rw [afterCalls, List.foldl_append]
  rfl

/-! ## What is read -/

theorem read_eq_some_iff {key : Key} {path : List Name} (hpath : key.file root = .ok path)
    {t : Tree} {html : PyStr} : ReportStore.read root key t = .ok (some html) ↔
      ∃ text, t.read path = some text ∧ universalNewlines text = html := by
  unfold ReportStore.read
  rw [hpath]
  simp [bind, Except.bind, pure, Except.pure]

theorem read_ne_some_of_error {key : Key} {e : Raised ServiceError} (h : key.file root = .error e)
    {t : Tree} (html : PyStr) : ReportStore.read root key t ≠ .ok (some html) := by
  unfold ReportStore.read
  rw [h]
  simp [bind, Except.bind]

/-! ## One call -/

/-- A save that goes through writes the file of its key and the map under it. -/
theorem call_of_canSave {s : StoreState} {key : Key} {html : PyStr} {fault : Option Fault}
    (h : CanSave root key html fault s.tree) :
    ∃ path, key.file root = .ok path ∧
      (∀ q, IsReportPath q → (s.call root (.save key html fault)).tree.read q =
        if q = path then some html else s.tree.read q) ∧
      (s.call root (.save key html fault)).saved = Function.update s.saved key (some html) := by
  have hok := save_ok_iff.mpr h
  unfold StoreState.call
  simp only
  split
  · next tree hsave =>
    obtain ⟨path, hpath, hread⟩ := save_ok hsave
    exact ⟨path, hpath, hread, rfl⟩
  · next e tree hsave =>
    rw [hsave] at hok
    cases hok

/-- Any other call leaves the report files and the map alone. -/
theorem call_of_not_canSave {s : StoreState} {call : StoreCall}
    (h : ∀ key html fault, call = .save key html fault → ¬CanSave root key html fault s.tree) :
    (∀ q, IsReportPath q → (s.call root call).tree.read q = s.tree.read q) ∧
      (s.call root call).saved = s.saved := by
  cases call with
  | read key => exact ⟨fun _ _ => rfl, rfl⟩
  | save key html fault =>
    have hnot := h key html fault rfl
    unfold StoreState.call
    simp only
    split
    · next tree hsave => exact absurd (save_ok_iff.mp (by rw [hsave])) hnot
    · next e tree hsave => exact ⟨fun q hq => save_error hsave hq, rfl⟩

/-- Nothing is in the empty store. -/
theorem read_emptyStore (q : List Name) : (emptyStore root).tree.read q = none := by
  have hempty : (FileTree.empty : Tree).read q = none := rfl
  unfold emptyStore
  cases h : (FileTree.empty : Tree).mkdirs root.resolve with
  | none => exact hempty
  | some tree => exact (FileTree.read_mkdirs h q).trans hempty

/-! ## From separate files to a map -/

/-- Every save that goes through is of a string without a carriage return, under a key whose file
no other key of the sequence names. -/
def Separate (root : PosixPath) (calls : List StoreCall) : Prop :=
  ∀ before key html fault after, calls = before ++ .save key html fault :: after →
    CanSave root key html fault (afterCalls root before).tree →
      carriageReturn ∉ html ∧ ∀ call ∈ calls, call.key ≠ key → call.key.file root ≠ key.file root

/-- The file of `key` has the string that the map has, if any, and reads as it is. -/
structure Holds (root : PosixPath) (s : StoreState) (key : Key) : Prop where
  contents : ∀ path, key.file root = .ok path → s.tree.read path = s.saved key
  text : ∀ html, s.saved key = some html → carriageReturn ∉ html ∧ ∃ path, key.file root = .ok path

/-- A key whose file has the string of the map reads back. -/
theorem Holds.readsBack {s : StoreState} {key : Key} (h : Holds root s key) :
    ReadsBack root s key := by
  unfold ReadsBack
  split
  · next html hsaved =>
    obtain ⟨hcr, path, hpath⟩ := h.text html hsaved
    exact (read_eq_some_iff hpath).mpr
      ⟨html, (h.contents path hpath).trans hsaved, universalNewlines_eq_self_iff.mpr hcr⟩
  · next hsaved =>
    intro html hread
    cases hfile : key.file root with
    | error e => exact read_ne_some_of_error hfile html hread
    | ok path =>
      obtain ⟨text, htext, -⟩ := (read_eq_some_iff hfile).mp hread
      rw [h.contents path hfile, hsaved] at htext
      cases htext

/-- **What a call preserves.** -/
theorem Holds.call {s : StoreState} {key : Key} (h : Holds root s key) {call : StoreCall}
    (hsave : ∀ key' html fault, call = .save key' html fault → CanSave root key' html fault s.tree →
      carriageReturn ∉ html ∧ (key ≠ key' → key.file root ≠ key'.file root)) :
    Holds root (s.call root call) key := by
  by_cases hcan : ∃ key' html fault, call = .save key' html fault ∧
      CanSave root key' html fault s.tree
  · obtain ⟨key', html, fault, rfl, hcan⟩ := hcan
    obtain ⟨hcr, hother⟩ := hsave key' html fault rfl hcan
    obtain ⟨path', hpath', hread, hsaved⟩ := call_of_canSave hcan
    by_cases hkey : key = key'
    · subst hkey
      have hnow : (s.call root (.save key html fault)).saved key = some html := by
        rw [hsaved, Function.update_self]
      refine ⟨fun path hpath => ?_, fun text htext => ?_⟩
      · obtain rfl := Except.ok.inj (hpath.symm.trans hpath')
        rw [hread _ (isReportPath_of_file hpath), if_pos rfl, hnow]
      · rw [hnow] at htext
        obtain rfl := Option.some.inj htext
        exact ⟨hcr, path', hpath'⟩
    · have hsame : (s.call root (.save key' html fault)).saved key = s.saved key := by
        rw [hsaved, Function.update_of_ne hkey]
      refine ⟨fun path hpath => ?_, fun text htext => h.text text (hsame ▸ htext)⟩
      have hne : path ≠ path' := by
        rintro rfl
        exact hother hkey (hpath.trans hpath'.symm)
      rw [hread _ (isReportPath_of_file hpath), if_neg hne, h.contents path hpath, hsame]
  · obtain ⟨hread, hsaved⟩ := @call_of_not_canSave root s call
      fun key' html fault hcall hc => hcan ⟨key', html, fault, hcall, hc⟩
    refine ⟨fun path hpath => ?_, fun text htext => h.text text (hsaved ▸ htext)⟩
    rw [hread _ (isReportPath_of_file hpath), h.contents path hpath, hsaved]

/-- **Separate files make a map.** -/
theorem Separate.behavesAsMap {calls : List StoreCall} (h : Separate root calls) :
    BehavesAsMap root calls := by
  intro before hbefore call hcall
  refine Holds.readsBack ?_
  induction before using List.reverseRecOn with
  | nil => exact ⟨fun path _ => read_emptyStore path, fun html hsaved => by cases hsaved⟩
  | append_singleton before last ih =>
    obtain ⟨after, rfl⟩ := hbefore
    rw [afterCalls_concat]
    refine (ih ⟨last :: after, by simp⟩).call fun key html fault hlast hcan => ?_
    obtain ⟨hcr, hother⟩ := h before key html fault after (by simp [hlast]) hcan
    exact ⟨hcr, hother call hcall⟩

/-! ## From a map to separate files -/

/-- After a save that goes through, every key that names its file reads its string back. -/
theorem read_of_canSave {s : StoreState} {key key' : Key} {html : PyStr} {fault : Option Fault}
    (h : CanSave root key html fault s.tree) (hfile : key'.file root = key.file root) :
    ReportStore.read root key' (s.call root (.save key html fault)).tree =
      .ok (some (universalNewlines html)) := by
  obtain ⟨path, hpath, hread, -⟩ := call_of_canSave h
  refine (read_eq_some_iff (hfile.trans hpath)).mpr ⟨html, ?_, rfl⟩
  rw [hread path (isReportPath_of_file hpath), if_pos rfl]

/-- **A shared file is never written.** Where the store behaves as a map, no key is saved whose file
another key of the sequence names. -/
theorem BehavesAsMap.saved_none_of_shared {calls : List StoreCall} (h : BehavesAsMap root calls)
    {before : List StoreCall} (hbefore : before <+: calls) {c c' : StoreCall} (hc : c ∈ calls)
    (hc' : c' ∈ calls) (hne : c'.key ≠ c.key) (hfile : c'.key.file root = c.key.file root) :
    (afterCalls root before).saved c.key = none := by
  induction before using List.reverseRecOn generalizing c c' with
  | nil => rfl
  | append_singleton before last ih =>
    have hprefix : before <+: calls := (List.prefix_append before [last]).trans hbefore
    rw [afterCalls_concat]
    by_cases hcan : ∃ html fault, last = .save c.key html fault ∧
        CanSave root c.key html fault (afterCalls root before).tree
    · -- the other key had no string, and now reads one
      obtain ⟨html, fault, rfl, hcan⟩ := hcan
      have hread := read_of_canSave hcan hfile
      have hnone : ((afterCalls root before).call root (.save c.key html fault)).saved c'.key =
          none := by
        obtain ⟨-, -, -, hsaved⟩ := call_of_canSave hcan
        rw [hsaved, Function.update_of_ne hne]
        exact ih hprefix hc' hc hne.symm hfile.symm
      have hback := h _ hbefore c' hc'
      rw [afterCalls_concat] at hback
      simp only [ReadsBack, hnone] at hback
      exact absurd hread (hback _)
    · have hsame : ((afterCalls root before).call root last).saved c.key =
          (afterCalls root before).saved c.key := by
        by_cases hother : ∃ key html fault, last = .save key html fault ∧
            CanSave root key html fault (afterCalls root before).tree
        · obtain ⟨key, html, fault, rfl, hother⟩ := hother
          obtain ⟨-, -, -, hsaved⟩ := call_of_canSave hother
          rw [hsaved, Function.update_of_ne]
          rintro rfl
          exact hcan ⟨html, fault, rfl, hother⟩
        · rw [(call_of_not_canSave fun key html fault hl hc => hother ⟨key, html, fault, hl, hc⟩).2]
      rw [hsame]
      exact ih hprefix hc hc' hne hfile

/-- **A map needs separate files.** -/
theorem BehavesAsMap.separate {calls : List StoreCall} (h : BehavesAsMap root calls) :
    Separate root calls := by
  rintro before key html fault after rfl hcan
  have hmem : StoreCall.save key html fault ∈ before ++ .save key html fault :: after := by simp
  have hprefix : before ++ [.save key html fault] <+: before ++ .save key html fault :: after :=
    ⟨after, by simp⟩
  have hsaved : (afterCalls root (before ++ [.save key html fault])).saved key = some html := by
    obtain ⟨-, -, -, hsaved⟩ := call_of_canSave hcan
    rw [afterCalls_concat, hsaved, Function.update_self]
  constructor
  · have hback := h _ hprefix _ hmem
    simp only [ReadsBack, StoreCall.key, hsaved] at hback
    rw [afterCalls_concat, read_of_canSave hcan rfl] at hback
    exact universalNewlines_eq_self_iff.mp (Option.some.inj (Except.ok.inj hback))
  · intro call hcall hne hfile
    have hnone := h.saved_none_of_shared hprefix hmem hcall hne hfile
    rw [StoreCall.key, hsaved] at hnone
    cases hnone

/-- **The store behaves as a map exactly when no file is shared and no carriage return saved**: when
each save that goes through is of a string without a carriage return, and no other key of the
sequence names the file it writes. -/
theorem behavesAsMap_iff (root : PosixPath) (calls : List StoreCall) :
    BehavesAsMap root calls ↔
      ∀ before key html fault after, calls = before ++ .save key html fault :: after →
        CanSave root key html fault (afterCalls root before).tree →
          carriageReturn ∉ html ∧ ∀ call ∈ calls, call.key ≠ key → call.key.file root ≠ key.file root :=
  ⟨BehavesAsMap.separate, Separate.behavesAsMap⟩

/-! ## Two keys, one file -/

/-- The report directory of the runs below. -/
def sampleRoot : PosixPath := { parts := ["srv".toList, "reports".toList] }

/-- The e-mail body of a run, and then a fragment whose stage id climbs out of `fragments`. -/
def sampleCalls : List StoreCall :=
  let runId := "00000000-0000-4000-8000-000000000000"
  [.save (.emailBody runId) (PyStr.ofString "<p>body</p>") none,
    .save (.fragment runId "../email") (PyStr.ofString "<p>stage</p>") none]

/-- **A fragment overwrites the e-mail body.** The stage id `../email` names its file. -/
theorem fragment_overwrites_email_body : ¬BehavesAsMap sampleRoot sampleCalls := by
  intro h
  have hback := h sampleCalls List.prefix_rfl _ List.mem_cons_self
  have hsaved : (afterCalls sampleRoot sampleCalls).saved
      (.emailBody "00000000-0000-4000-8000-000000000000") =
        some (PyStr.ofString "<p>body</p>") := by decide +kernel
  simp only [ReadsBack, StoreCall.key, hsaved] at hback
  have hread := congrArg Except.toOption hback
  exact absurd hread (by decide +kernel)

/-! ## Plain names -/

/-- The run id and the stage id of the key are plain names. -/
def IsPlainKey : Key → Prop
  | .emailBody runId => PosixPath.IsPlain runId.toList
  | .fragment runId stageId => PosixPath.IsPlain runId.toList ∧ '/' ∉ stageId.toList

/-- The names of a plain key's file below the report directory. -/
def plainNames : Key → List Name
  | .emailBody runId => [runId.toList, emailBodyFilename]
  | .fragment runId stageId => [runId.toList, fragmentsDirname, stageId.toList ++ htmlSuffix]

theorem plainNames_injective : Function.Injective plainNames := by
  intro key key' h
  cases key with
  | emailBody runId =>
    cases key' with
    | emailBody runId' =>
      rw [String.toList_inj.mp (List.cons.inj h).1]
    | fragment runId' stageId' => simp [plainNames] at h
  | fragment runId stageId =>
    cases key' with
    | emailBody runId' => simp [plainNames] at h
    | fragment runId' stageId' =>
      simp only [plainNames, List.cons.injEq, true_and, and_true] at h
      rw [String.toList_inj.mp h.1, String.toList_inj.mp (List.append_cancel_right h.2)]

/-- The file of a plain key lies where its names say. -/
theorem file_of_isPlainKey {key : Key} (h : IsPlainKey key) {path : List Name}
    (hfile : key.file root = .ok path) : path = root.resolve ++ plainNames key := by
  have hpath : path = (key.path root).resolve := by
    unfold Key.file contained at hfile
    split_ifs at hfile
    exact (Except.ok.inj hfile).symm
  rw [hpath]
  cases key with
  | emailBody runId =>
    have hname : PosixPath.IsPlain emailBodyFilename := by decide
    simp only [Key.path, PosixPath.join_of_isPlain h, PosixPath.join_of_isPlain hname,
      List.append_assoc]
    refine PosixPath.resolve_append root ?_
    simpa [plainNames] using ⟨h.2.2.2, hname.2.2.2⟩
  | fragment runId stageId =>
    have hdir : PosixPath.IsPlain fragmentsDirname := by decide
    have hname : PosixPath.IsPlain (stageId.toList ++ htmlSuffix) := by
      have hlong (n : List Char) (hn : n.length ≤ 2) : stageId.toList ++ htmlSuffix ≠ n := by
        rintro rfl
        simp [htmlSuffix] at hn
      refine ⟨?_, hlong [] (by simp), hlong ['.'] (by simp), hlong ['.', '.'] (by simp)⟩
      rw [List.mem_append, not_or]
      exact ⟨h.2, by decide⟩
    simp only [Key.path, PosixPath.join_of_isPlain h.1, PosixPath.join_of_isPlain hdir,
      PosixPath.join_of_isPlain hname, List.append_assoc]
    refine PosixPath.resolve_append root ?_
    simpa [plainNames] using ⟨h.1.2.2.2, hdir.2.2.2, hname.2.2.2⟩

/-- **Stage ids without a slash never share a file**: with them, and no carriage return, the store
behaves as a map. -/
theorem behavesAsMap_of_plain {calls : List StoreCall} (hplain : ∀ call ∈ calls, IsPlainKey call.key)
    (hcr : ∀ key html fault, .save key html fault ∈ calls → carriageReturn ∉ html) :
    BehavesAsMap root calls := by
  refine Separate.behavesAsMap ?_
  rintro before key html fault after rfl ⟨path, hpath, -⟩
  have hmem : StoreCall.save key html fault ∈ before ++ .save key html fault :: after := by simp
  refine ⟨hcr key html fault hmem, fun call hcall hne hfile => hne (plainNames_injective ?_)⟩
  have hnames := file_of_isPlainKey (hplain _ hmem) hpath
  rw [file_of_isPlainKey (hplain _ hcall) (hfile.trans hpath)] at hnames
  exact List.append_cancel_left hnames

end MessageService.System
