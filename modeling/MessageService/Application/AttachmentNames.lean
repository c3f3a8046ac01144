import MessageService.Application.Report
import MessageService.Lib.Utf8

/-!
# The names of a run's attachments

`buildAttachmentFilename` maps a stage id into the file name alphabet and then cuts the name to
`NAME_MAX`. `keptStageId` is what of a stage id is left: the names are in the alphabet and short
enough, and two of them are equal exactly when that is.

Results:
* `buildAttachmentFilename_eq`: a name is a function of the kept stage id, an injective one.
* `perStage_filenames`: the attachments of a `PER_STAGE` run.
-/

namespace MessageService.Application

open MessageService.Domain MessageService.Lib

/-! ## The alphabet -/

theorem utf8Size_of_isFilenameSafe {c : Char} (h : isFilenameSafe c = true) : c.utf8Size = 1 := by
  rw [Char.utf8Size_eq_one_iff, UInt32.le_iff_toNat_le]
  unfold isFilenameSafe at h
  simp only [Bool.or_eq_true, Bool.and_eq_true, decide_eq_true_eq, Char.le_def,
    UInt32.le_iff_toNat_le] at h
  rcases h with ((((⟨-, h⟩ | ⟨-, h⟩) | ⟨-, h⟩) | rfl) | rfl) | rfl
  · exact h.trans (by decide)
  · exact h.trans (by decide)
  · exact h.trans (by decide)
  all_goals decide

/-- Every character is in the file name alphabet. -/
def IsSafeName (cs : List Char) : Prop := ∀ c ∈ cs, isFilenameSafe c = true

theorem IsSafeName.isAscii {cs : List Char} (h : IsSafeName cs) : IsAscii cs :=
  fun c hc => utf8Size_of_isFilenameSafe (h c hc)

theorem IsSafeName.append {cs ds : List Char} (h : IsSafeName cs) (h' : IsSafeName ds) :
    IsSafeName (cs ++ ds) :=
  List.forall_mem_append.mpr ⟨h, h'⟩

theorem IsSafeName.take {cs : List Char} (h : IsSafeName cs) (n : Nat) : IsSafeName (cs.take n) :=
  fun c hc => h c (List.mem_of_mem_take hc)

theorem isSafeName_underscore : IsSafeName ['_'] :=
  List.forall_mem_singleton.mpr rfl

theorem isSafeName_html : IsSafeName ".html".toList :=
  List.all_eq_true.mp rfl

theorem isSafeName_sanitize (component : String) :
    IsSafeName (sanitizeFilenameComponent component).toList := by
  unfold sanitizeFilenameComponent
  rw [String.toList_map]
  intro c hc
  obtain ⟨d, -, rfl⟩ := List.mem_map.mp hc
  split
  · assumption
  · rfl

theorem length_sanitize (component : String) :
    (sanitizeFilenameComponent component).toList.length = component.toList.length := by
  unfold sanitizeFilenameComponent
  rw [String.toList_map, List.length_map]

/-- A canonical UUID is in the alphabet. -/
theorem isSafeName_of_isCanonicalUuid {cs : List Char} (h : isCanonicalUuid cs = true) :
    IsSafeName cs := by
  unfold isCanonicalUuid at h
  obtain ⟨-, h⟩ := (Bool.and_eq_true _ _).mp h
  intro c hc
  obtain ⟨i, hi⟩ := List.mem_iff_getElem?.mp hc
  have hci := List.all_eq_true.mp h (c, i) (List.mem_zipIdx_iff_getElem?.mpr hi)
  dsimp only at hci
  split at hci
  · rw [of_decide_eq_true hci]
    rfl
  · have hf : ∀ {d : Char}, d ≤ 'f' → d ≤ 'z' := fun hd => hd.trans (by decide)
    rcases (Bool.or_eq_true _ _).mp hci with hdigit | hletter
    · simp [isFilenameSafe, hdigit]
    · simp only [Bool.and_eq_true, decide_eq_true_eq] at hletter
      simp [isFilenameSafe, hletter.1, hf hletter.2]

theorem length_of_isCanonicalUuid {cs : List Char} (h : isCanonicalUuid cs = true) :
    cs.length = 36 := by
  unfold isCanonicalUuid at h
  simp only [Bool.and_eq_true, decide_eq_true_eq] at h
  exact h.1

/-! ## The names -/

/-- A name before it is cut, up to the stage id. -/
def namePrefix (pipelineType : String) (runId : RunId) : List Char :=
  (sanitizeFilenameComponent pipelineType).toList ++ ['_'] ++ runId.toList ++ ['_']

/-- How many characters of a stage id a name has room for. -/
def stageIdRoom (pipelineType : String) : Nat := 212 - pipelineType.toList.length

/-- What a name keeps of a stage id. -/
def keptStageId (pipelineType : String) (stageId : StageId) : List Char :=
  (sanitizeFilenameComponent stageId).toList.take (stageIdRoom pipelineType)

/-- The name with a given rest of the stage id. -/
def nameOfKept (pipelineType : String) (runId : RunId) (kept : List Char) : String :=
  String.ofList ((namePrefix pipelineType runId).take 250 ++ kept) ++ ".html"

theorem isSafeName_keptStageId (pipelineType : String) (stageId : StageId) :
    IsSafeName (keptStageId pipelineType stageId) :=
  (isSafeName_sanitize stageId).take _

theorem asciiPrefix_eq_take {cs : List Char} (h : IsAscii cs) (n : Nat) :
    asciiPrefix n cs = cs.take n := by
  induction cs generalizing n with
  | nil => simp [asciiPrefix]
  | cons c cs ih =>
    obtain ⟨hc, hcs⟩ := List.forall_mem_cons.mp h
    cases n with
    | zero => simp [asciiPrefix]
    | succ n => simp [asciiPrefix, hc, ih hcs]

section

variable {pipelineType : String} {runId : RunId} (hid : isCanonicalUuid runId.toList = true)

include hid

theorem isSafeName_namePrefix : IsSafeName (namePrefix pipelineType runId) :=
  (((isSafeName_sanitize _).append isSafeName_underscore).append
    (isSafeName_of_isCanonicalUuid hid)).append isSafeName_underscore

theorem length_namePrefix :
    (namePrefix pipelineType runId).length = pipelineType.toList.length + 38 := by
  unfold namePrefix
  simp only [List.length_append, length_sanitize, length_of_isCanonicalUuid hid,
    List.length_singleton]

/-- **A name is an injective function of the kept stage id.** -/
theorem buildAttachmentFilename_eq (stageId : StageId) :
    buildAttachmentFilename pipelineType runId (some stageId) =
      nameOfKept pipelineType runId (keptStageId pipelineType stageId) := by
  have hbase : (sanitizeFilenameComponent pipelineType ++ "_" ++ runId ++ "_" ++
      sanitizeFilenameComponent stageId).toList =
        namePrefix pipelineType runId ++ (sanitizeFilenameComponent stageId).toList := by
    simp [namePrefix]
  have hascii : IsAscii (namePrefix pipelineType runId ++ _) :=
    ((isSafeName_namePrefix hid).append (isSafeName_sanitize stageId)).isAscii
  have htake : (namePrefix pipelineType runId ++
      (sanitizeFilenameComponent stageId).toList).take 250 =
        (namePrefix pipelineType runId).take 250 ++ keptStageId pipelineType stageId := by
    rw [List.take_append, length_namePrefix hid]
    congr 2
    unfold stageIdRoom
    omega
  unfold buildAttachmentFilename nameOfKept
  dsimp only
  rw [utf8ByteSize_eq_utf8Len (_ ++ sanitizeFilenameComponent stageId), hbase, hascii.utf8Len,
    asciiPrefix_eq_take hascii]
  have hsuffix : 255 - (".html" : String).utf8ByteSize = 250 := rfl
  rw [hsuffix, htake]
  split
  · rfl
  · next hle =>
    rw [← htake, List.take_of_length_le (by omega), ← hbase, String.ofList_toList]

theorem isSafeName_nameOfKept {kept : List Char} (h : IsSafeName kept) :
    IsSafeName (nameOfKept pipelineType runId kept).toList := by
  unfold nameOfKept
  rw [String.toList_append, String.toList_ofList]
  exact (((isSafeName_namePrefix hid).take _).append h).append isSafeName_html

/-- A name has at most `NAME_MAX` bytes, all in the alphabet, and its extension. -/
theorem buildAttachmentFilename_wellFormed (stageId : StageId) :
    (buildAttachmentFilename pipelineType runId (some stageId)).utf8ByteSize ≤ 255 ∧
      IsSafeName (buildAttachmentFilename pipelineType runId (some stageId)).toList ∧
      ".html".toList <:+ (buildAttachmentFilename pipelineType runId (some stageId)).toList := by
  rw [buildAttachmentFilename_eq hid]
  have hsafe : IsSafeName (nameOfKept pipelineType runId
      (keptStageId pipelineType stageId)).toList :=
    isSafeName_nameOfKept hid (isSafeName_keptStageId pipelineType stageId)
  refine ⟨?_, hsafe, ?_⟩
  · rw [utf8ByteSize_eq_utf8Len, hsafe.isAscii.utf8Len]
    have hsuffix : ".html".toList.length = 5 := rfl
    unfold nameOfKept keptStageId stageIdRoom
    rw [String.toList_append, String.toList_ofList, List.length_append, List.length_append,
      List.length_take, List.length_take, length_namePrefix hid, hsuffix]
    omega
  · unfold nameOfKept
    rw [String.toList_append]
    exact List.suffix_append _ _

end

theorem nameOfKept_injective (pipelineType : String) (runId : RunId) :
    Function.Injective (nameOfKept pipelineType runId) := by
  intro kept kept' h
  have := congrArg String.toList h
  unfold nameOfKept at this
  simpa using this

/-! ## The attachments of a run -/

/-- **The attachments of a `PER_STAGE` run.** Their names are well formed, and distinct exactly when
the stage ids are still distinct in what the names keep of them. -/
theorem perStage_filenames {render : TemplateRenderer} {run : Run}
    {fragments : List RenderedFragment} {attachments : List EmailAttachment}
    (hid : isCanonicalUuid run.runId.toList = true) (hmode : run.attachmentMode = .perStage)
    (h : buildAttachments render run fragments = .ok attachments) :
    (∀ a ∈ attachments, a.filename.utf8ByteSize ≤ 255 ∧ IsSafeName a.filename.toList ∧
      ".html".toList <:+ a.filename.toList) ∧
    ((attachments.map EmailAttachment.filename).Nodup ↔
      ((fragments.filter fun f => !f.isEmpty).map fun f =>
        keptStageId run.pipelineType f.stageId).Nodup) := by
  have hne : run.attachmentMode ≠ .singleAggregated := by
    rw [hmode]
    exact nofun
  unfold buildAttachments at h
  rw [dif_neg hne] at h
  obtain rfl := Except.ok.inj h
  constructor
  · intro a ha
    obtain ⟨f, -, rfl⟩ := List.mem_map.mp ha
    exact buildAttachmentFilename_wellFormed hid f.stageId
  · rw [← List.nodup_map_iff (nameOfKept_injective run.pipelineType run.runId), List.map_map,
      List.map_map]
    refine iff_of_eq (congrArg List.Nodup (List.map_congr_left fun f _ => ?_))
    exact buildAttachmentFilename_eq hid f.stageId

/-- The fragment of a stage that contributes a page and nothing to the body. -/
def pageFragment (stageId : StageId) : RenderedFragment where
  stageId := stageId
  stageOrder := 0
  renderedHtml := "page"
  emailBodyContext := none
  emailBodyPosition := none

theorem perStage_filenames_sample :
    (∀ a ∈ [htmlAttachment reportedRun.toRunRow (some "extract") "page",
        htmlAttachment reportedRun.toRunRow (some "load") "page"],
      a.filename.utf8ByteSize ≤ 255 ∧ IsSafeName a.filename.toList ∧
        ".html".toList <:+ a.filename.toList) ∧
    (([htmlAttachment reportedRun.toRunRow (some "extract") "page",
        htmlAttachment reportedRun.toRunRow (some "load") "page"].map
          EmailAttachment.filename).Nodup ↔
      (([pageFragment "extract", pageFragment "load"].filter fun f => !f.isEmpty).map fun f =>
        keptStageId reportedRun.pipelineType f.stageId).Nodup) :=
  @perStage_filenames (fun _ _ _ => .ok "") _ _ _ (by decide) rfl rfl

/-- A run that declares the stages `a/b` and `a_b`. -/
def collidingRun : Run :=
  { reportedRun with
    declaredStages := [⟨"a/b", 0, pageTemplate⟩, ⟨"a_b", 1, pageTemplate⟩]
    distinct := by decide }

/-- Its two attachments have one name. -/
theorem declared_stages_collide : ∃ attachments,
    buildAttachments (fun _ _ _ => .ok "") collidingRun
      (collidingRun.declaredStageIds.map pageFragment) = .ok attachments ∧
    collidingRun.declaredStageIds.Nodup ∧
    ¬(attachments.map EmailAttachment.filename).Nodup :=
  ⟨_, rfl, collidingRun.distinct, by decide +kernel⟩

end MessageService.Application
