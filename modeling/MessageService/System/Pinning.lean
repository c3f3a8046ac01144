import MessageService.Infrastructure.ManifestLoader
import MessageService.System.Rows

/-!
# BeginRun is atomic and pins templates

`Begun` is everything a successful `BeginRun` does to the database: the rows it adds, and how their
template references come from those of the command (`Pinned`).

`begin_run_pins`: a call does that, or nothing; in `PER_STAGE` mode the supplied aggregation
reference plays no part; and a manifest that grows leaves the templates of the run as they are.
-/

namespace MessageService.System

open MessageService.Domain MessageService.Lib MessageService.Infrastructure
open MessageService.Application

section

variable {V : Type} [Preorder V] (parse : String → Option V) (entries : Manifest)

/-- What `_maybe_resolve_latest` makes of a reference: of `latest` the latest entry of the name, any
other it leaves alone. -/
def Pinned (ref ref' : TemplateRef) : Prop :=
  if ref.version = "latest" then ∃ m, m.ref = ref' ∧ Manifest.IsLatest parse entries ref.name m
  else ref' = ref

/-- A declared stage of a run comes from one of the command. -/
structure PinnedStage (input : DeclaredStageInput) (ds : DeclaredStage) : Prop where
  stageId : ds.stageId = input.stageId
  stageOrder : ds.stageOrder = input.stageOrder
  pinned : Pinned parse entries input.reportTemplateRef ds.reportTemplateRef

/-- A template reference stored with a run. -/
def Stores (row : RunRow) (ref : TemplateRef) : Prop :=
  row.aggregationTemplateRef = some ref ∨ ∃ ds ∈ row.declaredStages, ds.reportTemplateRef = ref

/-- Everything a successful `BeginRun` does. -/
structure Begun (cmd : BeginRunCommand) (runId : RunId) (now : Instant) (db db' : Db)
    (row : RunRow) : Prop where
  runs : db'.runs.rows = db.runs.rows ++ [row]
  stages : db'.stages.rows = db.stages.rows ++ row.declaredStages.map (initialStage runId)
  auditLog : db'.auditLog =
    db.auditLog.insert (beginRunEvent cmd runId now row.declaredStages)
  others : db' = { db with
    runs := db'.runs
    stages := db'.stages
    auditLog := db'.auditLog }
  runId : row.runId = runId
  state : row.state = .initiated
  declared : List.Forall₂ (PinnedStage parse entries) cmd.declaredStages row.declaredStages
  aggregation : match cmd.attachmentMode with
    | .singleAggregated => ∃ ref ref', cmd.aggregationTemplateRef = some ref ∧
        row.aggregationTemplateRef = some ref' ∧ Pinned parse entries ref ref'
    | .perStage => row.aggregationTemplateRef = none
  keys : ∀ ref, Stores row ref → entries.contains ref = true

end

section

variable {V : Type} [Preorder V] [DecidableLT V] [Std.Total (α := V) (· ≤ ·)]
  {parse : String → Option V} {entries : Manifest} {ports : BeginRunPorts}

theorem maybeResolveLatest_ok (hports : ports.templateRepo = entries.toRepository parse)
    {ref ref' : TemplateRef} {role : String} {stageId : Option StageId}
    (h : maybeResolveLatest ports ref role stageId = .ok ref') : Pinned parse entries ref ref' := by
  unfold maybeResolveLatest at h
  unfold Pinned
  by_cases hlatest : ref.version = "latest"
  · rw [if_neg (not_not_intro hlatest), hports] at h
    rw [if_pos hlatest]
    split at h
    · next resolved hr =>
      obtain rfl := Except.ok.inj h
      exact Manifest.resolveLatest_ok hr
    · split at h <;> cases h
  · rw [if_pos hlatest] at h
    rw [if_neg hlatest]
    exact (Except.ok.inj h).symm

theorem resolveStage_ok (hports : ports.templateRepo = entries.toRepository parse)
    {input : DeclaredStageInput} {ds : DeclaredStage} (h : resolveStage ports input = .ok ds) :
    PinnedStage parse entries input ds := by
  unfold resolveStage at h
  cases hr : maybeResolveLatest ports input.reportTemplateRef "report_template"
      (some input.stageId) with
  | error e => rw [hr] at h; cases h
  | ok ref =>
    rw [hr] at h
    obtain rfl := Except.ok.inj h
    exact ⟨rfl, rfl, maybeResolveLatest_ok hports hr⟩

omit [Preorder V] [DecidableLT V] [Std.Total (α := V) (· ≤ ·)] in
theorem checkTemplate_ok (hports : ports.templateRepo.contains = entries.contains)
    {ref : TemplateRef} {role description : String} {stageId : Option StageId}
    (h : checkTemplate ports ref role description stageId = .ok ()) :
    entries.contains ref = true := by
  unfold checkTemplate at h
  rw [hports] at h
  by_contra hnot
  rw [if_neg hnot] at h
  cases h

/-- **What a successful `BeginRun` does,** under a fresh id. -/
theorem begun_of_ok (hports : ports.templateRepo = entries.toRepository parse)
    {cmd : BeginRunCommand} {runId r : RunId} {now : Instant} {db db' : Db}
    (fresh : db.runs.get? runId = none) (owned : Owned db)
    (h : beginRun ports cmd runId now db = .ok (r, db')) :
    ∃ row, Begun parse entries cmd runId now db db' row := by
  obtain ⟨run, declared, ref, hrun, hagg, hdeclared, haggIn, hin, -, hruns, hdb, hstages⟩ :=
    beginRun_stages h
  have hcontains : ports.templateRepo.contains = entries.contains := by rw [hports]; rfl
  have hmode : run.attachmentMode = cmd.attachmentMode := congrArg RunRow.attachmentMode hrun
  have href : run.aggregationTemplateRef = ref := congrArg RunRow.aggregationTemplateRef hrun
  have hstaged : run.declaredStages = declared := congrArg RunRow.declaredStages hrun
  -- a PER_STAGE run has no aggregation reference to begin with
  have hnone : cmd.attachmentMode = .perStage → ref = none := by
    intro hp
    rw [resolveAggregationRef, hp] at hagg
    exact (Except.ok.inj hagg).symm
  have hrow : (RunRepository.runToRow run).aggregationTemplateRef = ref := by
    change (if run.attachmentMode = .singleAggregated then _ else _) = _
    split
    · exact href
    · next hne =>
      rw [hmode] at hne
      cases hm : cmd.attachmentMode with
      | singleAggregated => exact absurd hm hne
      | perStage => exact (hnone hm).symm
  have hid : (RunRepository.runToRow run).runId = runId := congrArg RunRow.runId hrun
  have haudit : db'.auditLog = db.auditLog.insert (beginRunEvent cmd runId now declared) :=
    congrArg Db.auditLog hdb
  refine ⟨RunRepository.runToRow run, ?_, ?_, ?_, ?_, hid, congrArg RunRow.state hrun, ?_, ?_, ?_⟩
  · rw [hruns]
    exact Table.rows_upsert_of_none (by rw [hid]; exact fresh)
  · rw [hstages (owned.get?_stages_of_fresh fresh), ← hstaged]
    rfl
  · rw [haudit, ← hstaged]
    rfl
  · rw [haudit]
    exact hdb
  · change List.Forall₂ _ _ run.declaredStages
    rw [hstaged]
    exact (mapM_eq_ok hdeclared).imp fun _ _ h => resolveStage_ok hports h
  · cases hm : cmd.attachmentMode with
    | perStage => exact hrow.trans (hnone hm)
    | singleAggregated =>
      have hsome := run.aggregated (hmode.trans hm)
      rw [href] at hsome
      obtain ⟨ref', rfl⟩ := Option.ne_none_iff_exists'.mp hsome
      rw [resolveAggregationRef, hm] at hagg
      cases hc : cmd.aggregationTemplateRef with
      | none => rw [hc] at hagg; cases hagg
      | some supplied =>
        simp only [hc] at hagg
        cases hr : maybeResolveLatest ports supplied "aggregation_template" none with
        | error e => rw [hr] at hagg; cases hagg
        | ok resolved =>
          rw [hr] at hagg
          obtain rfl := Option.some.inj (Except.ok.inj hagg)
          exact ⟨supplied, resolved, rfl, hrow, maybeResolveLatest_ok hports hr⟩
  · rintro stored (hs | ⟨ds, hds, rfl⟩)
    · rw [hrow] at hs
      subst hs
      exact checkTemplate_ok hcontains haggIn
    · have hds : ds ∈ declared := hstaged ▸ hds
      exact checkTemplate_ok hcontains (forM_eq_ok hin ds hds)

omit [Preorder V] [DecidableLT V] [Std.Total (α := V) (· ≤ ·)] in
/-- A `PER_STAGE` request is the same whatever aggregation reference comes with it. -/
theorem beginRun_of_perStage {cmd : BeginRunCommand} (hmode : cmd.attachmentMode = .perStage)
    (ref : Option TemplateRef) (runId : RunId) (now : Instant) :
    beginRun ports { cmd with aggregationTemplateRef := ref } runId now =
      beginRun ports cmd runId now := by
  have hpass (r : Option TemplateRef) (e : ServiceError) :
      (Tx.require (cmd.attachmentMode = .singleAggregated → r ≠ none) e : Transaction Unit) =
        pure () := by
    refine Tx.require_of fun h => ?_
    rw [hmode] at h
    cases h
  have hvalid : validateCommand ports { cmd with aggregationTemplateRef := ref } =
      validateCommand ports cmd := by
    unfold validateCommand
    simp only [hpass]
    rfl
  have hagg : resolveAggregationRef ports { cmd with aggregationTemplateRef := ref } =
      resolveAggregationRef ports cmd := by
    simp [resolveAggregationRef, hmode]
  unfold beginRun
  rw [hvalid, hagg]
  rfl

/-- **BeginRun is atomic and pins templates.** Under a fresh id and with the foreign key of `stages`
in force, a call that returns has done everything in `Begun`, and no call leaves anything in between;
one that raises, or whose unit of work fails, leaves the database as it was. In `PER_STAGE` mode the
supplied aggregation reference plays no part. Every reference of the new run stands for the same
template in every manifest that has this one's entries. -/
theorem begin_run_pins (hports : ports.templateRepo = entries.toRepository parse)
    (cmd : BeginRunCommand) (runId : RunId) (now : Instant) (fate : Tx.Fate) (db : Db)
    (fresh : db.runs.get? runId = none) (owned : Owned db) :
    let result := (beginRun ports cmd runId now).commit fate db
    (result.2 = db ∨ ∃ row, Begun parse entries cmd runId now db result.2 row) ∧
    (∀ r, result.1 = .returned r →
      r = runId ∧ ∃ row, Begun parse entries cmd runId now db result.2 row) ∧
    (∀ e, result.1 = .raised e → result.2 = db) ∧
    (fate = .fails → result.2 = db) ∧
    (cmd.attachmentMode = .perStage → ∀ ref,
      beginRun ports { cmd with aggregationTemplateRef := ref } runId now =
        beginRun ports cmd runId now) ∧
    ∀ row, Begun parse entries cmd runId now db result.2 row → ∀ ref, Stores row ref →
      ∀ entries', entries.Extends entries' → entries'.get ref = entries.get ref := by
  intro result
  have hspec := Tx.commit_spec (beginRun ports cmd runId now) fate db
  refine ⟨?_, fun r hr => ?_, fun e he => ?_, fun hf => ?_,
    fun hm ref => beginRun_of_perStage hm ref runId now, fun row hrow ref hs entries' hext => ?_⟩
  · obtain ⟨hdb, -⟩ | ⟨r, db', ok, hdb, -⟩ := hspec
    · exact .inl hdb
    · exact .inr (begun_of_ok hports fresh owned (by rw [ok, hdb]))
  · have ok : beginRun ports cmd runId now db = .ok (r, result.2) :=
      Tx.of_commit_returned (Prod.ext hr rfl)
    obtain ⟨-, -, -, -, -, -, -, -, hid, -⟩ := beginRun_stages ok
    exact ⟨hid, begun_of_ok hports fresh owned ok⟩
  · obtain ⟨hdb, -⟩ | ⟨r, db', -, -, hr | hr⟩ := hspec
    · exact hdb
    · rw [hr] at he
      cases he
    · rw [hr] at he
      cases he
  · subst hf
    refine Tx.commit_of_aborts ?_
    unfold Tx.aborts
    split <;> rfl
  · exact Manifest.get_of_extends hext (hrow.keys ref hs)

end

/-- The unit of work of a call returns. -/
def returns : Tx.Outcome ServiceError BeginRunResult → Bool
  | .returned _ => true
  | .raised _ => false
  | .broken => false

/-- Two versions of one template, the older last. -/
def sampleManifest : Manifest where
  rows := [
    { name := "report", version := "2.0", kind := .reportFragment, sourcePath := "b.j2"
      name_ne := sampleTemplate.name_ne },
    { name := "report", version := "1.0", kind := .reportFragment, sourcePath := "a.j2"
      name_ne := sampleTemplate.name_ne }]
  nodup := by decide

/-- A parser of their versions. -/
def sampleParse : String → Option Nat
  | "1.0" => some 1
  | "2.0" => some 2
  | _ => none

/-- A request for the latest. -/
def sampleLatest : BeginRunCommand where
  pipelineType := "daily"
  tags := .empty
  declaredStages :=
    [⟨"load", 0, ⟨"report", "latest", sampleTemplate.name_ne, by decide⟩, sampleSubmit.stageId_ne⟩]
  attachmentMode := .perStage
  pipelineType_ne := sampleBegin.pipelineType_ne

/-- The latest version is pinned. -/
theorem begin_run_pins_sample :
    let ports : BeginRunPorts := {
      pipelineRegistry := .ofList ["daily"]
      tagVocabulary := fun _ => true
      templateRepo := sampleManifest.toRepository sampleParse }
    let result := (beginRun ports sampleLatest sampleRun 0).commit .commits {}
    ∃ row, Begun sampleParse sampleManifest sampleLatest sampleRun 0 {} result.2 row := by
  intro ports result
  have howned : Owned {} := by
    intro k stage hstage
    cases hstage
  have hreturned : returns result.1 = true := by
    decide +kernel
  have hpins := @begin_run_pins Nat _ _ _ sampleParse sampleManifest ports rfl sampleLatest
    sampleRun 0 .commits {} rfl howned
  cases hr : result.1 with
  | returned r => exact (hpins.2.1 r hr).2
  | raised e => rw [hr] at hreturned; cases hreturned
  | broken => rw [hr] at hreturned; cases hreturned

end MessageService.System
