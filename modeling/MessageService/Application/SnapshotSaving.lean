import MessageService.Application.AssembleAndDeliver
import MessageService.Application.BeginRun
import MessageService.Application.FinalizeRun
import MessageService.Application.Report
import MessageService.Application.SubmitStageReport
import MessageService.Infrastructure.ReportStore

/-!
# The delivery with its report store

`execute` again, with what `AssembleAndDeliver` leaves out: `_save_fragments` after the stages are
rendered, and `_save_email_body` before a run is closed as sent or as too large. Both swallow a
`PersistenceError` and nothing else. The store is a parameter of the delivery (`SaveFn`):
`filesystemStore` is `FilesystemReportStore`, `nullStore` saves nothing.

Results:
* `savingStep_eq`: a step is the one without the store, unless one of its saves escapes.
* `savingSteps_of_ok`, `savingSteps_of_error`: the same of the first `n` steps.
* `trySave_ok_iff`: a save is got over exactly when it is `Harmless`.
* `deliver_eq_iff`: when the store has no effect on a delivery.
-/

namespace MessageService.Application

open MessageService.Domain MessageService.Lib MessageService.Infrastructure
open MessageService.Infrastructure.ReportStore (Key Tree Fault)

/-! ## The store -/

/-- A call of the report store, with what the file system does to it. -/
structure SaveCall where
  key : Key
  html : String
  fault : Option Fault

/-- A report store. -/
abbrev SaveFn := SaveCall → Tree → Except (Raised ServiceError) Unit × Tree

/-- `FilesystemReportStore`. -/
def filesystemStore (root : PosixPath) : SaveFn := fun call t =>
  ReportStore.save root call.key (.ofString call.html) call.fault t

/-- A store that saves nothing. -/
def nullStore : SaveFn := fun _ t => (.ok (), t)

/-- One `try` of `_save_fragments` or `_save_email_body`. -/
def trySave (store : SaveFn) (call : SaveCall) (t : Tree) :
    Except (Raised ServiceError) Unit × Tree :=
  match store call t with
  | (.ok (), t') => (.ok (), t')
  | (.error (.own e), t') =>
    if e.errorClass = .persistenceError then (.ok (), t') else (.error (.own e), t')
  | (.error (.through exc), t') => (.error (.through exc), t')

/-- The saves in turn, up to an exception. -/
def saveInTurn (store : SaveFn) : List SaveCall → Tree → Except (Raised ServiceError) Unit × Tree
  | [], t => (.ok (), t)
  | call :: calls, t =>
    match trySave store call t with
    | (.ok (), t') => saveInTurn store calls t'
    | (.error e, t') => (.error e, t')

/-- The calls of `_save_fragments`. -/
def fragmentCalls (runId : RunId) (faults : Nat → Option Fault)
    (fragments : List RenderedFragment) : List SaveCall :=
  (fragments.filter fun f => !f.isEmpty).zipIdx.map fun (f, i) =>
    ⟨.fragment runId f.stageId, f.renderedHtml, faults i⟩

/-- The call of `_save_email_body`. -/
def emailBodyCall (runId : RunId) (faults : Nat → Option Fault) (html : String) : SaveCall :=
  ⟨.emailBody runId, html, faults 0⟩

/-! ## The delivery -/

/-- What a step takes from outside: what other tasks have made of the database before it, and the
fault that the `i`-th save of it meets. -/
structure SavingInput extends DeliveryInput where
  others : Db → Db
  faults : Nat → Option Fault

/-- Where a delivery stands: an exception of the store may have left it. -/
inductive SavingPhase where
  | running (phase : DeliveryPhase)
  | escaped (e : Raised ServiceError)

/-- The delivery goes on unless a save escapes. -/
def afterSaving (phase : DeliveryPhase) :
    Except (Raised ServiceError) Unit × Tree → SavingPhase × Tree
  | (.ok (), t) => (.running phase, t)
  | (.error e, t) => (.escaped e, t)

section

variable (store : SaveFn) (cfg : DeliveryConfig) (runId : RunId) (input : SavingInput)

/-- The body of the `try` around the rendering, from the stages on. -/
def renderAndSave (run : Run) (stages : List Stage) (t : Tree) (declaring : RunRow) :
    SavingPhase × Tree :=
  match renderStages input.render declaring stages with
  | .error e => (.running (afterRendering run (.error e)), t)
  | .ok fragments =>
    let assembled : Except RenderError Assembled := do
      let attachments ← buildAttachments input.render run fragments
      let body ← renderEmailBody cfg.toBodyTemplates input.render run.toRunRow fragments
      pure { bodyHtml := body, attachments := attachments }
    afterSaving (afterRendering run assembled)
      (saveInTurn store (fragmentCalls runId input.faults fragments) t)

/-- The body is saved when the e-mail went out or was too large. -/
def savesBody : Option MailError → Bool
  | none => true
  | some e => e.sizeExceeded

/-- One step of a delivery. -/
def savingStep : SavingPhase × Tree → Db → (SavingPhase × Tree) × Db
  | (.escaped e, t), db => ((.escaped e, t), db)
  | (.running (.rendering run stages), t), db =>
    (RunRepository.get runId).resume input.fate
      (fun declaring => renderAndSave store cfg runId input run stages t declaring.toRunRow)
      (fun outcome => (.running (.ended outcome), t)) db
  | (.running (.resolving run assembled), t), db =>
    (SubscriptionRepository.listRecipientsForRun run.pipelineType run.tags).resume input.fate
      (fun recipients =>
        let phase := afterResolving cfg run.toRunRow assembled recipients
        if recipients.elems = [] then
          afterSaving phase
            (saveInTurn store [emailBodyCall runId input.faults assembled.bodyHtml] t)
        else (.running phase, t))
      (fun outcome => (.running (.ended outcome), t)) db
  | (.running (.sending email), t), db =>
    let phase := afterSending email input.send
    if savesBody input.send then
      (afterSaving phase (saveInTurn store [emailBodyCall runId input.faults email.bodyHtml] t), db)
    else ((.running phase, t), db)
  | (.running phase, t), db =>
    let r := deliveryStep cfg runId input.toDeliveryInput phase db
    ((.running r.1, t), r.2)

/-! ## A step and its saves -/

/-- The saves of one step of a delivery. -/
def savesAt : DeliveryPhase → Db → List SaveCall
  | .rendering _ stages, db =>
    ((RunRepository.get runId).resume input.fate
      (fun declaring => match renderStages input.render declaring.toRunRow stages with
        | .error _ => []
        | .ok fragments => fragmentCalls runId input.faults fragments)
      (fun _ => []) db).1
  | .resolving run assembled, db =>
    ((SubscriptionRepository.listRecipientsForRun run.pipelineType run.tags).resume input.fate
      (fun recipients =>
        if recipients.elems = [] then [emailBodyCall runId input.faults assembled.bodyHtml] else [])
      (fun _ => []) db).1
  | .sending email, _ =>
    if savesBody input.send then [emailBodyCall runId input.faults email.bodyHtml] else []
  | _, _ => []

variable {store} {cfg} {runId} {input}

/-- Nothing is saved once the run is being closed. -/
theorem savesAt_of_remaining {phase : DeliveryPhase} (h : phase.remaining ≤ 2) (db : Db) :
    savesAt runId input phase db = [] := by
  cases phase with
  | scheduled | loading _ | rendering _ _ | resolving _ _ | sending _ =>
    simp [DeliveryPhase.remaining] at h
  | closing _ _ | notifying | ended _ => rfl

theorem renderAndSave_eq (run : Run) (stages : List Stage) (t : Tree) (declaring : RunRow) :
    renderAndSave store cfg runId input run stages t declaring =
      afterSaving (afterRendering run
        (assemble cfg.toBodyTemplates input.render run declaring stages))
        (saveInTurn store (match renderStages input.render declaring stages with
          | .error _ => []
          | .ok fragments => fragmentCalls runId input.faults fragments) t) := by
  unfold renderAndSave assemble
  cases renderStages input.render declaring stages <;> rfl

/-- **A step is the one without the store**, unless one of its saves escapes. -/
theorem savingStep_eq (phase : DeliveryPhase) (t : Tree) (db : Db) :
    savingStep store cfg runId input (.running phase, t) db =
      (afterSaving (deliveryStep cfg runId input.toDeliveryInput phase db).1
        (saveInTurn store (savesAt runId input phase db) t),
        (deliveryStep cfg runId input.toDeliveryInput phase db).2) := by
  cases phase with
  | rendering run stages =>
    simp only [savingStep, renderAndSave_eq, deliveryStep, savesAt, Tx.resume_snd]
    exact Tx.resume_map₂ (fun calls phase => afterSaving phase (saveInTurn store calls t)) _ _ _
      (fun _ => []) _ _ _
  | resolving run assembled =>
    simp only [savingStep, deliveryStep, savesAt, Tx.resume_snd]
    rw [← Tx.resume_map₂ (fun calls phase => afterSaving phase (saveInTurn store calls t))]
    congr 1
    funext recipients
    split <;> rfl
  | sending email =>
    simp only [savingStep, deliveryStep, savesAt]
    split <;> rfl
  | scheduled | loading _ | closing _ _ | notifying | ended _ => rfl

end

/-! ## A whole delivery -/

section

variable (store : SaveFn) (cfg : DeliveryConfig) (runId : RunId) (inputs : Nat → SavingInput)
  (t : Tree) (db : Db)

/-- The first `n` steps of a delivery. -/
def savingSteps : Nat → (SavingPhase × Tree) × Db :=
  System.alone (fun i s => savingStep store cfg runId (inputs i) s.1 ((inputs i).others s.2))
    ((.running .scheduled, t), db)

/-- The same without a store. -/
def bareSteps : Nat → DeliveryPhase × Db :=
  System.alone (fun i s => deliveryStep cfg runId (inputs i).toDeliveryInput s.1
    ((inputs i).others s.2)) (.scheduled, db)

/-- The saves of the first `n` steps. -/
def savesUpTo (n : Nat) : List SaveCall :=
  (List.range n).flatMap fun i =>
    savesAt runId (inputs i) (bareSteps cfg runId inputs db i).1
      ((inputs i).others (bareSteps cfg runId inputs db i).2)

/-- What the step that starts in this phase hands to the mailer. -/
def mailsAt (now : Instant) : SavingPhase → List OutboundEmail
  | .running (.sending email) => [email]
  | .running .notifying =>
    if cfg.adminRecipients = [] then [] else (adminNotification cfg runId now).toOption.toList
  | _ => []

/-- What a delivery comes to: how it ends, what it sent, and the database. -/
structure Delivered where
  ended : SavingPhase
  sent : List OutboundEmail
  db : Db

/-- `execute` with a store: its seven steps. -/
def deliver : Delivered :=
  let steps := savingSteps store cfg runId inputs t db
  { ended := (steps 7).1.1
    sent := (List.range 7).flatMap fun i => mailsAt cfg runId (inputs i).now (steps i).1.1
    db := (steps 7).2 }

end

section

variable {store : SaveFn} {cfg : DeliveryConfig} {runId : RunId} {inputs : Nat → SavingInput}
  {t t' : Tree} {db : Db}

theorem saveInTurn_append_of_ok {calls calls' : List SaveCall}
    (h : saveInTurn store calls t = (.ok (), t')) :
    saveInTurn store (calls ++ calls') t = saveInTurn store calls' t' := by
  induction calls generalizing t with
  | nil =>
    cases h
    rfl
  | cons call calls ih =>
    rw [saveInTurn] at h
    rw [List.cons_append, saveInTurn]
    split at h
    · exact ih h
    · cases h

theorem saveInTurn_append_of_error {calls calls' : List SaveCall} {e : Raised ServiceError}
    (h : saveInTurn store calls t = (.error e, t')) :
    saveInTurn store (calls ++ calls') t = (.error e, t') := by
  induction calls generalizing t with
  | nil => cases h
  | cons call calls ih =>
    rw [saveInTurn] at h
    rw [List.cons_append, saveInTurn]
    split at h
    · exact ih h
    · exact h

theorem savesUpTo_succ (n : Nat) : savesUpTo cfg runId inputs db (n + 1) =
    savesUpTo cfg runId inputs db n ++ savesAt runId (inputs n) (bareSteps cfg runId inputs db n).1
      ((inputs n).others (bareSteps cfg runId inputs db n).2) := by
  unfold savesUpTo
  rw [List.range_succ, List.flatMap_append, List.flatMap_singleton]

theorem remaining_bareSteps (n : Nat) :
    (bareSteps cfg runId inputs db n).1.remaining ≤ 7 - n :=
  System.alone_measure (μ := fun s : DeliveryPhase × Db => s.1.remaining)
    (fun i s => remaining_deliveryStep cfg runId (inputs i).toDeliveryInput s.1 _)
    (.scheduled, db) n

theorem savingSteps_succ (n : Nat) : savingSteps store cfg runId inputs t db (n + 1) =
    savingStep store cfg runId (inputs n) (savingSteps store cfg runId inputs t db n).1
      ((inputs n).others (savingSteps store cfg runId inputs t db n).2) := rfl

/-- **While its saves go through, a delivery is the one without a store.** -/
theorem savingSteps_of_ok (n : Nat)
    (h : saveInTurn store (savesUpTo cfg runId inputs db n) t = (.ok (), t')) :
    savingSteps store cfg runId inputs t db n =
      ((.running (bareSteps cfg runId inputs db n).1, t'), (bareSteps cfg runId inputs db n).2) := by
  induction n generalizing t' with
  | zero =>
    cases h
    rfl
  | succ n ih =>
    rw [savesUpTo_succ] at h
    cases hn : saveInTurn store (savesUpTo cfg runId inputs db n) t with
    | mk result t1 =>
      cases result with
      | error e =>
        rw [saveInTurn_append_of_error hn] at h
        cases h
      | ok u =>
        rw [saveInTurn_append_of_ok hn] at h
        rw [savingSteps_succ, ih hn, savingStep_eq, h]
        rfl

/-- **Once a save has escaped, the delivery has ended.** -/
theorem savingSteps_of_error {e : Raised ServiceError} (n : Nat)
    (h : saveInTurn store (savesUpTo cfg runId inputs db n) t = (.error e, t')) :
    (savingSteps store cfg runId inputs t db n).1 = (.escaped e, t') := by
  induction n generalizing t' with
  | zero => cases h
  | succ n ih =>
    rw [savesUpTo_succ] at h
    cases hn : saveInTurn store (savesUpTo cfg runId inputs db n) t with
    | mk result t1 =>
      cases result with
      | error e' =>
        rw [saveInTurn_append_of_error hn] at h
        cases h
        rw [savingSteps_succ, ih hn]
        rfl
      | ok u =>
        rw [saveInTurn_append_of_ok hn] at h
        rw [savingSteps_succ, savingSteps_of_ok n hn, savingStep_eq, h]
        rfl

variable (cfg runId inputs db) in
theorem exists_savesUpTo_append {n m : Nat} (h : n ≤ m) : ∃ calls,
    savesUpTo cfg runId inputs db m = savesUpTo cfg runId inputs db n ++ calls := by
  induction m, h using Nat.le_induction with
  | base => exact ⟨[], (List.append_nil _).symm⟩
  | succ m _ ih =>
    obtain ⟨calls, hm⟩ := ih
    rw [savesUpTo_succ, hm, List.append_assoc]
    exact ⟨_, rfl⟩

/-- A delivery whose saves all go through. -/
theorem deliver_of_ok (h : saveInTurn store (savesUpTo cfg runId inputs db 7) t = (.ok (), t')) :
    deliver store cfg runId inputs t db = {
      ended := .running (bareSteps cfg runId inputs db 7).1
      sent := (List.range 7).flatMap fun i =>
        mailsAt cfg runId (inputs i).now (.running (bareSteps cfg runId inputs db i).1)
      db := (bareSteps cfg runId inputs db 7).2 } := by
  have hsteps (i : Nat) (hi : i ≤ 7) : ∃ t1, savingSteps store cfg runId inputs t db i =
      ((.running (bareSteps cfg runId inputs db i).1, t1), (bareSteps cfg runId inputs db i).2) := by
    obtain ⟨calls, hcalls⟩ := exists_savesUpTo_append cfg runId inputs db hi
    cases hn : saveInTurn store (savesUpTo cfg runId inputs db i) t with
    | mk result t1 =>
      cases result with
      | error e =>
        rw [hcalls, saveInTurn_append_of_error hn] at h
        cases h
      | ok u => exact ⟨t1, savingSteps_of_ok i hn⟩
  have hsent : (List.range 7).flatMap (fun i => mailsAt cfg runId (inputs i).now
      (savingSteps store cfg runId inputs t db i).1.1) = (List.range 7).flatMap fun i =>
        mailsAt cfg runId (inputs i).now (.running (bareSteps cfg runId inputs db i).1) := by
    refine List.flatMap_congr fun i hi => ?_
    obtain ⟨t1, hi⟩ := hsteps i (List.mem_range.mp hi).le
    rw [hi]
  simp only [deliver, hsent, savingSteps_of_ok 7 h]

end

/-! ## Harmless saves -/

section

variable (root : PosixPath)

/-- The path has no null character, and no fault raises anything but an `OSError`. -/
structure Harmless (call : SaveCall) (t : Tree) : Prop where
  noNul : ∀ n ∈ (call.key.path root).parts, Char.ofNat 0 ∉ n
  osErrors : ∀ path, call.key.file root = .ok path → ∀ f, call.fault = some f →
    f.Occurs path (.ofString call.html) t → f.exc.isA "OSError" = true

/-- Each save in turn is harmless. -/
def AllHarmless : List SaveCall → Tree → Prop
  | [], _ => True
  | call :: calls, t => Harmless root call t ∧ AllHarmless calls (filesystemStore root call t).2

variable {root} {store : SaveFn} {call : SaveCall} {calls calls' : List SaveCall} {t t' : Tree}

theorem trySave_snd (store : SaveFn) (call : SaveCall) (t : Tree) :
    (trySave store call t).2 = (store call t).2 := by
  unfold trySave
  cases store call t with
  | mk result t' =>
    cases result with
    | ok u => rfl
    | error e =>
      cases e with
      | own e =>
        simp only
        split <;> rfl
      | through exc => rfl

/-- What `_contained` raises is caught unless the path has a null character. -/
theorem noNul_iff : (∀ n ∈ (call.key.path root).parts, Char.ofNat 0 ∉ n) ↔
    ∀ exc, call.key.file root ≠ .error (.through exc) := by
  unfold ReportStore.Key.file ReportStore.contained
  by_cases h : (call.key.path root).parts.any fun n => n.contains (Char.ofNat 0)
  · rw [if_pos h]
    obtain ⟨n, hn, hnul⟩ := List.any_eq_true.mp h
    exact iff_of_false (fun hno => hno n hn (List.contains_iff_mem.mp hnul)) fun hno => hno _ rfl
  · rw [if_neg h]
    refine iff_of_true (fun n hn hnul => h ?_) fun exc he => ?_
    · exact List.any_eq_true.mpr ⟨n, hn, List.contains_iff_mem.mpr hnul⟩
    · split at he <;> cases he

theorem key_file_own {key : Key} {e : ServiceError} (h : key.file root = .error (.own e)) :
    e.errorClass = .persistenceError := by
  unfold ReportStore.Key.file ReportStore.contained at h
  split at h
  · cases h
  · split at h
    · cases h
    · cases h
      rfl

/-- **When `_save_fragments` and `_save_email_body` get over a save.** -/
theorem trySave_ok_iff : (trySave (filesystemStore root) call t).1 = .ok () ↔
    Harmless root call t := by
  have hharmless : Harmless root call t ↔
      (∀ exc, call.key.file root ≠ .error (.through exc)) ∧
        ∀ path, call.key.file root = .ok path → ∀ f, call.fault = some f →
          f.Occurs path (.ofString call.html) t → f.exc.isA "OSError" = true := by
    rw [← noNul_iff]
    exact ⟨fun h => ⟨h.noNul, h.osErrors⟩, fun h => ⟨h.1, h.2⟩⟩
  rw [hharmless]
  unfold trySave filesystemStore ReportStore.save
  cases hfile : call.key.file root with
  | error e =>
    cases e with
    | own e => simp [key_file_own hfile]
    | through exc => simp
  | ok path =>
    have hthrough (exc : PyException) (hexc : exc.isA "OSError" = false) :
        (∃ t', ReportStore.writeAndReplace path (.ofString call.html) call.fault t =
          .error (exc, t')) ↔ ∃ f, call.fault = some f ∧ f.exc = exc ∧
            f.Occurs path (.ofString call.html) t :=
      ReportStore.writeAndReplace_through (ReportStore.isEncodable_ofString call.html) hexc
    simp only [ne_eq, reduceCtorEq, not_false_eq_true, implies_true, true_and, Except.ok.injEq,
      forall_eq', ReportStore.atomicWriteText]
    cases hw : ReportStore.writeAndReplace path (.ofString call.html) call.fault t with
    | ok t' =>
      refine iff_of_true rfl fun f hf hoccurs => Bool.of_not_eq_false fun hexc => ?_
      obtain ⟨t1, h1⟩ := (hthrough f.exc hexc).mpr ⟨f, hf, rfl, hoccurs⟩
      rw [hw] at h1
      cases h1
    | error r =>
      obtain ⟨exc, t'⟩ := r
      by_cases hexc : exc.isA "OSError" = true
      · -- the fault that occurs, if any, raises the exception that is caught
        have hone : exc.isOneOf ["OSError"] = true := by simpa [PyException.isOneOf] using hexc
        simp only [handling, if_pos hone, ReportStore.saveError, if_true]
        refine iff_of_true trivial fun f hf hoccurs => Bool.of_not_eq_false fun hf' => ?_
        obtain ⟨t1, h1⟩ := (hthrough f.exc hf').mpr ⟨f, hf, rfl, hoccurs⟩
        rw [hw] at h1
        cases h1
        exact absurd hexc (by simp [hf'])
      · have hone : exc.isOneOf ["OSError"] ≠ true := by simpa [PyException.isOneOf] using hexc
        simp only [handling, if_neg hone, reduceCtorEq, false_iff]
        obtain ⟨f, hf, rfl, hoccurs⟩ := (hthrough exc (by simpa using hexc)).mp ⟨t', hw⟩
        exact fun h => hexc (h f hf hoccurs)

/-- The saves of a list go through when each in turn is harmless. -/
theorem saveInTurn_ok_iff : (saveInTurn (filesystemStore root) calls t).1 = .ok () ↔
    AllHarmless root calls t := by
  induction calls generalizing t with
  | nil => exact iff_of_true rfl trivial
  | cons call calls ih =>
    rw [saveInTurn, AllHarmless, ← trySave_ok_iff, ← trySave_snd (filesystemStore root)]
    cases trySave (filesystemStore root) call t with
    | mk result t' =>
      cases result with
      | ok u => simpa using ih
      | error e => simp

/-- A file system that raises nothing but `OSError`s harms no save whose path has no null
character. -/
theorem allHarmless_of_noNul
    (hfaults : ∀ call ∈ calls, ∀ f, call.fault = some f → f.exc.isA "OSError" = true)
    (hpaths : ∀ call ∈ calls, ∀ n ∈ (call.key.path root).parts, Char.ofNat 0 ∉ n) :
    AllHarmless root calls t := by
  induction calls generalizing t with
  | nil => trivial
  | cons call calls ih =>
    obtain ⟨hfault, hfaults⟩ := List.forall_mem_cons.mp hfaults
    obtain ⟨hpath, hpaths⟩ := List.forall_mem_cons.mp hpaths
    exact ⟨⟨hpath, fun _ _ f hf _ => hfault f hf⟩, ih hfaults hpaths⟩

theorem saveInTurn_nullStore : saveInTurn nullStore calls t = (.ok (), t) := by
  induction calls with
  | nil => rfl
  | cons call calls ih => exact ih

variable {cfg : DeliveryConfig} {runId : RunId} {inputs : Nat → SavingInput} {db : Db}

/-- **Snapshots do not affect a delivery** exactly as long as its saves are harmless: then it ends
as with the store that saves nothing, has sent the same e-mails and leaves the same database. -/
theorem deliver_eq_iff :
    deliver (filesystemStore root) cfg runId inputs t db =
        deliver nullStore cfg runId inputs t db ↔
      AllHarmless root (savesUpTo cfg runId inputs db 7) t := by
  rw [← saveInTurn_ok_iff, deliver_of_ok saveInTurn_nullStore]
  cases h : saveInTurn (filesystemStore root) (savesUpTo cfg runId inputs db 7) t with
  | mk result t' =>
    cases result with
    | ok u => exact iff_of_true (deliver_of_ok h) rfl
    | error e =>
      refine iff_of_false (fun heq => ?_) nofun
      have hended := congrArg Delivered.ended heq
      rw [deliver, savingSteps_of_error 7 h] at hended
      cases hended

end

/-! ## A stage id with a null character -/

/-- A run of one stage, begun, submitted to and finalized. -/
def finalizedRun (runId : RunId) (stageId : StageId) (hrun : runId ≠ "") (hstage : stageId ≠ "")
    (hposition : some EmailBodyPosition.afterStagesSummary = none ↔
      some ([] : Dict Json) = none) : Transaction Unit := do
  let ports : BeginRunPorts := {
    pipelineRegistry := .ofList [reportedRun.pipelineType]
    tagVocabulary := fun _ => false
    templateRepo := {
      contains := fun ref => ref = pageTemplate
      resolveLatest := fun _ => .ok pageTemplate } }
  let _ ← beginRun ports {
    pipelineType := reportedRun.pipelineType
    tags := .empty
    declaredStages := [⟨stageId, 0, pageTemplate, hstage⟩]
    attachmentMode := .perStage
    pipelineType_ne := by decide } runId 0
  let _ ← submitStageReport {
    runId, stageId
    reportContext := some []
    emailBodyContext := some []
    emailBodyPosition := some .afterStagesSummary
    runId_ne := hrun
    stageId_ne := hstage
    position_iff := hposition } 1
  let _ ← finalizeRun ⟨runId, hrun⟩ 2

/-- A delivery to which nothing happens. -/
def quietConfig : DeliveryConfig where
  emailBodyTemplateRef := pageTemplate
  emailBodyTemplateOverrides := fun _ => none
  fromAddress := "service@example.org"
  adminRecipients := []
  subjectTemplates := fun _ => none

/-- Its steps. -/
def quietInputs (i : Nat) : SavingInput where
  now := 3 + i
  fate := .commits
  render := fun _ _ _ => .ok "page"
  send := none
  others := id
  faults := fun _ => none

/-- The state a delivery leaves its run in. -/
def Delivered.runState (d : Delivered) (runId : RunId) : Option RunState :=
  (d.db.runs.get? runId).map RunRow.state

/-- **BeginRun accepts a stage id whose file the store refuses with a `ValueError`.** The delivery
of its run ends there, in `SENDING`; without the store the run is closed as sent. -/
theorem nul_stage_id_strands_run :
    ∃ db, finalizedRun reportedRun.runId "load\x00" (by decide) (by decide) (by decide) {} =
        .ok ((), db) ∧
      let root : PosixPath := { parts := ["srv".toList] }
      let saved := deliver (filesystemStore root) quietConfig reportedRun.runId quietInputs .empty db
      let unsaved := deliver nullStore quietConfig reportedRun.runId quietInputs .empty db
      saved.runState reportedRun.runId = some .sending ∧
        unsaved.runState reportedRun.runId = some .sent ∧ saved ≠ unsaved := by
  have hrun : (finalizedRun reportedRun.runId "load\x00" (by decide) (by decide) (by decide)
      {}).toOption.any (fun r =>
        (deliver (filesystemStore { parts := ["srv".toList] }) quietConfig reportedRun.runId
          quietInputs .empty r.2).runState reportedRun.runId = some .sending ∧
        (deliver nullStore quietConfig reportedRun.runId quietInputs .empty r.2).runState
          reportedRun.runId = some .sent) = true := by decide +kernel
  obtain ⟨⟨u, db⟩, hdb, hstates⟩ := (Option.any_eq_true _ _).mp hrun
  obtain ⟨hsaved, hunsaved⟩ := of_decide_eq_true hstates
  refine ⟨db, ?_, hsaved, hunsaved, fun heq => ?_⟩
  · cases hx : finalizedRun reportedRun.runId "load\x00" _ _ _ {} with
    | ok r =>
      rw [hx] at hdb
      rw [Option.some.inj hdb]
    | error e =>
      rw [hx] at hdb
      cases hdb
  · rw [heq, hunsaved] at hsaved
    cases hsaved

end MessageService.Application
