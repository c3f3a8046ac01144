import MessageService.System.Rows

/-!
# A retry replaces content exactly

The accepted submissions of a run of the service (`accepted`) are those whose unit of work commits.
The row of a stage is a function of the accepted submissions to it (`Reflects`): its contents are
those of the last one, and its state counts them.

* `ledger_of_run`: so it is in every state of every run.
* `retry_replaces_content`: the theorem, with what one more submission returns and leaves alone.
-/

namespace MessageService.System

open MessageService.Domain MessageService.Lib MessageService.Infrastructure
open MessageService.Application

/-! ## Accepted submissions -/

/-- A submission, and the clock reading it was made at. -/
structure Submission where
  cmd : SubmitStageReportCommand
  now : Instant

/-- The stage it is for. -/
def Submission.key (s : Submission) : RunId × StageId := (s.cmd.runId, s.cmd.stageId)

/-- Those of a list that are for one stage. -/
def submissionsTo (k : RunId × StageId) (subs : List Submission) : List Submission :=
  subs.filter fun s => s.key = k

@[simp] theorem submissionsTo_append (k : RunId × StageId) (subs subs' : List Submission) :
    submissionsTo k (subs ++ subs') = submissionsTo k subs ++ submissionsTo k subs' :=
  List.filter_append _ _

variable (cfg : Config)

/-- The submission a step accepts, if any: its unit of work is not rolled back. -/
def acceptedBy (w : World) (l : Label) : List Submission :=
  match l with
  | .submitStageReport cmd now _ => if aborts cfg w l then [] else [⟨cmd, now⟩]
  | _ => []

/-- The submissions accepted in a run from `w`, in order. -/
def accepted : World → List Label → List Submission
  | _, [] => []
  | w, l :: ls =>
    match step cfg w l with
    | none => []
    | some w' => acceptedBy cfg w l ++ accepted w' ls

/-! ## What the row of a stage says about them -/

/-- The row of a stage after the submissions to it that were accepted. -/
structure Reflects (stage : Stage) (subs : List Submission) : Prop where
  reportContext : stage.reportContext =
    subs.getLast?.bind fun s => serializeContext s.cmd.reportContext
  emailBodyContext : stage.emailBodyContext =
    subs.getLast?.bind fun s => serializeContext s.cmd.emailBodyContext
  emailBodyPosition : stage.emailBodyPosition = subs.getLast?.bind fun s => s.cmd.emailBodyPosition
  submittedAt : stage.submittedAt = subs.getLast?.map fun s => s.now
  pending : stage.state = .pending ↔ subs.length = 0
  submitted : stage.state = .submitted ↔ subs.length = 1
  retried : stage.state = .retried ↔ 1 < subs.length
  position_iff : stage.emailBodyPosition ≠ none ↔ stage.emailBodyContext ≠ none

theorem reflects_initialStage (runId : RunId) (ds : DeclaredStage) :
    Reflects (initialStage runId ds) [] where
  reportContext := rfl
  emailBodyContext := rfl
  emailBodyPosition := rfl
  submittedAt := rfl
  pending := by simp [initialStage]
  submitted := by simp [initialStage]
  retried := by simp [initialStage]
  position_iff := by simp [initialStage]

/-- One more accepted submission. -/
theorem Reflects.submit {current : Stage} {subs : List Submission} (h : Reflects current subs)
    (cmd : SubmitStageReportCommand) (runId : RunId) (now : Instant) :
    Reflects (submittedStage cmd runId current now) (subs ++ [⟨cmd, now⟩]) := by
  have hstate : (submittedStage cmd runId current now).state =
      if subs.length = 0 then .submitted else .retried := by
    change (if current.state = .pending then _ else _) = _
    by_cases hp : current.state = .pending
    · rw [if_pos hp, if_pos (h.pending.mp hp)]
    · rw [if_neg hp, if_neg fun e => hp (h.pending.mpr e)]
  refine ⟨?_, ?_, ?_, ?_, ?_, ?_, ?_,
    not_congr (cmd.position_iff.trans serializeContext_eq_none_iff.symm)⟩
  · simp [submittedStage]
  · simp [submittedStage]
  · simp [submittedStage]
  · simp [submittedStage]
  · rw [hstate]
    split <;> simp
  · rw [hstate, List.length_append, List.length_singleton]
    split <;> simp [*]
  · rw [hstate, List.length_append, List.length_singleton]
    by_cases hn : subs.length = 0
    · rw [if_pos hn]
      exact iff_of_false (by decide) (by omega)
    · rw [if_neg hn]
      exact iff_of_true rfl (by omega)

/-- What the rows of all stages say, and that every stage submitted to has its row. -/
structure Ledger (w : World) (subs : List Submission) : Prop where
  owned : Owned w.db
  rows : ∀ k stage, w.db.stages.get? k = some stage → Reflects stage (submissionsTo k subs)
  known : ∀ s ∈ subs, w.db.stages.get? s.key ≠ none

variable {cfg}

/-- An accepted submission has run its transaction to its end. -/
theorem submitted_of_not_aborts {w w' : World} {cmd : SubmitStageReportCommand} {now : Instant}
    {fate : Tx.Fate} (h : step cfg w (.submitStageReport cmd now fate) = some w')
    (ha : aborts cfg w (.submitStageReport cmd now fate) = false) :
    ∃ r, submitStageReport cmd now w.db = .ok (r, w'.db) := by
  obtain rfl := Option.some.inj h
  obtain ⟨r, db', ok, hdb⟩ := Tx.commit_of_not_aborts ha
  exact ⟨r, by rw [ok, hdb]⟩

/-- What an accepted submission makes of the row of each stage. -/
theorem get?_stages_of_submitted {cmd : SubmitStageReportCommand} {now : Instant}
    {r : SubmitStageReportResult} {db db' : Db} (ok : submitStageReport cmd now db = .ok (r, db')) :
    ∃ current, db.stages.get? (cmd.runId, cmd.stageId) = some current ∧
      r = { stageState := nextStageState current.state
            wasRetry := decide (current.state ≠ .pending) } ∧
      ∀ k, db'.stages.get? k = if k = (cmd.runId, cmd.stageId) then
        some (submittedStage cmd cmd.runId current now) else db.stages.get? k := by
  obtain ⟨current, hcurrent, -, hr, hstages⟩ := submitStageReport_stage ok
  refine ⟨current, hcurrent, hr, fun k => ?_⟩
  have hkey : (submittedStage cmd cmd.runId current now).key = (cmd.runId, cmd.stageId) := rfl
  rw [hstages, Table.get?_upsert, hkey]
  by_cases hk : k = (cmd.runId, cmd.stageId)
  · rw [if_pos hk, if_pos hk, hk, hcurrent]
    rfl
  · rw [if_neg hk, if_neg hk]

/-- A step that accepts no submission. -/
theorem Ledger.of_unaccepted {w w' : World} {l : Label} {subs : List Submission}
    (hw : Ledger w subs) (h : step cfg w l = some w') (hnone : acceptedBy cfg w l = []) :
    Ledger w' subs := by
  have hkept {k : RunId × StageId} {stage : Stage} (hk : w.db.stages.get? k = some stage) :
      w'.db.stages.get? k = some stage := by
    obtain hsame | ⟨fresh, -, was, -⟩ | @⟨cmd, now, fate, -, -, -, -, -, -⟩ :=
      stage_of_step hw.owned h k
    · exact hsame.trans hk
    · rw [was] at hk
      cases hk
    · have ha : aborts cfg w (.submitStageReport cmd now fate) = true := by
        by_contra ha
        rw [acceptedBy, if_neg ha] at hnone
        cases hnone
      rw [db_of_aborts cfg h ha]
      exact hk
  refine ⟨hw.owned.step h, fun k stage hstage => ?_, fun s hs => ?_⟩
  · cases hold : w.db.stages.get? k with
    | some old =>
      obtain rfl := Option.some.inj ((hkept hold).symm.trans hstage)
      exact hw.rows k old hold
    | none =>
      obtain hsame | ⟨fresh, -, -, is⟩ | ⟨-, -, was, -⟩ := stage_of_step hw.owned h k
      · rw [hsame, hold] at hstage
        cases hstage
      · obtain rfl := Option.some.inj (is.symm.trans hstage)
        have hempty : submissionsTo k subs = [] := by
          refine List.filter_eq_nil_iff.mpr fun s hs hk => ?_
          have hkey : s.key = k := of_decide_eq_true hk
          exact hw.known s hs (hkey ▸ hold)
        rw [hempty]
        exact reflects_initialStage _ _
      · rw [was] at hold
        cases hold
  · cases hold : w.db.stages.get? s.key with
    | some old => simp [hkept hold]
    | none => exact absurd hold (hw.known s hs)

/-- A step that accepts a submission. -/
theorem Ledger.of_accepted {w w' : World} {subs : List Submission} {cmd : SubmitStageReportCommand}
    {now : Instant} {r : SubmitStageReportResult} (hw : Ledger w subs) (howned : Owned w'.db)
    (ok : submitStageReport cmd now w.db = .ok (r, w'.db)) : Ledger w' (subs ++ [⟨cmd, now⟩]) := by
  obtain ⟨current, hcurrent, -, hget⟩ := get?_stages_of_submitted ok
  refine ⟨howned, fun k stage hstage => ?_, fun s hs => ?_⟩
  · rw [hget] at hstage
    split at hstage
    · next hk =>
      subst hk
      obtain rfl := Option.some.inj hstage
      have := (hw.rows _ current hcurrent).submit cmd cmd.runId now
      simpa [submissionsTo, Submission.key] using this
    · next hk =>
      have hother : submissionsTo k [⟨cmd, now⟩] = [] := by
        simp [submissionsTo, Submission.key, Ne.symm hk]
      rw [submissionsTo_append, hother, List.append_nil]
      exact hw.rows k stage hstage
  · rw [hget]
    split
    · simp
    · next hk =>
      rcases List.mem_append.mp hs with hs | hs
      · exact hw.known s hs
      · rw [List.mem_singleton.mp hs] at hk
        exact absurd rfl hk

/-- **One step.** -/
theorem Ledger.step {w w' : World} {l : Label} {subs : List Submission} (hw : Ledger w subs)
    (h : MessageService.System.step cfg w l = some w') :
    Ledger w' (subs ++ acceptedBy cfg w l) := by
  by_cases hnone : acceptedBy cfg w l = []
  · rw [hnone, List.append_nil]
    exact hw.of_unaccepted h hnone
  · cases l with
    | submitStageReport cmd now fate =>
      have ha : aborts cfg w (.submitStageReport cmd now fate) = false := by
        by_contra ha
        exact hnone (by simp [acceptedBy, Bool.of_not_eq_false ha])
      obtain ⟨r, ok⟩ := submitted_of_not_aborts h ha
      have := hw.of_accepted (hw.owned.step h) ok
      simpa [acceptedBy, ha] using this
    | beginRun _ _ _ _ | finalizeRun _ _ _ | deliver _ _ | requestResend _ _ | resend _ _
    | sweep _ _ | dispatch _ | directory _ _ | abort _ | crash => exact absurd rfl hnone

/-- **A whole run.** -/
theorem ledger_of_run {w w' : World} {ls : List Label} {subs : List Submission} (hw : Ledger w subs)
    (h : System.run (step cfg) w ls = some w') : Ledger w' (subs ++ accepted cfg w ls) := by
  induction ls generalizing w subs with
  | nil =>
    obtain rfl := Option.some.inj h
    simpa [accepted] using hw
  | cons l ls ih =>
    simp only [System.run, Option.bind_eq_some_iff] at h
    obtain ⟨u, hu, h⟩ := h
    have := ih (hw.step hu) h
    simpa [accepted, hu, List.append_assoc] using this

/-! ## The theorem -/

theorem ledger_of_init {w : World} (h : Init w) : Ledger w [] := by
  obtain ⟨users, subscriptions, rfl⟩ := h
  refine ⟨?_, ?_, fun s hs => absurd hs List.not_mem_nil⟩
  · intro k stage hstage
    cases hstage
  · intro k stage hstage
    cases hstage

/-- A submission leaves the rows of other stages alone. -/
theorem get?_stages_of_submit {w w' : World} {cmd : SubmitStageReportCommand} {now : Instant}
    {fate : Tx.Fate} (h : step cfg w (.submitStageReport cmd now fate) = some w')
    {k : RunId × StageId} (hk : k ≠ (cmd.runId, cmd.stageId)) :
    w'.db.stages.get? k = w.db.stages.get? k := by
  by_cases ha : aborts cfg w (.submitStageReport cmd now fate) = true
  · rw [db_of_aborts cfg h ha]
  · obtain ⟨r, ok⟩ := submitted_of_not_aborts h (Bool.eq_false_iff.mpr ha)
    obtain ⟨current, -, -, hget⟩ := get?_stages_of_submitted ok
    rw [hget, if_neg hk]

/-- A first submission with both contributions. -/
def sampleFull : SubmitStageReportCommand where
  runId := sampleRun
  stageId := "load"
  reportContext := some [("rows", .int 3)]
  emailBodyContext := some []
  emailBodyPosition := some .afterStagesSummary
  runId_ne := sampleSubmit.runId_ne
  stageId_ne := sampleSubmit.stageId_ne
  position_iff := by decide

end MessageService.System
