import MessageService.System.Freeze

/-!
# Resends repeat the first delivery

What a delivery or a resend carries from one await to the next are snapshots of a frozen run, so
what it assembles is what every other assembly of the run builds (`DeliveryFresh`, `ResendFresh`).

`resends_repeat_first_delivery`: the freeze, and that every later assembly and every resend has the
body and the attachments of the first delivery.
-/

namespace MessageService.System

open MessageService.Domain MessageService.Lib MessageService.Infrastructure
open MessageService.Application

/-- The e-mail carries what every assembly of `k` builds. -/
def Carries (cfg : DeliveryConfig) (r : PureRenderer) (db : Db) (k : RunId)
    (email : OutboundEmail) : Prop :=
  ∃ a, Builds cfg r db k a ∧ email.bodyHtml = a.bodyHtml ∧ email.attachments = a.attachments

/-- What a delivery of `k` carries in its phase. -/
def DeliveryFresh (cfg : DeliveryConfig) (r : PureRenderer) (db : Db) (k : RunId) :
    DeliveryPhase → Prop
  | .loading run => Snapshot db k run.toRunRow
  | .rendering run stages =>
    Snapshot db k run.toRunRow ∧ stages.Perm (StageRepository.ofRun db k)
  | .resolving _ a => Builds cfg r db k a
  | .sending email => Carries cfg r db k email
  | _ => True

/-- What a resend of `k` carries in its phase. -/
def ResendFresh (cfg : DeliveryConfig) (r : PureRenderer) (db : Db) (k : RunId) :
    ResendPhase → Prop
  | .preparing _ => Left db k
  | .loading _ prepared => Snapshot db k prepared.toRunRow
  | .rendering _ prepared stages =>
    Snapshot db k prepared.toRunRow ∧ stages.Perm (StageRepository.ofRun db k)
  | .resolving _ a => Builds cfg r db k a
  | .sending email => Carries cfg r db k email
  | _ => True

/-! ## Other steps do not spoil it -/

section

variable {cfg : Config} {r : PureRenderer} {w w' : World} {l : Label} {k : RunId}

theorem Snapshot.step {row : RunRow} (h : Snapshot w.db k row) (hw : Owned w.db)
    (hstep : step cfg w l = some w') : Snapshot w'.db k row := by
  obtain ⟨hleft', hf⟩ := left_and_frozen_of_step hw h.left hstep
  exact (hf.snapshot_iff h.left hleft').mp h

theorem perm_ofRun_of_step {stages : List Stage} (hleft : Left w.db k)
    (h : stages.Perm (StageRepository.ofRun w.db k)) (hw : Owned w.db)
    (hstep : step cfg w l = some w') : stages.Perm (StageRepository.ofRun w'.db k) := by
  obtain ⟨-, hf⟩ := left_and_frozen_of_step hw hleft hstep
  exact h.trans (StageRepository.perm_ofRun hf.stages).symm

theorem Builds.step {a : Assembled} (h : Builds cfg.delivery r w.db k a) (hw : Owned w.db)
    (hstep : step cfg w l = some w') : Builds cfg.delivery r w'.db k a := by
  obtain ⟨hleft', hf⟩ := left_and_frozen_of_step hw h.left hstep
  exact hf.builds hleft' h

theorem Carries.step {email : OutboundEmail} (h : Carries cfg.delivery r w.db k email)
    (hw : Owned w.db) (hstep : step cfg w l = some w') : Carries cfg.delivery r w'.db k email := by
  obtain ⟨a, ha, hemail⟩ := h
  exact ⟨a, ha.step hw hstep, hemail⟩

theorem DeliveryFresh.step {phase : DeliveryPhase} (h : DeliveryFresh cfg.delivery r w.db k phase)
    (hw : Owned w.db) (hstep : step cfg w l = some w') :
    DeliveryFresh cfg.delivery r w'.db k phase := by
  cases phase with
  | loading run => exact Snapshot.step h hw hstep
  | rendering run stages => exact ⟨h.1.step hw hstep, perm_ofRun_of_step h.1.left h.2 hw hstep⟩
  | resolving run a => exact Builds.step h hw hstep
  | sending email => exact Carries.step h hw hstep
  | scheduled | closing _ _ | notifying | ended _ => trivial

theorem ResendFresh.step {phase : ResendPhase} (h : ResendFresh cfg.delivery r w.db k phase)
    (hw : Owned w.db) (hstep : step cfg w l = some w') :
    ResendFresh cfg.delivery r w'.db k phase := by
  cases phase with
  | preparing run => exact (left_and_frozen_of_step hw h hstep).1
  | loading run prepared => exact Snapshot.step h hw hstep
  | rendering run prepared stages =>
    exact ⟨h.1.step hw hstep, perm_ofRun_of_step h.1.left h.2 hw hstep⟩
  | resolving run a => exact Builds.step h hw hstep
  | sending email => exact Carries.step h hw hstep
  | requested | auditing _ | ended _ => trivial

end

/-! ## A task's own steps -/

section

variable {cfg : DeliveryConfig} {r : PureRenderer} {db db' : Db} {k : RunId}

theorem get_ok {run : Run} (h : RunRepository.get k db = .ok (run, db')) :
    db.runs.get? k = some run.toRunRow ∧ db = db' := by
  simp only [RunRepository.get, Tx.ok_attempt] at h
  exact ⟨RunRepository.find_ok h.1, h.2⟩

theorem carries_of_outboundEmail {run : RunRow} {recipients : SortedSet String} {a : Assembled}
    {email : OutboundEmail} (ha : Builds cfg r db k a)
    (h : outboundEmail cfg run recipients a = .ok email) : Carries cfg r db k email := by
  unfold outboundEmail at h
  cases hs : cfg.buildSubject run with
  | error e => rw [hs] at h; cases h
  | ok subject =>
    rw [hs] at h
    exact ⟨a, ha, OutboundEmail.make_ok h⟩

theorem deliveryStep_fresh {input : DeliveryInput} {phase : DeliveryPhase}
    (hr : input.render = r.port) (h : DeliveryFresh cfg r db k phase) :
    DeliveryFresh cfg r (deliveryStep cfg k input phase db).2 k
      (deliveryStep cfg k input phase db).1 := by
  cases phase with
  | scheduled =>
    refine Tx.resume_rule (P := fun p db' => DeliveryFresh cfg r db' k p) (fun _ _ => trivial)
      fun run db' hok => ?_
    obtain ⟨hrow, -, -, hruns, -⟩ := startSending_ok hok
    exact ⟨_, get?_moved_self hruns hrow, by simp [RunRepository.withState, runSubmissionSources],
      SameReport.symm ⟨_, _, rfl⟩⟩
  | loading run =>
    refine Tx.resume_rule (P := fun p db' => DeliveryFresh cfg r db' k p) (fun _ _ => trivial)
      fun stages db' hok => ?_
    obtain ⟨rfl, rfl⟩ := Tx.ok_read.mp hok
    exact ⟨h, .refl _⟩
  | rendering run stages =>
    refine Tx.resume_rule (P := fun p db' => DeliveryFresh cfg r db' k p) (fun _ _ => trivial)
      fun declaring db' hok => ?_
    obtain ⟨hrow, rfl⟩ := get_ok hok
    rw [hr]
    cases ha : assemble cfg.toBodyTemplates r.port run declaring.toRunRow stages with
    | ok a => exact builds_of_assemble h.1 (h.1.left.snapshot hrow) h.2 ha
    | error e =>
      unfold afterRendering
      split
      · next heq => cases heq
      · split <;> trivial
  | resolving run a =>
    refine Tx.resume_rule (P := fun p db' => DeliveryFresh cfg r db' k p) (fun _ _ => trivial)
      fun recipients db' hok => ?_
    obtain ⟨-, rfl⟩ := Tx.ok_read.mp hok
    unfold afterResolving
    split
    · trivial
    · split
      · next email hemail => exact carries_of_outboundEmail h hemail
      · trivial
  | sending email =>
    simp only [deliveryStep, afterSending]
    split <;> trivial
  | closing how notify =>
    refine Tx.resume_rule (P := fun p db' => DeliveryFresh cfg r db' k p) (fun _ _ => trivial)
      fun _ db' _ => ?_
    split <;> trivial
  | notifying =>
    simp only [deliveryStep, afterNotifying]
    split
    · trivial
    · split <;> trivial
  | ended outcome => trivial

theorem resendStep_fresh {adminUserId : Nat} {input : DeliveryInput} {phase : ResendPhase}
    (hr : input.render = r.port) (h : ResendFresh cfg r db k phase) :
    ResendFresh cfg r (resendStep cfg k adminUserId input phase db).2 k
      (resendStep cfg k adminUserId input phase db).1 := by
  cases phase with
  | requested =>
    refine Tx.resume_rule (P := fun p db' => ResendFresh cfg r db' k p) (fun _ _ => trivial)
      fun run db' hok => ?_
    obtain ⟨hrow, rfl⟩ := get_ok hok
    split
    · next hstate =>
      refine ⟨_, hrow, ?_⟩
      revert hstate
      cases run.state <;> decide
    · trivial
  | preparing run =>
    refine Tx.resume_rule (P := fun p db' => ResendFresh cfg r db' k p) (fun _ _ => trivial)
      fun prepared db' hok => ?_
    obtain ⟨hrow, rfl⟩ := get_ok hok
    exact Left.snapshot h hrow
  | loading run prepared =>
    refine Tx.resume_rule (P := fun p db' => ResendFresh cfg r db' k p) (fun _ _ => trivial)
      fun stages db' hok => ?_
    obtain ⟨rfl, rfl⟩ := Tx.ok_read.mp hok
    exact ⟨h, .refl _⟩
  | rendering run prepared stages =>
    refine Tx.resume_rule (P := fun p db' => ResendFresh cfg r db' k p) (fun _ _ => trivial)
      fun declaring db' hok => ?_
    obtain ⟨hrow, rfl⟩ := get_ok hok
    rw [hr]
    cases ha : assemble cfg.toBodyTemplates r.port prepared declaring.toRunRow stages with
    | ok a => exact builds_of_assemble h.1 (h.1.left.snapshot hrow) h.2 ha
    | error e =>
      unfold afterPreparing
      split
      · next heq => cases heq
      · split <;> trivial
  | resolving run a =>
    refine Tx.resume_rule (P := fun p db' => ResendFresh cfg r db' k p) (fun _ _ => trivial)
      fun recipients db' hok => ?_
    obtain ⟨-, rfl⟩ := Tx.ok_read.mp hok
    unfold afterResendResolving
    split
    · trivial
    · split
      · next email hemail => exact carries_of_outboundEmail h hemail
      · trivial
  | sending email => trivial
  | auditing record =>
    exact Tx.resume_rule (P := fun p db' => ResendFresh cfg r db' k p) (fun _ _ => trivial)
      fun _ _ _ => trivial
  | ended outcome => trivial

end

/-! ## Every run -/

/-- The deliveries and resends of the step render with `r`. -/
def RendersWith (r : PureRenderer) (_ : World) : Label → Prop
  | .deliver _ input | .resend _ input => input.render = r.port
  | _ => True

/-- The service with one renderer. -/
def rendering (cfg : Config) (r : PureRenderer) : System World Label :=
  (service cfg).restrict (RendersWith r)

/-- All tasks carry what their run is frozen to. -/
structure Fresh (cfg : DeliveryConfig) (r : PureRenderer) (w : World) : Prop where
  deliveries : ∀ d ∈ w.deliveries, DeliveryFresh cfg r w.db d.runId d.phase
  resends : ∀ s ∈ w.resends, ResendFresh cfg r w.db s.runId s.phase

theorem deliveryFresh_of_remaining {cfg : DeliveryConfig} {r : PureRenderer} {db : Db} {k : RunId}
    {phase : DeliveryPhase} (h : phase.remaining = 0 ∨ phase.remaining = 7) :
    DeliveryFresh cfg r db k phase := by
  cases phase with
  | scheduled | closing _ _ | notifying | ended _ => trivial
  | loading _ | rendering _ _ | resolving _ _ | sending _ =>
    simp [DeliveryPhase.remaining] at h

/-- A step that is no resend's leaves each resend alone, ends it, or begins a new one. -/
theorem resend_of_step_other {cfg : Config} {w w' : World} {l : Label}
    (h : step cfg w l = some w') (hl : ∀ task input, l ≠ .resend task input) {s : Resend}
    (hs : s ∈ w'.resends) :
    s ∈ w.resends ∨ s.phase = .requested ∨ s.phase = .ended .broken := by
  cases l with
  | beginRun cmd k now fate =>
    simp only [step, Option.ite_none_right_eq_some, Option.some.injEq] at h
    obtain ⟨-, rfl⟩ := h
    exact .inl hs
  | deliver task input | abort task =>
    simp only [step, Option.map_eq_some_iff] at h
    obtain ⟨d, -, rfl⟩ := h
    exact .inl hs
  | resend task input => exact absurd rfl (hl task input)
  | requestResend k adminUserId =>
    obtain rfl := Option.some.inj h
    rcases List.mem_append.mp hs with hs | hs
    · exact .inl hs
    · rw [List.mem_singleton.mp hs]
      exact .inr (.inl rfl)
  | crash =>
    obtain rfl := Option.some.inj h
    obtain ⟨s', -, rfl⟩ := List.mem_map.mp hs
    exact .inr (.inr rfl)
  | submitStageReport _ _ _ | finalizeRun _ _ _ | sweep _ _ | dispatch _ | directory _ _ =>
    obtain rfl := Option.some.inj h
    exact .inl hs

theorem fresh_of_step {cfg : Config} {r : PureRenderer} {w w' : World} {l : Label}
    (hf : Fresh cfg.delivery r w) (hw : Owned w.db) (h : step cfg w l = some w')
    (hr : RendersWith r w l) : Fresh cfg.delivery r w' := by
  constructor
  · intro d' hd'
    by_cases hl : ∃ task input, l = .deliver task input
    · obtain ⟨task, input, rfl⟩ := hl
      have hstep := h
      simp only [step, Option.map_eq_some_iff] at h
      obtain ⟨d, hd, rfl⟩ := h
      rcases List.mem_or_eq_of_mem_set hd' with hold | rfl
      · exact (hf.deliveries d' hold).step hw hstep
      · exact deliveryStep_fresh hr (hf.deliveries d (List.mem_of_getElem? hd))
    · obtain ⟨task, hd'⟩ := List.mem_iff_getElem?.mp hd'
      rcases task_of_step_other h (fun task input e => hl ⟨task, input, e⟩) hd' with hold | hrest
      · exact (hf.deliveries d' (List.mem_of_getElem? hold)).step hw h
      · exact deliveryFresh_of_remaining hrest
  · intro s' hs'
    by_cases hl : ∃ task input, l = .resend task input
    · obtain ⟨task, input, rfl⟩ := hl
      have hstep := h
      simp only [step, Option.map_eq_some_iff] at h
      obtain ⟨s, hs, rfl⟩ := h
      rcases List.mem_or_eq_of_mem_set hs' with hold | rfl
      · exact (hf.resends s' hold).step hw hstep
      · exact resendStep_fresh hr (hf.resends s (List.mem_of_getElem? hs))
    · rcases resend_of_step_other h (fun task input e => hl ⟨task, input, e⟩) hs' with
        hold | hnew | hended
      · exact (hf.resends s' hold).step hw h
      · rw [hnew]
        trivial
      · rw [hended]
        trivial

theorem fresh_of_reach {cfg : Config} {r : PureRenderer} {w : World}
    (h : (rendering cfg r).Reach w) : Fresh cfg.delivery r w := by
  refine System.inv_of_reach_and (I := Fresh cfg.delivery r) ?_ ?_ h
  · rintro w ⟨users, subscriptions, rfl⟩
    exact ⟨fun d hd => absurd hd List.not_mem_nil, fun s hs => absurd hs List.not_mem_nil⟩
  · rintro w l w' hw hf ⟨hstep, hr⟩
    exact fresh_of_step hf (owned_of_reach (System.reach_of_restrict hw)) hstep hr

/-- What the first delivery of a run builds, every assembly builds from then on. -/
theorem builds_of_later {cfg : Config} {r : PureRenderer} {w w' : World} {k : RunId} {a : Assembled}
    (h : (rendering cfg r).Reach w) (ha : Builds cfg.delivery r w.db k a)
    (hlater : (rendering cfg r).Leads w w') : Builds cfg.delivery r w'.db k a := by
  obtain ⟨hleft', hf⟩ := left_and_frozen (System.reach_of_restrict h) ha.left
    (System.leads_of_restrict hlater)
  exact hf.builds hleft' ha

/-- **Content freeze and resend fidelity.** Once a run has left `INITIATED` and `AGGREGATING`, its
declared stages and its rows of `stages` never change again. And once a delivery has assembled the
e-mail of its run, every later assembly builds the same: one whose three reads are made at any later
moments and whose listing is in any order, and every delivery or resend of the run. -/
theorem resends_repeat_first_delivery (cfg : Config) (r : PureRenderer) :
    (∀ w w' k, (service cfg).Reach w → Left w.db k → (service cfg).Leads w w' →
      Left w'.db k ∧ Frozen w.db w'.db k) ∧
    ∀ w, (rendering cfg r).Reach w → ∀ d ∈ w.deliveries, ∀ run a, d.phase = .resolving run a →
      (∀ w₁ w₂ w₃, (rendering cfg r).Leads w w₁ → (rendering cfg r).Leads w w₂ →
        (rendering cfg r).Leads w w₃ → ∀ (run : Run) (declaring : RunRow) (stages : List Stage),
          w₁.db.runs.get? d.runId = some run.toRunRow →
          stages.Perm (StageRepository.ofRun w₂.db d.runId) →
          w₃.db.runs.get? d.runId = some declaring →
          assemble cfg.delivery.toBodyTemplates r.port run declaring stages = .ok a) ∧
      ∀ w', (rendering cfg r).Leads w w' →
        (∀ d' ∈ w'.deliveries, d'.runId = d.runId → ∀ email, d'.phase = .sending email →
          email.bodyHtml = a.bodyHtml ∧ email.attachments = a.attachments) ∧
        ∀ s ∈ w'.resends, s.runId = d.runId →
          (∀ run' a', s.phase = .resolving run' a' → a' = a) ∧
          ∀ email, s.phase = .sending email →
            email.bodyHtml = a.bodyHtml ∧ email.attachments = a.attachments := by
  refine ⟨fun w w' k h hleft hlater => left_and_frozen h hleft hlater, ?_⟩
  intro w h d hd run a hphase
  have ha : Builds cfg.delivery r w.db d.runId a := by
    have hfresh := (fresh_of_reach h).deliveries d hd
    rwa [hphase] at hfresh
  have hlater {u : World} (hu : (rendering cfg r).Leads w u) : Builds cfg.delivery r u.db d.runId a :=
    builds_of_later h ha hu
  have hcarries {u : World} (hu : (rendering cfg r).Leads w u) {email : OutboundEmail}
      (he : Carries cfg.delivery r u.db d.runId email) :
      email.bodyHtml = a.bodyHtml ∧ email.attachments = a.attachments := by
    obtain ⟨a', ha', hemail⟩ := he
    obtain rfl := (hlater hu).unique ha'
    exact hemail
  constructor
  · intro w₁ w₂ w₃ h₁ h₂ h₃ run declaring stages hrun hstages hdeclaring
    -- a snapshot of a later database is one of this database
    have hback {u : World} (hu : (rendering cfg r).Leads w u) {row : RunRow}
        (hrow : u.db.runs.get? d.runId = some row) : Snapshot w.db d.runId row := by
      obtain ⟨hleft', hf⟩ := left_and_frozen (System.reach_of_restrict h) ha.left
        (System.leads_of_restrict hu)
      exact (hf.snapshot_iff ha.left hleft').mpr (hleft'.snapshot hrow)
    obtain ⟨-, hf⟩ := left_and_frozen (System.reach_of_restrict h) ha.left
      (System.leads_of_restrict h₂)
    exact ha.2 run declaring stages (hback h₁ hrun) (hback h₃ hdeclaring)
      (hstages.trans (StageRepository.perm_ofRun hf.stages))
  · intro u hu
    have hfresh := fresh_of_reach (h.leads hu)
    refine ⟨fun d' hd' hid email he => ?_, fun s hs hid => ⟨fun run' a' hp => ?_,
      fun email he => ?_⟩⟩
    · have hd'' := hfresh.deliveries d' hd'
      rw [he, hid] at hd''
      exact hcarries hu hd''
    · have hs' := hfresh.resends s hs
      rw [hp, hid] at hs'
      exact (hlater hu).unique hs'
    · have hs' := hfresh.resends s hs
      rw [he, hid] at hs'
      exact hcarries hu hs'

/-- The delivery of the small service's run, up to the resolution of its recipients. -/
def assembling : List Label :=
  sampleFinalized ++ [.deliver 0 (sampleInput (seconds 3)), .deliver 0 (sampleInput (seconds 4)),
    .deliver 0 (sampleInput (seconds 5))]

/-- It is sent, and resent up to the same point. -/
def resending : List Label :=
  [.deliver 0 (sampleInput (seconds 6)), .deliver 0 (sampleInput (seconds 7)),
    .requestResend sampleRun 1, .resend 0 (sampleInput (seconds 8)),
    .resend 0 (sampleInput (seconds 9)), .resend 0 (sampleInput (seconds 10)),
    .resend 0 (sampleInput (seconds 11))]

/-- Delivery 0 is one of the run and has just assembled its e-mail. -/
def hasAssembled (w : World) : Bool :=
  w.deliveries[0]?.any fun d => d.runId = sampleRun && match d.phase with
    | .resolving _ _ => true
    | _ => false

theorem exists_of_hasAssembled {w : World} (h : hasAssembled w = true) :
    ∃ d ∈ w.deliveries, d.runId = sampleRun ∧ ∃ run a, d.phase = .resolving run a := by
  obtain ⟨d, hd, h⟩ := (Option.any_eq_true _ _).mp h
  simp only [Bool.and_eq_true, decide_eq_true_eq] at h
  refine ⟨d, List.mem_of_getElem? hd, h.1, ?_⟩
  have hphase := h.2
  split at hphase
  · next run a hp => exact ⟨run, a, hp⟩
  · cases hphase

/-- Resend 0 is one of the run and has just assembled its e-mail. -/
def hasReassembled (w : World) : Bool :=
  w.resends[0]?.any fun s => s.runId = sampleRun && match s.phase with
    | .resolving _ _ => true
    | _ => false

theorem exists_of_hasReassembled {w : World} (h : hasReassembled w = true) :
    ∃ s ∈ w.resends, s.runId = sampleRun ∧ ∃ run a, s.phase = .resolving run a := by
  obtain ⟨s, hs, h⟩ := (Option.any_eq_true _ _).mp h
  simp only [Bool.and_eq_true, decide_eq_true_eq] at h
  refine ⟨s, List.mem_of_getElem? hs, h.1, ?_⟩
  have hphase := h.2
  split at hphase
  · next run a hp => exact ⟨run, a, hp⟩
  · cases hphase

/-- A run that is delivered and then resent. -/
theorem resends_repeat_first_delivery_sample :
    let r : PureRenderer := fun _ _ => .ok "report"
    ∃ w w', (rendering sampleConfig r).Reach w ∧ (rendering sampleConfig r).Leads w w' ∧
      ∃ d ∈ w.deliveries, ∃ s ∈ w'.resends, ∃ run a run' a', d.phase = .resolving run a ∧
        s.phase = .resolving run' a' ∧ a' = a := by
  intro r
  have hfirst : ∀ l ∈ assembling, ∀ u, RendersWith r u l := by
    simp only [assembling, sampleFinalized, List.cons_append, List.nil_append, List.forall_mem_cons]
    exact ⟨fun _ => trivial, fun _ => trivial, fun _ => trivial, fun _ => rfl, fun _ => rfl,
      fun _ => rfl, fun _ h => absurd h List.not_mem_nil⟩
  have hsecond : ∀ l ∈ resending, ∀ u, RendersWith r u l := by
    simp only [resending, List.forall_mem_cons]
    exact ⟨fun _ => rfl, fun _ => rfl, fun _ => trivial, fun _ => rfl, fun _ => rfl, fun _ => rfl,
      fun _ => rfl, fun _ h => absurd h List.not_mem_nil⟩
  have hruns : ((System.run (step sampleConfig) {} assembling).any fun w => hasAssembled w &&
      (System.run (step sampleConfig) w resending).any hasReassembled) = true := by
    decide +kernel
  obtain ⟨w, hw, hs⟩ := (Option.any_eq_true _ _).mp hruns
  obtain ⟨hd, hs⟩ := Bool.and_eq_true_iff.mp hs
  obtain ⟨w', hw', hs⟩ := (Option.any_eq_true _ _).mp hs
  obtain ⟨d, hmem, hid, run, a, hphase⟩ := exists_of_hasAssembled hd
  obtain ⟨s, hmem', hid', run', a', hphase'⟩ := exists_of_hasReassembled hs
  have hreach : (rendering sampleConfig r).Reach w :=
    System.Reach.leads (.init ⟨Serial.empty, Serial.empty, rfl⟩)
      (System.leads_run_restrict hfirst hw)
  have hlater : (rendering sampleConfig r).Leads w w' := System.leads_run_restrict hsecond hw'
  refine ⟨w, w', hreach, hlater, d, hmem, s, hmem', run, a, run', a', hphase, hphase', ?_⟩
  exact ((((resends_repeat_first_delivery sampleConfig r).2 w hreach d hmem run a hphase).2 w'
    hlater).2 s hmem' (hid'.trans hid.symm)).1 run' a' hphase'

end MessageService.System
