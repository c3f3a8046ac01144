import MessageService.System.Lifecycle
import MessageService.System.World

/-!
# What the sweeper orphans

A tick lists its candidates in one unit of work and orphans each in a later one, which checks again
that the candidate is live and not that it is still stale. A candidate that has made no transition
since the listing is as stale as it was (`listed_of_reach`); one that has is orphaned all the same
(`orphaned_of_live`, `raced_run_is_orphaned`).

* `sweeps_only_stale_of_unraced`: the sweeper orphans only stale runs while no candidate races it.
-/

namespace MessageService.System

open MessageService.Domain MessageService.Lib MessageService.Infrastructure
open MessageService.Application

/-- The event is a committed change of the state of run `runId`. -/
def isEntryOf (runId : RunId) : Event → Bool
  | .entered _ k _ _ => k = runId
  | _ => false

/-- Run `runId` has made a state transition since the sweeper listed its candidates. -/
def MovedSinceListing (w : World) (runId : RunId) : Prop :=
  ∃ e ∈ w.history.drop w.listed, isEntryOf runId e = true

/-- The run is there and not terminal. -/
def Live (w : World) (runId : RunId) : Prop :=
  ∃ row, w.db.runs.get? runId = some row ∧ row.state.terminal = false

/-- The sweeper orphans only runs that are stale: the run whose turn it is becomes `ORPHANED` only
if it was live and its last transition was at or before the tick's cutoff, and nothing is written
if it has made a transition since the listing. -/
def SweepsOnlyStale (w : World) (l : Label) (w' : World) : Prop :=
  ∀ now fate cutoff candidate rest, l = .sweep now fate →
    w.sweeper = .sweeping cutoff (candidate :: rest) →
    (stateOf w'.db candidate = some .orphaned → stateOf w.db candidate ≠ some .orphaned →
      ∃ row, w.db.runs.get? candidate = some row ∧ row.state.terminal = false ∧
        row.updatedAt ≤ cutoff) ∧
    (MovedSinceListing w candidate → w'.db = w.db)

/-- The run whose turn it is has not raced the tick: it is not live, or has made no transition since
the listing. -/
def Unraced (w : World) (l : Label) : Prop :=
  ∀ now fate cutoff candidate rest, l = .sweep now fate →
    w.sweeper = .sweeping cutoff (candidate :: rest) →
    Live w candidate → ¬MovedSinceListing w candidate

/-- Every candidate that has made no transition since the listing is live and stale. -/
structure Listed (w : World) : Prop where
  bound : w.listed ≤ w.history.length
  stale : ∀ cutoff candidates, w.sweeper = .sweeping cutoff candidates → ∀ c ∈ candidates,
    ¬MovedSinceListing w c →
      ∃ row, w.db.runs.get? c = some row ∧ row.state.terminal = false ∧ row.updatedAt ≤ cutoff

/-- A candidate that has not moved after a step had not moved before it, and its row is the same. -/
theorem unmoved_of_step {cfg : Config} {w w' : World} {l : Label} (h : step cfg w l = some w')
    (hb : w.listed ≤ w.history.length) (hl : w'.listed = w.listed) {c : RunId}
    (hc : ¬MovedSinceListing w' c) :
    ¬MovedSinceListing w c ∧ w'.db.runs.get? c = w.db.runs.get? c := by
  obtain ⟨es, rest, hh, he, -⟩ := step_effect cfg h
  have hdrop : w'.history.drop w'.listed = w.history.drop w.listed ++ (es ++ rest) := by
    rw [hh, hl, List.append_assoc, List.drop_append_of_le_length hb]
  unfold MovedSinceListing at hc
  rw [hdrop] at hc
  constructor
  · rintro ⟨e, hmem, hentry⟩
    exact hc ⟨e, List.mem_append_left _ hmem, hentry⟩
  · cases he with
    | silent runs log nothing => rw [runs]
    | @entered mover k row now e others is was log about told =>
      by_cases hk : c = k
      · subst hk
        refine absurd ⟨_, List.mem_append_right _ (List.mem_append_left _
          (List.mem_singleton_self _)), ?_⟩ hc
        simp [isEntryOf]
      · exact others c hk

/-- A step that is not the sweeper's leaves its tick alone, or is a crash. -/
theorem sweeper_of_step {cfg : Config} {w w' : World} {l : Label} (h : step cfg w l = some w')
    (hl : ∀ now fate, l ≠ .sweep now fate) :
    w'.listed = w.listed ∧ (w'.sweeper = w.sweeper ∨ w'.sweeper = .idle) := by
  cases l with
  | beginRun cmd k now fate =>
    simp only [step, Option.ite_none_right_eq_some, Option.some.injEq] at h
    obtain ⟨-, rfl⟩ := h
    exact ⟨rfl, .inl rfl⟩
  | deliver task input | resend task input | abort task =>
    simp only [step, Option.map_eq_some_iff] at h
    obtain ⟨d, -, rfl⟩ := h
    exact ⟨rfl, .inl rfl⟩
  | sweep now fate => exact absurd rfl (hl now fate)
  | crash =>
    obtain rfl := Option.some.inj h
    exact ⟨rfl, .inr rfl⟩
  | submitStageReport _ _ _ | finalizeRun _ _ _ | requestResend _ _ | dispatch _
  | directory _ _ =>
    obtain rfl := Option.some.inj h
    exact ⟨rfl, .inl rfl⟩

/-- What a step of the sweeper does to its phase: a listing makes a tick of live, stale candidates;
a candidate's turn leaves the others. -/
theorem sweepStep_phase (cfg : SweeperConfig) (now : Instant) (fate : Tx.Fate)
    (phase : SweeperPhase) (db : Db) {cutoff : Instant} {candidates : List RunId}
    (h : (sweepStep cfg now fate phase db).1 = .sweeping cutoff candidates) :
    (phase = .idle ∧ ∀ c ∈ candidates, ∃ row, db.runs.get? c = some row ∧
      row.state.terminal = false ∧ row.updatedAt ≤ cutoff) ∨
    ∃ c, phase = .sweeping cutoff (c :: candidates) := by
  match phase with
  | .idle =>
    left
    refine ⟨rfl, ?_⟩
    rcases Tx.resume_spec (listCandidates cfg now) fate
      (fun candidates => SweeperPhase.sweeping (cfg.cutoff now) (candidates.map fun r => r.runId))
      (fun _ => .idle) db with ⟨-, o, hp⟩ | ⟨runs, db', hx, -, hp | hp⟩
    · simp only [sweepStep, hp] at h
      cases h
    · simp only [sweepStep, hp, SweeperPhase.sweeping.injEq] at h
      obtain ⟨rfl, rfl⟩ := h
      intro c hc
      obtain ⟨run, hrun, rfl⟩ := List.mem_map.mp hc
      obtain ⟨hrow, hstale, hlive⟩ := (listCandidates_ok hx).2 run hrun
      exact ⟨run.toRunRow, hrow, hlive, hstale⟩
    · simp only [sweepStep, hp] at h
      cases h
  | .sweeping cutoff' [] => cases h
  | .sweeping cutoff' (c :: rest) =>
    right
    have hnext : (sweepStep cfg now fate (.sweeping cutoff' (c :: rest)) db).1 =
        .sweeping cutoff' rest ∨
        (sweepStep cfg now fate (.sweeping cutoff' (c :: rest)) db).1 = .idle :=
      Tx.resume_fst_induct (P := fun p => p = SweeperPhase.sweeping cutoff' rest ∨ p = .idle)
        (fun _ => .inr rfl) fun _ => .inl rfl
    rcases hnext with hn | hn
    · rw [hn] at h
      simp only [SweeperPhase.sweeping.injEq] at h
      obtain ⟨rfl, rfl⟩ := h
      exact ⟨c, rfl⟩
    · rw [hn] at h
      cases h

theorem Listed.step {cfg : Config} {w w' : World} {l : Label} (hw : Listed w)
    (h : step cfg w l = some w') : Listed w' := by
  obtain ⟨es, rest, hh, -, -⟩ := step_effect cfg h
  have hlen : w.history.length ≤ w'.history.length := by
    rw [hh, List.append_assoc, List.length_append]
    exact Nat.le_add_right _ _
  by_cases hl : ∃ now fate, l = .sweep now fate
  · obtain ⟨now, fate, rfl⟩ := hl
    have hstep := h
    obtain rfl := Option.some.inj h
    refine ⟨?_, ?_⟩
    · refine le_trans ?_ hlen
      cases w.sweeper with
      | idle => exact Nat.le_refl _
      | sweeping cutoff candidates => exact hw.bound
    · intro cutoff candidates hphase c hc hmoved
      rcases sweepStep_phase cfg.sweeper now fate w.sweeper w.db hphase with
        ⟨hidle, hfresh⟩ | ⟨c', hsweeping⟩
      · obtain ⟨row, hrow, hrest⟩ := hfresh c hc
        refine ⟨row, ?_, hrest⟩
        simp only [hidle, sweepStep, (readOnly_listCandidates _ _).resume]
        exact hrow
      · obtain ⟨hunmoved, hsame⟩ := unmoved_of_step hstep hw.bound (by simp only [hsweeping]) hmoved
        obtain ⟨row, hrow, hrest⟩ := hw.stale cutoff _ hsweeping c (List.mem_cons_of_mem _ hc)
          hunmoved
        exact ⟨row, hsame.trans hrow, hrest⟩
  · have hl' : ∀ now fate, l ≠ .sweep now fate := fun now fate e => hl ⟨now, fate, e⟩
    obtain ⟨hlisted, hphase⟩ := sweeper_of_step h hl'
    refine ⟨by rw [hlisted]; exact hw.bound.trans hlen, ?_⟩
    intro cutoff candidates hp c hc hmoved
    rcases hphase with hsame | hidle
    · rw [hsame] at hp
      obtain ⟨hunmoved, hrow'⟩ := unmoved_of_step h hw.bound hlisted hmoved
      obtain ⟨row, hrow, hrest⟩ := hw.stale cutoff candidates hp c hc hunmoved
      exact ⟨row, hrow'.trans hrow, hrest⟩
    · rw [hidle] at hp
      cases hp

theorem listed_of_reach {cfg : Config} {w : World} (h : (service cfg).Reach w) : Listed w := by
  refine System.inv_of_reach (I := Listed) ⟨?_, ?_⟩ h
  · rintro w ⟨users, subscriptions, rfl⟩
    exact ⟨Nat.le_refl _, fun _ _ h => by cases h⟩
  · intro w l w' hw hstep
    exact hw.step hstep

/-- A candidate's turn that is rolled back, or whose candidate is not live, writes nothing. -/
theorem db_of_dead {cfg : Config} {w w' : World} {now : Instant} {fate : Tx.Fate}
    {cutoff : Instant} {candidate : RunId} {rest : List RunId}
    (h : step cfg w (.sweep now fate) = some w')
    (hphase : w.sweeper = .sweeping cutoff (candidate :: rest)) (hdead : ¬Live w candidate) :
    w'.db = w.db := by
  obtain rfl := Option.some.inj h
  change (sweepStep cfg.sweeper now fate w.sweeper w.db).2 = w.db
  rw [hphase]
  refine Tx.resume_snd_eq fun a db' hx => ?_
  obtain ⟨rfl, -⟩ | ⟨run, -, hrun, -, hlive, -⟩ := transitionAuditAndEnqueue_ok cfg.sweeper hx
  · rfl
  · exact absurd ⟨run.toRunRow, hrun, hlive⟩ hdead

/-- A candidate's turn that commits orphans a live candidate. -/
theorem orphaned_of_live {cfg : Config} {w w' : World} {now : Instant} {fate : Tx.Fate}
    {cutoff : Instant} {candidate : RunId} {rest : List RunId}
    (h : step cfg w (.sweep now fate) = some w')
    (hphase : w.sweeper = .sweeping cutoff (candidate :: rest)) (hlive : Live w candidate)
    (ha : aborts cfg w (.sweep now fate) = false) :
    stateOf w'.db candidate = some .orphaned := by
  obtain rfl := Option.some.inj h
  change stateOf (sweepStep cfg.sweeper now fate w.sweeper w.db).2 candidate = _
  simp only [aborts, hphase, sweepAborts] at ha
  obtain ⟨a, db', hx, hdb⟩ := @Tx.resume_of_not_aborts _ _ _ _ _ _
    (fun _ => SweeperPhase.sweeping cutoff rest) (fun _ => .idle) _ ha
  simp only [hphase, sweepStep, hdb]
  obtain ⟨row, hrow, hl⟩ := hlive
  obtain ⟨-, hterminal⟩ | ⟨run, -, hrun, -, -, hruns, -⟩ :=
    transitionAuditAndEnqueue_ok cfg.sweeper hx
  · rw [hterminal row hrow] at hl
    cases hl
  · unfold stateOf
    rw [hruns, RunRepository.get?_moved, if_pos rfl, hrun]
    rfl

/-- **The sweeper orphans only stale runs, as long as no candidate races it.** In every run of the
service in which no live candidate has moved since the listing when its turn comes, every step
orphans only a stale run. And a turn that breaks the condition and is not rolled back breaks the
property. -/
theorem sweeps_only_stale_of_unraced (cfg : Config) :
    ((service cfg).restrict Unraced).Always SweepsOnlyStale ∧
      ∀ w l w', (service cfg).Reach w → step cfg w l = some w' → ¬Unraced w l →
        aborts cfg w l = false → ¬SweepsOnlyStale w l w' := by
  constructor
  · rintro w l w' hr ⟨hstep, hguard⟩ now fate cutoff candidate rest rfl hphase
    have hlisted := listed_of_reach (System.reach_of_restrict hr)
    constructor
    · intro hnew hold
      have hlive : Live w candidate := by
        by_contra hdead
        rw [db_of_dead hstep hphase hdead] at hnew
        exact hold hnew
      exact hlisted.stale cutoff _ hphase candidate List.mem_cons_self
        (hguard now fate cutoff candidate rest rfl hphase hlive)
    · intro hmoved
      refine db_of_dead hstep hphase fun hlive => ?_
      exact hguard now fate cutoff candidate rest rfl hphase hlive hmoved
  · intro w l w' _ hstep hraced ha hgood
    refine hraced fun now fate cutoff candidate rest hl hphase hlive hmoved => ?_
    subst hl
    have hdb := (hgood now fate cutoff candidate rest rfl hphase).2 hmoved
    have horphaned := orphaned_of_live hstep hphase hlive ha
    obtain ⟨row, hrow, hl⟩ := hlive
    rw [hdb] at horphaned
    unfold stateOf at horphaned
    rw [hrow] at horphaned
    have hstate : row.state = .orphaned := Option.some.inj horphaned
    rw [hstate] at hl
    cases hl

/-- A run begun at second 0 and listed by the sweeper at second 100 is reported to at second 101. -/
def raced : List Label :=
  [.beginRun sampleBegin sampleRun (seconds 0) .commits, .sweep (seconds 100) .commits,
    .submitStageReport sampleSubmit (seconds 101) .commits]

/-- The turn of the candidate, a second later. -/
def racedTurn : Label := .sweep (seconds 102) .commits

/-- **A run that is not stale is orphaned.** It moved after the listing, and after the cutoff. The
clock never goes back. -/
theorem raced_run_is_orphaned : NonDecreasing (raced ++ [racedTurn]) ∧
    ∃ w w', (service sampleConfig).Reach w ∧ step sampleConfig w racedTurn = some w' ∧
      ¬SweepsOnlyStale w racedTurn w' := by
  refine ⟨by decide, ?_⟩
  obtain ⟨w, hw, hs⟩ := exists_reach_of_labels sampleConfig
    (p := fun w => decide (w.sweeper = .sweeping (seconds 40) [sampleRun] ∧
        stateOf w.db sampleRun = some .aggregating ∧
        (w.db.runs.get? sampleRun).map (fun row => row.updatedAt) = some (seconds 101)) &&
      (step sampleConfig w racedTurn).any fun w' =>
        decide (stateOf w'.db sampleRun = some .orphaned))
    raced (by decide +kernel)
  simp only [Bool.and_eq_true, decide_eq_true_eq] at hs
  obtain ⟨⟨hphase, hstate, hupdated⟩, hs⟩ := hs
  obtain ⟨w', hw', horphaned⟩ := (Option.any_eq_true _ _).mp hs
  refine ⟨w, w', hw, hw', fun hgood => ?_⟩
  obtain ⟨row, hrow, -, hstale⟩ := (hgood (seconds 102) .commits _ _ _ rfl hphase).1
    (of_decide_eq_true horphaned) (by simp [hstate])
  have hmoved : row.updatedAt = seconds 101 := by simpa [hrow] using hupdated
  rw [hmoved] at hstale
  exact absurd hstale (by decide)

end MessageService.System
