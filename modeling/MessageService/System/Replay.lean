import MessageService.System.World

/-!
# The lifecycle of runs, and its audit trail

The run lifecycle over every interleaving of the service: the states a run takes are a path of the
transition table (`Walk`), and the audit log replays to the state column (`Faithful`). Both are
invariants, each from one lemma about what a `RunEffect` preserves.

`lifecycle_and_replay` puts them together with what a single step does.
-/

namespace MessageService.System

open MessageService.Domain MessageService.Lib MessageService.Infrastructure
open MessageService.Application

/-- The state an event says run `runId` has entered. -/
def enteredBy (runId : RunId) : Event → Option RunState
  | .entered _ k _ s => if k = runId then some s else none
  | _ => none

/-- The states a run has entered, in order. -/
def statesEntered (runId : RunId) (history : List Event) : List RunState :=
  history.filterMap (enteredBy runId)

theorem statesEntered_append (runId : RunId) (h h' : List Event) :
    statesEntered runId (h ++ h') = statesEntered runId h ++ statesEntered runId h' :=
  List.filterMap_append

theorem statesEntered_other {runId : RunId} {es : List Event} (h : ∀ e ∈ es, e.isEntry = false) :
    statesEntered runId es = [] := by
  refine List.filterMap_eq_nil_iff.mpr fun e he => ?_
  have := h e he
  cases e with
  | entered mover k prior s => cases this
  | mailed task k => rfl
  | invoked i => rfl
  | abandoned i => rfl

/-! ## Invariants -/

/-- The states run `runId` has entered are a path of the table from `INITIATED` to its state. -/
structure Walk (w : World) (runId : RunId) : Prop where
  chain : (statesEntered runId w.history).IsChain RunState.Edge
  last : (statesEntered runId w.history).getLast? = stateOf w.db runId
  first : ∀ s ∈ (statesEntered runId w.history).head?, s = .initiated

/-- The audit rows of run `runId` replay to its state. -/
def Faithful (w : World) (runId : RunId) : Prop :=
  auditReading.replay runId (auditRows w.db) = stateOf w.db runId

theorem stateOf_congr {db db' : Db} {runId : RunId}
    (h : db'.runs.get? runId = db.runs.get? runId) : stateOf db' runId = stateOf db runId := by
  unfold stateOf
  rw [h]

theorem auditRows_insert {db db' : Db} {e : AuditEvent}
    (h : db'.auditLog = db.auditLog.insert e) : auditRows db' = auditRows db ++ [e] := by
  unfold auditRows
  rw [h, Serial.rows_insert, List.map_append]
  rfl

theorem auditRows_insertAll {db db' : Db} {es : List AuditEvent}
    (h : db'.auditLog = db.auditLog.insertAll es) : auditRows db' = auditRows db ++ es := by
  unfold auditRows
  rw [h, Serial.rows_insertAll, List.map_append, List.map_map]
  congr 1
  exact List.zipIdx_map_fst _ _

theorem countP_appends {P : AuditEvent → Prop} {db db' : Db} {p : AuditEvent → Bool}
    (h : Appends P db db') (hp : ∀ e, P e → p e = false) :
    (auditRows db').countP p = (auditRows db).countP p := by
  obtain ⟨rows, hlog, hrows⟩ := h
  have hzero : rows.countP p = 0 :=
    List.countP_eq_zero.mpr fun e he => by simp [hp e (hrows e he)]
  rw [auditRows_insertAll hlog, List.countP_append, hzero, Nat.add_zero]

theorem Faithful.effect {w w' : World} {es : List Event} {runId : RunId} (h : Faithful w runId)
    (he : RunEffect w.db w'.db es) : Faithful w' runId := by
  unfold Faithful at h ⊢
  cases he with
  | silent runs log nothing =>
    rw [auditRows_insertAll log, Reading.replay_append_silent nothing, h]
    exact (stateOf_congr (by rw [runs])).symm
  | @entered mover k row now e others is was log about told =>
    rw [auditRows_insert log, Reading.replay_append_describing about told]
    by_cases hk : runId = k
    · subst hk
      rw [if_pos rfl]
      unfold stateOf
      rw [is]
      rfl
    · rw [if_neg hk, h]
      exact (stateOf_congr (others runId hk)).symm

theorem Walk.effect {w w' : World} {es rest : List Event} {runId : RunId} (h : Walk w runId)
    (hh : w'.history = w.history ++ es ++ rest) (hrest : ∀ e ∈ rest, e.isEntry = false)
    (he : RunEffect w.db w'.db es) : Walk w' runId := by
  have hs : statesEntered runId w'.history =
      statesEntered runId w.history ++ statesEntered runId es := by
    rw [hh, statesEntered_append, statesEntered_append, statesEntered_other hrest, List.append_nil]
  cases he with
  | silent runs log nothing =>
    have hnil : statesEntered runId [] = [] := rfl
    rw [hnil, List.append_nil] at hs
    exact ⟨hs ▸ h.chain, hs ▸ h.last.trans (stateOf_congr (by rw [runs])).symm, hs ▸ h.first⟩
  | @entered mover k row now e others is was log about told =>
    by_cases hk : k = runId
    · subst hk
      have hone : statesEntered k [.entered mover k (stateOf w.db k) row.state] = [row.state] := by
        simp [statesEntered, enteredBy]
      rw [hone] at hs
      have hlast : stateOf w'.db k = some row.state := by
        unfold stateOf
        rw [is]
        rfl
      rw [← h.last] at was
      refine ⟨?_, ?_, ?_⟩
      · rw [hs, List.isChain_append]
        refine ⟨h.chain, List.isChain_singleton _, ?_⟩
        intro a ha b hb
        obtain rfl : row.state = b := by simpa using hb
        rcases was with ⟨hnone, -⟩ | ⟨old, hold, hedge, -⟩
        · rw [hnone] at ha
          cases ha
        · rw [h.last] at ha
          unfold stateOf at ha
          rw [hold] at ha
          obtain rfl : old.state = a := by simpa using ha
          exact hedge
      · rw [hs, hlast]
        simp
      · rw [hs]
        intro s hmem
        rcases was with ⟨hnone, hinit⟩ | ⟨old, hold, -, -⟩
        · have hempty := List.getLast?_eq_none_iff.mp hnone
          rw [hempty] at hmem
          obtain rfl : row.state = s := by simpa using hmem
          exact hinit
        · have hne : statesEntered k w.history ≠ [] := by
            intro hempty
            have := h.last
            rw [hempty] at this
            unfold stateOf at this
            rw [hold] at this
            cases this
          rw [List.head?_append_of_ne_nil _ hne] at hmem
          exact h.first s hmem
    · have hnil : statesEntered runId [.entered mover k (stateOf w.db k) row.state] = [] := by
        simp [statesEntered, enteredBy, hk]
      rw [hnil, List.append_nil] at hs
      exact ⟨hs ▸ h.chain, hs ▸ h.last.trans (stateOf_congr (others _ (Ne.symm hk))).symm,
        hs ▸ h.first⟩

variable {cfg : Config}

theorem walk_of_reach {w : World} (h : (service cfg).Reach w) (runId : RunId) : Walk w runId := by
  refine System.inv_of_reach (I := fun w => Walk w runId) ⟨?_, ?_⟩ h
  · rintro w ⟨users, subscriptions, rfl⟩
    exact ⟨List.isChain_nil, rfl, by simp [statesEntered]⟩
  · intro w l w' hw hstep
    obtain ⟨es, rest, hh, he, hrest⟩ := step_effect cfg hstep
    exact hw.effect hh hrest he

theorem faithful_of_reach {w : World} (h : (service cfg).Reach w) (runId : RunId) :
    Faithful w runId := by
  refine System.inv_of_reach (I := fun w => Faithful w runId) ⟨?_, ?_⟩ h
  · rintro w ⟨users, subscriptions, rfl⟩
    rfl
  · intro w l w' hw hstep
    obtain ⟨es, rest, -, he, -⟩ := step_effect cfg hstep
    exact hw.effect he

/-! ## What a step does -/

/-- What a step may do to the state of a run: keep it, create the run, or follow an edge. -/
inductive StateStep : Option RunState → Option RunState → Prop
  | keep (s : Option RunState) : StateStep s s
  | begin : StateStep none (some .initiated)
  | edge {a b : RunState} (h : RunState.Edge a b) : StateStep (some a) (some b)

/-- A terminal state is never left. -/
theorem StateStep.of_terminal {a : RunState} {s : Option RunState} (ht : a.terminal = true)
    (h : StateStep (some a) s) : s = some a := by
  cases h with
  | keep => rfl
  | edge h => exact absurd h (RunState.not_edge_of_terminal ht)

theorem RunEffect.stateStep {db db' : Db} {es : List Event} (h : RunEffect db db' es)
    (runId : RunId) : StateStep (stateOf db runId) (stateOf db' runId) := by
  cases h with
  | silent runs log nothing =>
    rw [@stateOf_congr db db' runId (by rw [runs])]
    exact .keep _
  | @entered mover k row now e others is was log about told =>
    by_cases hk : runId = k
    · subst hk
      have his : stateOf db' runId = some row.state := by
        unfold stateOf
        rw [is]
        rfl
      rw [his]
      rcases was with ⟨hnone, hinit⟩ | ⟨old, hold, hedge, -⟩
      · rw [hnone, hinit]
        exact .begin
      · have hwas : stateOf db runId = some old.state := by
          unfold stateOf
          rw [hold]
          rfl
        rw [hwas]
        exact .edge hedge
    · rw [stateOf_congr (others runId hk)]
      exact .keep _

/-- The new audit rows of a step tell exactly what it did to the runs: one row for a change, which
concerns that run alone and describes it; rows that describe nothing otherwise. -/
def Told (db db' : Db) : Prop :=
  (∀ runId, stateOf db' runId ≠ stateOf db runId →
    ∃ e s, auditRows db' = auditRows db ++ [e] ∧ (∀ k, concerns k e = true ↔ k = runId) ∧
      stateOf db' runId = some s ∧ describes e = some (stateOf db runId, s)) ∧
  ((∀ runId, stateOf db' runId = stateOf db runId) →
    ∃ es, auditRows db' = auditRows db ++ es ∧ ∀ e ∈ es, describes e = none)

theorem RunEffect.told {db db' : Db} {es : List Event} (h : RunEffect db db' es) : Told db db' := by
  cases h with
  | @silent rows runs log nothing =>
    have hsame : ∀ runId, stateOf db' runId = stateOf db runId :=
      fun runId => stateOf_congr (by rw [runs])
    exact ⟨fun runId hne => absurd (hsame runId) hne,
      fun _ => ⟨rows, auditRows_insertAll log, nothing⟩⟩
  | @entered mover k row now e others is was log about told =>
    have his : stateOf db' k = some row.state := by
      unfold stateOf
      rw [is]
      rfl
    constructor
    · intro runId hne
      have hk : runId = k := by
        by_contra hk
        exact hne (stateOf_congr (others runId hk))
      subst hk
      exact ⟨e, row.state, auditRows_insert log, about, his, told⟩
    · intro hsame
      exfalso
      have hk := hsame k
      rw [his] at hk
      rcases was with ⟨hnone, -⟩ | ⟨old, hold, hedge, -⟩
      · rw [hnone] at hk
        cases hk
      · unfold stateOf at hk
        rw [hold] at hk
        exact RunState.Edge.ne hedge (Option.some.inj hk).symm

/-- **Lifecycle and replay.** In every reachable state, the states a run has taken are a path of
`TRANSITIONS` from `INITIATED` to its state, and its audit rows replay to its state. Every step
keeps each run's state, or creates the run, or follows an edge; it leaves no terminal state; it
records each change in exactly one audit row, and nothing when its unit of work is rolled back. -/
theorem lifecycle_and_replay {w : World} (h : (service cfg).Reach w) :
    (∀ runId, Walk w runId ∧ Faithful w runId) ∧
      ∀ l w', step cfg w l = some w' →
        (∀ runId, StateStep (stateOf w.db runId) (stateOf w'.db runId)) ∧
        (∀ runId s, stateOf w.db runId = some s → s.terminal = true →
          stateOf w'.db runId = some s) ∧
        Told w.db w'.db ∧
        (aborts cfg w l = true → w'.db = w.db) := by
  refine ⟨fun runId => ⟨walk_of_reach h runId, faithful_of_reach h runId⟩, ?_⟩
  intro l w' hstep
  obtain ⟨es, rest, -, he, -⟩ := step_effect cfg hstep
  refine ⟨he.stateStep, ?_, he.told, db_of_aborts cfg hstep⟩
  intro runId s hs ht
  have hss := he.stateStep runId
  rw [hs] at hss
  exact hss.of_terminal ht

/-- A run begun, submitted to and finalized: its three audit rows replay to `READY`. -/
theorem lifecycle_and_replay_sample : ∃ w, (service sampleConfig).Reach w ∧
    stateOf w.db sampleRun = some .ready ∧
    auditReading.replay sampleRun (auditRows w.db) = some .ready := by
  obtain ⟨w, hw, hs⟩ := exists_reach_of_labels sampleConfig
    (p := fun w => stateOf w.db sampleRun = some .ready) sampleFinalized (by decide +kernel)
  have hready : stateOf w.db sampleRun = some .ready := of_decide_eq_true hs
  exact ⟨w, hw, hready, ((lifecycle_and_replay hw).1 sampleRun).2.trans hready⟩

end MessageService.System
