import MessageService.Lib.WorkItem
import MessageService.System.Outbox
import Mathlib.Data.List.Count

/-!
# Bounds on the delivery of the outbox

A row of the outbox is a work item whose worker is the dispatcher (`item`). Every step of the
service is a step of that item or none of its business (`service_refines_item`), because a pass
holds each of its rows once and only rows that are claimed and not completed (`InFlight`).

* `outbox_bounds`: the rows of a run, the bounds on calls, attempts and abandonments of a row, and
  that a completed row is final.
-/

namespace MessageService.System

open MessageService.Domain MessageService.Lib MessageService.Infrastructure
open MessageService.Application

/-! ## The rows of a pass -/

/-- The rows a pass has claimed and whose handlers it has yet to call. -/
def heldIds : DispatcherPhase → List Nat
  | .handling todo _ => todo.map fun c => c.1.actionId
  | _ => []

/-- The rows a pass has claimed and not settled. -/
def inFlight : DispatcherPhase → List Nat
  | .handling todo outcomes =>
    (outcomes.map fun c => c.1.actionId) ++ todo.map fun c => c.1.actionId
  | .settling outcomes => outcomes.map fun c => c.1.actionId
  | _ => []

/-- A row of the table that is claimed and not completed. -/
def IsOpen (db : Db) (i : Nat) : Prop :=
  ∃ row, db.sweeperActions.get? i = some row ∧ row.claimedAt ≠ none ∧ row.completedAt = none

/-- The rows of a pass are distinct, claimed and not completed; and a completed row was claimed. -/
structure InFlight (phase : DispatcherPhase) (db : Db) : Prop where
  nodup : (inFlight phase).Nodup
  live : ∀ i ∈ inFlight phase, IsOpen db i
  claimed : ∀ i row, db.sweeperActions.get? i = some row → row.completedAt ≠ none →
    row.claimedAt ≠ none

theorem mem_inFlight_of_held {phase : DispatcherPhase} {i : Nat} (h : i ∈ heldIds phase) :
    i ∈ inFlight phase := by
  cases phase with
  | handling todo outcomes => exact List.mem_append_right _ h
  | idle | claiming | settling _ => cases h

/-! ## The rows the queries select -/

theorem get?_of_mem_map_fst {t : Serial SweeperActionRow} {l : List (Nat × SweeperActionRow)}
    {p : SweeperActionRow → Prop} (hl : ∀ r ∈ l, r ∈ t.rows ∧ p r.2) {i : Nat}
    (hi : i ∈ l.map Prod.fst) : ∃ row, t.get? i = some row ∧ p row := by
  obtain ⟨⟨j, row⟩, hr, rfl⟩ := List.mem_map.mp hi
  obtain ⟨hmem, hp⟩ := hl _ hr
  exact ⟨row, Serial.mem_iff_get?.mp hmem, hp⟩

theorem get?_of_fresh {cfg : DispatcherConfig} {db : Db} {i : Nat}
    (hi : i ∈ (freshRows cfg db).map Prod.fst) :
    ∃ row, db.sweeperActions.get? i = some row ∧ row.claimedAt = none :=
  get?_of_mem_map_fst (p := fun row => row.claimedAt = none)
    (fun _ h => SweeperActionRepository.mem_pending h) hi

theorem get?_of_stuck {db : Db} {cutoff : Instant} {retries : Nat → Bool} {limit i : Nat}
    (hi : i ∈ (SweeperActionRepository.stuck db cutoff retries limit).map Prod.fst) :
    ∃ row, db.sweeperActions.get? i = some row ∧ row.claimedAt ≠ none ∧ row.completedAt = none ∧
      retries row.attempts = true := by
  refine get?_of_mem_map_fst (p := fun row => row.claimedAt ≠ none ∧ row.completedAt = none ∧
    retries row.attempts = true) (fun r h => ?_) hi
  obtain ⟨hmem, hstuck, hretries⟩ := SweeperActionRepository.mem_stuck h
  obtain ⟨hcompleted, c, hclaimed, -⟩ := SweeperActionRepository.isStuck_iff.mp hstuck
  exact ⟨hmem, by simp [hclaimed], hcompleted, hretries⟩

theorem get?_of_stuckRows {cfg : DispatcherConfig} {db : Db} {now : Instant} {i : Nat}
    (hi : i ∈ (stuckRows cfg db now).map Prod.fst) :
    ∃ row, db.sweeperActions.get? i = some row ∧ row.claimedAt ≠ none ∧ row.completedAt = none ∧
      row.attempts < cfg.maxDispatchAttempts := by
  simpa using get?_of_stuck hi

theorem get?_of_exhausted {cfg : DispatcherConfig} {db : Db} {now : Instant} {i : Nat}
    (hi : i ∈ (exhausted cfg db now).map Prod.fst) :
    ∃ row, db.sweeperActions.get? i = some row ∧ row.claimedAt ≠ none ∧ row.completedAt = none ∧
      cfg.maxDispatchAttempts ≤ row.attempts := by
  simpa using get?_of_stuck hi

theorem map_actionId_claimedActions (cfg : DispatcherConfig) (db : Db) (now : Instant) :
    (claimedActions cfg db now).map ClaimedAction.actionId =
      (freshRows cfg db).map Prod.fst ++ (stuckRows cfg db now).map Prod.fst := by
  unfold claimedActions
  rw [List.map_append, List.map_map, List.map_map]
  rfl

theorem nodup_claimed (cfg : DispatcherConfig) (db : Db) (now : Instant) :
    ((freshRows cfg db).map Prod.fst ++ (stuckRows cfg db now).map Prod.fst).Nodup := by
  refine List.nodup_append.mpr ⟨SweeperActionRepository.nodup_pending _ _,
    SweeperActionRepository.nodup_stuck _ _ _ _, ?_⟩
  rintro i hi j hj rfl
  exact not_mem_stuckRows cfg hi hj

/-- The rows of a claimed batch. -/
theorem held_of_batch {cfg : DispatcherConfig} {db : Db} {now : Instant}
    {batch : List (ClaimedAction × Option Run)} (h : batch.map Prod.fst = claimedActions cfg db now) :
    (batch.map fun c => c.1.actionId) =
      (freshRows cfg db).map Prod.fst ++ (stuckRows cfg db now).map Prod.fst := by
  rw [← map_actionId_claimedActions, ← h, List.map_map]
  rfl

/-! ## The rows of a pass, step by step -/

/-- An update that keeps a row open where the rows of a pass are. -/
theorem InFlight.mapRows {phase phase' : DispatcherPhase} {db db' : Db}
    {g : Nat → SweeperActionRow → SweeperActionRow} (h : InFlight phase db)
    (rows : db'.sweeperActions = db.sweeperActions.mapRows g)
    (nodup : (inFlight phase').Nodup)
    (live : ∀ i ∈ inFlight phase', ∃ row, db.sweeperActions.get? i = some row ∧
      (g i row).claimedAt ≠ none ∧ (g i row).completedAt = none)
    (claimed : ∀ i row, db.sweeperActions.get? i = some row →
      (row.completedAt ≠ none → row.claimedAt ≠ none) →
      (g i row).completedAt ≠ none → (g i row).claimedAt ≠ none) : InFlight phase' db' := by
  refine ⟨nodup, fun i hi => ?_, fun i row' hrow' hcompleted => ?_⟩
  · obtain ⟨row, hrow, hc, hn⟩ := live i hi
    exact ⟨g i row, by rw [rows, Serial.get?_mapRows, hrow]; rfl, hc, hn⟩
  · rw [rows, Serial.get?_mapRows] at hrow'
    obtain ⟨row, hrow, rfl⟩ := Option.map_eq_some_iff.mp hrow'
    exact claimed i row hrow (h.claimed i row hrow) hcompleted

theorem InFlight.move {cfg : DispatcherConfig} {now : Instant} {db db' : Db}
    {phase phase' : DispatcherPhase} {ids : List Nat} (h : InFlight phase db)
    (hm : DispatchMove cfg now db phase phase' db' ids) : InFlight phase' db' := by
  cases hm with
  | stopped _ => exact ⟨List.nodup_nil, fun _ hi => absurd hi List.not_mem_nil, h.claimed⟩
  | @abandoned phase' g marks next =>
    have hnone : inFlight phase' = [] := by
      rcases next with rfl | rfl <;> rfl
    refine h.mapRows rfl (by rw [hnone]; exact List.nodup_nil)
      (fun i hi => by rw [hnone] at hi; cases hi) fun i row hrow hclaimed hcompleted => ?_
    by_cases hi : i ∈ (exhausted cfg db now).map Prod.fst
    · obtain ⟨row', hrow', hc, -⟩ := get?_of_exhausted hi
      obtain ⟨message, hmark⟩ := marks.2 i hi row
      rw [hrow] at hrow'
      obtain rfl := Option.some.inj hrow'
      rw [hmark]
      exact hc
    · rw [marks.1 i hi row] at hcompleted ⊢
      exact hclaimed hcompleted
  | @claimed phase' next =>
    have hkeep : ∀ i row, db.sweeperActions.get? i = some row →
        (row.completedAt ≠ none → row.claimedAt ≠ none) →
        (claimedRow cfg db now i row).completedAt ≠ none →
        (claimedRow cfg db now i row).claimedAt ≠ none := by
      intro i row _ hclaimed hcompleted
      unfold claimedRow at hcompleted ⊢
      split_ifs at hcompleted ⊢
      · simp
      · simp
      · exact hclaimed hcompleted
    rcases next with ⟨batch, rfl, hbatch, -⟩ | rfl
    · have hids : inFlight (.handling batch []) = _ := held_of_batch hbatch
      refine h.mapRows rfl (by rw [hids]; exact nodup_claimed _ _ _) (fun i hi => ?_) hkeep
      rw [hids] at hi
      unfold claimedRow
      by_cases hf : i ∈ (freshRows cfg db).map Prod.fst
      · obtain ⟨row, hrow, hfresh⟩ := get?_of_fresh hf
        refine ⟨row, hrow, ?_⟩
        rw [if_pos hf]
        refine ⟨by simp, ?_⟩
        by_contra hcompleted
        exact h.claimed i row hrow hcompleted hfresh
      · have hs : i ∈ (stuckRows cfg db now).map Prod.fst :=
          (List.mem_append.mp hi).resolve_left hf
        obtain ⟨row, hrow, -, hcompleted, -⟩ := get?_of_stuckRows hs
        refine ⟨row, hrow, ?_⟩
        rw [if_neg hf, if_pos hs]
        exact ⟨by simp, hcompleted⟩
    · exact h.mapRows rfl List.nodup_nil (fun _ hi => absurd hi List.not_mem_nil) hkeep
  | @handled c run todo outcomes error =>
    have hids : inFlight (.handling todo (outcomes ++ [(c, error)])) =
        inFlight (.handling ((c, run) :: todo) outcomes) := by
      simp [inFlight]
    exact ⟨hids ▸ h.nodup, fun i hi => h.live i (hids ▸ hi), h.claimed⟩
  | @drained outcomes =>
    have hids : inFlight (.settling outcomes) = inFlight (.handling [] outcomes) := by
      simp [inFlight]
    exact ⟨hids ▸ h.nodup, fun i hi => h.live i (hids ▸ hi), h.claimed⟩
  | @settled c error outcomes phase' next =>
    have hcons : inFlight (.settling ((c, error) :: outcomes)) =
        c.actionId :: inFlight (.settling outcomes) := rfl
    have hnodup := h.nodup
    rw [hcons, List.nodup_cons] at hnodup
    have hsub : ∀ i ∈ inFlight phase', i ∈ inFlight (.settling outcomes) := by
      rcases next with rfl | rfl
      · exact fun _ hi => hi
      · exact fun _ hi => absurd hi List.not_mem_nil
    refine h.mapRows (g := fun i row => if i = c.actionId then settledRow error now row else row) rfl
      ?_ (fun i hi => ?_) fun i row hrow hclaimed hcompleted => ?_
    · rcases next with rfl | rfl
      · exact hnodup.2
      · exact List.nodup_nil
    · have hi := hsub i hi
      have hne : i ≠ c.actionId := fun e => hnodup.1 (e ▸ hi)
      obtain ⟨row, hrow, hc, hn⟩ := h.live i (by rw [hcons]; exact List.mem_cons_of_mem _ hi)
      exact ⟨row, hrow, by rw [if_neg hne]; exact ⟨hc, hn⟩⟩
    · by_cases hi : i = c.actionId
      · obtain ⟨row', hrow', hc, -⟩ := h.live i (by rw [hcons, hi]; exact List.mem_cons_self)
        rw [hrow] at hrow'
        obtain rfl := Option.some.inj hrow'
        rw [if_pos hi]
        cases error <;> exact hc
      · rw [if_neg hi] at hcompleted ⊢
        exact hclaimed hcompleted

/-- An event of the dispatcher. -/
def Event.isDispatch : Event → Bool
  | .invoked _ | .abandoned _ => true
  | _ => false

theorem isDispatch_entries {mover : Mover} {runId : RunId} {db db' : Db} :
    ∀ e ∈ entries mover runId db db', e.isDispatch = false := by
  intro e he
  unfold entries at he
  split at he
  · cases he
  · split at he
    · cases he
    · rw [List.mem_singleton.mp he]
      rfl

theorem count_append_of_undispatched {history es : List Event}
    (hes : ∀ e ∈ es, e.isDispatch = false) {e : Event} (he : e.isDispatch = true) :
    (history ++ es).count e = history.count e := by
  have hn : e ∉ es := by
    intro hmem
    rw [hes e hmem] at he
    cases he
  rw [List.count_append, List.count_eq_zero_of_not_mem hn, Nat.add_zero]

/-- A step that is not the dispatcher's leaves its pass alone, or is a crash, and adds none of its
events. -/
theorem undispatched {cfg : Config} {w w' : World} {l : Label} (h : step cfg w l = some w')
    (hl : ∀ input, l ≠ .dispatch input) :
    (w'.dispatcher = w.dispatcher ∨ w'.dispatcher = .idle) ∧
      ∃ es, w'.history = w.history ++ es ∧ ∀ e ∈ es, e.isDispatch = false := by
  cases l with
  | beginRun cmd k now fate =>
    simp only [step, Option.ite_none_right_eq_some, Option.some.injEq] at h
    obtain ⟨-, rfl⟩ := h
    exact ⟨.inl rfl, _, rfl, isDispatch_entries⟩
  | submitStageReport _ _ _ | finalizeRun _ _ _ =>
    obtain rfl := Option.some.inj h
    exact ⟨.inl rfl, _, rfl, isDispatch_entries⟩
  | deliver task input =>
    simp only [step, Option.map_eq_some_iff] at h
    obtain ⟨d, -, rfl⟩ := h
    refine ⟨.inl rfl, _, List.append_assoc _ _ _, fun e he => ?_⟩
    rcases List.mem_append.mp he with he | he
    · exact isDispatch_entries e he
    · unfold mailing at he
      split at he
      · rw [List.mem_singleton.mp he]
        rfl
      · cases he
  | resend task input | abort task =>
    simp only [step, Option.map_eq_some_iff] at h
    obtain ⟨d, -, rfl⟩ := h
    exact ⟨.inl rfl, [], (List.append_nil _).symm, fun _ he => absurd he List.not_mem_nil⟩
  | sweep now fate =>
    obtain rfl := Option.some.inj h
    refine ⟨.inl rfl, _, rfl, ?_⟩
    split
    · exact isDispatch_entries
    · exact fun _ he => absurd he List.not_mem_nil
  | dispatch input => exact absurd rfl (hl input)
  | requestResend _ _ | directory _ _ =>
    obtain rfl := Option.some.inj h
    exact ⟨.inl rfl, [], (List.append_nil _).symm, fun _ he => absurd he List.not_mem_nil⟩
  | crash =>
    obtain rfl := Option.some.inj h
    exact ⟨.inr rfl, [], (List.append_nil _).symm, fun _ he => absurd he List.not_mem_nil⟩

/-- A step that is not the dispatcher's leaves the rows that are there alone; the rows it adds are
fresh. -/
theorem get?_undispatched {cfg : Config} {w w' : World} {l : Label}
    (h : step cfg w l = some w') (hl : ∀ input, l ≠ .dispatch input) (i : Nat) :
    w'.db.sweeperActions.get? i = w.db.sweeperActions.get? i ∨
      w.db.sweeperActions.get? i = none ∧
        ∃ runId a now, w'.db.sweeperActions.get? i =
          some { runId := runId, actionName := a, enqueuedAt := now } := by
  cases step_outbox h with
  | quiet rows spares => exact .inl (by rw [rows])
  | stamped input label g identity runs rows => exact absurd label (hl input)
  | enqueued run now stored live runs rows =>
    rw [rows]
    cases hrow : (w.db.sweeperActions.insertAll (outboxRows run.runId
        (cfg.sweeper.resolveDispositionActions run.pipelineType) now)).get? i with
    | none =>
      cases hold : w.db.sweeperActions.get? i with
      | none => exact .inl rfl
      | some row =>
        rw [Serial.get?_insertAll_of_lt (Serial.lt_next_of_get? hold), hold] at hrow
        cases hrow
    | some row =>
      rcases get?_insertAll_outboxRows hrow with hold | ⟨hnone, -, a, rfl⟩
      · exact .inl hold.symm
      · exact .inr ⟨hnone, run.runId, a, now, rfl⟩

theorem InFlight.step {cfg : Config} {w w' : World} {l : Label} (hw : InFlight w.dispatcher w.db)
    (h : step cfg w l = some w') : InFlight w'.dispatcher w'.db := by
  by_cases hl : ∃ input, l = .dispatch input
  · obtain ⟨input, rfl⟩ := hl
    obtain rfl := Option.some.inj h
    exact hw.move (dispatchStep_move cfg.dispatcher input w.dispatcher w.db)
  · have hl : ∀ input, l ≠ .dispatch input := fun input e => hl ⟨input, e⟩
    have hrows := get?_undispatched h hl
    have hids : ∀ i ∈ inFlight w'.dispatcher, i ∈ inFlight w.dispatcher := by
      rcases (undispatched h hl).1 with e | e <;> rw [e]
      · exact fun _ hi => hi
      · exact fun _ hi => absurd hi List.not_mem_nil
    refine ⟨?_, fun i hi => ?_, fun i row hrow hcompleted => ?_⟩
    · rcases (undispatched h hl).1 with e | e <;> rw [e]
      · exact hw.nodup
      · exact List.nodup_nil
    · obtain ⟨row, hrow, hc, hn⟩ := hw.live i (hids i hi)
      rcases hrows i with e | ⟨hnone, -⟩
      · exact ⟨row, e.trans hrow, hc, hn⟩
      · rw [hrow] at hnone
        cases hnone
    · rcases hrows i with e | ⟨-, runId, a, now, e⟩
      · exact hw.claimed i row (e.symm.trans hrow) hcompleted
      · rw [e] at hrow
        obtain rfl := Option.some.inj hrow
        exact absurd rfl hcompleted

theorem inFlight_of_reach {cfg : Config} {w : World} (h : (service cfg).Reach w) :
    InFlight w.dispatcher w.db := by
  refine System.inv_of_reach (I := fun w : World => InFlight w.dispatcher w.db) ⟨?_, ?_⟩ h
  · rintro w ⟨users, subscriptions, rfl⟩
    exact ⟨List.nodup_nil, fun _ hi => absurd hi List.not_mem_nil, fun i row hrow => by cases hrow⟩
  · intro w l w' hw hstep
    exact hw.step hstep

/-! ## A row as a work item -/

/-- A row as a work item. -/
def itemOf (row : Option SweeperActionRow) (held : Bool) (runs abandoned : Nat) :
    WorkItem Instant where
  present := row.isSome
  claimed := row.any fun r => r.claimedAt.isSome
  completed := row.bind fun r => r.completedAt
  attempts := (row.map fun r => r.attempts).getD 0
  held := held
  runs := runs
  abandoned := abandoned

/-- Row `i` of the outbox, and what has happened to it. -/
def item (i : Nat) (w : World) : WorkItem Instant :=
  itemOf (w.db.sweeperActions.get? i) (i ∈ heldIds w.dispatcher) (w.history.count (.invoked i))
    (w.history.count (.abandoned i))

/-- The item stays as it is, or makes a step. -/
def ItemMoves (cfg : Config) (x y : WorkItem Instant) : Prop :=
  y = x ∨ ∃ k, WorkItem.Step cfg.dispatcher.maxDispatchAttempts x k y

/-- A step that is not the dispatcher's brings an item, or takes it out of the hands of a pass. -/
theorem item_undispatched {cfg : Config} {w w' : World} {l : Label}
    (hw : InFlight w.dispatcher w.db) (h : step cfg w l = some w')
    (hl : ∀ input, l ≠ .dispatch input) (i : Nat) : ItemMoves cfg (item i w) (item i w') := by
  obtain ⟨hphase, es, hhistory, hes⟩ := undispatched h hl
  have hruns : w'.history.count (.invoked i) = w.history.count (.invoked i) := by
    rw [hhistory]
    exact count_append_of_undispatched hes rfl
  have habandoned : w'.history.count (.abandoned i) = w.history.count (.abandoned i) := by
    rw [hhistory]
    exact count_append_of_undispatched hes rfl
  unfold item
  rw [hruns, habandoned]
  rcases get?_undispatched h hl i with e | ⟨hnone, runId, a, now, e⟩
  · rw [e]
    rcases hphase with e | e
    · rw [e]
      exact .inl rfl
    · rw [e]
      exact .inr ⟨.release, .release⟩
  · have hheld : i ∉ heldIds w.dispatcher := by
      intro hi
      obtain ⟨row, hrow, -⟩ := hw.live i (mem_inFlight_of_held hi)
      rw [hnone] at hrow
      cases hrow
    have hheld' : i ∉ heldIds w'.dispatcher := by
      rcases hphase with e | e <;> rw [e]
      · exact hheld
      · exact List.not_mem_nil
    rw [hnone, e, decide_eq_false hheld, decide_eq_false hheld']
    exact .inr ⟨.arrive, .arrive rfl⟩

theorem count_invoked_dispatched (history : List Event) (ids : List Nat) (o : Option Nat)
    (i : Nat) : (history ++ ids.map Event.abandoned ++ o.toList.map Event.invoked).count
      (.invoked i) = history.count (.invoked i) + if o = some i then 1 else 0 := by
  rw [List.count_append, List.count_append]
  have hnone : (ids.map Event.abandoned).count (.invoked i) = 0 :=
    List.count_eq_zero_of_not_mem (by simp)
  rw [hnone, Nat.add_zero]
  congr 1
  cases o with
  | none => rfl
  | some j => simp [List.count_singleton]

theorem count_abandoned_dispatched (history : List Event) (ids : List Nat) (o : Option Nat)
    (i : Nat) : (history ++ ids.map Event.abandoned ++ o.toList.map Event.invoked).count
      (.abandoned i) = history.count (.abandoned i) + ids.count i := by
  rw [List.count_append, List.count_append]
  have hnone : (o.toList.map Event.invoked).count (.abandoned i) = 0 :=
    List.count_eq_zero_of_not_mem (by simp)
  rw [hnone, Nat.add_zero]
  congr 1
  exact List.count_map_of_injective _ _ (fun _ _ h => Event.abandoned.inj h) i

/-- A pass abandons the exhausted rows, each once. -/
theorem item_of_abandoned {cfg : Config} {now : Instant} {db : Db}
    {g : Nat → SweeperActionRow → SweeperActionRow}
    (marks : Abandons now ((exhausted cfg.dispatcher db now).map Prod.fst) g)
    (i runs abandoned : Nat) :
    ItemMoves cfg (itemOf (db.sweeperActions.get? i) false runs abandoned)
      (itemOf ((db.sweeperActions.mapRows g).get? i) false runs
        (abandoned + ((exhausted cfg.dispatcher db now).map Prod.fst).count i)) := by
  by_cases hi : i ∈ (exhausted cfg.dispatcher db now).map Prod.fst
  · obtain ⟨row, hrow, hclaimed, hcompleted, hused⟩ := get?_of_exhausted hi
    obtain ⟨message, hmark⟩ := marks.2 i hi row
    have hone : ((exhausted cfg.dispatcher db now).map Prod.fst).count i = 1 :=
      List.count_eq_one_of_mem (SweeperActionRepository.nodup_stuck _ _ _ _) hi
    rw [Serial.get?_mapRows, hone, hrow, Option.map_some, hmark]
    exact .inr ⟨.abandon now, .abandon now (Option.isSome_iff_ne_none.mpr hclaimed) hcompleted
      rfl hused⟩
  · rw [List.count_eq_zero_of_not_mem hi, Serial.get?_mapRows_of_fixed _ (marks.1 i hi)]
    exact .inl rfl

/-- A pass claims the fresh rows and takes over the stuck ones. -/
theorem item_of_claimed {cfg : Config} {now : Instant} {db : Db} {phase : DispatcherPhase}
    (next : (∃ batch, phase = .handling batch [] ∧
      batch.map Prod.fst = claimedActions cfg.dispatcher db now ∧
      ∀ b ∈ batch, b.2 = none → db.runs.get? b.1.runId = none) ∨ phase = .idle)
    (i runs abandoned : Nat) :
    ItemMoves cfg (itemOf (db.sweeperActions.get? i) false runs abandoned)
      (itemOf ((db.sweeperActions.mapRows (claimedRow cfg.dispatcher db now)).get? i)
        (i ∈ heldIds phase) runs abandoned) := by
  by_cases hf : i ∈ (freshRows cfg.dispatcher db).map Prod.fst
  · obtain ⟨row, hrow, hfresh⟩ := get?_of_fresh hf
    rw [Serial.get?_mapRows, hrow, Option.map_some]
    unfold claimedRow
    rw [if_pos hf]
    exact .inr ⟨.claim _, .claim _ rfl (by simp [itemOf, hfresh])⟩
  by_cases hs : i ∈ (stuckRows cfg.dispatcher db now).map Prod.fst
  · obtain ⟨row, hrow, hclaimed, hcompleted, hleft⟩ := get?_of_stuckRows hs
    rw [Serial.get?_mapRows, hrow, Option.map_some]
    unfold claimedRow
    rw [if_neg hf, if_pos hs]
    have hstep : WorkItem.Step cfg.dispatcher.maxDispatchAttempts
        (itemOf (some row) false runs abandoned) _ _ :=
      .reclaim (i ∈ heldIds phase) (Option.isSome_iff_ne_none.mpr hclaimed) hcompleted rfl hleft
    refine .inr ⟨.reclaim (decide (i ∈ heldIds phase)), ?_⟩
    convert hstep using 1
    simp [itemOf, Option.isSome_iff_ne_none.mpr hclaimed]
  · have hheld : i ∉ heldIds phase := by
      rcases next with ⟨batch, rfl, hbatch, -⟩ | rfl
      · intro hi
        have hi : i ∈ batch.map fun c => c.1.actionId := hi
        rw [held_of_batch hbatch] at hi
        exact (List.mem_append.mp hi).elim hf hs
      · exact List.not_mem_nil
    have hfixed : ∀ row, claimedRow cfg.dispatcher db now i row = row := by
      intro row
      unfold claimedRow
      rw [if_neg hf, if_neg hs]
    rw [decide_eq_false hheld, Serial.get?_mapRows_of_fixed _ hfixed]
    exact .inl rfl

/-- A pass calls the handler of the next row it holds, or lets go of the row. -/
theorem item_of_handled {cfg : Config} {c : ClaimedAction} {run : Option Run}
    {todo : List (ClaimedAction × Option Run)} {outcomes : List (ClaimedAction × Option String)}
    (hnodup : c.actionId ∉ todo.map fun c => c.1.actionId) (error : Option String)
    (row : Option SweeperActionRow) (i runs abandoned : Nat) :
    ItemMoves cfg
      (itemOf row (i ∈ heldIds (.handling ((c, run) :: todo) outcomes)) runs abandoned)
      (itemOf row (i ∈ heldIds (.handling todo (outcomes ++ [(c, error)])))
        (runs + if invokes cfg.dispatcher (.handling ((c, run) :: todo) outcomes) = some i
          then 1 else 0) abandoned) := by
  by_cases hi : i = c.actionId
  · subst hi
    have hheld : c.actionId ∈ heldIds (.handling ((c, run) :: todo) outcomes) :=
      List.mem_cons_self
    have hheld' : c.actionId ∉ heldIds (.handling todo (outcomes ++ [(c, error)])) := hnodup
    rw [decide_eq_true hheld, decide_eq_false hheld']
    by_cases hinvokes : invokes cfg.dispatcher (.handling ((c, run) :: todo) outcomes) =
        some c.actionId
    · rw [if_pos hinvokes]
      exact .inr ⟨.run, .run rfl⟩
    · rw [if_neg hinvokes]
      exact .inr ⟨.release, .release⟩
  · have hheld : i ∈ heldIds (.handling ((c, run) :: todo) outcomes) ↔
        i ∈ heldIds (.handling todo (outcomes ++ [(c, error)])) := by
      simp [heldIds, hi]
    have hinvokes : invokes cfg.dispatcher (.handling ((c, run) :: todo) outcomes) ≠ some i := by
      simp only [invokes]
      split_ifs
      · exact fun h => hi (Option.some.inj h).symm
      · exact fun h => nomatch h
    rw [if_neg hinvokes, decide_eq_decide.mpr hheld]
    exact .inl rfl

/-- A pass settles the row of an outcome, which is claimed and not completed. -/
theorem item_of_settled {cfg : Config} {now : Instant} {db : Db} {c : ClaimedAction}
    (hopen : IsOpen db c.actionId) (error : Option String) (i runs abandoned : Nat) :
    ItemMoves cfg (itemOf (db.sweeperActions.get? i) false runs abandoned)
      (itemOf ((db.sweeperActions.mapRows fun i row =>
        if i = c.actionId then settledRow error now row else row).get? i) false runs
        abandoned) := by
  by_cases hi : i = c.actionId
  · subst hi
    obtain ⟨row, hrow, hclaimed, hcompleted⟩ := hopen
    rw [Serial.get?_mapRows, hrow, Option.map_some, if_pos rfl]
    have hclaimed : row.claimedAt.isSome = true := Option.isSome_iff_ne_none.mpr hclaimed
    cases error with
    | none => exact .inr ⟨.complete now false, .complete now false hclaimed hcompleted rfl⟩
    | some message => exact .inr ⟨.complete now true, .complete now true hclaimed hcompleted rfl⟩
  · have hfixed : (db.sweeperActions.mapRows fun i row =>
        if i = c.actionId then settledRow error now row else row).get? i =
          db.sweeperActions.get? i :=
      Serial.get?_mapRows_of_fixed _ fun row => if_neg hi
    rw [hfixed]
    exact .inl rfl

/-- **What the dispatcher does to an item.** -/
theorem item_of_move {cfg : Config} {now : Instant} {db db' : Db} {phase phase' : DispatcherPhase}
    {ids : List Nat} (hw : InFlight phase db)
    (hm : DispatchMove cfg.dispatcher now db phase phase' db' ids) (i runs abandoned : Nat) :
    ItemMoves cfg
      (itemOf (db.sweeperActions.get? i) (i ∈ heldIds phase) runs abandoned)
      (itemOf (db'.sweeperActions.get? i) (i ∈ heldIds phase')
        (runs + if invokes cfg.dispatcher phase = some i then 1 else 0)
        (abandoned + ids.count i)) := by
  cases hm with
  | stopped between =>
    have hheld : heldIds phase = [] := by
      cases phase with
      | handling todo outcomes => exact absurd rfl (between todo outcomes)
      | idle | claiming | settling _ => rfl
    have hinvokes : invokes cfg.dispatcher phase = none := by
      cases phase with
      | handling todo outcomes => exact absurd rfl (between todo outcomes)
      | idle | claiming | settling _ => rfl
    rw [hheld, hinvokes]
    exact .inl rfl
  | @abandoned phase' g marks next =>
    have hheld : heldIds phase' = [] := by
      rcases next with rfl | rfl <;> rfl
    rw [hheld]
    exact item_of_abandoned marks i runs abandoned
  | claimed next => exact item_of_claimed next i runs abandoned
  | @handled c run todo outcomes error =>
    have hnodup := (List.nodup_append.mp hw.nodup).2.1
    exact item_of_handled (List.nodup_cons.mp hnodup).1 error _ i runs abandoned
  | drained => exact .inl rfl
  | @settled c error outcomes phase' next =>
    have hheld : heldIds phase' = [] := by
      rcases next with rfl | rfl <;> rfl
    rw [hheld]
    exact item_of_settled (hw.live c.actionId List.mem_cons_self) error i runs abandoned

/-- **Every step of the service is a step of the item or none of its business.** -/
theorem item_of_step {cfg : Config} {w w' : World} {l : Label} (hw : InFlight w.dispatcher w.db)
    (h : step cfg w l = some w') (i : Nat) : ItemMoves cfg (item i w) (item i w') := by
  by_cases hl : ∃ input, l = .dispatch input
  · obtain ⟨input, rfl⟩ := hl
    obtain rfl := Option.some.inj h
    have hmove := item_of_move hw (dispatchStep_move cfg.dispatcher input w.dispatcher w.db) i
      (w.history.count (.invoked i)) (w.history.count (.abandoned i))
    unfold item
    rw [count_invoked_dispatched, count_abandoned_dispatched]
    exact hmove
  · exact item_undispatched hw h (fun input e => hl ⟨input, e⟩) i

/-- **The service refines the life of each row of the outbox.** -/
theorem service_refines_item (cfg : Config) (i : Nat) : (service cfg).Refines
    (WorkItem.system Instant cfg.dispatcher.maxDispatchAttempts) (item i) where
  init := by
    rintro w ⟨users, subscriptions, rfl⟩
    rfl
  step := by
    intro w l w' hw h
    exact item_of_step (inFlight_of_reach hw) h i

theorem inv_item {cfg : Config} {w : World} (h : (service cfg).Reach w) (i : Nat) :
    WorkItem.Inv cfg.dispatcher.maxDispatchAttempts (item i w) :=
  WorkItem.inv_of_reach ((service_refines_item cfg i).reach h)

/-! ## The audit rows of abandoned rows -/

/-- The row an audit row names. -/
def actionIdOf (e : AuditEvent) : Option Int :=
  match e.details.get? "action_id" with
  | some (.int n) => some n
  | _ => none

/-- A `DISPATCHER_ACTION_ABANDONED` row of row `i` of the outbox. -/
def isAbandonment (i : Nat) (e : AuditEvent) : Bool :=
  e.action = .dispatcherActionAbandoned && actionIdOf e = some (i : Int)

theorem countP_abandonedEvents (cfg : DispatcherConfig) (now : Instant) (i : Nat)
    (rows : List (Nat × SweeperActionRow)) :
    (rows.map fun r => abandonedEvent cfg now (SweeperActionRepository.toClaimed r)).countP
      (isAbandonment i) = (rows.map Prod.fst).count i := by
  have hevent : ∀ r : Nat × SweeperActionRow,
      isAbandonment i (abandonedEvent cfg now (SweeperActionRepository.toClaimed r)) =
        (r.1 == i) := by
    intro r
    have hid : actionIdOf (abandonedEvent cfg now (SweeperActionRepository.toClaimed r)) =
        some (r.1 : Int) := rfl
    have haction : (abandonedEvent cfg now (SweeperActionRepository.toClaimed r)).action =
        .dispatcherActionAbandoned := rfl
    unfold isAbandonment
    rw [hid, haction, Bool.eq_iff_iff]
    simp only [decide_true, Bool.true_and, decide_eq_true_eq, beq_iff_eq, Option.some.injEq]
    exact Int.ofNat_inj
  rw [List.countP_map, List.count, List.countP_map]
  congr 1
  funext r
  exact hevent r

/-- **Each abandonment leaves exactly one audit row.** -/
theorem abandonments_of_reach {cfg : Config} {w : World} (h : (service cfg).Reach w) (i : Nat) :
    (auditRows w.db).countP (isAbandonment i) = w.history.count (.abandoned i) := by
  refine System.inv_of_reach (I := fun w : World =>
    (auditRows w.db).countP (isAbandonment i) = w.history.count (.abandoned i)) ⟨?_, ?_⟩ h
  · rintro w ⟨users, subscriptions, rfl⟩
    rfl
  · intro w l w' hw hstep
    by_cases hl : ∃ input, l = .dispatch input
    · obtain ⟨input, rfl⟩ := hl
      obtain rfl := Option.some.inj hstep
      rw [count_abandoned_dispatched, ← hw]
      have hmove := dispatchStep_move cfg.dispatcher input w.dispatcher w.db
      change (auditRows (dispatchStep cfg.dispatcher input w.dispatcher w.db).2).countP _ = _
      generalize dispatchStep cfg.dispatcher input w.dispatcher w.db = next at hmove
      obtain ⟨phase', db'⟩ := next
      generalize abandons cfg.dispatcher input w.db w.dispatcher = ids at hmove
      generalize w.dispatcher = phase at hmove
      cases hmove with
      | abandoned marks _ =>
        rw [@auditRows_insertAll w.db _ _ rfl, List.countP_append, countP_abandonedEvents]
      | stopped _ | claimed _ | handled _ | drained | settled _ => rfl
    · have hl : ∀ input, l ≠ .dispatch input := fun input e => hl ⟨input, e⟩
      obtain ⟨-, es, hhistory, hes⟩ := undispatched hstep hl
      rw [hhistory, count_append_of_undispatched hes rfl, ← hw]
      refine countP_appends (step_appends cfg hstep) fun e he => ?_
      have hne : e.action ≠ .dispatcherActionAbandoned := by
        intro ha
        rw [ha] at he
        cases l with
        | dispatch input => exact hl input rfl
        | beginRun _ _ _ _ | submitStageReport _ _ _ | finalizeRun _ _ _ | deliver _ _
        | requestResend _ _ | resend _ _ | sweep _ _ | directory _ _ | abort _ | crash =>
          simp [writes] at he
      simp [isAbandonment, hne]

/-! ## The bounds -/

/-- What a step does to a row: it stays what it is about; its attempts do not decrease and its claim
is not taken back; once completed it is final and its handler is not called; once its attempts are
used up no pass takes it; and it is abandoned only when it is open and its attempts are used up,
which completes it. -/
structure RowAdvances (cfg : Config) (i : Nat) (w w' : World) (row row' : SweeperActionRow) :
    Prop where
  identity : row'.runId = row.runId ∧ row'.actionName = row.actionName ∧
    row'.enqueuedAt = row.enqueuedAt
  attempts : row.attempts ≤ row'.attempts
  claimed : row.claimedAt ≠ none → row'.claimedAt ≠ none
  completed : ∀ t, row.completedAt = some t → row'.completedAt = some t ∧
    w'.history.count (.invoked i) = w.history.count (.invoked i)
  exhausted : row.claimedAt ≠ none → cfg.dispatcher.maxDispatchAttempts ≤ row.attempts →
    i ∉ heldIds w.dispatcher → i ∉ heldIds w'.dispatcher
  abandoned : w.history.count (.abandoned i) < w'.history.count (.abandoned i) →
    row.completedAt = none ∧ cfg.dispatcher.maxDispatchAttempts ≤ row.attempts ∧
      row'.completedAt ≠ none

theorem rowAdvances_of_step {cfg : Config} {w w' : World} {l : Label}
    (hw : (service cfg).Reach w) (h : step cfg w l = some w') {i : Nat} {row : SweeperActionRow}
    (hrow : w.db.sweeperActions.get? i = some row) :
    ∃ row', w'.db.sweeperActions.get? i = some row' ∧ RowAdvances cfg i w w' row row' := by
  have hstays : ∃ row', w'.db.sweeperActions.get? i = some row' ∧ row'.runId = row.runId ∧
      row'.actionName = row.actionName ∧ row'.enqueuedAt = row.enqueuedAt := by
    cases step_outbox h with
    | quiet rows _ => exact ⟨row, by rw [rows, hrow], rfl, rfl, rfl⟩
    | enqueued _ _ _ _ _ rows =>
      refine ⟨row, ?_, rfl, rfl, rfl⟩
      rw [rows, Serial.get?_insertAll_of_lt (Serial.lt_next_of_get? hrow), hrow]
    | stamped _ _ g identity _ rows =>
      exact ⟨g i row, by rw [rows, Serial.get?_mapRows, hrow]; rfl, identity i row⟩
  obtain ⟨row', hrow', identity⟩ := hstays
  have hinv := inv_item hw i
  have hmoves := item_of_step (inFlight_of_reach hw) h i
  unfold item at hinv hmoves
  rw [hrow] at hinv
  rw [hrow, hrow'] at hmoves
  refine ⟨row', hrow', ?_⟩
  rcases hmoves with e | ⟨k, hk⟩
  · have hattempts : row'.attempts = row.attempts := congrArg WorkItem.attempts e
    have hclaimed : row'.claimedAt.isSome = row.claimedAt.isSome := congrArg WorkItem.claimed e
    have hcompleted : row'.completedAt = row.completedAt := congrArg WorkItem.completed e
    have hheld := congrArg WorkItem.held e
    have hruns : w'.history.count (.invoked i) = w.history.count (.invoked i) :=
      congrArg WorkItem.runs e
    have habandoned : w'.history.count (.abandoned i) = w.history.count (.abandoned i) :=
      congrArg WorkItem.abandoned e
    refine ⟨identity, hattempts.ge, fun hc => ?_, fun t ht => ⟨hcompleted.trans ht, hruns⟩,
      fun _ _ hn => ?_, fun hlt => by omega⟩
    · rw [← Option.isSome_iff_ne_none] at hc ⊢
      exact hclaimed.trans hc
    · exact of_decide_eq_false (hheld.trans (decide_eq_false hn))
  · refine ⟨identity, hk.attempts_le, fun hc => ?_, fun t ht => ?_, fun hc hused hn => ?_,
      fun hlt => hk.of_abandoned_lt hlt⟩
    · rw [← Option.isSome_iff_ne_none] at hc ⊢
      exact hk.claimed hc
    · obtain ⟨hcompleted, hruns, -⟩ := hk.completed hinv ht
      exact ⟨hcompleted, hruns⟩
    · exact of_decide_eq_false (hk.not_held (Option.isSome_iff_ne_none.mpr hc) hused
        (decide_eq_false hn))

/-- **Outbox delivery bounds.** In every reachable state an orphaned run has one row for each entry
of the list resolved for its pipeline, and no other run has any; the handler of a row has been
called, and the row attempted, at most once more than it may be retried; it has been abandoned at
most once, with one audit row if it was. Every step advances each row (`RowAdvances`). -/
theorem outbox_bounds {cfg : Config} {w : World} (h : (service cfg).Reach w) :
    (∀ runId, actionsOf w.db runId = actionsDue cfg w.db runId) ∧
    (∀ i, w.history.count (.invoked i) ≤ cfg.dispatcher.maxDispatchAttempts + 1 ∧
      w.history.count (.abandoned i) ≤ 1 ∧
      (auditRows w.db).countP (isAbandonment i) = w.history.count (.abandoned i)) ∧
    (∀ i row, w.db.sweeperActions.get? i = some row →
      row.attempts ≤ cfg.dispatcher.maxDispatchAttempts + 1) ∧
    ∀ l w', step cfg w l = some w' → ∀ i row, w.db.sweeperActions.get? i = some row →
      ∃ row', w'.db.sweeperActions.get? i = some row' ∧ RowAdvances cfg i w w' row row' := by
  refine ⟨actionsOf_of_reach h, fun i => ?_, fun i row hrow => ?_, ?_⟩
  · exact ⟨(inv_item h i).runs_le, (inv_item h i).abandoned_le, abandonments_of_reach h i⟩
  · have hattempts := (inv_item h i).attempts_le
    unfold item at hattempts
    rw [hrow] at hattempts
    exact hattempts
  · exact fun l w' hstep i row hrow => rowAdvances_of_step h hstep hrow

/-- A pass that crashes after its handler has returned leaves its row claimed; it has been called
once, and may be called three times more. -/
theorem outbox_bounds_sample : ∃ w, (service sampleConfig).Reach w ∧
    stateOf w.db sampleRun = some .orphaned ∧
    actionsOf w.db sampleRun = [.notifyAdmins, .notifySubscribers] ∧
    w.history.count (.invoked 1) = 1 ∧ w.history.count (.invoked 1) ≤ 4 := by
  obtain ⟨w, hw, hs⟩ := exists_reach_of_labels sampleConfig
    (p := fun w => stateOf w.db sampleRun = some .orphaned ∧
      actionsDue sampleConfig w.db sampleRun = [.notifyAdmins, .notifySubscribers] ∧
      w.history.count (.invoked 1) = 1)
    (sampleOrphaned ++ [sampleDispatch 102, sampleDispatch 103, sampleDispatch 104, .crash])
    (by decide +kernel)
  obtain ⟨hstate, hdue, hcount⟩ : stateOf w.db sampleRun = some .orphaned ∧
      actionsDue sampleConfig w.db sampleRun = [.notifyAdmins, .notifySubscribers] ∧
      w.history.count (.invoked 1) = 1 := of_decide_eq_true hs
  obtain ⟨hactions, hbounds, -, -⟩ := outbox_bounds hw
  exact ⟨w, hw, hstate, (hactions sampleRun).trans hdue, hcount, (hbounds 1).1⟩

end MessageService.System
