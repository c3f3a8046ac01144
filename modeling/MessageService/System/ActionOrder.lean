import MessageService.Lib.Precedes
import MessageService.System.OutboxBounds

/-!
# The order of a run's actions

The rows of a run are in the order of its action list, and a claim takes fresh rows in that order.
A row whose pass was lost before its handler was called is claimed again only when it is stuck, after
the fresh rows and after rows that were claimed longer ago: a claim can take a row of a run while an
earlier one is still waiting for that (`Overdue`). As long as no claim does (`Orderly`), handlers are
first called in order.

* `calls_in_order_of_orderly`: in every run whose claims are all orderly.
* `overdue_row_is_overtaken`: a run with a claim that is not.
-/

namespace MessageService.System

open MessageService.Domain MessageService.Lib MessageService.Infrastructure
open MessageService.Application

/-! ## What is claimed and guarded -/

/-- The first calls of the handlers of a run's rows are in the order of the rows. -/
def RowsInOrder (w : World) (runId : RunId) : Prop :=
  (rowsOf w.db runId).Pairwise fun a b =>
    .invoked a.1 ∈ w.history → Precedes w.history (.invoked a.1) (.invoked b.1)

instance (w : World) (runId : RunId) : Decidable (RowsInOrder w runId) :=
  inferInstanceAs (Decidable (List.Pairwise _ _))

/-- The rows of every run are those of the actions it is due, and their handlers are first called in
that order. -/
def CallsInOrder (cfg : Config) (w : World) : Prop :=
  ∀ runId, actionsOf w.db runId = actionsDue cfg w.db runId ∧ RowsInOrder w runId

/-- A row was claimed and its handler not called, and a later pass may claim it again and call it. -/
def Overdue (cfg : DispatcherConfig) (history : List Event) (row : Nat × SweeperActionRow) : Prop :=
  row.2.claimedAt ≠ none ∧ row.2.completedAt = none ∧ .invoked row.1 ∉ history ∧
    row.2.attempts < cfg.maxDispatchAttempts ∧ cfg.handlersById row.2.actionName = true

instance (cfg : DispatcherConfig) (history : List Event) (row : Nat × SweeperActionRow) :
    Decidable (Overdue cfg history row) :=
  inferInstanceAs (Decidable (_ ∧ _ ∧ _ ∧ _ ∧ _))

/-- The clock reading of a claim. -/
def claimReading (w : World) : Label → Option Instant
  | .dispatch input =>
    match w.dispatcher with
    | .claiming => some input.now
    | _ => none
  | _ => none

/-- `late` was claimed when `row` was, or longer ago. -/
def ClaimedNoLater (late row : SweeperActionRow) : Prop :=
  ∃ c ∈ late.claimedAt, ∃ c' ∈ row.claimedAt, c ≤ c'

instance (late row : SweeperActionRow) : Decidable (ClaimedNoLater late row) :=
  inferInstanceAs (Decidable (∃ c ∈ late.claimedAt, _))

/-- No row a claim takes, and whose handler is registered, has an overdue row of its run before it;
except that both are claimed, the overdue one no later. -/
def Orderly (cfg : Config) (w : World) (l : Label) : Prop :=
  ∀ now ∈ claimReading w l, ∀ row ∈ selected cfg.dispatcher w.db now,
    cfg.dispatcher.handlersById row.2.actionName = true →
      ∀ late ∈ w.db.sweeperActions.rows, late.2.runId = row.2.runId → late.1 < row.1 →
        Overdue cfg.dispatcher w.history late → ClaimedNoLater late.2 row.2

instance (cfg : Config) (w : World) (l : Label) : Decidable (Orderly cfg w l) :=
  inferInstanceAs (Decidable (∀ now ∈ claimReading w l, _))

/-! ## Rows of one run -/

/-- Rows `i` and `j` are of one run, `i` before `j`. -/
def Earlier (db : Db) (i j : Nat) : Prop :=
  i < j ∧ ∃ ri rj, db.sweeperActions.get? i = some ri ∧ db.sweeperActions.get? j = some rj ∧
    ri.runId = rj.runId

/-- The handler of row `i` is registered. -/
def Callable (cfg : Config) (db : Db) (i : Nat) : Prop :=
  ∃ row, db.sweeperActions.get? i = some row ∧
    cfg.dispatcher.handlersById row.actionName = true

/-- The handler of row `i` will not be called any more: it is completed, or has no handler, or its
attempts are used up and no pass holds it. -/
def Settled (cfg : Config) (w : World) (i : Nat) : Prop :=
  ∃ row, w.db.sweeperActions.get? i = some row ∧
    (row.completedAt ≠ none ∨ cfg.dispatcher.handlersById row.actionName = false ∨
      row.claimedAt ≠ none ∧ cfg.dispatcher.maxDispatchAttempts ≤ row.attempts ∧
        i ∉ heldIds w.dispatcher)

/-- The handler of row `i` has been called, or will not be. -/
def Past (cfg : Config) (w : World) (i : Nat) : Prop :=
  .invoked i ∈ w.history ∨ Settled cfg w i

/-- The batch whose handlers a pass has yet to call. -/
def batchOf : DispatcherPhase → List (ClaimedAction × Option Run)
  | .handling todo _ => todo
  | _ => []

theorem heldIds_eq (phase : DispatcherPhase) :
    heldIds phase = (batchOf phase).map fun b => b.1.actionId := by
  cases phase <;> rfl

/-- What carries the order: rows of one run were enqueued at one instant and are first claimed in
order; a row that was called, or that a pass holds, has no row of its run before it that is still to
be called, except those the pass calls first; and what a pass holds is what the table has. -/
structure Ordered (cfg : Config) (w : World) : Prop where
  together : ∀ i j, Earlier w.db i j → ∀ ri rj, w.db.sweeperActions.get? i = some ri →
    w.db.sweeperActions.get? j = some rj → ri.enqueuedAt = rj.enqueuedAt
  claimed : ∀ i j, Earlier w.db i j → ∀ ri rj, w.db.sweeperActions.get? i = some ri →
    w.db.sweeperActions.get? j = some rj → rj.claimedAt ≠ none → ri.claimedAt ≠ none
  copies : ∀ b ∈ batchOf w.dispatcher, b.2 ≠ none ∧
    ∃ row, w.db.sweeperActions.get? b.1.actionId = some row ∧ row.actionName = b.1.actionName
  queued : ∀ j ∈ heldIds w.dispatcher, Callable cfg w.db j → ∀ i, Earlier w.db i j →
    Past cfg w i ∨ Precedes (heldIds w.dispatcher) i j
  called : ∀ i j, Earlier w.db i j → .invoked j ∈ w.history → Past cfg w i
  order : ∀ i j, Earlier w.db i j → .invoked i ∈ w.history →
    Precedes w.history (.invoked i) (.invoked j)

/-! ## What a step does to the rows of a run -/

theorem history_prefix {cfg : Config} {w w' : World} {l : Label} (h : step cfg w l = some w') :
    ∃ es, w'.history = w.history ++ es := by
  obtain ⟨es, rest, hh, -⟩ := step_effect cfg h
  exact ⟨es ++ rest, by rw [hh, List.append_assoc]⟩

/-- What is past stays past. -/
theorem Past.step {cfg : Config} {w w' : World} {l : Label} (hw : (service cfg).Reach w)
    (h : step cfg w l = some w') {i : Nat} (hi : Past cfg w i) : Past cfg w' i := by
  rcases hi with hi | ⟨row, hrow, hsettled⟩
  · obtain ⟨es, hh⟩ := history_prefix h
    exact .inl (by rw [hh]; exact List.mem_append_left _ hi)
  · obtain ⟨row', hrow', hadvances⟩ := rowAdvances_of_step hw h hrow
    refine .inr ⟨row', hrow', ?_⟩
    rcases hsettled with hc | hn | ⟨hc, hused, hheld⟩
    · obtain ⟨t, ht⟩ := Option.ne_none_iff_exists'.mp hc
      rw [(hadvances.completed t ht).1]
      exact .inl (Option.some_ne_none t)
    · rw [hadvances.identity.2.1]
      exact .inr (.inl hn)
    · exact .inr (.inr ⟨hadvances.claimed hc, hused.trans hadvances.attempts,
        hadvances.exhausted hc hused hheld⟩)

/-- A pair of rows of one run was there before a step, or both rows are new and unclaimed. -/
theorem earlier_of_step {cfg : Config} {w w' : World} {l : Label} (hw : (service cfg).Reach w)
    (h : step cfg w l = some w') {i j : Nat} (he : Earlier w'.db i j) :
    Earlier w.db i j ∨
      (w.db.sweeperActions.get? i = none ∧ w.db.sweeperActions.get? j = none ∧
        ∀ ri rj, w'.db.sweeperActions.get? i = some ri → w'.db.sweeperActions.get? j = some rj →
          ri.enqueuedAt = rj.enqueuedAt ∧ rj.claimedAt = none) := by
  obtain ⟨hlt, ri, rj, hri, hrj, hrun⟩ := he
  cases step_outbox h with
  | quiet rows _ =>
    rw [rows] at hri hrj
    exact .inl ⟨hlt, ri, rj, hri, hrj, hrun⟩
  | stamped _ _ g identity _ rows =>
    rw [rows, Serial.get?_mapRows] at hri hrj
    obtain ⟨ri', hri', rfl⟩ := Option.map_eq_some_iff.mp hri
    obtain ⟨rj', hrj', rfl⟩ := Option.map_eq_some_iff.mp hrj
    rw [(identity i ri').1, (identity j rj').1] at hrun
    exact .inl ⟨hlt, ri', rj', hri', hrj', hrun⟩
  | enqueued run now stored live runs rows =>
    -- the run had no rows, as it was not orphaned
    have hold : ∀ k r, w.db.sweeperActions.get? k = some r → r.runId ≠ run.runId := by
      intro k r hr hid
      have ho := orphaned_of_row hw hr
      unfold stateOf at ho
      rw [hid, stored] at ho
      have hstate : run.state = .orphaned := Option.some.inj ho
      rw [hstate] at live
      cases live
    rw [rows] at hri hrj ⊢
    rcases get?_insertAll_outboxRows hri with hi | ⟨hi, hni, a, rfl⟩
    · rcases get?_insertAll_outboxRows hrj with hj | ⟨hj, hnj, b, rfl⟩
      · exact .inl ⟨hlt, ri, rj, hi, hj, hrun⟩
      · exact absurd hrun (hold i ri hi)
    · rcases get?_insertAll_outboxRows hrj with hj | ⟨hj, hnj, b, rfl⟩
      · exact absurd hrun.symm (hold j rj hj)
      · refine .inr ⟨hi, hj, fun ri' rj' hri' hrj' => ?_⟩
        rw [hri] at hri'
        rw [hrj] at hrj'
        obtain rfl := Option.some.inj hri'
        obtain rfl := Option.some.inj hrj'
        exact ⟨rfl, rfl⟩

/-! ## What a claim takes -/

/-- A query that takes a row takes before it the rows that pass the query's test and come no later
in both orders. -/
theorem precedes_of_selected {t : Serial SweeperActionRow} {time : SweeperActionRow → Instant}
    {p : Nat × SweeperActionRow → Bool} {limit i j : Nat} {ri rj : SweeperActionRow}
    (hi : t.get? i = some ri) (hj : t.get? j = some rj) (hp : p (i, ri) = true) (hlt : i < j)
    (htime : time ri ≤ time rj)
    (hmem : j ∈ ((SweeperActionRepository.orderedBy time (t.rows.filter p)).take limit).map
      Prod.fst) :
    Precedes (((SweeperActionRepository.orderedBy time (t.rows.filter p)).take limit).map Prod.fst)
      i j := by
  have hrows : ∀ r ∈ SweeperActionRepository.orderedBy time (t.rows.filter p), r ∈ t.rows :=
    fun r hr => List.mem_of_mem_filter
      ((SweeperActionRepository.perm_orderedBy _ _).mem_iff.mp hr)
  obtain ⟨⟨j', rj'⟩, hrow, rfl⟩ := List.mem_map.mp hmem
  have hj' := Serial.mem_iff_get?.mp (hrows _ (List.mem_of_mem_take hrow))
  rw [hj] at hj'
  obtain rfl := Option.some.inj hj'
  have hmem' : (i, ri) ∈ SweeperActionRepository.orderedBy time (t.rows.filter p) := by
    rw [(SweeperActionRepository.perm_orderedBy _ _).mem_iff, List.mem_filter]
    exact ⟨Serial.mem_iff_get?.mpr hi, hp⟩
  have hprecedes : Precedes (SweeperActionRepository.orderedBy time (t.rows.filter p))
      (i, ri) (j', rj) := by
    refine precedes_of_pairwise (SweeperActionRepository.pairwise_orderedBy _ _) hmem' ?_ ?_
    · intro e
      exact absurd (congrArg Prod.fst e) (Nat.ne_of_lt hlt)
    · rintro (h | ⟨-, h⟩)
      · exact absurd htime (not_le.mpr h)
      · exact absurd hlt (Nat.not_lt.mpr h)
  refine precedes_map (f := Prod.fst) ?_ (hprecedes.take hrow)
  rintro ⟨k, r⟩ hr hk
  obtain rfl : k = j' := hk
  have hk' := Serial.mem_iff_get?.mp (hrows _ (List.mem_of_mem_take hr))
  rw [hj] at hk'
  rw [Option.some.inj hk']

/-- **A claim takes the fresh rows of a run in their order.** -/
theorem fresh_precedes {cfg : DispatcherConfig} {db : Db} {i j : Nat} {ri rj : SweeperActionRow}
    (hi : db.sweeperActions.get? i = some ri) (hj : db.sweeperActions.get? j = some rj)
    (hlt : i < j) (htogether : ri.enqueuedAt = rj.enqueuedAt) (hfresh : ri.claimedAt = none)
    (hmem : j ∈ (freshRows cfg db).map Prod.fst) :
    Precedes ((freshRows cfg db).map Prod.fst) i j :=
  precedes_of_selected hi hj (by simpa using hfresh) hlt htogether.le hmem

/-- It takes the stuck rows of a run in their order, unless a later one was claimed longer ago. -/
theorem stuck_precedes {cfg : DispatcherConfig} {db : Db} {now : Instant} {i j : Nat}
    {ri rj : SweeperActionRow} (hi : db.sweeperActions.get? i = some ri)
    (hj : db.sweeperActions.get? j = some rj) (hlt : i < j) (hnolater : ClaimedNoLater ri rj)
    (hcompleted : ri.completedAt = none) (hleft : ri.attempts < cfg.maxDispatchAttempts)
    (hmem : j ∈ (stuckRows cfg db now).map Prod.fst) :
    Precedes ((stuckRows cfg db now).map Prod.fst) i j := by
  obtain ⟨c, hc, c', hc', hle⟩ := hnolater
  obtain ⟨⟨j', rj'⟩, hrow, rfl⟩ := List.mem_map.mp hmem
  obtain ⟨hrow, hstuck, -⟩ := SweeperActionRepository.mem_stuck hrow
  rw [Serial.mem_iff_get?, hj] at hrow
  obtain rfl := Option.some.inj hrow
  obtain ⟨-, c'', hc'', hcutoff⟩ := SweeperActionRepository.isStuck_iff.mp hstuck
  rw [hc'] at hc''
  obtain rfl := Option.some.inj hc''
  have hstuck' := SweeperActionRepository.isStuck_iff.mpr ⟨hcompleted, c, hc, hle.trans hcutoff⟩
  refine precedes_of_selected hi hj ?_ hlt ?_ hmem
  · simp [hstuck', hleft]
  · rw [hc, hc']
    exact hle

/-- What a claim hands to the handlers is what the table has. -/
theorem get?_of_claimedActions {cfg : DispatcherConfig} {db : Db} {now : Instant}
    {c : ClaimedAction} (h : c ∈ claimedActions cfg db now) :
    ∃ row, db.sweeperActions.get? c.actionId = some row ∧ row.runId = c.runId ∧
      row.actionName = c.actionName := by
  unfold claimedActions at h
  rcases List.mem_append.mp h with h | h
  · obtain ⟨⟨i, row⟩, hr, rfl⟩ := List.mem_map.mp h
    exact ⟨row, Serial.mem_iff_get?.mp (SweeperActionRepository.mem_pending hr).1, rfl, rfl⟩
  · obtain ⟨⟨i, row⟩, hr, rfl⟩ := List.mem_map.mp h
    exact ⟨row, Serial.mem_iff_get?.mp (SweeperActionRepository.mem_stuck hr).1, rfl, rfl⟩

theorem mem_selected {cfg : DispatcherConfig} {db : Db} {now : Instant}
    {r : Nat × SweeperActionRow} (h : r ∈ selected cfg db now) : r ∈ db.sweeperActions.rows := by
  rcases List.mem_append.mp h with h | h
  · exact (SweeperActionRepository.mem_pending h).1
  · exact (SweeperActionRepository.mem_stuck h).1

theorem selected_ids (cfg : DispatcherConfig) (db : Db) (now : Instant) :
    (selected cfg db now).map Prod.fst =
      (freshRows cfg db).map Prod.fst ++ (stuckRows cfg db now).map Prod.fst := by
  unfold selected
  rw [List.map_append]

/-- **An orderly claim leaves no earlier row to be called later**: every row of the run before one
it takes has been called, or will not be, or is taken before it. -/
theorem past_or_precedes_of_claim {cfg : Config} {w w' : World} {input : DispatcherInput}
    (hw : (service cfg).Reach w) (ho : Ordered cfg w)
    (h : step cfg w (.dispatch input) = some w') (horderly : Orderly cfg w (.dispatch input))
    (hclaiming : w.dispatcher = .claiming)
    (hheld : heldIds w'.dispatcher =
      (selected cfg.dispatcher w.db input.now).map Prod.fst) {i j : Nat}
    (hj : j ∈ heldIds w'.dispatcher) (hcallable : Callable cfg w.db j)
    (he : Earlier w.db i j) : Past cfg w' i ∨ Precedes (heldIds w'.dispatcher) i j := by
  have hpast : Past cfg w i → Past cfg w' i := Past.step hw h
  have hearlier := he
  obtain ⟨hlt, ri, rj, hri, hrj, hrun⟩ := he
  rw [hheld] at hj ⊢
  by_cases hcalled : .invoked i ∈ w.history
  · exact .inl (hpast (.inl hcalled))
  by_cases hcompleted : ri.completedAt = none
  swap
  · exact .inl (hpast (.inr ⟨ri, hri, .inl hcompleted⟩))
  by_cases hhandler : cfg.dispatcher.handlersById ri.actionName = true
  swap
  · exact .inl (hpast (.inr ⟨ri, hri, .inr (.inl (Bool.eq_false_iff.mpr hhandler))⟩))
  by_cases hclaimed : ri.claimedAt = none
  · -- a fresh row is taken before the later rows of its run, which are fresh too
    rw [selected_ids] at hj ⊢
    rcases List.mem_append.mp hj with hj | hj
    · exact .inr (fresh_precedes hri hrj hlt (ho.together i j hearlier ri rj hri hrj) hclaimed
        hj).append
    · obtain ⟨row, hrow, hc, -⟩ := get?_of_stuckRows hj
      rw [hrj] at hrow
      obtain rfl := Option.some.inj hrow
      exact absurd hclaimed (ho.claimed i j hearlier ri rj hri hrj hc)
  by_cases hleft : ri.attempts < cfg.dispatcher.maxDispatchAttempts
  · -- an overdue row was claimed no later than the one taken, which is then stuck
    right
    have hreading : input.now ∈ claimReading w (.dispatch input) := by
      simp [claimReading, hclaiming]
    obtain ⟨⟨j', rj'⟩, hrow, rfl⟩ := List.mem_map.mp hj
    obtain rfl : rj' = rj := by
      have hmem := mem_selected hrow
      rw [Serial.mem_iff_get?, hrj] at hmem
      exact (Option.some.inj hmem).symm
    obtain ⟨row, hrow', hregistered⟩ := hcallable
    rw [hrj] at hrow'
    obtain rfl := Option.some.inj hrow'
    have hnolater := horderly input.now hreading _ hrow hregistered (i, ri)
      (Serial.mem_iff_get?.mpr hri) hrun hlt ⟨hclaimed, hcompleted, hcalled, hleft, hhandler⟩
    have hnotfresh : j' ∉ (freshRows cfg.dispatcher w.db).map Prod.fst := by
      intro hfresh
      obtain ⟨r, hr, hn⟩ := get?_of_fresh hfresh
      rw [hrj] at hr
      obtain rfl := Option.some.inj hr
      obtain ⟨-, -, c', hc', -⟩ := hnolater
      rw [hn] at hc'
      cases hc'
    rw [selected_ids] at hj ⊢
    have hstuck := (List.mem_append.mp hj).resolve_left hnotfresh
    exact (precedes_append_of_not_mem hnotfresh).mpr
      (.inr (stuck_precedes hri hrj hlt hnolater hcompleted hleft hstuck))
  · have hheld : i ∉ heldIds w.dispatcher := by
      rw [hclaiming]
      exact List.not_mem_nil
    exact .inl (hpast (.inr ⟨ri, hri, .inr (.inr ⟨hclaimed, Nat.le_of_not_lt hleft, hheld⟩)⟩))

/-! ## What a step does to the batch -/

/-- A row that is not there has not been called, and no pass holds it. -/
theorem unborn {cfg : Config} {w : World} (hw : (service cfg).Reach w) {i : Nat}
    (hi : w.db.sweeperActions.get? i = none) :
    .invoked i ∉ w.history ∧ i ∉ heldIds w.dispatcher := by
  have hinv := inv_item hw i
  have habsent : (item i w).present = false := by
    unfold item
    rw [hi]
    rfl
  obtain ⟨-, -, hheld, hruns⟩ := hinv.unclaimed (hinv.absent habsent)
  exact ⟨List.count_eq_zero.mp hruns, of_decide_eq_false hheld⟩

/-- What a step does to the batch of a pass, and which handlers it calls. -/
inductive BatchEffect (cfg : Config) (w w' : World) (l : Label) : Prop
  /-- The batch is left alone, or lost, and no handler is called. -/
  | kept (batch : batchOf w'.dispatcher = batchOf w.dispatcher ∨ batchOf w'.dispatcher = [])
      (quiet : ∀ i, .invoked i ∈ w'.history → .invoked i ∈ w.history)
  | claimed (input : DispatcherInput) (label : l = .dispatch input)
      (claiming : w.dispatcher = .claiming)
      (batch : (batchOf w'.dispatcher).map Prod.fst = claimedActions cfg.dispatcher w.db input.now)
      (loaded : ∀ b ∈ batchOf w'.dispatcher, b.2 = none → w.db.runs.get? b.1.runId = none)
      (quiet : ∀ i, .invoked i ∈ w'.history → .invoked i ∈ w.history)
  /-- The first row of the batch is handled. -/
  | handled (c : ClaimedAction) (run : Option Run)
      (batch : batchOf w.dispatcher = (c, run) :: batchOf w'.dispatcher)
      (history : w'.history = w.history ++
        if (unhandled cfg.dispatcher c run).isNone then [.invoked c.actionId] else [])

theorem batch_of_move {cfg : DispatcherConfig} {now : Instant} {db db' : Db}
    {phase phase' : DispatcherPhase} {ids : List Nat}
    (hm : DispatchMove cfg now db phase phase' db' ids) :
    (invokes cfg phase = none ∧ (batchOf phase' = batchOf phase ∨ batchOf phase' = [])) ∨
    (phase = .claiming ∧ (batchOf phase').map Prod.fst = claimedActions cfg db now ∧
      ∀ b ∈ batchOf phase', b.2 = none → db.runs.get? b.1.runId = none) ∨
    ∃ c run, batchOf phase = (c, run) :: batchOf phase' ∧ ids = [] ∧
      invokes cfg phase = if (unhandled cfg c run).isNone then some c.actionId else none := by
  cases hm with
  | stopped between =>
    refine .inl ⟨?_, .inr rfl⟩
    cases phase with
    | handling todo outcomes => exact absurd rfl (between todo outcomes)
    | idle | claiming | settling _ => rfl
  | abandoned _ next => exact .inl ⟨rfl, .inr (by rcases next with rfl | rfl <;> rfl)⟩
  | claimed next =>
    rcases next with ⟨batch, rfl, hbatch, hloaded⟩ | rfl
    · exact .inr (.inl ⟨rfl, hbatch, hloaded⟩)
    · exact .inl ⟨rfl, .inr rfl⟩
  | @handled c run todo outcomes error => exact .inr (.inr ⟨c, run, rfl, rfl, rfl⟩)
  | drained => exact .inl ⟨rfl, .inr rfl⟩
  | settled next => exact .inl ⟨rfl, .inr (by rcases next with rfl | rfl <;> rfl)⟩

theorem mem_history_of_uncalled {history : List Event} {ids : List Nat} {o : Option Nat}
    (ho : o = none) {i : Nat} (h : .invoked i ∈ history ++ ids.map Event.abandoned ++
      o.toList.map Event.invoked) : .invoked i ∈ history := by
  subst ho
  simpa using h

/-- **What a step does to the batch.** -/
theorem step_batch {cfg : Config} {w w' : World} {l : Label} (h : step cfg w l = some w') :
    BatchEffect cfg w w' l := by
  by_cases hl : ∃ input, l = .dispatch input
  · obtain ⟨input, rfl⟩ := hl
    obtain rfl := Option.some.inj h
    rcases batch_of_move (dispatchStep_move cfg.dispatcher input w.dispatcher w.db) with
      ⟨hnone, hbatch⟩ | ⟨hclaiming, hbatch, hloaded⟩ | ⟨c, run, hbatch, hids, hinvokes⟩
    · exact .kept hbatch fun i hi => mem_history_of_uncalled hnone hi
    · refine .claimed input rfl hclaiming hbatch hloaded fun i hi => ?_
      refine mem_history_of_uncalled ?_ hi
      rw [hclaiming]
      rfl
    · refine .handled c run hbatch ?_
      change w.history ++ (abandons cfg.dispatcher input w.db w.dispatcher).map Event.abandoned ++
        (invokes cfg.dispatcher w.dispatcher).toList.map Event.invoked = _
      rw [hids, hinvokes, List.map_nil, List.append_nil]
      congr 1
      split <;> rfl
  · obtain ⟨hphase, es, hhistory, hes⟩ := undispatched h fun input e => hl ⟨input, e⟩
    refine .kept ?_ fun i hi => ?_
    · rcases hphase with e | e
      · exact .inl (congrArg batchOf e)
      · exact .inr (congrArg batchOf e)
    · rw [hhistory] at hi
      rcases List.mem_append.mp hi with hi | hi
      · exact hi
      · cases hes _ hi

/-- The dispatcher claims a row for the first time only by a claim that takes it as a fresh row. -/
theorem fresh_of_move {cfg : DispatcherConfig} {now : Instant} {db db' : Db}
    {phase phase' : DispatcherPhase} {ids : List Nat} (hw : InFlight phase db)
    (hm : DispatchMove cfg now db phase phase' db' ids) {j : Nat} {r r' : SweeperActionRow}
    (hr : db.sweeperActions.get? j = some r) (hr' : db'.sweeperActions.get? j = some r')
    (hfresh : r.claimedAt = none) (hclaimed : r'.claimedAt ≠ none) :
    j ∈ (freshRows cfg db).map Prod.fst ∧
      db'.sweeperActions = db.sweeperActions.mapRows (claimedRow cfg db now) := by
  have hkept : db'.sweeperActions = db.sweeperActions → False := by
    intro e
    rw [e, hr] at hr'
    obtain rfl := Option.some.inj hr'
    exact hclaimed hfresh
  cases hm with
  | stopped _ | handled _ | drained => exact (hkept rfl).elim
  | @abandoned phase' g marks next =>
    change (db.sweeperActions.mapRows g).get? j = some r' at hr'
    rw [Serial.get?_mapRows, hr] at hr'
    obtain rfl := Option.some.inj hr'
    by_cases hj : j ∈ (exhausted cfg db now).map Prod.fst
    · obtain ⟨row, hrow, hc, -⟩ := get?_of_exhausted hj
      rw [hr] at hrow
      obtain rfl := Option.some.inj hrow
      exact absurd hfresh hc
    · rw [marks.1 j hj r] at hclaimed
      exact absurd hfresh hclaimed
  | claimed _ =>
    refine ⟨?_, rfl⟩
    change (db.sweeperActions.mapRows (claimedRow cfg db now)).get? j = some r' at hr'
    rw [Serial.get?_mapRows, hr] at hr'
    obtain rfl := Option.some.inj hr'
    by_contra hj
    unfold claimedRow at hclaimed
    rw [if_neg hj] at hclaimed
    split_ifs at hclaimed with hs
    · obtain ⟨row, hrow, hc, -⟩ := get?_of_stuckRows hs
      rw [hr] at hrow
      obtain rfl := Option.some.inj hrow
      exact hc hfresh
    · exact hclaimed hfresh
  | @settled c error outcomes phase' next =>
    change (db.sweeperActions.mapRows _).get? j = some r' at hr'
    rw [Serial.get?_mapRows, hr] at hr'
    obtain rfl := Option.some.inj hr'
    by_cases hj : j = c.actionId
    · obtain ⟨row, hrow, hc, -⟩ := hw.live c.actionId List.mem_cons_self
      rw [← hj, hr] at hrow
      obtain rfl := Option.some.inj hrow
      exact absurd hfresh hc
    · simp only [if_neg hj] at hclaimed
      exact absurd hfresh hclaimed

theorem fresh_of_claimed {cfg : Config} {w w' : World} {l : Label} (hw : (service cfg).Reach w)
    (h : step cfg w l = some w') {j : Nat} {r r' : SweeperActionRow}
    (hr : w.db.sweeperActions.get? j = some r) (hr' : w'.db.sweeperActions.get? j = some r')
    (hfresh : r.claimedAt = none) (hclaimed : r'.claimedAt ≠ none) :
    ∃ now, j ∈ (freshRows cfg.dispatcher w.db).map Prod.fst ∧
      w'.db.sweeperActions = w.db.sweeperActions.mapRows (claimedRow cfg.dispatcher w.db now) := by
  by_cases hl : ∃ input, l = .dispatch input
  · obtain ⟨input, rfl⟩ := hl
    obtain rfl := Option.some.inj h
    exact ⟨input.now, fresh_of_move (inFlight_of_reach hw)
      (dispatchStep_move cfg.dispatcher input w.dispatcher w.db) hr hr' hfresh hclaimed⟩
  · rcases get?_undispatched h (fun input e => hl ⟨input, e⟩) j with e | ⟨hnone, -⟩
    · rw [e, hr] at hr'
      obtain rfl := Option.some.inj hr'
      exact absurd hfresh hclaimed
    · rw [hr] at hnone
      cases hnone

/-! ## The row a pass handles -/

/-- The row a step calls is the one its pass handles. -/
theorem eq_of_called {cfg : DispatcherConfig} {history history' : List Event} {c : ClaimedAction}
    {run : Option Run} (hh : history' = history ++
      if (unhandled cfg c run).isNone then [.invoked c.actionId] else []) {i : Nat}
    (hnot : .invoked i ∉ history) (hmem : .invoked i ∈ history') :
    i = c.actionId ∧ (unhandled cfg c run).isNone = true := by
  rw [hh] at hmem
  have hmem := (List.mem_append.mp hmem).resolve_left hnot
  split_ifs at hmem with hu
  · exact ⟨Event.invoked.inj (List.mem_singleton.mp hmem), hu⟩
  · cases hmem

theorem registered_of_unhandled {cfg : DispatcherConfig} {c : ClaimedAction} {run : Option Run}
    (h : (unhandled cfg c run).isNone = true) : cfg.handlersById c.actionName = true := by
  unfold unhandled at h
  split_ifs at h with hr hu
  · cases h
  · exact hu
  · cases h

theorem unhandled_eq_none {cfg : DispatcherConfig} {c : ClaimedAction} {run : Option Run}
    (hrun : run ≠ none) (h : cfg.handlersById c.actionName = true) :
    unhandled cfg c run = none := by
  unfold unhandled
  rw [if_neg (by simpa using hrun), if_pos h]

section

variable {cfg : Config} {w : World} {c : ClaimedAction} {run : Option Run}
  {todo : List (ClaimedAction × Option Run)} (ho : Ordered cfg w)
  (hbatch : batchOf w.dispatcher = (c, run) :: todo)
include ho hbatch

theorem Ordered.copy : run ≠ none ∧ ∃ row, w.db.sweeperActions.get? c.actionId = some row ∧
    row.actionName = c.actionName := by
  refine ho.copies (c, run) ?_
  rw [hbatch]
  exact List.mem_cons_self

theorem callable_of_handled (hu : (unhandled cfg.dispatcher c run).isNone = true) :
    Callable cfg w.db c.actionId := by
  obtain ⟨-, row, hrow, hname⟩ := ho.copy hbatch
  exact ⟨row, hrow, hname ▸ registered_of_unhandled hu⟩

/-- The row a pass is about to call is not past. -/
theorem not_past_of_handled (hw : (service cfg).Reach w)
    (hu : (unhandled cfg.dispatcher c run).isNone = true)
    (hcalled : .invoked c.actionId ∉ w.history) :
    ¬Past cfg w c.actionId := by
  obtain ⟨-, row, hrow, hname⟩ := ho.copy hbatch
  have hheld : c.actionId ∈ heldIds w.dispatcher := by
    rw [heldIds_eq, hbatch]
    exact List.mem_cons_self
  rintro (hp | ⟨row', hrow', hp⟩)
  · exact hcalled hp
  rw [hrow] at hrow'
  obtain rfl := Option.some.inj hrow'
  rcases hp with hp | hp | ⟨-, -, hp⟩
  · obtain ⟨row', hrow', -, hopen⟩ := (inFlight_of_reach hw).live _ (mem_inFlight_of_held hheld)
    rw [hrow] at hrow'
    obtain rfl := Option.some.inj hrow'
    exact hp hopen
  · rw [hname, registered_of_unhandled hu] at hp
    cases hp
  · exact hp hheld

end

/-- The row a pass handles is called, or has no handler. -/
theorem past_of_handled {cfg : Config} {w w' : World} {l : Label} (hw : (service cfg).Reach w)
    (h : step cfg w l = some w') (ho : Ordered cfg w) {c : ClaimedAction} {run : Option Run}
    {todo : List (ClaimedAction × Option Run)} (hbatch : batchOf w.dispatcher = (c, run) :: todo)
    (history : w'.history = w.history ++
      if (unhandled cfg.dispatcher c run).isNone then [.invoked c.actionId] else []) :
    Past cfg w' c.actionId := by
  obtain ⟨hrun, row, hrow, hname⟩ := ho.copy hbatch
  by_cases hhandler : cfg.dispatcher.handlersById c.actionName = true
  · left
    rw [history, unhandled_eq_none hrun hhandler]
    exact List.mem_append_right _ List.mem_cons_self
  · refine Past.step hw h (.inr ⟨row, hrow, .inr (.inl ?_)⟩)
    rw [hname]
    exact Bool.eq_false_iff.mpr hhandler

/-! ## The invariant, step by step -/

section

variable {cfg : Config} {w w' : World} {l : Label} (hw : (service cfg).Reach w)
  (h : step cfg w l = some w')
include hw h

theorem Callable.of_step {j : Nat} {row : SweeperActionRow}
    (hrow : w.db.sweeperActions.get? j = some row) (hj : Callable cfg w'.db j) :
    Callable cfg w.db j := by
  obtain ⟨row', hrow', hadvances⟩ := rowAdvances_of_step hw h hrow
  obtain ⟨r, hr, hregistered⟩ := hj
  rw [hrow'] at hr
  obtain rfl := Option.some.inj hr
  rw [hadvances.identity.2.1] at hregistered
  exact ⟨row, hrow, hregistered⟩

/-- The rows of an old pair, before a step and after it. -/
theorem Earlier.rows {i j : Nat} (he : Earlier w.db i j) {ri rj : SweeperActionRow}
    (hri : w'.db.sweeperActions.get? i = some ri) (hrj : w'.db.sweeperActions.get? j = some rj) :
    ∃ ri₀ rj₀, w.db.sweeperActions.get? i = some ri₀ ∧ w.db.sweeperActions.get? j = some rj₀ ∧
      RowAdvances cfg i w w' ri₀ ri ∧ RowAdvances cfg j w w' rj₀ rj := by
  obtain ⟨-, ri₀, rj₀, hri₀, hrj₀, -⟩ := he
  obtain ⟨ri', hri', hi⟩ := rowAdvances_of_step hw h hri₀
  obtain ⟨rj', hrj', hj⟩ := rowAdvances_of_step hw h hrj₀
  rw [hri] at hri'
  rw [hrj] at hrj'
  obtain rfl := Option.some.inj hri'
  obtain rfl := Option.some.inj hrj'
  exact ⟨ri₀, rj₀, hri₀, hrj₀, hi, hj⟩

theorem together_step (ho : Ordered cfg w) {i j : Nat} (he : Earlier w'.db i j)
    {ri rj : SweeperActionRow} (hri : w'.db.sweeperActions.get? i = some ri)
    (hrj : w'.db.sweeperActions.get? j = some rj) : ri.enqueuedAt = rj.enqueuedAt := by
  rcases earlier_of_step hw h he with hold | ⟨-, -, hnew⟩
  · obtain ⟨ri₀, rj₀, hri₀, hrj₀, hi, hj⟩ := hold.rows hw h hri hrj
    rw [hi.identity.2.2, hj.identity.2.2]
    exact ho.together i j hold ri₀ rj₀ hri₀ hrj₀
  · exact (hnew ri rj hri hrj).1

theorem claimed_step (ho : Ordered cfg w) {i j : Nat} (he : Earlier w'.db i j)
    {ri rj : SweeperActionRow} (hri : w'.db.sweeperActions.get? i = some ri)
    (hrj : w'.db.sweeperActions.get? j = some rj) (hclaimed : rj.claimedAt ≠ none) :
    ri.claimedAt ≠ none := by
  rcases earlier_of_step hw h he with hold | ⟨-, -, hnew⟩
  swap
  · exact absurd (hnew ri rj hri hrj).2 hclaimed
  obtain ⟨ri₀, rj₀, hri₀, hrj₀, hi, -⟩ := hold.rows hw h hri hrj
  by_cases hfresh : rj₀.claimedAt = none
  swap
  · exact hi.claimed (ho.claimed i j hold ri₀ rj₀ hri₀ hrj₀ hfresh)
  by_cases hfresh' : ri₀.claimedAt = none
  swap
  · exact hi.claimed hfresh'
  -- the later row is claimed as a fresh one, and the earlier one, fresh too, with it
  obtain ⟨now, hmem, hrows⟩ := fresh_of_claimed hw h hrj₀ hrj hfresh hclaimed
  have htogether := ho.together i j hold ri₀ rj₀ hri₀ hrj₀
  have hmem' := (fresh_precedes hri₀ hrj₀ hold.1 htogether hfresh' hmem).mem
  rw [hrows, Serial.get?_mapRows, hri₀] at hri
  obtain rfl := Option.some.inj hri
  unfold claimedRow
  rw [if_pos hmem']
  exact Option.some_ne_none now

theorem copies_step (ho : Ordered cfg w) {b : ClaimedAction × Option Run}
    (hb : b ∈ batchOf w'.dispatcher) : b.2 ≠ none ∧
      ∃ row, w'.db.sweeperActions.get? b.1.actionId = some row ∧
        row.actionName = b.1.actionName := by
  have hkeep : (∃ row, w.db.sweeperActions.get? b.1.actionId = some row ∧
      row.actionName = b.1.actionName) → ∃ row,
        w'.db.sweeperActions.get? b.1.actionId = some row ∧ row.actionName = b.1.actionName := by
    rintro ⟨row, hrow, hname⟩
    obtain ⟨row', hrow', hadvances⟩ := rowAdvances_of_step hw h hrow
    exact ⟨row', hrow', hadvances.identity.2.1.trans hname⟩
  cases step_batch h with
  | kept batch _ =>
    rcases batch with e | e
    · rw [e] at hb
      exact (ho.copies b hb).imp_right hkeep
    · rw [e] at hb
      cases hb
  | claimed input _ _ batch loaded _ =>
    have hmem : b.1 ∈ claimedActions cfg.dispatcher w.db input.now := by
      rw [← batch]
      exact List.mem_map_of_mem hb
    obtain ⟨row, hrow, hrun, hname⟩ := get?_of_claimedActions hmem
    refine ⟨fun hnone => ?_, hkeep ⟨row, hrow, hname⟩⟩
    -- the run of a row is stored
    have horphaned := orphaned_of_row hw hrow
    unfold stateOf at horphaned
    rw [hrun, loaded b hb hnone] at horphaned
    cases horphaned
  | handled c run batch _ =>
    refine (ho.copies b ?_).imp_right hkeep
    rw [batch]
    exact List.mem_cons_of_mem _ hb

/-- A pair with a row that was called, or that a pass holds, was there before. -/
theorem Earlier.old {i j : Nat} (he : Earlier w'.db i j)
    (hj : (.invoked j ∈ w.history ∨ j ∈ heldIds w.dispatcher) ∨
      .invoked i ∈ w.history ∨ i ∈ heldIds w.dispatcher) : Earlier w.db i j := by
  rcases earlier_of_step hw h he with hold | ⟨hi, hj', -⟩
  · exact hold
  · obtain ⟨hc, hh⟩ := unborn hw hi
    obtain ⟨hc', hh'⟩ := unborn hw hj'
    rcases hj with (hj | hj) | hj | hj <;> contradiction

theorem queued_step (ho : Ordered cfg w) (horderly : Orderly cfg w l) {i j : Nat}
    (hj : j ∈ heldIds w'.dispatcher) (hcallable : Callable cfg w'.db j)
    (he : Earlier w'.db i j) : Past cfg w' i ∨ Precedes (heldIds w'.dispatcher) i j := by
  have hpast : Past cfg w i → Past cfg w' i := Past.step hw h
  cases step_batch h with
  | kept batch _ =>
    have hids : heldIds w'.dispatcher = heldIds w.dispatcher ∨ heldIds w'.dispatcher = [] := by
      simp only [heldIds_eq]
      rcases batch with e | e <;> simp [e]
    rcases hids with e | e
    · rw [e] at hj ⊢
      have hold := he.old hw h (.inl (.inr hj))
      obtain ⟨-, -, rj, -, hrj, -⟩ := hold
      exact (ho.queued j hj (hcallable.of_step hw h hrj) i (he.old hw h (.inl (.inr hj)))).imp_left
        hpast
    · rw [e] at hj
      cases hj
  | claimed input label claiming batch _ _ =>
    subst label
    have hids : heldIds w'.dispatcher = (selected cfg.dispatcher w.db input.now).map Prod.fst := by
      rw [heldIds_eq, selected_ids]
      exact held_of_batch batch
    have hmem := hj
    rw [hids] at hmem
    obtain ⟨⟨j', rj⟩, hrow, rfl⟩ := List.mem_map.mp hmem
    have hrj := Serial.mem_iff_get?.mp (mem_selected hrow)
    have hold : Earlier w.db i j' := by
      rcases earlier_of_step hw h he with hold | ⟨-, hnone, -⟩
      · exact hold
      · rw [hrj] at hnone
        cases hnone
    exact past_or_precedes_of_claim hw ho h horderly claiming hids hj
      (hcallable.of_step hw h hrj) hold
  | handled c run batch history =>
    have hids : heldIds w.dispatcher = c.actionId :: heldIds w'.dispatcher := by
      rw [heldIds_eq, heldIds_eq, batch]
      rfl
    have hmem : j ∈ heldIds w.dispatcher := by
      rw [hids]
      exact List.mem_cons_of_mem _ hj
    have hold := he.old hw h (.inl (.inr hmem))
    obtain ⟨-, -, rj, -, hrj, -⟩ := he.old hw h (.inl (.inr hmem))
    rcases ho.queued j hmem (hcallable.of_step hw h hrj) i hold with hp | hp
    · exact .inl (hpast hp)
    · rw [hids, precedes_cons] at hp
      rcases hp.2 with rfl | hp
      · exact .inl (past_of_handled hw h ho batch history)
      · exact .inr hp

theorem called_step (ho : Ordered cfg w) {i j : Nat} (he : Earlier w'.db i j)
    (hj : .invoked j ∈ w'.history) : Past cfg w' i := by
  refine Past.step hw h ?_
  by_cases hcalled : .invoked j ∈ w.history
  · exact ho.called i j (he.old hw h (.inl (.inl hcalled))) hcalled
  cases step_batch h with
  | kept _ quiet | claimed _ _ _ _ _ quiet => exact absurd (quiet j hj) hcalled
  | handled c run batch history =>
    -- it is the row that the pass handles, which is the first it holds
    obtain ⟨rfl, hu⟩ := eq_of_called history hcalled hj
    have hids : heldIds w.dispatcher = c.actionId :: heldIds w'.dispatcher := by
      rw [heldIds_eq, heldIds_eq, batch]
      rfl
    have hmem : c.actionId ∈ heldIds w.dispatcher := by
      rw [hids]
      exact List.mem_cons_self
    rcases ho.queued _ hmem (callable_of_handled ho batch hu) i
      (he.old hw h (.inl (.inr hmem))) with hp | hp
    · exact hp
    · rw [hids, precedes_cons] at hp
      exact absurd rfl hp.1

theorem order_step (ho : Ordered cfg w) {i j : Nat} (he : Earlier w'.db i j)
    (hi : .invoked i ∈ w'.history) : Precedes w'.history (.invoked i) (.invoked j) := by
  by_cases hcalled : .invoked i ∈ w.history
  · obtain ⟨es, hh⟩ := history_prefix h
    rw [hh]
    exact (ho.order i j (he.old hw h (.inr (.inl hcalled))) hcalled).append
  cases step_batch h with
  | kept _ quiet | claimed _ _ _ _ _ quiet => exact absurd (quiet i hi) hcalled
  | handled c run batch history =>
    obtain ⟨rfl, hu⟩ := eq_of_called history hcalled hi
    have hmem : c.actionId ∈ heldIds w.dispatcher := by
      rw [heldIds_eq, batch]
      exact List.mem_cons_self
    have hold := he.old hw h (.inr (.inr hmem))
    have hj : .invoked j ∉ w.history := fun hj =>
      not_past_of_handled ho batch hw hu hcalled (ho.called _ j hold hj)
    rw [history, if_pos hu, precedes_append_of_not_mem hj, precedes_cons]
    exact .inr ⟨fun e => absurd (Event.invoked.inj e) (Nat.ne_of_lt he.1), .inl rfl⟩

theorem Ordered.step (ho : Ordered cfg w) (horderly : Orderly cfg w l) : Ordered cfg w' where
  together _ _ he _ _ hri hrj := together_step hw h ho he hri hrj
  claimed _ _ he _ _ hri hrj := claimed_step hw h ho he hri hrj
  copies _ hb := copies_step hw h ho hb
  queued _ hj hcallable _ he := queued_step hw h ho horderly hj hcallable he
  called _ _ he hj := called_step hw h ho he hj
  order _ _ he hi := order_step hw h ho he hi

end

/-! ## The order -/

/-- **The invariant holds as long as claims are orderly.** -/
theorem ordered_of_reach {cfg : Config} {w : World}
    (h : ((service cfg).restrict (Orderly cfg)).Reach w) : Ordered cfg w := by
  refine System.inv_of_reach_and (I := Ordered cfg) ?_ ?_ h
  · rintro w ⟨users, subscriptions, rfl⟩
    have hnone : ∀ i j, ¬Earlier { users := users, subscriptions := subscriptions } i j := by
      rintro i j ⟨-, ri, -, hri, -⟩
      cases hri
    exact {
      together := fun i j he => absurd he (hnone i j)
      claimed := fun i j he => absurd he (hnone i j)
      copies := fun b hb => absurd hb List.not_mem_nil
      queued := fun j hj => absurd hj List.not_mem_nil
      called := fun i j he => absurd he (hnone i j)
      order := fun i j he => absurd he (hnone i j) }
  · rintro w l w' hw ho ⟨hstep, horderly⟩
    exact ho.step (System.reach_of_restrict hw) hstep horderly

/-- **Handlers are first called in order as long as claims are orderly.** -/
theorem calls_in_order_of_orderly {cfg : Config} {w : World}
    (h : ((service cfg).restrict (Orderly cfg)).Reach w) : CallsInOrder cfg w := by
  intro runId
  refine ⟨actionsOf_of_reach (System.reach_of_restrict h) runId, ?_⟩
  have hsorted : (rowsOf w.db runId).Pairwise fun a b => a.1 < b.1 :=
    w.db.sweeperActions.sorted.filter _
  refine hsorted.imp_of_mem fun {a b} ha hb hlt hcalled => ?_
  obtain ⟨harow, harun⟩ := List.mem_filter.mp ha
  obtain ⟨hbrow, hbrun⟩ := List.mem_filter.mp hb
  refine (ordered_of_reach h).order a.1 b.1 ⟨hlt, a.2, b.2, Serial.mem_iff_get?.mp harow,
    Serial.mem_iff_get?.mp hbrow, ?_⟩ hcalled
  rw [of_decide_eq_true harun, of_decide_eq_true hbrun]

/-- The dispatcher claims and calls row 1, and then row 2. -/
def sampleInOrder : List Label :=
  sampleOrphaned ++ [sampleDispatch 102, sampleDispatch 103, sampleDispatch 104, sampleDispatch 105,
    sampleDispatch 106, sampleDispatch 107, sampleDispatch 108, sampleDispatch 109,
    sampleDispatch 110]

/-- A run of orderly claims in which both handlers are called. -/
theorem calls_in_order_of_orderly_sample : ∃ w,
    ((service sampleConfig).restrict (Orderly sampleConfig)).Reach w ∧
      Event.invoked 1 ∈ w.history ∧ Event.invoked 2 ∈ w.history ∧ CallsInOrder sampleConfig w := by
  have hinit : ((service sampleConfig).restrict (Orderly sampleConfig)).Reach {} :=
    .init ⟨Serial.empty, Serial.empty, rfl⟩
  obtain ⟨w, hw, hcalled⟩ := System.exists_reach_of_run_restrict sampleInOrder hinit
    (p := fun w => Event.invoked 1 ∈ w.history ∧ Event.invoked 2 ∈ w.history) (by decide +kernel)
  obtain ⟨hfirst, hsecond⟩ : Event.invoked 1 ∈ w.history ∧ Event.invoked 2 ∈ w.history :=
    of_decide_eq_true hcalled
  exact ⟨w, hw, hfirst, hsecond, calls_in_order_of_orderly hw⟩

/-- The dispatcher claims row 1 and crashes before it calls its handler; claims and calls row 2; and,
once row 1 is stuck, claims it again and calls it. -/
def overtaken : List Label :=
  sampleOrphaned ++ [sampleDispatch 102, sampleDispatch 103, .crash, sampleDispatch 104,
    sampleDispatch 105, sampleDispatch 106, sampleDispatch 107, sampleDispatch 108,
    sampleDispatch 109, sampleDispatch 170, sampleDispatch 171, sampleDispatch 172]

/-- **An overdue row is overtaken.** The handler of the first action of the list is first called
after that of the second. -/
theorem overdue_row_is_overtaken : NonDecreasing overtaken ∧
    ∃ w, (service sampleConfig).Reach w ∧
      actionsOf w.db sampleRun = [.notifyAdmins, .notifySubscribers] ∧
      Event.invoked 1 ∈ w.history ∧ ¬CallsInOrder sampleConfig w := by
  refine ⟨by decide +kernel, ?_⟩
  obtain ⟨w, hw, hs⟩ := exists_reach_of_labels sampleConfig
    (p := fun w => actionsOf w.db sampleRun = [.notifyAdmins, .notifySubscribers] ∧
      Event.invoked 1 ∈ w.history ∧ ¬RowsInOrder w sampleRun) overtaken (by decide +kernel)
  obtain ⟨hactions, hcalled, hovertaken⟩ : actionsOf w.db sampleRun =
      [.notifyAdmins, .notifySubscribers] ∧ Event.invoked 1 ∈ w.history ∧
        ¬RowsInOrder w sampleRun := of_decide_eq_true hs
  exact ⟨w, hw, hactions, hcalled, fun h => hovertaken (h sampleRun).2⟩

end MessageService.System
