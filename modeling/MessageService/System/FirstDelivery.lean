import MessageService.Lib.Pool
import MessageService.System.Replay

/-!
# At most one first delivery

A run is finalized at most once, taken to `SENDING` at most once, mailed at most once and reconciled
at most once, over every interleaving of the service. The first two follow from `Walk`: the table is
acyclic (`RunState.rank`), so no state is entered twice. The others are conservation laws
(`Conserved`): a delivery earns the right to one send and to one closing row with its `SENDING`
transition and spends each at most once.
-/

namespace MessageService.System

open MessageService.Domain MessageService.Lib MessageService.Infrastructure
open MessageService.Application

/-! ## No state is entered twice -/

/-- The states in an order every edge of the table goes up. -/
def rank : RunState → Nat
  | .initiated => 0
  | .aggregating => 1
  | .ready => 2
  | .sending => 3
  | .sent | .failed | .orphaned => 4

theorem rank_lt_of_edge (a b : RunState) (h : RunState.Edge a b) : rank a < rank b := by
  revert h
  cases a <;> cases b <;> decide

/-- Events that each enter run `runId` into `s` occur at most once. -/
theorem Walk.countP_le_one {w : World} {runId : RunId} (hw : Walk w runId) {p : Event → Bool}
    {s : RunState} (hp : ∀ e, p e = true → enteredBy runId e = some s) :
    w.history.countP p ≤ 1 := by
  have hmono : w.history.countP p ≤ w.history.countP fun e => enteredBy runId e == some s :=
    List.countP_mono_left fun e _ he => by simp [hp e he]
  have hcount : (w.history.countP fun e => enteredBy runId e == some s) =
      (statesEntered runId w.history).count s := List.count_filterMap.symm
  rw [hcount] at hmono
  exact hmono.trans (List.nodup_iff_count_le_one.mp (nodup_of_isChain rank_lt_of_edge hw.chain) s)

/-! ## What is counted -/

/-- A FinalizeRun has committed `READY` for the run. -/
def isFinalization (runId : RunId) : Event → Bool
  | .entered .finalize k _ .ready => k = runId
  | _ => false

/-- A delivery task has committed `READY` to `SENDING` for the run. -/
def isStart (runId : RunId) : Event → Bool
  | .entered (.delivery _) k (some .ready) .sending => k = runId
  | _ => false

/-- The mailer was called with the run's report. -/
def isMail (runId : RunId) : Event → Bool
  | .mailed _ k => k = runId
  | _ => false

/-- A `SEND_REPORT` row of the run. -/
def isSendReport (runId : RunId) (e : AuditEvent) : Bool :=
  e.action = .sendReport && concerns runId e

/-- A delivery of the run that is past its `SENDING` transition and has at least `lo` steps before
it. With `lo = 3` it has yet to call the mailer, with `lo = 2` to close. -/
def window (lo : Nat) (runId : RunId) (d : Delivery) : Bool :=
  d.runId = runId && lo ≤ d.phase.remaining && d.phase.remaining ≤ 6

/-! ## What a step of a delivery does to its phase -/

/-- The first step of a delivery takes a run in `READY` to `SENDING`, or ends it. -/
theorem deliveryStep_scheduled (cfg : DeliveryConfig) (task : Nat) (runId : RunId)
    (input : DeliveryInput) (db : Db) :
    (deliveryStep cfg runId input .scheduled db).1.remaining = 0 ∨
      entries (.delivery task) runId db (deliveryStep cfg runId input .scheduled db).2 =
        [.entered (.delivery task) runId (some .ready) .sending] := by
  rcases Tx.resume_spec (startSending runId input.now) input.fate DeliveryPhase.loading .ended db
    with ⟨-, o, h⟩ | ⟨run, db', hx, h, -⟩
  · left
    simp only [deliveryStep, h]
    rfl
  · right
    obtain ⟨hrun, -, hstate, hruns, -⟩ := startSending_ok hx
    simp only [deliveryStep, h]
    have hwas : stateOf db runId = some .ready := by
      unfold stateOf
      rw [hrun]
      exact congrArg some hstate
    have his : stateOf db' runId = some .sending := by
      unfold stateOf
      rw [hruns, RunRepository.get?_moved, if_pos rfl, hrun]
      rfl
    rw [entries_of_ne his (by rw [hwas]; decide), hwas]

/-! ## Conservation -/

theorem countP_entries_isMail (mover : Mover) (k runId : RunId) (db db' : Db) :
    (entries mover k db db').countP (isMail runId) = 0 := by
  unfold entries
  split
  · rfl
  · split_ifs <;> rfl

/-- **The window law.** A step that leaves the window from its low end or enters it at its high end:
the latter only with the `SENDING` transition. -/
theorem window_deliveryStep (cfg : DeliveryConfig) (task : Nat) (runId : RunId)
    (input : DeliveryInput) (d : Delivery) (db : Db) {lo : Nat} (h1 : 1 ≤ lo) (h6 : lo ≤ 6) :
    let r := deliveryStep cfg d.runId input d.phase db
    (window lo runId { d with phase := r.1 }).toNat +
        (if d.runId = runId ∧ d.phase.remaining = lo then 1 else 0) ≤
      (window lo runId d).toNat +
        (entries (.delivery task) d.runId db r.2).countP (isStart runId) := by
  intro r
  by_cases hid : d.runId = runId
  · have hforward : r.1.remaining ≤ d.phase.remaining - 1 :=
      remaining_deliveryStep cfg d.runId input d.phase db
    by_cases hs : d.phase.remaining ≤ 6
    · simp only [window, hid, decide_true, Bool.true_and, true_and]
      by_cases hlow : lo ≤ d.phase.remaining
      · by_cases heq : d.phase.remaining = lo
        · have : ¬lo ≤ r.1.remaining := by omega
          simp [this, heq, h6]
        · rw [if_neg heq]
          simp only [hlow, hs, decide_true, Bool.and_self, Bool.toNat_true]
          have := Bool.toNat_le (decide (lo ≤ r.1.remaining) && decide (r.1.remaining ≤ 6))
          omega
      · have h' : ¬lo ≤ r.1.remaining := by omega
        have hne : d.phase.remaining ≠ lo := by omega
        simp [h', hne]
    · have hsched : d.phase = .scheduled := by
        cases hp : d.phase <;> rw [hp] at hs <;> simp [DeliveryPhase.remaining] at hs
      have hne : d.phase.remaining ≠ lo := by omega
      rw [if_neg fun h => hne h.2, Nat.add_zero]
      have hstep := deliveryStep_scheduled cfg task d.runId input db
      rw [← hsched] at hstep
      rcases hstep with hend | hstart
      · have : ¬lo ≤ r.1.remaining := by
          change r.1.remaining = 0 at hend
          omega
        simp [window, this]
      · have hone : (entries (.delivery task) d.runId db r.2).countP (isStart runId) = 1 := by
          rw [hstart]
          simp [isStart, hid]
        rw [hone]
        have := Bool.toNat_le (window lo runId { d with phase := r.1 })
        omega
  · simp [window, hid]

/-- A run is mailed, and closed, at most as often as deliveries have taken it to `SENDING`. -/
structure Conserved (w : World) (runId : RunId) : Prop where
  mails : w.history.countP (isMail runId) + w.deliveries.countP (window 3 runId) ≤
    w.history.countP (isStart runId)
  rows : (auditRows w.db).countP (isSendReport runId) + w.deliveries.countP (window 2 runId) ≤
    w.history.countP (isStart runId)

theorem window_stopped {lo : Nat} (h : 1 ≤ lo) (runId : RunId) (d : Delivery) :
    window lo runId d.stopped = false := by
  have : ¬lo ≤ 0 := by omega
  simp [window, Delivery.stopped, DeliveryPhase.remaining, this]

/-- A step that is no delivery's mails nothing and takes no delivery past its start. -/
theorem step_other {cfg : Config} {w w' : World} {l : Label} (h : step cfg w l = some w')
    (hl : ∀ task input, l ≠ .deliver task input) (runId : RunId) :
    (∃ es, w'.history = w.history ++ es ∧ es.countP (isMail runId) = 0) ∧
      ∀ lo, 1 ≤ lo → lo ≤ 6 →
        w'.deliveries.countP (window lo runId) ≤ w.deliveries.countP (window lo runId) := by
  cases l with
  | beginRun cmd k now fate =>
    simp only [step, Option.ite_none_right_eq_some, Option.some.injEq] at h
    obtain ⟨-, rfl⟩ := h
    exact ⟨⟨_, rfl, countP_entries_isMail _ _ _ _ _⟩, fun _ _ _ => Nat.le_refl _⟩
  | submitStageReport cmd now fate =>
    obtain rfl := Option.some.inj h
    exact ⟨⟨_, rfl, countP_entries_isMail _ _ _ _ _⟩, fun _ _ _ => Nat.le_refl _⟩
  | finalizeRun cmd now fate =>
    obtain rfl := Option.some.inj h
    refine ⟨⟨_, rfl, countP_entries_isMail _ _ _ _ _⟩, fun lo _ h6 => ?_⟩
    have hnew : ∀ k : Option RunId, (k.toList.map fun runId =>
        (⟨runId, .scheduled⟩ : Delivery)).countP (window lo runId) = 0 := by
      intro k
      cases k <;> simp [window, DeliveryPhase.remaining]
    simp only [List.countP_append, hnew, Nat.add_zero, Nat.le_refl]
  | deliver task input => exact absurd rfl (hl task input)
  | requestResend k adminUserId =>
    obtain rfl := Option.some.inj h
    exact ⟨⟨[], by simp, rfl⟩, fun _ _ _ => Nat.le_refl _⟩
  | resend task input =>
    simp only [step, Option.map_eq_some_iff] at h
    obtain ⟨r, -, rfl⟩ := h
    exact ⟨⟨[], by simp, rfl⟩, fun _ _ _ => Nat.le_refl _⟩
  | sweep now fate =>
    obtain rfl := Option.some.inj h
    refine ⟨⟨_, rfl, ?_⟩, fun _ _ _ => Nat.le_refl _⟩
    split
    · exact countP_entries_isMail _ _ _ _ _
    · rfl
  | dispatch input =>
    obtain rfl := Option.some.inj h
    refine ⟨⟨_, List.append_assoc _ _ _, ?_⟩, fun _ _ _ => Nat.le_refl _⟩
    rw [List.countP_append, List.countP_map, List.countP_map]
    have h1 : isMail runId ∘ Event.abandoned = fun _ => false := rfl
    have h2 : isMail runId ∘ Event.invoked = fun _ => false := rfl
    rw [h1, h2]
    simp
  | directory users subscriptions =>
    obtain rfl := Option.some.inj h
    exact ⟨⟨[], by simp, rfl⟩, fun _ _ _ => Nat.le_refl _⟩
  | abort task =>
    simp only [step, Option.map_eq_some_iff] at h
    obtain ⟨d, hd, rfl⟩ := h
    refine ⟨⟨[], by simp, rfl⟩, fun lo h1 _ => ?_⟩
    have := countP_set (p := window lo runId) hd d.stopped
    rw [window_stopped h1] at this
    simp only [Bool.toNat_false, Nat.add_zero] at this
    exact this ▸ Nat.le_add_right _ _
  | crash =>
    obtain rfl := Option.some.inj h
    refine ⟨⟨[], by simp, rfl⟩, fun lo h1 _ => ?_⟩
    have hzero : (w.deliveries.map Delivery.stopped).countP (window lo runId) = 0 := by
      rw [List.countP_map, List.countP_eq_zero]
      intro d _
      simp [window_stopped h1]
    exact hzero ▸ Nat.zero_le _

theorem countP_mailing (task : Nat) (runId : RunId) (d : Delivery) :
    (mailing task d.runId d.phase).countP (isMail runId) =
      if d.runId = runId ∧ d.phase.remaining = 3 then 1 else 0 := by
  cases d.phase <;> simp [mailing, DeliveryPhase.remaining, isMail, List.countP_cons]

/-- A delivery adds a `SEND_REPORT` row of the run only when it closes it, and one at most. -/
theorem countP_deliveryStep (cfg : DeliveryConfig) (runId : RunId) (input : DeliveryInput)
    (d : Delivery) (db : Db) :
    (auditRows (deliveryStep cfg d.runId input d.phase db).2).countP (isSendReport runId) ≤
      (auditRows db).countP (isSendReport runId) +
        if d.runId = runId ∧ d.phase.remaining = 2 then 1 else 0 := by
  rcases deliveryStep_appends cfg d.runId input d.phase db with h | ⟨e, h, ha⟩
  · have : auditRows (deliveryStep cfg d.runId input d.phase db).2 = auditRows db := by
      unfold auditRows
      rw [h]
    rw [this]
    exact Nat.le_add_right _ _
  · rw [auditRows_insert h, List.countP_append, List.countP_singleton]
    refine Nat.add_le_add_left ?_ _
    rcases ha with ha | ⟨-, ⟨how, notify, hphase⟩, habout⟩
    · simp [isSendReport, ha]
    · by_cases hid : d.runId = runId
      · rw [if_pos (c := d.runId = runId ∧ _) ⟨hid, by rw [hphase]; rfl⟩]
        split <;> omega
      · have : concerns runId e = false := by
          rw [Bool.eq_false_iff]
          exact fun h => hid ((habout runId).mp h).symm
        simp [isSendReport, this]

theorem Conserved.step {cfg : Config} {w w' : World} {l : Label} {runId : RunId}
    (hw : Conserved w runId) (h : step cfg w l = some w') : Conserved w' runId := by
  by_cases hl : ∃ task input, l = .deliver task input
  · obtain ⟨task, input, rfl⟩ := hl
    simp only [System.step, Option.map_eq_some_iff] at h
    obtain ⟨d, hd, rfl⟩ := h
    have hwindow := fun lo h1 h6 =>
      @window_deliveryStep cfg.delivery task runId input d w.db lo h1 h6
    have hset := fun lo => countP_set (p := window lo runId) hd
      { d with phase := (deliveryStep cfg.delivery d.runId input d.phase w.db).1 }
    have hmail := countP_mailing task runId d
    have hrows := countP_deliveryStep cfg.delivery runId input d w.db
    have hentries := countP_entries_isMail (.delivery task) d.runId runId w.db
      (deliveryStep cfg.delivery d.runId input d.phase w.db).2
    have hstart : (mailing task d.runId d.phase).countP (isStart runId) = 0 := by
      cases d.phase <;> rfl
    obtain ⟨hm, hr⟩ := hw
    constructor
    · have h3 := hwindow 3 (by omega) (by omega)
      have h3' := hset 3
      simp only [List.countP_append, hentries, hmail, hstart] at h3 ⊢
      omega
    · have h2 := hwindow 2 (by omega) (by omega)
      have h2' := hset 2
      simp only [List.countP_append, hstart] at h2 ⊢
      omega
  · have hl' : ∀ task input, l ≠ .deliver task input := fun task input e => hl ⟨task, input, e⟩
    obtain ⟨⟨es, hes, hmail⟩, hwindow⟩ := step_other h hl' runId
    have hrows := countP_appends (p := isSendReport runId) (step_appends cfg h) (by
      intro e he
      have : e.action ≠ .sendReport := by
        intro ha
        rw [ha] at he
        cases l <;> simp [writes] at he
        exact hl' _ _ rfl
      simp [isSendReport, this])
    have h3 := hwindow 3 (by omega) (by omega)
    have h2 := hwindow 2 (by omega) (by omega)
    obtain ⟨hm, hr⟩ := hw
    constructor
    · rw [hes, List.countP_append, List.countP_append, hmail]
      omega
    · rw [hrows, hes, List.countP_append]
      omega

theorem conserved_of_reach {cfg : Config} {w : World} (h : (service cfg).Reach w) (runId : RunId) :
    Conserved w runId := by
  refine System.inv_of_reach (I := fun w => Conserved w runId) ⟨?_, ?_⟩ h
  · rintro w ⟨users, subscriptions, rfl⟩
    exact ⟨Nat.le_refl _, Nat.le_refl _⟩
  · intro w l w' hw hstep
    exact hw.step hstep

/-! ## A delivery mails only after its own start -/

/-- The start of delivery `task`. -/
def startOf (task : Nat) (runId : RunId) : Event :=
  .entered (.delivery task) runId (some .ready) .sending

/-- A delivery past its start has its start in the history, and a call of the mailer comes after the
start of the delivery that made it. -/
structure Started (w : World) : Prop where
  task : ∀ (task : Nat) (d : Delivery), w.deliveries[task]? = some d → 1 ≤ d.phase.remaining →
    d.phase.remaining ≤ 6 → startOf task d.runId ∈ w.history
  mail : ∀ task runId, .mailed task runId ∈ w.history → ∃ before after,
    w.history = before ++ startOf task runId :: after ∧ .mailed task runId ∈ after

/-- A step that is no delivery's leaves each task alone, ends it, or schedules a new one. -/
theorem task_of_step_other {cfg : Config} {w w' : World} {l : Label} (h : step cfg w l = some w')
    (hl : ∀ task input, l ≠ .deliver task input) {task : Nat} {d : Delivery}
    (hd : w'.deliveries[task]? = some d) :
    w.deliveries[task]? = some d ∨ d.phase.remaining = 0 ∨ d.phase.remaining = 7 := by
  cases l with
  | beginRun cmd k now fate =>
    simp only [step, Option.ite_none_right_eq_some, Option.some.injEq] at h
    obtain ⟨-, rfl⟩ := h
    exact .inl hd
  | finalizeRun cmd now fate =>
    obtain rfl := Option.some.inj h
    simp only [List.getElem?_append] at hd
    split_ifs at hd
    · exact .inl hd
    · have hmem := List.mem_of_getElem? hd
      obtain ⟨k, -, rfl⟩ := List.mem_map.mp hmem
      exact .inr (.inr rfl)
  | deliver task input => exact absurd rfl (hl task input)
  | resend task input =>
    simp only [step, Option.map_eq_some_iff] at h
    obtain ⟨r, -, rfl⟩ := h
    exact .inl hd
  | abort task' =>
    simp only [step, Option.map_eq_some_iff] at h
    obtain ⟨d', hd', rfl⟩ := h
    by_cases ht : task' = task
    · subst ht
      rw [getElem?_set_of_some hd'] at hd
      obtain rfl := Option.some.inj hd
      exact .inr (.inl rfl)
    · rw [List.getElem?_set_ne ht] at hd
      exact .inl hd
  | crash =>
    obtain rfl := Option.some.inj h
    simp only [List.getElem?_map, Option.map_eq_some_iff] at hd
    obtain ⟨d', -, rfl⟩ := hd
    exact .inr (.inl rfl)
  | submitStageReport _ _ _ | requestResend _ _ | sweep _ _ | dispatch _ | directory _ _ =>
    obtain rfl := Option.some.inj h
    exact .inl hd

theorem Started.step {cfg : Config} {w w' : World} {l : Label} (hw : Started w)
    (h : step cfg w l = some w') : Started w' := by
  by_cases hl : ∃ task input, l = .deliver task input
  · obtain ⟨task, input, rfl⟩ := hl
    simp only [System.step, Option.map_eq_some_iff] at h
    obtain ⟨d, hd, rfl⟩ := h
    constructor
    · intro t d' hd' h1 h6
      by_cases ht : task = t
      · subst ht
        rw [getElem?_set_of_some hd] at hd'
        obtain rfl := Option.some.inj hd'
        by_cases hs : d.phase.remaining ≤ 6
        · have hforward := remaining_deliveryStep cfg.delivery d.runId input d.phase w.db
          have : 1 ≤ d.phase.remaining := by
            simp only at h1
            omega
          exact List.mem_append_left _ (List.mem_append_left _ (hw.task task d hd this hs))
        · have hsched : d.phase = .scheduled := by
            cases hp : d.phase <;> rw [hp] at hs <;> simp [DeliveryPhase.remaining] at hs
          have hstep := deliveryStep_scheduled cfg.delivery task d.runId input w.db
          rw [← hsched] at hstep
          rcases hstep with hend | hstart
          · simp only at h1
            omega
          · refine List.mem_append_left _ (List.mem_append_right _ ?_)
            rw [hstart]
            exact List.mem_singleton_self _
      · rw [List.getElem?_set_ne ht] at hd'
        exact List.mem_append_left _ (List.mem_append_left _ (hw.task t d' hd' h1 h6))
    · intro t runId hm
      simp only [List.mem_append] at hm
      rcases hm with (hm | hm) | hm
      · obtain ⟨before, after, hh, hafter⟩ := hw.mail t runId hm
        refine ⟨before, after ++ entries (.delivery task) d.runId w.db
          (deliveryStep cfg.delivery d.runId input d.phase w.db).2 ++
            mailing task d.runId d.phase, ?_, ?_⟩
        · simp only [hh, List.append_assoc, List.cons_append]
        · exact List.mem_append_left _ (List.mem_append_left _ hafter)
      · unfold entries at hm
        split at hm
        · cases hm
        · split_ifs at hm
          · cases hm
          · simp at hm
      · have hsend : ∃ email, d.phase = .sending email ∧ t = task ∧ runId = d.runId := by
          cases hp : d.phase <;> rw [hp] at hm <;> simp [mailing] at hm
          exact ⟨_, rfl, hm⟩
        obtain ⟨email, hphase, rfl, rfl⟩ := hsend
        have hthree : d.phase.remaining = 3 := by
          rw [hphase]
          rfl
        have hstart := hw.task t d hd (by omega) (by omega)
        obtain ⟨before, after, hh⟩ := List.append_of_mem hstart
        refine ⟨before, after ++ entries (.delivery t) d.runId w.db
          (deliveryStep cfg.delivery d.runId input d.phase w.db).2 ++
            mailing t d.runId d.phase, ?_, List.mem_append_right _ hm⟩
        simp only [hh, List.append_assoc, List.cons_append]
  · have hl' : ∀ task input, l ≠ .deliver task input := fun task input e => hl ⟨task, input, e⟩
    obtain ⟨⟨es, hes, -⟩, -⟩ := step_other h hl' ""
    have hnomail : ∀ t runId, .mailed t runId ∉ es := by
      intro t runId hm
      obtain ⟨⟨es', hes', hzero⟩, -⟩ := step_other h hl' runId
      rw [hes, List.append_cancel_left_eq] at hes'
      subst hes'
      exact (List.countP_eq_zero.mp hzero _ hm) (by simp [isMail])
    constructor
    · intro t d' hd' h1 h6
      rcases task_of_step_other h hl' hd' with hd | h0 | h7
      · rw [hes]
        exact List.mem_append_left _ (hw.task t d' hd h1 h6)
      · omega
      · omega
    · intro t runId hm
      rw [hes, List.mem_append] at hm
      rcases hm with hm | hm
      · obtain ⟨before, after, hh, hafter⟩ := hw.mail t runId hm
        exact ⟨before, after ++ es, by rw [hes, hh]; simp, List.mem_append_left _ hafter⟩
      · exact absurd hm (hnomail t runId)

theorem started_of_reach {cfg : Config} {w : World} (h : (service cfg).Reach w) : Started w := by
  refine System.inv_of_reach (I := Started) ⟨?_, ?_⟩ h
  · rintro w ⟨users, subscriptions, rfl⟩
    exact ⟨by simp, by simp⟩
  · intro w l w' hw hstep
    exact hw.step hstep

/-! ## Reconciliation -/

/-- A reconciliation row of run `runId` in terminal state `s`. -/
def IsReconciliation (runId : RunId) (s : RunState) (e : AuditEvent) : Prop :=
  e.action = .sendReport ∧ (∀ k, concerns k e = true ↔ k = runId) ∧
    textAt e.details "reconciled_terminal_state" = some s.value

/-- **The last unit of work of a delivery whose run has become terminal** adds a reconciliation row
and changes nothing else. -/
theorem closing_of_terminal {cfg : DeliveryConfig} {runId : RunId} {input : DeliveryInput}
    {how : Closing} {notify : Bool} {db : Db} {s : RunState} (hs : stateOf db runId = some s)
    (ht : s.terminal = true) (ha : deliveryAborts runId input db (.closing how notify) = false) :
    ∃ e, IsReconciliation runId s e ∧
      (deliveryStep cfg runId input (.closing how notify) db).2 =
        { db with auditLog := db.auditLog.insert e } := by
  obtain ⟨a, db', hx, hdb⟩ := @Tx.resume_of_not_aborts _ _ _ _ _ _
    (fun _ => if notify then DeliveryPhase.notifying else .ended (.returned ())) .ended _ ha
  simp only [deliveryStep, hdb]
  obtain ⟨run, hrun, -, ⟨-, rfl⟩ | ⟨hedge, -⟩⟩ := finalize_ok hx
  · have hstate : run.state = s := by
      unfold stateOf at hs
      rw [hrun] at hs
      exact Option.some.inj hs
    refine ⟨_, ⟨rfl, concerns_iff ?_ ?_, ?_⟩, rfl⟩
    · simp [reconciliationEvent]
    · exact get?_reconciliation _ _ _ _ how.unreserved_extra (by decide)
    · unfold textAt
      rw [get?_reconciliation _ _ _ _ how.unreserved_extra (by decide), hstate]
      rfl
  · have hstate : run.state = s := by
      unfold stateOf at hs
      rw [hrun] at hs
      exact Option.some.inj hs
    exact absurd (hstate ▸ hedge) (RunState.not_edge_of_terminal ht)

/-- A delivery whose run is terminal when its first step runs ends there. -/
theorem scheduled_of_terminal {cfg : DeliveryConfig} {runId : RunId} {input : DeliveryInput}
    {db : Db} {s : RunState} (hs : stateOf db runId = some s) (ht : s.terminal = true) :
    ∃ outcome, deliveryStep cfg runId input .scheduled db = (.ended outcome, db) := by
  rcases Tx.resume_spec (startSending runId input.now) input.fate DeliveryPhase.loading .ended db
    with ⟨hdb, o, h⟩ | ⟨run, db', hx, -⟩
  · exact ⟨o, Prod.ext h hdb⟩
  · obtain ⟨hrun, -, hready, -⟩ := startSending_ok hx
    unfold stateOf at hs
    rw [hrun] at hs
    obtain rfl : run.state = s := Option.some.inj hs
    rw [hready] at ht
    cases ht

/-- **At most one first delivery.** Over every interleaving, each run is finalized at most once,
taken to `SENDING` by a delivery at most once, mailed at most once (by a delivery that has itself
taken it from `READY` to `SENDING` before), and gets at most one `SEND_REPORT` row. A delivery whose
run is terminal at its first step ends there. A delivery that closes a run that has become terminal
adds one reconciliation row and changes nothing else. -/
theorem at_most_one_first_delivery {cfg : Config} {w : World} (h : (service cfg).Reach w) :
    (∀ runId, w.history.countP (isFinalization runId) ≤ 1 ∧
      w.history.countP (isStart runId) ≤ 1 ∧ w.history.countP (isMail runId) ≤ 1 ∧
      (auditRows w.db).countP (isSendReport runId) ≤ 1) ∧
    (∀ task runId, .mailed task runId ∈ w.history → ∃ before after,
      w.history = before ++ startOf task runId :: after ∧ .mailed task runId ∈ after) ∧
    ∀ task input w' d s, step cfg w (.deliver task input) = some w' →
      w.deliveries[task]? = some d → stateOf w.db d.runId = some s → s.terminal = true →
      (d.phase = .scheduled → w'.db = w.db ∧
        ∃ outcome, w'.deliveries[task]? = some { d with phase := .ended outcome }) ∧
      ∀ how notify, d.phase = .closing how notify →
        (aborts cfg w (.deliver task input) = true → w'.db = w.db) ∧
        (aborts cfg w (.deliver task input) = false → ∃ e, IsReconciliation d.runId s e ∧
          w'.db = { w.db with auditLog := w.db.auditLog.insert e }) := by
  refine ⟨fun runId => ?_, (started_of_reach h).mail, ?_⟩
  · have hwalk := walk_of_reach h runId
    have hstart : w.history.countP (isStart runId) ≤ 1 := by
      refine hwalk.countP_le_one (s := .sending) fun e he => ?_
      unfold isStart at he
      split at he
      · simpa [enteredBy] using he
      · cases he
    have hfinal : w.history.countP (isFinalization runId) ≤ 1 := by
      refine hwalk.countP_le_one (s := .ready) fun e he => ?_
      unfold isFinalization at he
      split at he
      · simpa [enteredBy] using he
      · cases he
    obtain ⟨hmails, hrows⟩ := conserved_of_reach h runId
    exact ⟨hfinal, hstart, by omega, by omega⟩
  · intro task input w' d s hstep hd hs ht
    constructor
    · intro hphase
      obtain ⟨outcome, hended⟩ := @scheduled_of_terminal cfg.delivery _ input _ _ hs ht
      simp only [step, hd, Option.map_some, Option.some.injEq, hphase, hended] at hstep
      subst hstep
      exact ⟨rfl, outcome, getElem?_set_of_some hd _⟩
    · intro how notify hphase
      refine ⟨db_of_aborts cfg hstep, fun ha => ?_⟩
      simp only [step, hd, Option.map_some, Option.some.injEq] at hstep
      subst hstep
      simp only [aborts, hd, Option.any_some, hphase] at ha
      simp only [hphase]
      exact closing_of_terminal hs ht ha

/-- A delivery that loses the race: the sweeper orphans its run before it closes it. -/
theorem at_most_one_first_delivery_sample : ∃ w, (service sampleConfig).Reach w ∧
    stateOf w.db sampleRun = some .orphaned ∧
    (auditRows w.db).countP (isSendReport sampleRun) = 1 ∧
    w.history.countP (isStart sampleRun) ≤ 1 := by
  obtain ⟨w, hw, hs⟩ := exists_reach_of_labels sampleConfig
    (p := fun w => stateOf w.db sampleRun = some .orphaned ∧
      (auditRows w.db).countP (isSendReport sampleRun) = 1)
    (sampleFinalized ++ [.deliver 0 (sampleInput (seconds 3)), .deliver 0 (sampleInput (seconds 4)),
      .deliver 0 (sampleInput (seconds 5)), .deliver 0 (sampleInput (seconds 6)),
      .sweep (seconds 100) .commits, .sweep (seconds 101) .commits,
      .deliver 0 (sampleInput (seconds 102))]) (by decide +kernel)
  obtain ⟨hstate, hrows⟩ : stateOf w.db sampleRun = some .orphaned ∧
      (auditRows w.db).countP (isSendReport sampleRun) = 1 := of_decide_eq_true hs
  exact ⟨w, hw, hstate, hrows, ((at_most_one_first_delivery hw).1 sampleRun).2.1⟩

end MessageService.System
