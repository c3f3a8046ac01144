import MessageService.Infrastructure.UnitOfWork

/-!
# Lock and transaction discipline of the unit of work

What the factory's lock is for: at most one unit of work holds it, each one that took it gives it
back exactly once, and when none is live the next one can begin (`Discipline`).

`__aenter__` and `__aexit__` catch `Exception`, and `CancelledError` is a `BaseException`. So two
cancellations break the discipline: one delivered at the await of `BEGIN`, which leaves the lock
held (and the transaction open) by a unit of work whose `__aexit__` never runs, and one delivered
at the commit of `__aexit__` when that commit has failed and left the transaction open, which
skips the rollback. `Calm` excludes these two steps and no other.

* `discipline_of_calm`: every state reached by calm steps is disciplined.
* `not_canBegin_of_not_calm`: after a step that is not calm no unit of work can begin.
* `blocked_of_owned`: while the owner of the lock does not move nobody else gets in.
-/

namespace MessageService.Infrastructure

open MessageService.Lib

/-! ## What one unit of work owes -/

namespace Pc

/-- The statement handed over at this await leaves no transaction of this unit of work open. -/
def Closing : Pc → Prop
  | .beginning (.error _) | .committing .ok | .rollingBack .ok | .exitCommit .ok
  | .exitRollback _ | .exitCommitRollback _ => True
  | _ => False

/-- Between taking the lock and the end of `__aexit__`. -/
def Inside : Pc → Prop
  | .created | .acquiring | .notEntered | .exited => False
  | _ => True

end Pc

/-- The step delivers a `CancelledError` at the await of a statement. -/
def Event.cancels : Event → Bool
  | .resume .cancelled _ => true
  | _ => false

namespace Uow

/-- In its transaction, the lock held. -/
def holdingAt (pc : Pc) : Uow := { pc := pc, entered := true, lockHeld := true, acquires := 1 }

/-- The lock given back. -/
def releasedAt (pc : Pc) (finalized : Bool) : Uow :=
  { pc := pc, entered := true, finalized := finalized, acquires := 1, releases := 1 }

/-- The forms a unit of work takes in calm runs: its flags and counts, by where it is. -/
inductive Shape : Uow → Prop
  | created : Shape {}
  | acquiring : Shape { pc := .acquiring, entered := true }
  | holding (pc : Pc) (h : pc.Inside) : Shape (holdingAt pc)
  /-- In the block after `commit()` or `rollback()`. -/
  | finalized : Shape (releasedAt .body true)
  | finished (pc : Pc) (h : pc = .notEntered ∨ pc = .exited) (f : Bool) : Shape (releasedAt pc f)
  /-- Cancelled while it waited for the lock. -/
  | turnedAway : Shape { pc := .notEntered, entered := true }

theorem Shape.holds_iff {u : Uow} (h : u.Shape) : u.Holds ↔ u.lockHeld = true := by
  cases h <;> simp [Holds, holdingAt, releasedAt]

theorem Shape.bounds {u : Uow} (h : u.Shape) : u.releases ≤ u.acquires ∧ u.acquires ≤ 1 := by
  cases h <;> simp [holdingAt, releasedAt]

theorem Shape.released {u : Uow} (h : u.Shape) (hf : u.Finished) : u.releases = u.acquires := by
  cases h with
  | holding pc h => rcases hf with rfl | rfl <;> exact absurd h id
  | _ => rfl

theorem Shape.live {u : Uow} (h : u.Shape) (hl : u.lockHeld = true) : u.Live := by
  cases h with
  | holding pc h => cases pc <;> simp_all [Live, Finished, Pc.Inside, holdingAt]
  | _ => simp [releasedAt] at hl

theorem Shape.lockHeld {u : Uow} (h : u.Shape) (hi : u.pc.Inside) (hb : u.pc ≠ .body) :
    u.lockHeld = true := by
  cases h with
  | holding pc h => rfl
  | finalized => exact absurd rfl hb
  | finished pc h f => rcases h with rfl | rfl <;> exact absurd hi id
  | _ => exact absurd hi id

theorem Shape.eq_fresh {u : Uow} (h : u.Shape) (hc : u.pc = .created) : u = {} := by
  cases h with
  | created => rfl
  | holding pc h => cases hc; exact absurd h id
  | finished pc h f => cases hc; simp at h
  | _ => simp [releasedAt] at hc

/-- Where a `CancelledError` breaks the discipline: at the await of `BEGIN`, and at the commit of
`__aexit__` when that commit has failed and left the transaction open. -/
def cancelBreaks (sh : Shared) : Pc → Bool
  | .beginning _ => true
  | .exitCommit (.error _) => sh.inTransaction
  | _ => false

/-- The guard on a step: it is no `CancelledError` delivered where that breaks the discipline. -/
def Calm (sh : Shared) (u : Uow) (e : Event) : Prop :=
  e.cancels = true → cancelBreaks sh u.pc = false

instance (sh : Shared) (u : Uow) (e : Event) : Decidable (u.Calm sh e) :=
  inferInstanceAs (Decidable (_ → _))

theorem Shape.calm_of_not_held {sh : Shared} {u : Uow} (h : u.Shape) (hl : u.lockHeld = false)
    (e : Event) : u.Calm sh e := by
  intro _
  cases h with
  | holding pc h => simp [holdingAt] at hl
  | finished pc h f => rcases h with rfl | rfl <;> rfl
  | _ => rfl

/-- What a step of one unit of work does to the lock and the connection. -/
inductive Effect (sh : Shared) (u : Uow) (sh' : Shared) (u' : Uow) : Prop
  /-- It does not hold the lock and touches nothing shared. -/
  | idle (h : u.lockHeld = false) (h' : u'.lockHeld = false) (e : sh' = sh)
  /-- It takes the free lock. -/
  | take (h : u.lockHeld = false) (h' : u'.lockHeld = true) (hl : sh.locked = false)
      (hl' : sh'.locked = true) (c : u'.pc.Closing → sh'.NoTransaction)
  /-- It holds the lock and keeps it. -/
  | keep (h : u.lockHeld = true) (h' : u'.lockHeld = true) (hl' : sh'.locked = sh.locked)
      (c : u'.pc.Closing → sh'.NoTransaction)
  /-- It gives the lock back, and no transaction of its own is left open. -/
  | drop (h : u.lockHeld = true) (h' : u'.lockHeld = false) (hl' : sh'.locked = false)
      (c : sh'.NoTransaction)

/-- A step of a well-formed unit of work leaves it well-formed, with one of the four effects. -/
def StepsWell (sh : Shared) (u : Uow) (sh' : Shared) (u' : Uow) : Prop :=
  u'.Shape ∧ Effect sh u sh' u'

theorem noTransaction_exitRollback (sh : Shared) (r : StmtResult) :
    (sh.exitRollback r).NoTransaction := by
  intro h
  simp only [Shared.exitRollback, Bool.or_eq_false_iff] at h
  exact h.2

theorem locked_endTransaction (sh : Shared) (r : StmtResult) :
    (sh.endTransaction r).locked = sh.locked := by
  cases r <;> rfl

theorem locked_exitRollback (sh : Shared) (r : StmtResult) :
    (sh.exitRollback r).locked = sh.locked :=
  locked_endTransaction sh r

theorem inTransaction_releaseTo (pc : Pc) (sh : Shared) (u : Uow) :
    (releaseTo pc sh u).1.inTransaction = sh.inTransaction := by
  by_cases h : u.lockHeld = true
  · simp [releaseTo, releaseLock, h]
  · simp [releaseTo, releaseLock, h]

theorem stepsWell_keep {sh sh' : Shared} (pc : Pc) {pc' : Pc} (h : pc'.Inside)
    (hl : sh'.locked = sh.locked) (c : pc'.Closing → sh'.NoTransaction) :
    StepsWell sh (holdingAt pc) sh' (holdingAt pc') :=
  ⟨.holding pc' h, .keep rfl rfl hl c⟩

theorem stepsWell_finished {sh : Shared} (pc : Pc) {pc' : Pc}
    (h : pc' = .notEntered ∨ pc' = .exited) (c : sh.NoTransaction) :
    StepsWell sh (holdingAt pc) (releaseTo pc' sh (holdingAt pc)).1
      (releaseTo pc' sh (holdingAt pc)).2 :=
  ⟨.finished pc' h false, .drop rfl rfl rfl c⟩

theorem stepsWell_finalize {sh : Shared} (pc : Pc) (c : sh.NoTransaction) :
    StepsWell sh (holdingAt pc) (finalize sh (holdingAt pc)).1 (finalize sh (holdingAt pc)).2 :=
  ⟨.finalized, .drop rfl rfl rfl c⟩

/-- A calm resumption: either the block goes on, or `__aexit__` does, or the lock is given back
with the transaction closed. -/
theorem stepsWell_resume {sh : Shared} {pc : Pc} {r : StmtResult} {d : Resumption}
    {p : Shared × Uow} (hclosing : pc.Closing → sh.NoTransaction)
    (hc : (holdingAt pc).Calm sh (.resume d r)) (h : resume sh (holdingAt pc) r pc d = some p) :
    StepsWell sh (holdingAt pc) p.1 p.2 := by
  have toBody : StepsWell sh (holdingAt pc) sh (holdingAt .body) :=
    stepsWell_keep pc trivial rfl (fun c => absurd c id)
  cases pc with
  | created | acquiring | body | notEntered | exited => cases d <;> cases h
  | beginning q =>
    cases d with
    | cancelled => exact Bool.noConfusion (hc rfl)
    | result =>
      cases q <;> cases h
      · exact toBody
      · exact stepsWell_finished _ (.inl rfl) (hclosing trivial)
  | committing q | rollingBack q =>
    cases q <;> cases d <;> cases h
    · exact stepsWell_finalize _ (hclosing trivial)
    all_goals exact toBody
  | exitRollback q | exitCommitRollback q =>
    cases d <;> cases h <;> exact stepsWell_finished _ (.inr rfl) (hclosing trivial)
  | exitCommit q =>
    cases q with
    | ok => cases d <;> cases h <;> exact stepsWell_finished _ (.inr rfl) (hclosing trivial)
    | error b =>
      cases d <;> cases h
      · exact stepsWell_keep _ trivial (locked_exitRollback sh r)
          (fun _ => noTransaction_exitRollback sh r)
      · exact stepsWell_finished _ (.inr rfl) (fun _ => hc rfl)

theorem stepsWell_acquired {sh : Shared} {r : StmtResult} {p : Shared × Uow}
    (hfree : sh.locked = false → sh.NoTransaction)
    (h : step sh { pc := .acquiring, entered := true } (.acquired r) = some p) :
    StepsWell sh { pc := .acquiring, entered := true } p.1 p.2 := by
  simp only [step, true_and, Option.ite_none_right_eq_some, Option.map_eq_some_iff] at h
  obtain ⟨hl, sh', hb, rfl⟩ := h
  refine ⟨.holding (.beginning r) trivial, ?_⟩
  cases r with
  | ok =>
    simp only [Shared.execBegin, Option.ite_none_left_eq_some] at hb
    obtain ⟨-, hb⟩ := hb
    cases hb
    exact .take rfl rfl hl rfl (fun c => absurd c id)
  | error b =>
    cases hb
    exact .take rfl rfl hl rfl (fun _ => hfree hl)

/-- A step in the block while the transaction is open. -/
theorem stepsWell_body {sh : Shared} {e : Event} {p : Shared × Uow}
    (h : step sh (holdingAt .body) e = some p) : StepsWell sh (holdingAt .body) p.1 p.2 := by
  cases e with
  | enter => cases h; exact stepsWell_keep _ trivial rfl (fun c => absurd c id)
  | acquired r | acquireCancelled => cases h
  | statement o => cases h; exact stepsWell_keep _ trivial rfl (fun c => absurd c id)
  | commit r | rollback r =>
    cases h
    refine stepsWell_keep _ trivial (locked_endTransaction sh r) ?_
    cases r with
    | ok => exact fun _ _ => rfl
    | error b => exact fun c => absurd c id
  | leave raised r =>
    cases raised with
    | true =>
      cases h
      exact stepsWell_keep _ trivial (locked_exitRollback sh r)
        (fun _ => noTransaction_exitRollback sh r)
    | false =>
      cases h
      refine stepsWell_keep _ trivial (locked_endTransaction sh r) ?_
      cases r with
      | ok => exact fun _ _ => rfl
      | error b => exact fun c => absurd c id
  | resume d r => cases d <;> cases h

/-- **One step of one unit of work.** A calm step of a well-formed unit of work leaves it
well-formed and has one of the four effects. -/
theorem stepsWell_step {sh : Shared} {u : Uow} {e : Event} {p : Shared × Uow} (hu : u.Shape)
    (hfree : sh.locked = false → sh.NoTransaction)
    (hclosing : u.lockHeld = true → u.pc.Closing → sh.NoTransaction)
    (hc : u.Calm sh e) (h : u.step sh e = some p) : StepsWell sh u p.1 p.2 := by
  cases hu with
  | created =>
    cases e with
    | enter => cases h; exact ⟨.acquiring, .idle rfl rfl rfl⟩
    | resume d r => cases d <;> cases h
    | _ => cases h
  | acquiring =>
    cases e with
    | enter => cases h; exact ⟨.acquiring, .idle rfl rfl rfl⟩
    | acquired r => exact stepsWell_acquired hfree h
    | acquireCancelled => cases h; exact ⟨.turnedAway, .idle rfl rfl rfl⟩
    | resume d r => cases d <;> cases h
    | _ => cases h
  | holding pc hp =>
    cases e with
    | resume d r => exact stepsWell_resume (hclosing rfl) hc h
    | enter =>
      cases h
      exact ⟨.holding pc hp, .keep rfl rfl rfl (hclosing rfl)⟩
    | _ =>
      cases pc with
      | body => exact stepsWell_body h
      | acquiring => exact absurd hp id
      | _ => cases h
  | finalized =>
    cases e with
    | enter | commit r | rollback r => cases h; exact ⟨.finalized, .idle rfl rfl rfl⟩
    | leave raised r => cases h; exact ⟨.finished .exited (.inr rfl) true, .idle rfl rfl rfl⟩
    | resume d r => cases d <;> cases h
    | _ => cases h
  | finished pc hp f =>
    rcases hp with rfl | rfl <;> cases e with
    | enter => cases h; exact ⟨.finished _ (by simp) f, .idle rfl rfl rfl⟩
    | resume d r => cases d <;> cases h
    | _ => cases h
  | turnedAway =>
    cases e with
    | enter => cases h; exact ⟨.turnedAway, .idle rfl rfl rfl⟩
    | resume d r => cases d <;> cases h
    | _ => cases h

/-- What an event makes of the unit of work itself; the lock and the connection only decide
whether it can happen. -/
def after (u : Uow) (e : Event) : Option Uow := (u.step {} e).map Prod.snd

theorem releaseTo_snd (pc : Pc) (sh : Shared) (u : Uow) :
    (releaseTo pc sh u).2 = (releaseTo pc {} u).2 := by
  by_cases h : u.lockHeld = true
  · simp [releaseTo, releaseLock, h]
  · simp [releaseTo, releaseLock, h]

theorem after_of_resume {sh sh' : Shared} {u u' : Uow} {pc : Pc} {r : StmtResult}
    {d : Resumption} (h : resume sh u r pc d = some (sh', u')) :
    (resume {} u r pc d).map Prod.snd = some u' := by
  have release : ∀ q, releaseTo q sh u = (sh', u') → (releaseTo q {} u).2 = u' := by
    intro q hq
    rw [← releaseTo_snd q sh, hq]
  have finalized : finalize sh u = (sh', u') → (finalize {} u).2 = u' := by
    intro hq
    have := congrArg Prod.snd hq
    rwa [finalize, releaseTo_snd] at this
  cases pc with
  | created | acquiring | body | notEntered | exited => cases d <;> cases h
  | beginning q =>
    cases q <;> cases d
    · cases h; rfl
    · cases h; rfl
    · exact congrArg some (release _ (Option.some.inj h))
    · cases h; rfl
  | committing q | rollingBack q =>
    cases q <;> cases d
    · exact congrArg some (finalized (Option.some.inj h))
    all_goals cases h; rfl
  | exitRollback q | exitCommitRollback q =>
    cases d <;> exact congrArg some (release _ (Option.some.inj h))
  | exitCommit q =>
    cases q <;> cases d
    · exact congrArg some (release _ (Option.some.inj h))
    · exact congrArg some (release _ (Option.some.inj h))
    · cases h; rfl
    · exact congrArg some (release _ (Option.some.inj h))

theorem after_of_step {sh sh' : Shared} {u u' : Uow} {e : Event}
    (h : u.step sh e = some (sh', u')) : u.after e = some u' := by
  unfold after
  cases e with
  | resume d r => exact after_of_resume h
  | acquired r =>
    simp only [step, Option.ite_none_right_eq_some, Option.map_eq_some_iff] at h
    obtain ⟨⟨hp, _⟩, _, _, e⟩ := h
    cases e
    cases r <;> simp [step, hp, Shared.execBegin]
  | enter =>
    simp only [step] at h ⊢
    split at h <;> cases h <;> simp_all
  | acquireCancelled | statement o =>
    simp only [step, Option.ite_none_right_eq_some] at h ⊢
    obtain ⟨hp, e⟩ := h
    cases e
    simp [hp]
  | commit r | rollback r =>
    simp only [step, Option.ite_none_right_eq_some] at h ⊢
    obtain ⟨hp, e⟩ := h
    split at e <;> cases e <;> simp_all
  | leave raised r =>
    simp only [step, Option.ite_none_right_eq_some] at h ⊢
    obtain ⟨hp, e⟩ := h
    split at e
    · cases e; simp_all
    · cases raised <;> cases e <;> simp_all

end Uow

/-! ## All units of work -/

namespace State

/-- The guard on a step of the system: no `CancelledError` at an await where it breaks the
discipline. -/
def Calm (s : State) (e : Nat × Event) : Prop := (s.uow e.1).Calm s.shared e.2

instance (s : State) (e : Nat × Event) : Decidable (s.Calm e) :=
  inferInstanceAs (Decidable (Uow.Calm _ _ _))

/-- Unit of work `o`, if any, holds the lock, and no other; the connection is clean whenever
nobody is inside or the one inside has just ended its transaction. -/
structure Owned (s : State) (o : Option Nat) : Prop where
  shape : ∀ i, (s.uow i).Shape
  locked : s.shared.locked = o.isSome
  held : ∀ i, (s.uow i).lockHeld = true ↔ o = some i
  free : o = none → s.shared.NoTransaction
  closing : ∀ i, o = some i → (s.uow i).pc.Closing → s.shared.NoTransaction

theorem owned_init : Owned {} none where
  shape _ := .created
  locked := rfl
  held i := by simp
  free _ := fun _ => rfl
  closing i h := by cases h

theorem step_eq_some {s t : State} {i : Nat} {e : Event} (h : step s (i, e) = some t) :
    ∃ sh u, (s.uow i).step s.shared e = some (sh, u) ∧
      t = { shared := sh, uow := Function.update s.uow i u } := by
  simp only [step, Option.map_eq_some_iff] at h
  obtain ⟨⟨sh, u⟩, hp, rfl⟩ := h
  exact ⟨sh, u, hp, rfl⟩

/-- Unit of work `i` moves and the lock passes from `o` to `o'`, no other unit of work
involved. -/
theorem Owned.update {s : State} {o o' : Option Nat} {i : Nat} {sh : Shared} {u : Uow}
    (hs : s.Owned o) (hu : u.Shape) (locked : sh.locked = o'.isSome)
    (held : u.lockHeld = true ↔ o' = some i) (others : ∀ j, j ≠ i → (o = some j ↔ o' = some j))
    (free : o' = none → sh.NoTransaction) (closing : o' = some i → u.pc.Closing → sh.NoTransaction)
    (same : ∀ j, j ≠ i → o' = some j → sh = s.shared) :
    Owned { shared := sh, uow := Function.update s.uow i u } o' where
  shape j := by
    by_cases hj : j = i
    · subst hj; simpa using hu
    · simpa [hj] using hs.shape j
  locked := locked
  held j := by
    by_cases hj : j = i
    · subst hj; simpa using held
    · simpa [hj] using (hs.held j).trans (others j hj)
  free := free
  closing j ho := by
    by_cases hj : j = i
    · subst hj; simpa using closing ho
    · simpa [hj, same j hj ho] using hs.closing j ((others j hj).mpr ho)

/-- One unit of work in its transaction, and no other. -/
theorem owned_alone (i : Nat) (pc : Pc) (h : pc.Inside) (hc : ¬pc.Closing) (open' : Bool) :
    Owned { shared := { locked := true, inTransaction := open' },
            uow := Function.update (fun _ => {}) i (Uow.holdingAt pc) } (some i) :=
  owned_init.update (.holding pc h) rfl (by simp [Uow.holdingAt]) (by simp [eq_comm])
    (by simp) (fun _ c => absurd c hc) (fun j hj e => absurd (Option.some.inj e).symm hj)

/-- **Step lemma.** A calm step passes the lock from owner to owner. -/
theorem owned_step {s t : State} {i : Nat} {e : Event} {o : Option Nat} (hs : s.Owned o)
    (hc : s.Calm (i, e)) (h : step s (i, e) = some t) : ∃ o', t.Owned o' := by
  obtain ⟨sh, u, hp, rfl⟩ := step_eq_some h
  have hfree : s.shared.locked = false → s.shared.NoTransaction := by
    intro hl
    rw [hs.locked] at hl
    exact hs.free (by simpa using hl)
  have hclosing : (s.uow i).lockHeld = true → (s.uow i).pc.Closing → s.shared.NoTransaction :=
    fun hh => hs.closing i ((hs.held i).mp hh)
  obtain ⟨hu, heff⟩ : u.Shape ∧ Uow.Effect s.shared (s.uow i) sh u :=
    Uow.stepsWell_step (hs.shape i) hfree hclosing hc hp
  cases heff with
  | idle hl hl' eq =>
    subst eq
    have ho : o ≠ some i := fun e => by simp [(hs.held i).mpr e] at hl
    exact ⟨o, hs.update hu hs.locked (by simp [hl', ho]) (fun _ _ => Iff.rfl) hs.free
      (fun e => absurd e ho) (fun _ _ _ => rfl)⟩
  | take hl hl' hfree' hlock' c =>
    have ho : o = none := by
      have := hs.locked
      rw [hfree'] at this
      simpa using this.symm
    subst ho
    refine ⟨some i, hs.update hu hlock' (by simp [hl']) (fun j hj => ?_) (by simp)
      (fun _ => c) (fun j hj e => ?_)⟩
    · simp [Ne.symm hj]
    · exact absurd (Option.some.inj e).symm hj
  | keep hl hl' hlock' c =>
    have ho : o = some i := (hs.held i).mp hl
    subst ho
    refine ⟨some i, hs.update hu (hlock'.trans hs.locked) (by simp [hl']) (fun _ _ => Iff.rfl)
      (by simp) (fun _ => c) (fun j hj e => ?_)⟩
    exact absurd (Option.some.inj e).symm hj
  | drop hl hl' hlock' c =>
    have ho : o = some i := (hs.held i).mp hl
    subst ho
    refine ⟨none, hs.update hu hlock' (by simp [hl']) (fun j hj => ?_) (fun _ => c)
      (by simp) (by simp)⟩
    simp [Ne.symm hj]

/-- **Run lemma.** Every state of a calm run has an owner, or none. -/
theorem owned_of_reach {s : State} (h : (system.restrict Calm).Reach s) : ∃ o, s.Owned o := by
  refine System.inv_of_reach (I := fun s => ∃ o, s.Owned o) ⟨?_, ?_⟩ h
  · rintro s rfl
    exact ⟨none, owned_init⟩
  · rintro s ⟨i, e⟩ t ⟨o, ho⟩ ⟨hst, hc⟩
    exact owned_step ho hc hst

/-! ## The discipline -/

/-- What callers rely on. -/
structure Discipline (s : State) : Prop where
  /-- At most one unit of work holds the lock. -/
  oneHolder : ∀ i j, (s.uow i).Holds → (s.uow j).Holds → i = j
  /-- None takes it twice or gives it back more often than it took it. -/
  neverTwice : ∀ i, (s.uow i).releases ≤ (s.uow i).acquires ∧ (s.uow i).acquires ≤ 1
  /-- One that is finished has given it back. -/
  released : ∀ i, (s.uow i).Finished → (s.uow i).releases = (s.uow i).acquires
  /-- When none is live the lock is free. -/
  free : (∀ i, ¬(s.uow i).Live) → s.shared.locked = false
  /-- When none is live and no rollback has failed, no transaction is open. -/
  clean : (∀ i, ¬(s.uow i).Live) → s.shared.NoTransaction
  /-- And any new unit of work can begin. -/
  next : (∀ i, ¬(s.uow i).Live) → s.shared.rollbackFailed = false →
    ∀ i, (s.uow i).pc = .created → s.CanBegin i

/-- With the lock free and no transaction open, a new unit of work gets into its block. -/
theorem canBegin {s : State} {i : Nat} (hu : s.uow i = {}) (hl : s.shared.locked = false)
    (ht : s.shared.inTransaction = false) : s.CanBegin i := by
  refine ⟨{ shared := { s.shared with locked := true, inTransaction := true },
            uow := Function.update s.uow i (Uow.holdingAt .body) }, ?_, ?_, ?_, rfl⟩
  · simp [enterSteps, System.run, step, Uow.step, Uow.resume, Shared.execBegin, hu, hl, ht,
      Uow.holdingAt]
  · simp [Uow.holdingAt]
  · simp [Uow.Holds, Uow.holdingAt]

theorem Owned.discipline {s : State} {o : Option Nat} (h : s.Owned o) : s.Discipline := by
  have holds : ∀ i, (s.uow i).Holds ↔ o = some i :=
    fun i => (h.shape i).holds_iff.trans (h.held i)
  have quiet : (∀ i, ¬(s.uow i).Live) → o = none := by
    intro hq
    cases o with
    | none => rfl
    | some i => exact absurd ((h.shape i).live ((h.held i).mpr rfl)) (hq i)
  refine ⟨?_, fun i => (h.shape i).bounds, fun i => (h.shape i).released, ?_, ?_, ?_⟩
  · intro i j hi hj
    rw [holds] at hi hj
    exact Option.some.inj (hi.symm.trans hj)
  · intro hq
    rw [h.locked, quiet hq]
    rfl
  · exact fun hq => h.free (quiet hq)
  · intro hq hr i hi
    refine canBegin ((h.shape i).eq_fresh hi) ?_ (h.free (quiet hq) hr)
    rw [h.locked, quiet hq]
    rfl

/-- **Lock and transaction discipline.** In every run whose steps are calm, every state reached
is disciplined. -/
theorem discipline_of_calm {s : State} (h : (system.restrict Calm).Reach s) : s.Discipline := by
  obtain ⟨o, ho⟩ := owned_of_reach h
  exact ho.discipline

/-- A full unit of work whose commit is cancelled, with a second one waiting behind it. -/
theorem discipline_of_calm_run : ∃ s, System.run step {}
      [(0, .enter), (0, .acquired .ok), (1, .enter), (0, .resume .result .ok),
        (0, .statement true), (0, .leave false .ok), (0, .resume .cancelled .ok),
        (1, .acquired .ok)] = some s ∧ s.Discipline :=
  ⟨_, rfl, discipline_of_calm (System.reach_run_restrict
    [(0, .enter), (0, .acquired .ok), (1, .enter), (0, .resume .result .ok),
      (0, .statement true), (0, .leave false .ok), (0, .resume .cancelled .ok),
      (1, .acquired .ok)] (.init rfl) rfl)⟩

/-! ## While the lock is held -/

/-- The events of unit of work `i` in a run. -/
def eventsOf (i : Nat) (ls : List (Nat × Event)) : List Event :=
  (ls.filter fun e => e.1 = i).map Prod.snd

/-- **A run moves each unit of work by its own events.** -/
theorem uow_of_run {s t : State} {ls : List (Nat × Event)} (h : System.run step s ls = some t)
    (i : Nat) : System.run Uow.after (s.uow i) (eventsOf i ls) = some (t.uow i) := by
  induction ls generalizing s with
  | nil => cases h; rfl
  | cons e ls ih =>
    obtain ⟨j, e⟩ := e
    simp only [System.run, Option.bind_eq_some_iff] at h
    obtain ⟨r, hr, ht⟩ := h
    have ih := ih ht
    obtain ⟨sh, u, hu, rfl⟩ := step_eq_some hr
    by_cases hj : j = i
    · subst hj
      simp only [Function.update_self] at ih
      simp [eventsOf, System.run, Uow.after_of_step hu] at ih ⊢
      exact ih
    · simp only [Function.update_of_ne (Ne.symm hj)] at ih
      simpa [eventsOf, hj] using ih

/-- A step of another unit of work leaves the lock with its owner. -/
theorem owned_step_other {s t : State} {i j : Nat} {e : Event} (hs : s.Owned (some i))
    (hj : j ≠ i) (h : step s (j, e) = some t) : t.Owned (some i) := by
  obtain ⟨sh, u, hp, rfl⟩ := step_eq_some h
  have hij : some i ≠ some j := fun e => hj (Option.some.inj e).symm
  have hnot : (s.uow j).lockHeld = false := by
    rw [← Bool.not_eq_true, hs.held]
    exact hij
  have hlocked : s.shared.locked = true := hs.locked
  obtain ⟨hu, heff⟩ : u.Shape ∧ Uow.Effect s.shared (s.uow j) sh u :=
    Uow.stepsWell_step (hs.shape j) (fun hl => by simp [hlocked] at hl)
      (fun hl => by simp [hnot] at hl) ((hs.shape j).calm_of_not_held hnot _) hp
  cases heff with
  | idle hl hl' eq =>
    subst eq
    exact hs.update hu hs.locked (by simp [hl', hij]) (fun _ _ => Iff.rfl) hs.free
      (fun e => absurd e hij) (fun _ _ _ => rfl)
  | take _ _ hl => exact absurd (hlocked.symm.trans hl) (by simp)
  | keep hl | drop hl => exact absurd (hnot.symm.trans hl) (by simp)

/-- **Nobody else gets in while the owner does not move.** -/
theorem blocked_of_owned {s t : State} {i : Nat} {ls : List (Nat × Event)} (hs : s.Owned (some i))
    (hls : ∀ e ∈ ls, e.1 ≠ i) (h : System.run step s ls = some t) :
    ∀ j, (t.uow j).Holds → j = i := by
  have : t.Owned (some i) := by
    induction ls generalizing s with
    | nil => cases h; exact hs
    | cons e ls ih =>
      simp only [System.run, Option.bind_eq_some_iff] at h
      obtain ⟨r, hr, ht⟩ := h
      exact ih (owned_step_other hs (hls e List.mem_cons_self) hr)
        (fun e he => hls e (List.mem_cons_of_mem _ he)) ht
  intro j hj
  rw [(this.shape j).holds_iff, this.held] at hj
  exact (Option.some.inj hj).symm

/-! ## The two cancellations -/

theorem shared_of_enter {s t : State} {i : Nat} (h : step s (i, .enter) = some t) :
    t.shared = s.shared := by
  obtain ⟨sh, u, hu, rfl⟩ := step_eq_some h
  simp only [Uow.step] at hu
  split at hu <;> cases hu <;> rfl

theorem clean_of_acquired {s t : State} {i : Nat} (h : step s (i, .acquired .ok) = some t) :
    s.shared.locked = false ∧ s.shared.inTransaction = false := by
  obtain ⟨sh, u, hu, rfl⟩ := step_eq_some h
  simp only [Uow.step, Shared.execBegin, Option.ite_none_right_eq_some, Option.map_eq_some_iff,
    Option.ite_none_left_eq_some] at hu
  obtain ⟨⟨-, hl⟩, -, ⟨ht, -⟩, -⟩ := hu
  exact ⟨hl, by simpa using ht⟩

/-- To begin, the lock must be free and no transaction open. -/
theorem clean_of_canBegin {s : State} {i : Nat} (h : s.CanBegin i) :
    s.shared.locked = false ∧ s.shared.inTransaction = false := by
  obtain ⟨t, ht, -⟩ := h
  simp only [enterSteps, System.run, Option.bind_eq_some_iff] at ht
  obtain ⟨s₁, h₁, s₂, h₂, -⟩ := ht
  have := clean_of_acquired h₂
  rwa [shared_of_enter h₁] at this

/-- **After a step that is not calm no unit of work can begin.** -/
theorem not_canBegin_of_not_calm {s t : State} {i : Nat} {e : Event} {o : Option Nat}
    (hs : s.Owned o) (hc : ¬s.Calm (i, e)) (h : step s (i, e) = some t) (j : Nat) :
    ¬t.CanBegin j := by
  intro hb
  obtain ⟨hl, ht⟩ := clean_of_canBegin hb
  obtain ⟨sh, u, hu, rfl⟩ := step_eq_some h
  simp only [Calm, Uow.Calm, Classical.not_imp, Bool.not_eq_false] at hc
  obtain ⟨hcan, hbr⟩ := hc
  cases e with
  | resume d r =>
    cases d with
    | result => cases hcan
    | cancelled =>
      simp only [Uow.step] at hu
      cases hpc : (s.uow i).pc with
      | beginning q =>
        -- the lock stays with the unit of work that failed to enter
        have held := (hs.shape i).lockHeld (by rw [hpc]; trivial) (by rw [hpc]; simp)
        have locked : s.shared.locked = true := by
          rw [hs.locked, (hs.held i).mp held]
          rfl
        rw [hpc] at hu
        cases q <;> cases hu <;> exact absurd (locked.symm.trans hl) (by simp)
      | exitCommit q =>
        -- the transaction stays open, the rollback having been skipped
        rw [hpc] at hu hbr
        cases q with
        | ok => cases hbr
        | error b =>
          simp only [Uow.cancelBreaks] at hbr
          have left : Uow.releaseTo .exited s.shared (s.uow i) = (sh, u) := Option.some.inj hu
          have := Uow.inTransaction_releaseTo .exited s.shared (s.uow i)
          rw [left, hbr] at this
          exact absurd (this.symm.trans ht) (by simp)
      | _ => rw [hpc] at hbr; cases hbr
  | _ => cases hcan

/-- **A cancelled `BEGIN` leaks the lock.** Cancelled there, the only unit of work ever made has
failed to enter and still holds the lock, with its transaction open. -/
theorem begin_cancelled_breaks : ∃ s, System.run step {}
      [(0, .enter), (0, .acquired .ok), (0, .resume .cancelled .ok)] = some s ∧
      system.Reach s ∧ (∀ i, ¬(s.uow i).Live) ∧ (s.uow 0).Finished ∧ (s.uow 0).Holds ∧
      s.shared.locked = true ∧ s.shared.inTransaction = true ∧ s.shared.rollbackFailed = false ∧
      ¬s.Discipline := by
  refine ⟨_, rfl, System.reach_run [(0, .enter), (0, .acquired .ok), (0, .resume .cancelled .ok)]
    (.init rfl) rfl, ?_, .inl rfl, by decide, rfl, rfl, rfl, ?_⟩
  · intro i
    by_cases hi : i = 0
    · subst hi; decide
    · simp [hi, Uow.Live]
  · intro hd
    exact absurd (hd.released 0 (.inl rfl)) (by decide)

/-- **A cancelled commit that fails leaves its transaction open.** The lock is free and no
rollback has failed, as none was issued. -/
theorem exit_commit_cancelled_breaks : ∃ s, System.run step {}
      [(0, .enter), (0, .acquired .ok), (0, .resume .result .ok),
        (0, .leave false (.error true)), (0, .resume .cancelled .ok)] = some s ∧
      system.Reach s ∧ (∀ i, ¬(s.uow i).Live) ∧ s.shared.locked = false ∧
      s.shared.inTransaction = true ∧ s.shared.rollbackFailed = false ∧ ¬s.Discipline := by
  have quiet : ∀ i, ¬(Function.update (fun _ => ({} : Uow)) 0
      (Uow.releasedAt .exited false) i).Live := by
    intro i
    by_cases hi : i = 0
    · subst hi; decide
    · simp [hi, Uow.Live]
  let s : State := { shared := { inTransaction := true },
                     uow := Function.update (fun _ => {}) 0 (Uow.releasedAt .exited false) }
  have run : System.run step {} [(0, .enter), (0, .acquired .ok), (0, .resume .result .ok),
      (0, .leave false (.error true)), (0, .resume .cancelled .ok)] = some s := by
    simp [System.run, step, Uow.step, Uow.resume, Shared.execBegin, Shared.endTransaction,
      Uow.releaseTo, Uow.releaseLock, s, Uow.releasedAt]
  exact ⟨s, run, System.reach_run _ (.init rfl) run, quiet, rfl, rfl, rfl,
    fun hd => absurd (hd.clean quiet rfl) (by simp [s])⟩

end State

end MessageService.Infrastructure
