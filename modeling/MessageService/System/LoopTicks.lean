import MessageService.System.Shutdown
import Mathlib.Order.Basic

/-!
# The ticks of the periodic loops

What a periodic loop awaits (`partsOf`), from its start to the shutdown: whole ticks, one after the
other, whatever the use cases raise.

* `Ticks.next`: one await of a loop.
* `whole_ticks`: what a loop does until it is stopped, and after.
-/

namespace MessageService.System

open MessageService.Domain MessageService.Lib MessageService.Infrastructure

namespace EventLoop

variable {s s' : EventLoop}

/-- What a loop has awaited. -/
def partsOf (s : EventLoop) (name : LoopName) : List TickPart :=
  s.parts.filter fun p => p.loop = name

/-- A loop that is at `pc` has awaited `begun` of its tick. -/
def Fits (name : LoopName) (begun : List TickPart) : LoopPc → Prop
  | .ticking rest => begun ≠ [] ∧ rest ≠ [] ∧ name.tick = begun ++ rest.tail
  | .ended => True
  | _ => begun = []

/-- The parts are whole ticks, and the `begun` of another. -/
structure Ticks (name : LoopName) (begun : List TickPart) (parts : List TickPart) : Prop where
  whole : ∃ n, parts = (List.replicate n name.tick).flatten ++ begun
  begun : begun <+: name.tick

/-- Task `i` is the loop, at `pc`. -/
def At (s : EventLoop) (name : LoopName) (i : Nat) (pc : LoopPc) : Prop :=
  ∃ c, s.scheduler.tasks[i]? = some (⟨.loop name pc, c⟩ : BackgroundJob)

/-- What is known of a loop. -/
structure Looping (s : EventLoop) (name : LoopName) : Prop where
  one : ∀ i j pc pc', At s name i pc → At s name j pc' → i = j
  started : (s.loops name).started = true ↔ ∃ i pc, At s name i pc
  fresh : (s.loops name).started = false → partsOf s name = []
  ticks : ∃ begun, Ticks name begun (partsOf s name) ∧ ∀ i pc, At s name i pc → Fits name begun pc
  alive : s.phase = .running → ∀ i pc, At s name i pc → pc ≠ .ended

theorem loop_of_mem_tick {name : LoopName} {p : TickPart} (h : p ∈ name.tick) : p.loop = name := by
  cases name <;> simp only [LoopName.tick, List.mem_cons, List.not_mem_nil, or_false] at h
  · rcases h with rfl | rfl <;> rfl
  · rw [h]
    rfl
  · rw [h]
    rfl

/-- A loop that goes on awaits a part of its tick, or none. -/
theorem Ticks.next {name : LoopName} {begun parts : List TickPart} {pc pc' : LoopPc}
    {stopped cancelRequested : Bool} {e : LoopEvent} (h : Ticks name begun parts)
    (hfits : Fits name begun pc) (hnext : pc.next name stopped cancelRequested e = some pc') :
    (∀ p ∈ pc'.awaits, p ∈ name.tick) ∧
      ∃ begun', Ticks name begun' (parts ++ pc'.awaits) ∧ Fits name begun' pc' := by
  have hended : pc' = .ended → (∀ p ∈ pc'.awaits, p ∈ name.tick) ∧
      ∃ begun', Ticks name begun' (parts ++ pc'.awaits) ∧ Fits name begun' pc' := by
    rintro rfl
    exact ⟨fun _ hp => absurd hp List.not_mem_nil, begun,
      by rwa [LoopPc.awaits_ended, List.append_nil], trivial⟩
  have htop : begun = [] → pc' = LoopPc.top name stopped → (∀ p ∈ pc'.awaits, p ∈ name.tick) ∧
      ∃ begun', Ticks name begun' (parts ++ pc'.awaits) ∧ Fits name begun' pc' := by
    rintro rfl rfl
    cases stopped with
    | true => exact hended rfl
    | false =>
      obtain ⟨p, rest, htick⟩ : ∃ p rest, name.tick = p :: rest := ⟨_, _, name.tick_eq⟩
      obtain ⟨n, hn⟩ := h.whole
      simp only [LoopPc.top, Bool.false_eq_true, if_false, htick, LoopPc.awaits]
      refine ⟨by simp, [p], ⟨⟨n, by rw [hn, List.append_nil, htick]⟩, ?_⟩, by simp, by simp, htick⟩
      rw [htick]
      exact ⟨rest, rfl⟩
  cases pc with
  | ended => exact absurd rfl (ne_ended_of_next hnext)
  | created =>
    cases e <;> simp only [LoopPc.next, reduceCtorEq, Option.ite_none_right_eq_some,
      Option.some.injEq] at hnext
    · exact htop hfits hnext.symm
    · exact hended hnext.2.symm
  | waiting =>
    cases e <;> simp only [LoopPc.next, reduceCtorEq, Option.ite_none_right_eq_some,
      Option.some.injEq] at hnext
    · exact hended hnext.2.symm
    · exact htop hfits hnext.symm
    · exact hended hnext.2.symm
  | ticking rest =>
    obtain ⟨hbegun, hrest, htick⟩ := hfits
    have hafter : pc' = LoopPc.after rest.tail → (∀ p ∈ pc'.awaits, p ∈ name.tick) ∧
        ∃ begun', Ticks name begun' (parts ++ pc'.awaits) ∧ Fits name begun' pc' := by
      rintro rfl
      obtain ⟨n, hn⟩ := h.whole
      cases htail : rest.tail with
      | nil =>
        -- the tick is over
        rw [htail, List.append_nil] at htick
        refine ⟨fun _ hp => absurd hp List.not_mem_nil, [], ⟨⟨n + 1, ?_⟩, List.nil_prefix⟩, rfl⟩
        rw [LoopPc.after, LoopPc.awaits_waiting, List.append_nil, List.append_nil, hn, ← htick,
          List.replicate_succ', List.flatten_append]
        simp
      | cons q r =>
        rw [htail] at htick
        refine ⟨?_, begun ++ [q], ⟨⟨n, ?_⟩, r, ?_⟩, by simp, by simp, ?_⟩
        · simp [LoopPc.after, LoopPc.awaits, htick]
        · rw [LoopPc.after_cons, LoopPc.awaits_ticking, hn, List.append_assoc]
        · simp [htick]
        · simp [htick]
    cases e <;> simp only [LoopPc.next, reduceCtorEq, Option.ite_none_right_eq_some,
      Option.some.injEq] at hnext
    · exact hafter hnext.symm
    · exact hafter hnext.symm
    · exact hended hnext.2.symm

theorem at_added {j : BackgroundJob} (h : s'.scheduler.tasks = s.scheduler.tasks ++ [j])
    {name : LoopName} {i : Nat} {pc : LoopPc} :
    At s' name i pc ↔ At s name i pc ∨ i = s.scheduler.tasks.length ∧ j.work = .loop name pc := by
  unfold At
  rw [h]
  rcases lt_trichotomy i s.scheduler.tasks.length with hi | hi | hi
  · simp [List.getElem?_append_left hi, Nat.ne_of_lt hi]
  · subst hi
    obtain ⟨work, c⟩ := j
    simp
  · have hnone : ∀ l : List BackgroundJob, l.length ≤ i → l[i]? = none :=
      fun l hl => List.getElem?_eq_none hl
    rw [hnone _ (by simp; omega), hnone _ (by omega)]
    simp [Nat.ne_of_gt hi]

theorem at_setJob {i k : Nat} {j j' : BackgroundJob} {name : LoopName} {pc : LoopPc}
    (hj : s.scheduler.tasks[i]? = some j) :
    At (s.setJob i j') name k pc ↔
      if k = i then j'.work = .loop name pc else At s name k pc := by
  have hi := (List.getElem?_eq_some_iff.mp hj).1
  unfold At setJob
  by_cases hk : k = i
  · subst hk
    obtain ⟨work, c⟩ := j'
    simp [List.getElem?_set_self hi]
  · simp only [hk, if_false, List.getElem?_set_ne (Ne.symm hk)]

theorem at_cancelJobs {pending : List Nat} {name : LoopName} {i : Nat} {pc : LoopPc} :
    At (s.cancelJobs pending) name i pc ↔ At s name i pc := by
  simp only [At, cancelJobs, List.getElem?_mapIdx, Option.map_eq_some_iff]
  constructor
  · rintro ⟨c, ⟨work, c'⟩, hj, hwork⟩
    refine ⟨c', ?_⟩
    split at hwork <;> cases hwork <;> exact hj
  · rintro ⟨c, hj⟩
    by_cases hi : i ∈ pending
    · exact ⟨true, _, hj, by simp [hi, BackgroundJob.cancel]⟩
    · exact ⟨c, _, hj, by simp [hi]⟩

/-- A step that leaves the loops alone. -/
theorem Looping.same {name : LoopName} (h : Looping s name)
    (hat : ∀ i pc, At s' name i pc ↔ At s name i pc)
    (hstarted : (s'.loops name).started = (s.loops name).started)
    (hparts : partsOf s' name = partsOf s name)
    (hphase : s'.phase = .running → s.phase = .running) : Looping s' name := by
  refine ⟨fun i j pc pc' hi hj => ?_, ?_, fun hs => ?_, ?_, fun hp i pc hi => ?_⟩
  · exact h.one i j pc pc' ((hat _ _).mp hi) ((hat _ _).mp hj)
  · rw [hstarted, h.started]
    simp only [hat]
  · rw [hparts]
    exact h.fresh (hstarted ▸ hs)
  · obtain ⟨begun, hticks, hfits⟩ := h.ticks
    exact ⟨begun, by rwa [hparts], fun i pc hi => hfits i pc ((hat _ _).mp hi)⟩
  · exact h.alive (hphase hp) i pc ((hat _ _).mp hi)

/-- The start of a loop. -/
theorem Looping.started_now {name name₀ : LoopName} (h : Looping s name)
    (hstarted : (s.loops name₀).started = false)
    (htasks : s'.scheduler.tasks = s.scheduler.tasks ++ [⟨.loop name₀ .created, false⟩])
    (hloops : s'.loops = Function.update s.loops name₀ { s.loops name₀ with started := true })
    (hparts : partsOf s' name = partsOf s name) (hphase : s'.phase = s.phase) :
    Looping s' name := by
  by_cases hname : name = name₀
  · subst hname
    have hnone : ∀ i pc, ¬At s name i pc := by
      intro i pc hi
      rw [h.started.mpr ⟨i, pc, hi⟩] at hstarted
      cases hstarted
    have hat : ∀ i pc, At s' name i pc ↔ i = s.scheduler.tasks.length ∧ pc = .created := by
      intro i pc
      rw [at_added htasks]
      simp only [hnone, false_or, JobWork.loop.injEq, true_and, eq_comm]
    have hnothing : partsOf s' name = [] := hparts.trans (h.fresh hstarted)
    refine ⟨fun i j pc pc' hi hj => ?_, ?_, fun _ => hnothing, ?_, fun _ i pc hi => ?_⟩
    · rw [((hat _ _).mp hi).1, ((hat _ _).mp hj).1]
    · rw [hloops, Function.update_self]
      exact ⟨fun _ => ⟨_, _, (hat _ _).mpr ⟨rfl, rfl⟩⟩, fun _ => rfl⟩
    · refine ⟨[], ⟨⟨0, by rw [hnothing]; rfl⟩, List.nil_prefix⟩, fun i pc hi => ?_⟩
      rw [((hat _ _).mp hi).2]
      rfl
    · rw [((hat _ _).mp hi).2]
      nofun
  · refine h.same (fun i pc => ?_) ?_ hparts fun hp => hphase ▸ hp
    · rw [at_added htasks]
      simp [Ne.symm hname]
    · rw [hloops, Function.update_of_ne hname]

/-- A loop that goes on. -/
theorem Looping.resumed {name name₀ : LoopName} {i : Nat} {pc pc' : LoopPc}
    {cancelRequested : Bool} {e : LoopEvent} {j' : BackgroundJob} (h : Looping s name)
    (h₀ : Looping s name₀) (hs : Teardown s)
    (hj : s.scheduler.tasks[i]? = some ⟨.loop name₀ pc, cancelRequested⟩)
    (hnext : pc.next name₀ (s.loops name₀).stopped cancelRequested e = some pc')
    (hj' : j'.work = .loop name₀ pc') :
    Looping { s.setJob i j' with parts := s.parts ++ pc'.awaits } name := by
  have hpc : At s name₀ i pc := ⟨_, hj⟩
  have hat : ∀ k pc'', At { s.setJob i j' with parts := s.parts ++ pc'.awaits } name k pc'' ↔
      if k = i then j'.work = .loop name pc'' else At s name k pc'' :=
    fun k pc'' => at_setJob hj
  obtain ⟨begun₀, hticks₀, hfits₀⟩ := h₀.ticks
  obtain ⟨hmem, begun', hticks', hfits'⟩ := hticks₀.next (hfits₀ i pc hpc) hnext
  by_cases hname : name = name₀
  · subst hname
    have honly : ∀ k pc'', At { s.setJob i j' with parts := s.parts ++ pc'.awaits } name k pc'' ↔
        k = i ∧ pc'' = pc' := by
      intro k pc''
      rw [hat]
      by_cases hk : k = i
      · simp [hk, hj', eq_comm]
      · simp only [hk, if_false, false_and, iff_false]
        exact fun hk' => hk (h.one k i pc'' pc hk' hpc)
    have hparts : partsOf { s.setJob i j' with parts := s.parts ++ pc'.awaits } name =
        partsOf s name ++ pc'.awaits := by
      simp only [partsOf, List.filter_append]
      congr 1
      exact List.filter_eq_self.mpr fun p hp => decide_eq_true (loop_of_mem_tick (hmem p hp))
    refine ⟨fun k l pc₁ pc₂ hk hl => ?_, ?_, fun hstarted => ?_, ?_, fun hp k pc'' hk => ?_⟩
    · rw [((honly _ _).mp hk).1, ((honly _ _).mp hl).1]
    · exact ⟨fun _ => ⟨i, pc', (honly _ _).mpr ⟨rfl, rfl⟩⟩, fun _ => h.started.mpr ⟨i, pc, hpc⟩⟩
    · have hyes := h.started.mpr ⟨i, pc, hpc⟩
      rw [show (s.loops name).started = false from hstarted] at hyes
      cases hyes
    · refine ⟨begun', by rwa [hparts], fun k pc'' hk => ?_⟩
      rw [((honly _ _).mp hk).2]
      exact hfits'
    · -- before the shutdown there is no stop event, and no cancellation
      rw [((honly _ _).mp hk).2]
      obtain ⟨-, hstopped, hcancel⟩ := hs.serving hp
      have hc : cancelRequested = false := hcancel _ (List.mem_of_getElem? hj)
      rintro rfl
      rw [hstopped name, hc] at hnext
      cases pc <;> cases e <;> simp [LoopPc.next, LoopPc.top, LoopPc.after] at hnext
      all_goals split at hnext <;> cases hnext
  · refine h.same (fun k pc'' => ?_) rfl ?_ id
    · rw [hat]
      split
      · next hk =>
        subst hk
        have hother : ¬At s name k pc'' := by
          rintro ⟨c, hc⟩
          rw [hj] at hc
          simp only [Option.some.injEq, BackgroundJob.mk.injEq, JobWork.loop.injEq] at hc
          exact hname hc.1.1.symm
        simp [hother, hj', Ne.symm hname]
      · rfl
    · have hnone : pc'.awaits.filter (fun p => p.loop = name) = [] := by
        refine List.filter_eq_nil_iff.mpr fun p hp hloop => hname ?_
        rw [← of_decide_eq_true hloop, loop_of_mem_tick (hmem p hp)]
      rw [partsOf, List.filter_append, hnone, List.append_nil]
      rfl

theorem looping_of_step {l : TaskStep} (hs : Teardown s) (h : ∀ name, Looping s name)
    (hstep : step s l = some s') (name : LoopName) : Looping s' name := by
  have hawait {phase : List Nat → TeardownPhase} {t : EventLoop} (pending : List Nat)
      (hat : ∀ i pc, At t name i pc ↔ At s name i pc)
      (hstarted : (t.loops name).started = (s.loops name).started)
      (hparts : t.parts = s.parts) (hp : ∀ l, phase l ≠ .running) :
      Looping (t.awaitTasks phase pending) name := by
    refine (h name).same (fun i pc => ?_) ?_ ?_ fun hr => absurd hr (phase_awaitTasks _ hp pending)
    · rw [← hat, At, At, scheduler_awaitTasks]
    · rw [loops_awaitTasks, hstarted]
    · rw [partsOf, parts_awaitTasks, hparts]
      rfl
  cases does_of_step hstep with
  | startedAlready | refused => exact h name
  | started hfresh _ => exact (h name).started_now hfresh rfl rfl rfl rfl
  | @scheduled runId _ =>
    refine (h name).same (fun i pc => ?_) rfl rfl id
    rw [at_added (s := s) (j := ⟨.delivery runId false, false⟩) rfl]
    simp
  | @resumed _ _ name₀ _ _ _ hj hnext => exact (h name).resumed (h name₀) hs hj hnext rfl
  | finished hj =>
    refine (h name).same (fun k pc => ?_) rfl rfl id
    rw [at_setJob hj]
    split
    · next hk =>
      subst hk
      simp [At, hj]
    · rfl
  | stopping _ => exact hawait _ (fun _ _ => .rfl) rfl rfl (by rintro _ ⟨⟩)
  | waited _ _ _ => exact hawait _ (fun _ _ => at_cancelJobs) rfl rfl (by rintro _ ⟨⟩)
  | gathered _ _ => exact (h name).same (fun _ _ => .rfl) rfl rfl (by rintro ⟨⟩)
  | closed _ => exact (h name).same (fun _ _ => .rfl) rfl rfl (by rintro ⟨⟩)

theorem looping_of_reach (h : tasks.Reach s) (name : LoopName) : Looping s name := by
  refine System.inv_of_reach_and (I := fun s => ∀ name, Looping s name) ?_ ?_ h name
  · rintro s rfl name
    have hnone : ∀ i pc, ¬At {} name i pc := by
      rintro i pc ⟨c, hc⟩
      cases hc
    exact {
      one := fun i j pc pc' hi _ => absurd hi (hnone i pc)
      started := ⟨nofun, fun ⟨i, pc, hi⟩ => absurd hi (hnone i pc)⟩
      fresh := fun _ => rfl
      ticks := ⟨[], ⟨⟨0, rfl⟩, List.nil_prefix⟩, fun i pc hi => absurd hi (hnone i pc)⟩
      alive := fun _ i pc hi => absurd hi (hnone i pc) }
  · intro s l s' hs hloops hstep
    exact looping_of_step (teardown_of_reach hs) hloops hstep

/-- A loop that has been stopped begins no tick. -/
theorem first_notMem_awaits {name : LoopName} {begun : List TickPart} {pc pc' : LoopPc}
    {cancelRequested : Bool} {e : LoopEvent} (hfits : Fits name begun pc)
    (hnext : pc.next name true cancelRequested e = some pc') : name.first ∉ pc'.awaits := by
  cases pc with
  | ended => exact absurd rfl (ne_ended_of_next hnext)
  | created | waiting =>
    cases e <;> simp only [LoopPc.next, LoopPc.top, reduceCtorEq, Option.ite_none_right_eq_some,
      Option.some.injEq, if_true] at hnext
    all_goals first
      | exact hnext ▸ List.not_mem_nil
      | exact hnext.2 ▸ List.not_mem_nil
  | ticking rest =>
    obtain ⟨hbegun, -, htick⟩ := hfits
    have hafter : name.first ∉ (LoopPc.after rest.tail).awaits := by
      cases htail : rest.tail with
      | nil => exact List.not_mem_nil
      | cons q r =>
        obtain ⟨p, begun, rfl⟩ := List.exists_cons_of_ne_nil hbegun
        have hmem : q ∈ name.tick.tail := by simp [htick, htail]
        rw [LoopPc.after_cons, LoopPc.awaits_ticking, List.mem_singleton]
        rintro rfl
        exact name.first_notMem hmem
    cases e <;> simp only [LoopPc.next, reduceCtorEq, Option.ite_none_right_eq_some,
      Option.some.injEq] at hnext
    · exact hnext ▸ hafter
    · exact hnext ▸ hafter
    · exact hnext.2 ▸ List.not_mem_nil

/-- The ticks a loop has begun. -/
def ticksBegun (s : EventLoop) (name : LoopName) : Nat := s.parts.count name.first

/-- The loop is stopped, and has begun `n` ticks. -/
def StoppedAfter (name : LoopName) (n : Nat) (s : EventLoop) : Prop :=
  (s.loops name).stopped = true ∧ ticksBegun s name = n

theorem stoppedAfter_of_step {l : TaskStep} {name : LoopName} {n : Nat}
    (h : ∀ name, Looping s name) (hs : StoppedAfter name n s) (hstep : step s l = some s') :
    StoppedAfter name n s' := by
  have hawait {phase : List Nat → TeardownPhase} {t : EventLoop} (pending : List Nat)
      (ht : StoppedAfter name n t) : StoppedAfter name n (t.awaitTasks phase pending) := by
    rw [StoppedAfter, ticksBegun, loops_awaitTasks, parts_awaitTasks]
    exact ht
  cases does_of_step hstep with
  | startedAlready | refused | scheduled _ | finished _ | gathered _ _ | closed _ => exact hs
  | started _ _ =>
    refine ⟨?_, hs.2⟩
    simp only [Function.update_apply]
    split
    · next hname =>
      rw [← hname]
      exact hs.1
    · exact hs.1
  | @resumed i e name₀ pc pc' cancelRequested hj hnext =>
    obtain ⟨begun, hticks, hfits⟩ := (h name₀).ticks
    have hfits := hfits i pc ⟨_, hj⟩
    have hnot : name.first ∉ pc'.awaits := by
      by_cases hname : name = name₀
      · subst hname
        rw [hs.1] at hnext
        exact first_notMem_awaits hfits hnext
      · intro hmem
        have htick : name.first ∈ name.tick := by rw [name.tick_eq]; exact List.mem_cons_self
        exact hname ((loop_of_mem_tick htick).symm.trans
          (loop_of_mem_tick ((hticks.next hfits hnext).1 _ hmem)))
    refine ⟨hs.1, ?_⟩
    rw [ticksBegun, List.count_append, List.count_eq_zero.mpr hnot]
    exact hs.2
  | stopping _ => exact hawait _ ⟨rfl, hs.2⟩
  | waited _ _ _ => exact hawait _ hs

/-- **A loop runs whole ticks until it is stopped.** Whatever its use cases raise: what it has
awaited is whole ticks in order, but for the last, which may have got less far. Until the shutdown a
loop that has been started has one task, which has not ended; and from the moment it is stopped it
begins no tick. -/
theorem whole_ticks (s : EventLoop) (h : tasks.Reach s) (name : LoopName) :
    (∃ n begun, partsOf s name = (List.replicate n name.tick).flatten ++ begun ∧
        begun <+: name.tick) ∧
      (s.phase = .running → (s.loops name).started = true →
        ∃ i pc, At s name i pc ∧ pc ≠ .ended ∧ ∀ j pc', At s name j pc' → j = i) ∧
      ((s.loops name).stopped = true → ∀ s', tasks.Leads s s' →
        ticksBegun s' name = ticksBegun s name) := by
  have hloop := looping_of_reach h name
  refine ⟨?_, fun hphase hstarted => ?_, fun hstopped s' hleads => ?_⟩
  · obtain ⟨begun, ⟨⟨n, hn⟩, hbegun⟩, -⟩ := hloop.ticks
    exact ⟨n, begun, hn, hbegun⟩
  · obtain ⟨i, pc, hi⟩ := hloop.started.mp hstarted
    exact ⟨i, pc, hi, hloop.alive hphase i pc hi, fun j pc' hj => hloop.one j i pc' pc hj hi⟩
  · refine (hleads.stable (I := StoppedAfter name (ticksBegun s name)) ?_ h ⟨hstopped, rfl⟩).2
    intro t l u ht hstop hstep
    exact stoppedAfter_of_step (looping_of_reach ht) hstop hstep

/-- A sweep that raises: the outbox is drained all the same, and the loop goes on. -/
def failedSweep : List TaskStep :=
  [.start .sweeper, .resume 0 .start, .resume 0 .raised, .resume 0 .raised, .resume 0 .elapsed]

theorem whole_ticks_sample : ∃ s, tasks.Reach s ∧
    partsOf s .sweeper = [.sweep, .dispatchPending, .sweep] ∧
      ∃ i pc, At s .sweeper i pc ∧ pc ≠ .ended := by
  have hinit : tasks.Reach {} := .init rfl
  obtain ⟨s, hs, hp⟩ := System.exists_reach_of_run failedSweep hinit
    (p := fun s => partsOf s .sweeper = [.sweep, .dispatchPending, .sweep] ∧
      s.phase = .running ∧ (s.loops .sweeper).started = true) (by decide +kernel)
  obtain ⟨hparts, hphase, hstarted⟩ := of_decide_eq_true hp
  obtain ⟨i, pc, hi, hpc, -⟩ := (whole_ticks s hs .sweeper).2.1 hphase hstarted
  exact ⟨s, hs, hparts, i, pc, hi, hpc⟩

end EventLoop

end MessageService.System
