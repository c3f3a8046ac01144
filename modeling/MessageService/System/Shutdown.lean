import MessageService.Domain.Aggregates
import MessageService.Infrastructure.AsyncioScheduler
import MessageService.Infrastructure.PeriodicLoops
import MessageService.Lib.TransitionSystem
import Mathlib.Algebra.GroupWithZero.Nat
import Mathlib.Data.List.Infix

/-!
# The shutdown of a process

The tasks of the background scheduler (the three periodic loops and the deliveries) and
`shutdown_service` (`bootstrap/service.py`), under every interleaving of their awaits, with
`await_all` of the scheduler: it waits for the tasks in flight until the timeout, cancels those that
are left and waits for them. The main task is taken not to be cancelled.

A task may swallow its cancellation and go on, and then `await_all` goes on waiting for it.

* `does_of_step`: what a step does.
* `no_task_outlives_connection`: what is over when the connection is closed.
* `shutdown_completes`: a shutdown comes to its end, whatever the tasks do.
-/

namespace MessageService.System

open MessageService.Domain MessageService.Lib MessageService.Infrastructure

/-! ## The system -/

/-- What a background task runs. -/
inductive JobWork where
  | loop (name : LoopName) (pc : LoopPc)
  /-- `AssembleAndDeliverUseCase.execute`. -/
  | delivery (runId : RunId) (ended : Bool)

/-- A task of the scheduler. -/
structure BackgroundJob where
  work : JobWork
  cancelRequested : Bool := false

namespace BackgroundJob

/-- `task.done()`. -/
def done (j : BackgroundJob) : Bool :=
  match j.work with
  | .loop _ pc => pc = .ended
  | .delivery _ ended => ended

/-- `task.cancel()`. -/
def cancel (j : BackgroundJob) : BackgroundJob := { j with cancelRequested := true }

/-- What is left of the task once the loops have been stopped. -/
def fuel (j : BackgroundJob) : Nat :=
  match j.work with
  | .loop _ pc => pc.fuel
  | .delivery _ ended => if ended then 0 else 1

end BackgroundJob

/-- Where `shutdown_service` is. -/
inductive TeardownPhase where
  /-- Not called yet. -/
  | running
  /-- In `asyncio.wait`, for the tasks in flight. -/
  | draining (inFlight : List Nat)
  /-- In `asyncio.gather`, for the cancelled ones. -/
  | cancelling (pending : List Nat)
  /-- In `uow_factory.close()`. -/
  | closing
  | closed
  deriving DecidableEq

/-- The tasks it waits for. -/
def TeardownPhase.awaited : TeardownPhase → List Nat
  | .draining inFlight => inFlight
  | .cancelling pending => pending
  | _ => []

/-- What is left of the shutdown. -/
def TeardownPhase.fuel : TeardownPhase → Nat
  | .running => 4
  | .draining _ => 3
  | .cancelling _ => 2
  | .closing => 1
  | .closed => 0

/-- The background tasks of a process. -/
structure EventLoop where
  scheduler : AsyncioBackgroundTaskScheduler BackgroundJob := {}
  loops : LoopName → Loop := fun _ => {}
  phase : TeardownPhase := .running
  /-- The use cases that loops have awaited, the last one last. -/
  parts : List TickPart := []

/-- A step. -/
inductive TaskStep where
  /-- `start()` of a loop. -/
  | start (name : LoopName)
  /-- `schedule` of a delivery. -/
  | schedule (runId : RunId)
  /-- A loop goes on. -/
  | resume (i : Nat) (e : LoopEvent)
  /-- A delivery returns, raises or is cancelled. -/
  | finish (i : Nat)
  /-- `shutdown_service` is called. -/
  | shutdown
  /-- `asyncio.wait` returns. -/
  | waited (timedOut : Bool)
  /-- `asyncio.gather` returns. -/
  | gathered
  /-- `uow_factory.close()` returns. -/
  | close

/-- A request for a task, which a shutdown refuses. -/
def TaskStep.asks : TaskStep → Bool
  | .start _ | .schedule _ => true
  | _ => false

namespace EventLoop

/-- The tasks that are not done. -/
def inFlight (s : EventLoop) : List Nat :=
  (List.range s.scheduler.tasks.length).filter fun i =>
    s.scheduler.tasks[i]?.any fun j => !j.done

/-- Go on to `uow_factory.close()`, or wait for these tasks. -/
def awaitTasks (s : EventLoop) (phase : List Nat → TeardownPhase) : List Nat → EventLoop
  | [] => { s with phase := .closing }
  | tasks => { s with phase := phase tasks }

@[simp] theorem scheduler_awaitTasks (s : EventLoop) (phase : List Nat → TeardownPhase)
    (l : List Nat) : (s.awaitTasks phase l).scheduler = s.scheduler := by
  cases l <;> rfl

@[simp] theorem loops_awaitTasks (s : EventLoop) (phase : List Nat → TeardownPhase)
    (l : List Nat) : (s.awaitTasks phase l).loops = s.loops := by
  cases l <;> rfl

@[simp] theorem parts_awaitTasks (s : EventLoop) (phase : List Nat → TeardownPhase)
    (l : List Nat) : (s.awaitTasks phase l).parts = s.parts := by
  cases l <;> rfl

theorem phase_awaitTasks {s : EventLoop} (phase : List Nat → TeardownPhase)
    (hp : ∀ l, phase l ≠ .running) (l : List Nat) : (s.awaitTasks phase l).phase ≠ .running := by
  cases l with
  | nil => nofun
  | cons k l => exact hp _

/-- Replace a task. -/
def setJob (s : EventLoop) (i : Nat) (j : BackgroundJob) : EventLoop :=
  { s with scheduler := { s.scheduler with tasks := s.scheduler.tasks.set i j } }

/-- `task.cancel()` of each of the tasks. -/
def cancelJobs (s : EventLoop) (pending : List Nat) : EventLoop :=
  { s with scheduler := { s.scheduler with
      tasks := s.scheduler.tasks.mapIdx fun i j => if i ∈ pending then j.cancel else j } }

/-- `stop()` of each loop, and `begin_shutdown`. -/
def stopLoops (s : EventLoop) : EventLoop :=
  { s with
    loops := fun name => { s.loops name with stopped := true }
    scheduler := s.scheduler.beginShutdown }

/-- The step function. -/
def step (s : EventLoop) : TaskStep → Option EventLoop
  | .start name =>
    if (s.loops name).started then some s
    else
      match s.scheduler.schedule ⟨.loop name .created, false⟩ with
      | .ok scheduler => some { s with
          scheduler := scheduler
          loops := Function.update s.loops name { s.loops name with started := true } }
      | .error _ => some s
  | .schedule runId =>
    match s.scheduler.schedule ⟨.delivery runId false, false⟩ with
    | .ok scheduler => some { s with scheduler := scheduler }
    | .error _ => some s
  | .resume i e =>
    match s.scheduler.tasks[i]? with
    | some ⟨.loop name pc, cancelRequested⟩ =>
      (pc.next name (s.loops name).stopped cancelRequested e).map fun pc' =>
        { s.setJob i ⟨.loop name pc', cancelRequested && e ≠ .cancelled⟩ with
          parts := s.parts ++ pc'.awaits }
    | _ => none
  | .finish i =>
    match s.scheduler.tasks[i]? with
    | some ⟨.delivery runId false, cancelRequested⟩ =>
      some (s.setJob i ⟨.delivery runId true, cancelRequested⟩)
    | _ => none
  | .shutdown =>
    if s.phase = .running then some (s.stopLoops.awaitTasks .draining s.inFlight) else none
  | .waited timedOut =>
    match s.phase with
    | .draining inFlight =>
      let pending := inFlight.filter (· ∈ s.inFlight)
      if timedOut ∨ pending = [] then
        some ((s.cancelJobs pending).awaitTasks .cancelling pending)
      else none
    | _ => none
  | .gathered =>
    match s.phase with
    | .cancelling pending =>
      if pending.filter (· ∈ s.inFlight) = [] then some { s with phase := .closing } else none
    | _ => none
  | .close => if s.phase = .closing then some { s with phase := .closed } else none

/-- The tasks of a process, over every interleaving. -/
def tasks : System EventLoop TaskStep := System.ofFun (fun s => s = {}) step

/-! ## What a step does -/

variable {s s' : EventLoop}

/-- What a step does, by its label. -/
inductive Does (s : EventLoop) : TaskStep → EventLoop → Prop
  | startedAlready {name : LoopName} (started : (s.loops name).started = true) :
      Does s (.start name) s
  | refused {l : TaskStep} (asks : l.asks = true) (shuttingDown : s.scheduler.shuttingDown = true) :
      Does s l s
  | started {name : LoopName} (fresh : (s.loops name).started = false)
      (serving : s.scheduler.shuttingDown = false) :
      Does s (.start name) { s with
        scheduler :=
          { s.scheduler with tasks := s.scheduler.tasks ++ [⟨.loop name .created, false⟩] }
        loops := Function.update s.loops name { s.loops name with started := true } }
  | scheduled {runId : RunId} (serving : s.scheduler.shuttingDown = false) :
      Does s (.schedule runId) { s with
        scheduler :=
          { s.scheduler with tasks := s.scheduler.tasks ++ [⟨.delivery runId false, false⟩] } }
  | resumed {i : Nat} {e : LoopEvent} {name : LoopName} {pc pc' : LoopPc} {cancelRequested : Bool}
      (job : s.scheduler.tasks[i]? = some ⟨.loop name pc, cancelRequested⟩)
      (next : pc.next name (s.loops name).stopped cancelRequested e = some pc') :
      Does s (.resume i e)
        { s.setJob i ⟨.loop name pc', cancelRequested && e ≠ .cancelled⟩ with
          parts := s.parts ++ pc'.awaits }
  | finished {i : Nat} {runId : RunId} {cancelRequested : Bool}
      (job : s.scheduler.tasks[i]? = some ⟨.delivery runId false, cancelRequested⟩) :
      Does s (.finish i) (s.setJob i ⟨.delivery runId true, cancelRequested⟩)
  | stopping (phase : s.phase = .running) :
      Does s .shutdown (s.stopLoops.awaitTasks .draining s.inFlight)
  | waited {timedOut : Bool} {inFlight pending : List Nat} (phase : s.phase = .draining inFlight)
      (left : pending = inFlight.filter (· ∈ s.inFlight)) (ready : timedOut ∨ pending = []) :
      Does s (.waited timedOut) ((s.cancelJobs pending).awaitTasks .cancelling pending)
  | gathered {pending : List Nat} (phase : s.phase = .cancelling pending)
      (none : pending.filter (· ∈ s.inFlight) = []) : Does s .gathered { s with phase := .closing }
  | closed (phase : s.phase = .closing) : Does s .close { s with phase := .closed }

theorem does_of_step {l : TaskStep} (hstep : step s l = some s') : Does s l s' := by
  cases l with
  | start name =>
    simp only [step] at hstep
    split at hstep
    · next hstarted => exact Option.some.inj hstep ▸ .startedAlready hstarted
    · next hfresh =>
      cases hopen : s.scheduler.shuttingDown with
      | true =>
        rw [AsyncioBackgroundTaskScheduler.schedule_error _ hopen] at hstep
        exact Option.some.inj hstep ▸ .refused rfl hopen
      | false =>
        rw [AsyncioBackgroundTaskScheduler.schedule_ok _ hopen] at hstep
        exact Option.some.inj hstep ▸ .started (Bool.eq_false_iff.mpr hfresh) hopen
  | schedule runId =>
    simp only [step] at hstep
    cases hopen : s.scheduler.shuttingDown with
    | true =>
      rw [AsyncioBackgroundTaskScheduler.schedule_error _ hopen] at hstep
      exact Option.some.inj hstep ▸ .refused rfl hopen
    | false =>
      rw [AsyncioBackgroundTaskScheduler.schedule_ok _ hopen] at hstep
      exact Option.some.inj hstep ▸ .scheduled hopen
  | resume i e =>
    simp only [step] at hstep
    split at hstep
    · next name pc cancelRequested hj =>
      obtain ⟨pc', hnext, rfl⟩ := Option.map_eq_some_iff.mp hstep
      exact .resumed hj hnext
    · cases hstep
  | finish i =>
    simp only [step] at hstep
    split at hstep
    · next runId cancelRequested hj => exact Option.some.inj hstep ▸ .finished hj
    · cases hstep
  | shutdown =>
    simp only [step, Option.ite_none_right_eq_some, Option.some.injEq] at hstep
    exact hstep.2 ▸ .stopping hstep.1
  | waited timedOut =>
    simp only [step] at hstep
    split at hstep
    · next inFlight hphase =>
      simp only [Option.ite_none_right_eq_some, Option.some.injEq] at hstep
      exact hstep.2 ▸ .waited hphase rfl hstep.1
    · cases hstep
  | gathered =>
    simp only [step] at hstep
    split at hstep
    · next pending hphase =>
      simp only [Option.ite_none_right_eq_some, Option.some.injEq] at hstep
      exact hstep.2 ▸ .gathered hphase hstep.1
    · cases hstep
  | close =>
    simp only [step, Option.ite_none_right_eq_some, Option.some.injEq] at hstep
    exact hstep.2 ▸ .closed hstep.1

/-! ## The tasks in flight -/

theorem mem_inFlight {i : Nat} :
    i ∈ s.inFlight ↔ ∃ j, s.scheduler.tasks[i]? = some j ∧ j.done = false := by
  simp only [inFlight, List.mem_filter, List.mem_range, Option.any_eq_true, Bool.not_eq_true']
  constructor
  · rintro ⟨-, j, hj, hdone⟩
    exact ⟨j, hj, hdone⟩
  · rintro ⟨j, hj, hdone⟩
    exact ⟨(List.getElem?_eq_some_iff.mp hj).1, j, hj, hdone⟩

/-- A task that goes on was in flight. -/
theorem mem_inFlight_setJob {i k : Nat} {j j' : BackgroundJob}
    (hj : s.scheduler.tasks[i]? = some j) (hdone : j.done = false)
    (h : k ∈ (s.setJob i j').inFlight) : k ∈ s.inFlight := by
  obtain ⟨j'', hj'', hdone''⟩ := mem_inFlight.mp h
  by_cases hk : i = k
  · subst hk
    exact mem_inFlight.mpr ⟨j, hj, hdone⟩
  · simp only [setJob, List.getElem?_set_ne hk] at hj''
    exact mem_inFlight.mpr ⟨j'', hj'', hdone''⟩

theorem mem_inFlight_cancelJobs {pending : List Nat} {k : Nat} :
    k ∈ (s.cancelJobs pending).inFlight ↔ k ∈ s.inFlight := by
  simp only [mem_inFlight, cancelJobs, List.getElem?_mapIdx, Option.map_eq_some_iff]
  constructor
  · rintro ⟨j, ⟨j', hj', rfl⟩, hdone⟩
    refine ⟨j', hj', ?_⟩
    split at hdone
    · exact hdone
    · exact hdone
  · rintro ⟨j, hj, hdone⟩
    refine ⟨_, ⟨j, hj, rfl⟩, ?_⟩
    split
    · exact hdone
    · exact hdone

/-- A coroutine that goes on had not ended. -/
theorem ne_ended_of_next {name : LoopName} {stopped cancelRequested : Bool} {pc pc' : LoopPc}
    {e : LoopEvent} (h : pc.next name stopped cancelRequested e = some pc') : pc ≠ .ended := by
  rintro rfl
  cases h

/-! ## The shutdown -/

/-- How far the shutdown is, and what it waits for. -/
structure Teardown (s : EventLoop) : Prop where
  serving : s.phase = .running → s.scheduler.shuttingDown = false ∧
    (∀ name, (s.loops name).stopped = false) ∧
      ∀ j ∈ s.scheduler.tasks, j.cancelRequested = false
  refusing : s.phase ≠ .running → s.scheduler.shuttingDown = true ∧
    ∀ name, (s.loops name).stopped = true
  awaiting : s.phase ≠ .running → ∀ i ∈ s.inFlight, i ∈ s.phase.awaited

/-- What a task does besides its own. -/
structure Beside (s s' : EventLoop) : Prop where
  phase : s'.phase = s.phase
  shuttingDown : s'.scheduler.shuttingDown = s.scheduler.shuttingDown
  stopped : ∀ name, (s'.loops name).stopped = (s.loops name).stopped

theorem Teardown.beside (h : Teardown s) (hs : Beside s s')
    (hcancel : (∀ j ∈ s.scheduler.tasks, j.cancelRequested = false) →
      ∀ j ∈ s'.scheduler.tasks, j.cancelRequested = false)
    (hflight : s.scheduler.shuttingDown = true → ∀ i ∈ s'.inFlight, i ∈ s.inFlight) :
    Teardown s' := by
  refine ⟨fun hphase => ?_, fun hphase => ?_, fun hphase i hi => ?_⟩
  · rw [hs.phase] at hphase
    obtain ⟨hopen, hloops, hjobs⟩ := h.serving hphase
    exact ⟨hs.shuttingDown.trans hopen, fun name => (hs.stopped name).trans (hloops name),
      hcancel hjobs⟩
  · rw [hs.phase] at hphase
    obtain ⟨hshut, hloops⟩ := h.refusing hphase
    exact ⟨hs.shuttingDown.trans hshut, fun name => (hs.stopped name).trans (hloops name)⟩
  · rw [hs.phase] at hphase ⊢
    exact h.awaiting hphase i (hflight (h.refusing hphase).1 i hi)

theorem beside_setJob (s : EventLoop) (i : Nat) (j : BackgroundJob) : Beside s (s.setJob i j) :=
  ⟨rfl, rfl, fun _ => rfl⟩

/-- A new task, created before the shutdown. -/
theorem Teardown.added (h : Teardown s) {j : BackgroundJob} (hj : j.cancelRequested = false)
    (hopen : s.scheduler.shuttingDown = false) (hs : Beside s s')
    (htasks : s'.scheduler.tasks = s.scheduler.tasks ++ [j]) : Teardown s' := by
  refine h.beside hs (fun hjobs j' hj' => ?_) fun hshut => ?_
  · rw [htasks, List.mem_append, List.mem_singleton] at hj'
    rcases hj' with hj' | rfl
    · exact hjobs j' hj'
    · exact hj
  · rw [hopen] at hshut
    cases hshut

/-- A task that goes on. -/
theorem Teardown.moved (h : Teardown s) {i : Nat} {j : BackgroundJob} (j' : BackgroundJob)
    (hj : s.scheduler.tasks[i]? = some j) (hdone : j.done = false)
    (hcancel : j.cancelRequested = false → j'.cancelRequested = false) :
    Teardown (s.setJob i j') := by
  refine h.beside (beside_setJob s i j') (fun hjobs j'' hj'' => ?_)
    fun _ k hk => mem_inFlight_setJob hj hdone hk
  rcases List.mem_or_eq_of_mem_set hj'' with hmem | rfl
  · exact hjobs j'' hmem
  · exact hcancel (hjobs j (List.mem_of_getElem? hj))

theorem Teardown.awaitTasks {phase : List Nat → TeardownPhase} {l : List Nat}
    (hphase : ∀ l, phase l ≠ .running ∧ (phase l).awaited = l)
    (hshut : s.scheduler.shuttingDown = true) (hloops : ∀ name, (s.loops name).stopped = true)
    (hl : ∀ i ∈ s.inFlight, i ∈ l) : Teardown (s.awaitTasks phase l) := by
  cases l with
  | nil => exact ⟨fun h => (by cases h), fun _ => ⟨hshut, hloops⟩, fun _ i hi => hl i hi⟩
  | cons k l =>
    exact ⟨fun h => absurd h (hphase _).1, fun _ => ⟨hshut, hloops⟩,
      fun _ i hi => (hphase (k :: l)).2.symm ▸ hl i hi⟩

/-- Tasks in flight that nobody waits for any more. -/
theorem Teardown.idle {phase : TeardownPhase} (h : Teardown s) (hrunning : s.phase ≠ .running)
    (hphase : phase ≠ .running) (hnone : ∀ i ∈ s.phase.awaited, i ∉ s.inFlight) :
    Teardown { s with phase := phase } :=
  ⟨fun hp => absurd hp hphase, fun _ => h.refusing hrunning,
    fun _ i hi => absurd hi (hnone i (h.awaiting hrunning i hi))⟩

theorem teardown_of_step {l : TaskStep} (h : Teardown s) (hstep : step s l = some s') :
    Teardown s' := by
  cases does_of_step hstep with
  | startedAlready | refused => exact h
  | @started name _ hopen =>
    refine h.added (j := ⟨.loop name .created, false⟩) rfl hopen ⟨rfl, rfl, fun name' => ?_⟩ rfl
    simp only [Function.update_apply]
    split
    · next hname => rw [hname]
    · rfl
  | @scheduled runId hopen =>
    exact h.added (j := ⟨.delivery runId false, false⟩) rfl hopen ⟨rfl, rfl, fun _ => rfl⟩ rfl
  | @resumed i e name pc pc' cancelRequested hj hnext =>
    have hmoved := h.moved ⟨.loop name pc', cancelRequested && e ≠ .cancelled⟩ hj
      (decide_eq_false (ne_ended_of_next hnext))
      fun hc : cancelRequested = false => by simp [hc]
    exact ⟨hmoved.serving, hmoved.refusing, hmoved.awaiting⟩
  | finished hj => exact h.moved _ hj rfl id
  | stopping _ => exact .awaitTasks (fun _ => ⟨nofun, rfl⟩) rfl (fun _ => rfl) fun i hi => hi
  | @waited _ inFlight pending hphase hleft _ =>
    have hrunning : s.phase ≠ .running := by rw [hphase]; nofun
    obtain ⟨hshut, hloops⟩ := h.refusing hrunning
    refine .awaitTasks (fun _ => ⟨nofun, rfl⟩) hshut hloops fun i hi => ?_
    have hi := mem_inFlight_cancelJobs.mp hi
    have hawaited := h.awaiting hrunning i hi
    rw [hphase] at hawaited
    exact hleft ▸ List.mem_filter.mpr ⟨hawaited, decide_eq_true hi⟩
  | @gathered pending hphase hnone =>
    refine h.idle (by rw [hphase]; nofun) nofun fun i hi hflight => ?_
    rw [hphase] at hi
    have hmem : i ∈ pending.filter (· ∈ s.inFlight) :=
      List.mem_filter.mpr ⟨hi, decide_eq_true hflight⟩
    rw [hnone] at hmem
    cases hmem
  | closed hphase =>
    refine h.idle (by rw [hphase]; nofun) nofun fun i hi => ?_
    rw [hphase] at hi
    cases hi

theorem teardown_of_reach (h : tasks.Reach s) : Teardown s := by
  refine System.inv_of_reach (I := Teardown) ⟨?_, fun s l s' => teardown_of_step⟩ h
  rintro s rfl
  exact ⟨fun _ => ⟨rfl, fun _ => rfl, nofun⟩, fun hp => absurd rfl hp, fun hp => absurd rfl hp⟩

/-- The connection is being closed, and nothing is left to run. -/
structure Quiet (s s' : EventLoop) : Prop where
  phase : s'.phase = .closing ∨ s'.phase = .closed
  tasks : s'.scheduler.tasks = s.scheduler.tasks
  parts : s'.parts = s.parts

theorem done_of_closing (h : Teardown s) (hphase : s.phase = .closing ∨ s.phase = .closed)
    {j : BackgroundJob} (hj : j ∈ s.scheduler.tasks) : j.done = true := by
  by_contra hdone
  obtain ⟨i, hi⟩ := List.getElem?_of_mem hj
  have hawaited := h.awaiting (by rcases hphase with h | h <;> rw [h] <;> nofun) i
    (mem_inFlight.mpr ⟨j, hi, by simpa using hdone⟩)
  rcases hphase with h | h <;> rw [h] at hawaited <;> cases hawaited

theorem quiet_of_step {s₀ : EventLoop} {l : TaskStep} (h : Teardown s) (hs : Quiet s₀ s)
    (hstep : step s l = some s') : Quiet s₀ s' := by
  have hrunning : s.phase ≠ .running := by rcases hs.phase with h | h <;> rw [h] <;> nofun
  have hshut := (h.refusing hrunning).1
  have hserving : ¬s.scheduler.shuttingDown = false := by simp [hshut]
  cases does_of_step hstep with
  | startedAlready | refused => exact hs
  | started _ hopen => exact absurd hopen hserving
  | scheduled hopen => exact absurd hopen hserving
  | resumed hj hnext =>
    have hdone := done_of_closing h hs.phase (List.mem_of_getElem? hj)
    exact absurd (of_decide_eq_true hdone) (ne_ended_of_next hnext)
  | finished hj => cases done_of_closing h hs.phase (List.mem_of_getElem? hj)
  | stopping hphase => exact absurd hphase hrunning
  | waited hphase => rcases hs.phase with hp | hp <;> rw [hp] at hphase <;> cases hphase
  | gathered hphase => rcases hs.phase with hp | hp <;> rw [hp] at hphase <;> cases hphase
  | closed _ => exact ⟨.inr rfl, hs.tasks, hs.parts⟩

/-- **No task outlives the connection.** When `shutdown_service` gets to close the connection, every
background task there has ever been is done, whatever it has done with its cancellation, and from
then on none is created and none runs. -/
theorem no_task_outlives_connection (s : EventLoop) (h : tasks.Reach s)
    (hphase : s.phase = .closing ∨ s.phase = .closed) :
    (∀ j ∈ s.scheduler.tasks, j.done = true) ∧ ∀ s', tasks.Leads s s' → Quiet s s' := by
  refine ⟨fun j hj => done_of_closing (teardown_of_reach h) hphase hj, fun s' hleads => ?_⟩
  refine hleads.stable (I := Quiet s) ?_ h ⟨hphase, rfl, rfl⟩
  intro t l u ht hquiet hstep
  exact quiet_of_step (teardown_of_reach ht) hquiet hstep

/-- A delivery that is cancelled and goes on: the shutdown waits until it ends. -/
def stubbornDelivery : List TaskStep :=
  [.start .sweeper, .schedule "00000000-0000-4000-8000-000000000000", .resume 0 .start, .shutdown,
    .waited true, .resume 0 .cancelled, .finish 1, .gathered, .close]

theorem no_task_outlives_connection_sample : ∃ s, tasks.Reach s ∧ s.phase = .closed ∧
    s.scheduler.tasks.length = 2 ∧ ∀ j ∈ s.scheduler.tasks, j.done = true := by
  have hinit : tasks.Reach {} := .init rfl
  obtain ⟨s, hs, hp⟩ := System.exists_reach_of_run stubbornDelivery hinit
    (p := fun s => s.phase = .closed && s.scheduler.tasks.length = 2) (by decide +kernel)
  simp only [Bool.and_eq_true, decide_eq_true_eq] at hp
  exact ⟨s, hs, hp.1, hp.2, (no_task_outlives_connection s hs (.inr hp.1)).1⟩

/-! ## Completion -/

/-- What is left of the background tasks. -/
def fuel (s : EventLoop) : Nat := (s.scheduler.tasks.map BackgroundJob.fuel).sum

/-- What is left of the tasks and the shutdown. -/
def remaining (s : EventLoop) : Nat := s.fuel + s.phase.fuel

theorem sum_set_lt {l : List BackgroundJob} {i : Nat} {j : BackgroundJob} (j' : BackgroundJob)
    (hj : l[i]? = some j) (hlt : j'.fuel < j.fuel) :
    ((l.set i j').map BackgroundJob.fuel).sum < (l.map BackgroundJob.fuel).sum := by
  induction l generalizing i with
  | nil => cases hj
  | cons k l ih =>
    cases i with
    | zero =>
      obtain rfl : k = j := by simpa using hj
      simpa using hlt
    | succ i =>
      have := ih (i := i) (by simpa using hj)
      simpa using this

theorem fuel_cancelJobs (s : EventLoop) (pending : List Nat) :
    (s.cancelJobs pending).fuel = s.fuel := by
  have hmap : (s.cancelJobs pending).scheduler.tasks.map BackgroundJob.fuel =
      s.scheduler.tasks.map BackgroundJob.fuel := by
    refine List.ext_getElem? fun i => ?_
    simp only [cancelJobs, List.getElem?_map, List.getElem?_mapIdx, Option.map_map]
    congr 1
    funext j
    simp only [Function.comp_apply]
    split <;> rfl
  rw [fuel, hmap, fuel]

theorem remaining_awaitTasks {phase : List Nat → TeardownPhase} {n : Nat}
    (hn : ∀ l, (phase l).fuel = n) (hpos : 1 ≤ n) (l : List Nat) :
    (s.awaitTasks phase l).remaining ≤ s.fuel + n := by
  cases l with
  | nil => exact Nat.add_le_add_left hpos _
  | cons k l =>
    change s.fuel + (phase (k :: l)).fuel ≤ _
    rw [hn]

/-- A loop that has been stopped begins no tick. -/
theorem fuel_next {name : LoopName} {cancelRequested : Bool} {pc pc' : LoopPc} {e : LoopEvent}
    (h : pc.next name true cancelRequested e = some pc') : pc'.fuel < pc.fuel := by
  cases pc with
  | ended => cases h
  | created | waiting =>
    cases e <;> cases cancelRequested <;> simp [LoopPc.next, LoopPc.top] at h <;> subst h <;> decide
  | ticking rest =>
    have hafter : (LoopPc.after rest.tail).fuel < (LoopPc.ticking rest).fuel := by
      cases rest with
      | nil => simp [LoopPc.after, LoopPc.fuel]
      | cons p rest => cases rest <;> simp [LoopPc.after, LoopPc.fuel]
    cases e with
    | returned | raised => exact Option.some.inj h ▸ hafter
    | cancelled =>
      cases cancelRequested with
      | true => exact Option.some.inj h ▸ Nat.succ_pos _
      | false => cases h
    | start | stop | elapsed => cases h

theorem remaining_phase {phase : TeardownPhase} (h : phase.fuel < s.phase.fuel) :
    ({ s with phase := phase } : EventLoop).remaining < s.remaining :=
  Nat.add_lt_add_left h s.fuel

/-- **Every step of a shutdown uses something up**, and a request for a task does nothing. -/
theorem remaining_lt_of_step {l : TaskStep} (h : Teardown s) (hphase : s.phase ≠ .running)
    (hstep : step s l = some s') :
    s'.phase ≠ .running ∧ if l.asks then s' = s else s'.remaining < s.remaining := by
  obtain ⟨hshut, hloops⟩ := h.refusing hphase
  have hserving : ¬s.scheduler.shuttingDown = false := by simp [hshut]
  cases does_of_step hstep with
  | startedAlready => exact ⟨hphase, rfl⟩
  | refused hasks =>
    rw [if_pos hasks]
    exact ⟨hphase, rfl⟩
  | started _ hopen => exact absurd hopen hserving
  | scheduled hopen => exact absurd hopen hserving
  | @resumed i e name pc pc' cancelRequested hj hnext =>
    rw [hloops] at hnext
    have hlt := sum_set_lt ⟨.loop name pc', cancelRequested && e ≠ .cancelled⟩ hj (fuel_next hnext)
    exact ⟨hphase, Nat.add_lt_add_right hlt _⟩
  | @finished i runId cancelRequested hj =>
    have hlt := sum_set_lt ⟨.delivery runId true, cancelRequested⟩ hj Nat.zero_lt_one
    exact ⟨hphase, Nat.add_lt_add_right hlt _⟩
  | stopping hp => exact absurd hp hphase
  | @waited _ inFlight pending hp _ _ =>
    refine ⟨phase_awaitTasks .cancelling (fun _ => nofun) _, ?_⟩
    have hle := @remaining_awaitTasks (s.cancelJobs pending) .cancelling 2 (fun _ => rfl)
      (by decide) pending
    rw [fuel_cancelJobs] at hle
    refine lt_of_le_of_lt hle ?_
    rw [remaining, hp]
    exact Nat.lt_succ_self _
  | gathered hp => exact ⟨nofun, remaining_phase (hp ▸ Nat.lt_succ_self 1)⟩
  | closed hp => exact ⟨nofun, remaining_phase (hp ▸ Nat.zero_lt_one)⟩

/-- **A task that is not done can go on.** -/
theorem exists_step_of_inFlight (hloops : ∀ name, (s.loops name).stopped = true) {i : Nat}
    (hi : i ∈ s.inFlight) : ∃ l s', l.asks = false ∧ step s l = some s' := by
  obtain ⟨⟨work, c⟩, hj, hdone⟩ := mem_inFlight.mp hi
  cases work with
  | delivery runId ended =>
    obtain rfl : ended = false := hdone
    exact ⟨.finish i, s.setJob i ⟨.delivery runId true, c⟩, rfl, by simp only [step, hj]⟩
  | loop name pc =>
    have hgo : ∀ e pc', pc.next name true c e = some pc' →
        ∃ l s', l.asks = false ∧ step s l = some s' := by
      intro e pc' hnext
      exact ⟨.resume i e, _, rfl, by simp only [step, hj, hloops, hnext, Option.map_some]; rfl⟩
    cases pc with
    | created => exact hgo .start .ended rfl
    | waiting => exact hgo .stop .ended rfl
    | ticking rest => exact hgo .returned (LoopPc.after rest.tail) rfl
    | ended => cases hdone

/-- A shutdown that has not ended can go on, or a task it waits for can. -/
theorem exists_step (h : Teardown s) (hphase : s.phase ≠ .running) (hopen : s.phase ≠ .closed) :
    ∃ l s', l.asks = false ∧ step s l = some s' := by
  by_cases hflight : s.inFlight = []
  · cases hp : s.phase with
    | running => exact absurd hp hphase
    | draining inFlight => exact ⟨.waited false, _, rfl, by simp [step, hp, hflight]; rfl⟩
    | cancelling pending => exact ⟨.gathered, _, rfl, by simp [step, hp, hflight]; rfl⟩
    | closing => exact ⟨.close, _, rfl, if_pos hp⟩
    | closed => exact absurd hp hopen
  · obtain ⟨i, hi⟩ := List.exists_mem_of_ne_nil _ hflight
    exact exists_step_of_inFlight (h.refusing hphase).2 hi

/-- A loop in a tick has its use cases, a wait and its end left. -/
def Short (s : EventLoop) : Prop := ∀ j ∈ s.scheduler.tasks, j.fuel ≤ 4

theorem fuel_top_le (name : LoopName) (stopped : Bool) : (LoopPc.top name stopped).fuel ≤ 4 := by
  cases stopped <;> cases name <;> decide

theorem fuel_next_le {name : LoopName} {stopped cancelRequested : Bool} {pc pc' : LoopPc}
    {e : LoopEvent} (hpc : pc.fuel ≤ 4) (h : pc.next name stopped cancelRequested e = some pc') :
    pc'.fuel ≤ 4 := by
  cases e with
  | cancelled =>
    have hended : pc' = .ended := by
      cases pc <;> cases cancelRequested <;> simp [LoopPc.next] at h <;> exact h.symm
    rw [hended]
    decide
  | start | elapsed =>
    cases pc <;> simp only [LoopPc.next, Option.some.injEq, reduceCtorEq] at h
    exact h ▸ fuel_top_le name stopped
  | stop =>
    cases pc <;> cases stopped <;> simp [LoopPc.next] at h
    rw [← h]
    decide
  | returned | raised =>
    cases pc with
    | ticking rest =>
      refine le_trans (le_of_lt ?_) hpc
      exact @fuel_next name cancelRequested (.ticking rest) pc' .returned h
    | created | waiting | ended => cases h

theorem short_of_step {l : TaskStep} (h : Short s) (hstep : step s l = some s') : Short s' := by
  have hadd {j : BackgroundJob} (hj : j.fuel ≤ 4) :
      ∀ j' ∈ s.scheduler.tasks ++ [j], j'.fuel ≤ 4 := by
    intro j' hj'
    rcases List.mem_append.mp hj' with hmem | hmem
    · exact h j' hmem
    · rw [List.mem_singleton.mp hmem]
      exact hj
  have hset {i : Nat} {j : BackgroundJob} (hj : j.fuel ≤ 4) : Short (s.setJob i j) := by
    intro j' hj'
    rcases List.mem_or_eq_of_mem_set hj' with hmem | rfl
    · exact h j' hmem
    · exact hj
  cases does_of_step hstep with
  | startedAlready | refused | gathered _ _ | closed _ => exact h
  | @started name _ _ => exact hadd (j := ⟨.loop name .created, false⟩) (Nat.le_of_ble_eq_true rfl)
  | @scheduled runId _ =>
    exact hadd (j := ⟨.delivery runId false, false⟩) (Nat.le_of_ble_eq_true rfl)
  | resumed hj hnext => exact hset (fuel_next_le (h _ (List.mem_of_getElem? hj)) hnext)
  | finished _ => exact hset (Nat.zero_le 4)
  | stopping _ =>
    rw [Short, scheduler_awaitTasks]
    exact h
  | waited _ _ _ =>
    rw [Short, scheduler_awaitTasks]
    intro j hj
    obtain ⟨k, hk, rfl⟩ := List.mem_mapIdx.mp hj
    have hfuel := h _ (List.getElem_mem hk)
    split
    · exact hfuel
    · exact hfuel

theorem short_of_reach (h : tasks.Reach s) : Short s := by
  refine System.inv_of_reach (I := Short) ⟨?_, fun s l s' => short_of_step⟩ h
  rintro s rfl j hj
  cases hj

theorem length_inFlight (s : EventLoop) :
    s.inFlight.length = s.scheduler.tasks.countP fun j => !j.done := by
  have hmap : (List.range s.scheduler.tasks.length).map (fun i => s.scheduler.tasks[i]?) =
      s.scheduler.tasks.map some := by
    refine List.ext_getElem? fun i => ?_
    rcases Nat.lt_or_ge i s.scheduler.tasks.length with hi | hi
    · simp [hi]
    · simp [hi]
  have hcount := congrArg (List.countP fun j? => j?.any fun j => !j.done) hmap
  rw [List.countP_map, List.countP_map] at hcount
  rw [inFlight, ← List.countP_eq_length_filter]
  exact hcount

theorem sum_fuel_le {l : List BackgroundJob} (h : ∀ j ∈ l, j.fuel ≤ 4) :
    (l.map BackgroundJob.fuel).sum ≤ 4 * l.countP fun j => !j.done := by
  induction l with
  | nil => exact Nat.le_refl 0
  | cons j l ih =>
    obtain ⟨hj, hl⟩ := List.forall_mem_cons.mp h
    have ih := ih hl
    rw [List.map_cons, List.sum_cons, List.countP_cons]
    cases hdone : j.done with
    | false =>
      simp only [Bool.not_false, if_true]
      omega
    | true =>
      have hzero : j.fuel = 0 := by
        obtain ⟨work, cancelRequested⟩ := j
        cases work with
        | loop name pc =>
          obtain rfl : pc = .ended := of_decide_eq_true hdone
          rfl
        | delivery runId ended =>
          obtain rfl : ended = true := hdone
          rfl
      simp only [Bool.not_true, hzero]
      omega

/-- What a shutdown and the tasks it waits for have left. -/
theorem remaining_le (h : tasks.Reach s) (hphase : s.phase ≠ .running) :
    s.remaining ≤ 4 * s.inFlight.length + 3 := by
  have htasks : s.fuel ≤ 4 * s.inFlight.length :=
    length_inFlight s ▸ sum_fuel_le (short_of_reach h)
  refine Nat.add_le_add htasks ?_
  cases hp : s.phase with
  | running => exact absurd hp hphase
  | draining _ | cancelling _ | closing | closed => simp [TeardownPhase.fuel]

/-- A run of a shutdown uses up what its steps use up. -/
theorem remaining_of_run {ls : List TaskStep} {t : EventLoop} (h : tasks.Reach s)
    (hphase : s.phase ≠ .running) (hrun : System.run step s ls = some t) :
    tasks.Reach t ∧ t.phase ≠ .running ∧
      ls.countP (fun l => !l.asks) + t.remaining ≤ s.remaining := by
  induction ls generalizing s with
  | nil =>
    obtain rfl := Option.some.inj hrun
    exact ⟨h, hphase, Nat.le_of_eq (Nat.zero_add _)⟩
  | cons l ls ih =>
    obtain ⟨u, hstep, hrest⟩ := Option.bind_eq_some_iff.mp hrun
    obtain ⟨hu, hlt⟩ := remaining_lt_of_step (teardown_of_reach h) hphase hstep
    obtain ⟨ht, hend, hle⟩ := ih (.step h hstep) hu hrest
    refine ⟨ht, hend, ?_⟩
    rw [List.countP_cons]
    cases hasks : l.asks with
    | true =>
      rw [hasks, if_pos rfl] at hlt
      subst hlt
      simpa using hle
    | false =>
      rw [hasks, if_neg Bool.false_ne_true] at hlt
      simp only [Bool.not_false, if_true]
      omega

/-- **A shutdown comes to its end.** Once `shutdown_service` has been called, no run of the process
has more than four steps for each task in flight and three for the shutdown itself, whatever the
tasks do with their cancellation; requests for tasks do not count, which change nothing. And a
run after which nothing can step any more has closed the connection, with every task done. -/
theorem shutdown_completes (s : EventLoop) (h : tasks.Reach s) (hphase : s.phase ≠ .running) :
    (∀ l s', l.asks = true → step s l = some s' → s' = s) ∧
      ∀ ls t, System.run step s ls = some t →
        ls.countP (fun l => !l.asks) ≤ 4 * s.inFlight.length + 3 ∧
          ((∀ l, l.asks = false → step t l = none) →
            t.phase = .closed ∧ ∀ j ∈ t.scheduler.tasks, j.done = true) := by
  refine ⟨fun l s' hasks hstep => ?_, fun ls t hrun => ?_⟩
  · have hsame := (remaining_lt_of_step (teardown_of_reach h) hphase hstep).2
    rwa [hasks, if_pos rfl] at hsame
  · obtain ⟨ht, hend, hle⟩ := remaining_of_run h hphase hrun
    refine ⟨(Nat.le_add_right _ _).trans (hle.trans (remaining_le h hphase)), fun hstuck => ?_⟩
    have hclosed : t.phase = .closed := by
      by_contra hopen
      obtain ⟨l, t', hasks, hstep⟩ := exists_step (teardown_of_reach ht) hend hopen
      rw [hstuck l hasks] at hstep
      cases hstep
    exact ⟨hclosed, fun j hj => done_of_closing (teardown_of_reach ht) (.inr hclosed) hj⟩

/-- A sweeper in its tick, a delivery that swallows its cancellation, and a loop that is started and
a delivery that is scheduled too late. -/
def lateRequests : List TaskStep :=
  [.waited true, .start .reportPruner, .resume 0 .returned, .schedule "late", .resume 0 .returned,
    .resume 0 .stop, .finish 1, .gathered, .close]

/-- The shutdown of two tasks has at most eleven steps; this one has seven. -/
theorem shutdown_completes_sample : ∃ s, tasks.Reach s ∧ s.inFlight.length = 2 ∧
    (∃ t, System.run step s lateRequests = some t ∧ t.phase = .closed) ∧
    ∀ ls t, System.run step s ls = some t → ls.countP (fun l => !l.asks) ≤ 11 := by
  have hinit : tasks.Reach {} := .init rfl
  obtain ⟨s, hs, hp⟩ := System.exists_reach_of_run
    [.start .sweeper, .schedule "00000000-0000-4000-8000-000000000000", .resume 0 .start, .shutdown]
    hinit (p := fun s => s.inFlight.length = 2 && s.phase ≠ .running &&
      (System.run step s lateRequests).any fun t => t.phase = .closed) (by decide +kernel)
  simp only [Bool.and_eq_true, decide_eq_true_eq] at hp
  obtain ⟨⟨hflight, hphase⟩, hrun⟩ := hp
  obtain ⟨t, ht, hclosed⟩ := (Option.any_eq_true _ _).mp hrun
  refine ⟨s, hs, hflight, ⟨t, ht, of_decide_eq_true hclosed⟩, fun ls u hu => ?_⟩
  have hle := ((shutdown_completes s hs hphase).2 ls u hu).1
  rwa [hflight] at hle

end EventLoop

end MessageService.System
