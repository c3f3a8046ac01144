import Mathlib.Tactic.Common

/-!
# The background task scheduler

Model of `infrastructure/scheduler/asyncio_scheduler.py` (`AsyncioBackgroundTaskScheduler`). The
tasks are those ever created: the source drops a task from its set when it is done.
-/

namespace MessageService.Infrastructure

/-- A `RuntimeError`. -/
structure RuntimeError where
  message : String
  deriving DecidableEq, Repr

/-- `AsyncioBackgroundTaskScheduler`, over coroutines of type `κ`. -/
structure AsyncioBackgroundTaskScheduler (κ : Type) where
  tasks : List κ := []
  shuttingDown : Bool := false

namespace AsyncioBackgroundTaskScheduler

variable {κ : Type}

/-- `schedule`, with the event loop running. -/
def schedule (s : AsyncioBackgroundTaskScheduler κ) (coro : κ) :
    Except RuntimeError (AsyncioBackgroundTaskScheduler κ) :=
  if s.shuttingDown then .error ⟨"scheduler is shutting down; no new tasks accepted"⟩
  else .ok { s with tasks := s.tasks ++ [coro] }

/-- `begin_shutdown`. -/
def beginShutdown (s : AsyncioBackgroundTaskScheduler κ) : AsyncioBackgroundTaskScheduler κ :=
  { s with shuttingDown := true }

theorem schedule_ok {s : AsyncioBackgroundTaskScheduler κ} (coro : κ)
    (h : s.shuttingDown = false) : s.schedule coro = .ok { s with tasks := s.tasks ++ [coro] } := by
  simp [schedule, h]

theorem schedule_error {s : AsyncioBackgroundTaskScheduler κ} (coro : κ)
    (h : s.shuttingDown = true) :
    s.schedule coro = .error ⟨"scheduler is shutting down; no new tasks accepted"⟩ := by
  simp [schedule, h]

end AsyncioBackgroundTaskScheduler

end MessageService.Infrastructure
