import Mathlib.Tactic.Common

/-!
# The periodic loops

Model of `infrastructure/sweeper/loop.py`, `infrastructure/persistence/report_pruner_loop.py` and
`audit_log_pruner_loop.py`. The three share their `_run`; a tick of the sweeper's awaits two use
cases, a tick of the others one. What a use case raises is logged and the tick goes on, except for
`CancelledError`, which ends the coroutine.
-/

namespace MessageService.Infrastructure

/-- `SweeperLoop`, `ReportPrunerLoop` and `AuditLogPrunerLoop`. -/
inductive LoopName where
  | sweeper
  | reportPruner
  | auditLogPruner
  deriving DecidableEq, Repr

/-- What a tick awaits. -/
inductive TickPart where
  /-- `SweeperUseCase.tick`. -/
  | sweep
  /-- `SweeperActionDispatcherUseCase.dispatch_pending`. -/
  | dispatchPending
  /-- `ReportPrunerUseCase.run_once`. -/
  | pruneReports
  /-- `AuditLogPrunerUseCase.run_once`. -/
  | pruneAuditLog
  deriving DecidableEq, Repr

/-- `_tick_once`: what it awaits, in order. -/
def LoopName.tick : LoopName → List TickPart
  | sweeper => [.sweep, .dispatchPending]
  | reportPruner => [.pruneReports]
  | auditLogPruner => [.pruneAuditLog]

/-- What a tick begins with. -/
def LoopName.first : LoopName → TickPart
  | sweeper => .sweep
  | reportPruner => .pruneReports
  | auditLogPruner => .pruneAuditLog

theorem LoopName.tick_eq (name : LoopName) : name.tick = name.first :: name.tick.tail := by
  cases name <;> rfl

theorem LoopName.first_notMem (name : LoopName) : name.first ∉ name.tick.tail := by
  cases name <;> decide

/-- The loop whose tick awaits the part. -/
def TickPart.loop : TickPart → LoopName
  | sweep | dispatchPending => .sweeper
  | pruneReports => .reportPruner
  | pruneAuditLog => .auditLogPruner

/-- The fields of a loop. -/
structure Loop where
  started : Bool := false
  /-- `_stop_event.is_set()`. -/
  stopped : Bool := false

/-- Where the coroutine `_run` is. -/
inductive LoopPc where
  /-- It has not run yet. -/
  | created
  /-- It awaits the first of these, and has the others before it in this tick. -/
  | ticking (rest : List TickPart)
  /-- It is in `asyncio.wait_for(self._stop_event.wait(), ..)`. -/
  | waiting
  | ended
  deriving DecidableEq, Repr

/-- What a coroutine is resumed with. -/
inductive LoopEvent where
  | start
  /-- The use case has returned. -/
  | returned
  /-- It has raised an `Exception`. -/
  | raised
  /-- The stop event is set. -/
  | stop
  /-- `TimeoutError`. -/
  | elapsed
  /-- `CancelledError`. -/
  | cancelled
  deriving DecidableEq, Repr

namespace LoopPc

/-- `while not self._stop_event.is_set()`. -/
def top (name : LoopName) (stopped : Bool) : LoopPc := if stopped then .ended else .ticking name.tick

/-- The rest of a tick, and the wait after it. -/
def after : List TickPart → LoopPc
  | [] => .waiting
  | rest => .ticking rest

@[simp] theorem after_cons (p : TickPart) (rest : List TickPart) :
    after (p :: rest) = .ticking (p :: rest) := rfl

/-- `_run`, from one await to the next. -/
def next (name : LoopName) (stopped cancelRequested : Bool) : LoopPc → LoopEvent → Option LoopPc
  | .ended, _ => none
  | _, .cancelled => if cancelRequested then some .ended else none
  | .created, .start => some (top name stopped)
  | .ticking rest, .returned => some (after rest.tail)
  | .ticking rest, .raised => some (after rest.tail)
  | .waiting, .stop => if stopped then some .ended else none
  | .waiting, .elapsed => some (top name stopped)
  | _, _ => none

/-- The use case it awaits. -/
def awaits : LoopPc → List TickPart
  | .ticking (p :: _) => [p]
  | _ => []

@[simp] theorem awaits_ended : awaits .ended = [] := rfl

@[simp] theorem awaits_waiting : awaits .waiting = [] := rfl

@[simp] theorem awaits_ticking (p : TickPart) (rest : List TickPart) :
    awaits (.ticking (p :: rest)) = [p] := rfl

/-- What is left of a loop that has been stopped. -/
def fuel : LoopPc → Nat
  | .created => 1
  | .ticking rest => rest.length + 2
  | .waiting => 1
  | .ended => 0

end LoopPc

end MessageService.Infrastructure
