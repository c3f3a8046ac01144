import MessageService.Lib.TransitionSystem
import Mathlib.Logic.Function.Basic

/-!
# The unit of work over one shared connection

Model of `infrastructure/persistence/unit_of_work.py` (`SqliteUnitOfWork.__aenter__`,
`_release_lock`, `__aexit__`, `commit`, `rollback`), any number of units of work from one
`SqliteUnitOfWorkFactory`, interleaved at their awaits.

* A unit of work runs from one await to the next without interruption, so a step is what one does
  between two awaits. `Pc` is the await it is suspended at.
* A statement takes effect when it is handed to the connection: `aiosqlite` runs statements on one
  thread in issue order, also when the coroutine that awaits one is cancelled. The result of the
  statement is then part of the `Pc`, and the resumption, a later step, either delivers it or
  raises `CancelledError` instead (`Resumption`).
* `BEGIN` inside a transaction is refused by SQLite. A `COMMIT` or `ROLLBACK` that fails may leave
  the transaction open or not. Outside a transaction `conn.commit()` and `conn.rollback()` do
  nothing.
* `asyncio.Lock.acquire` takes the lock only when it returns: a waiter that is cancelled has not
  taken it. Which waiter goes first is left open.
* A repository statement may open or close the transaction in any way (an implicit `BEGIN`, SQLite
  rolling back by itself on a full disk). It is issued only before `commit()` or `rollback()` has
  succeeded: both docstrings forbid the repositories afterwards, and every caller complies.

`Shared.rollbackFailed`, `Uow.acquires` and `Uow.releases` are ghost: no step reads them.
-/

namespace MessageService.Infrastructure

open MessageService.Lib

/-! ## The connection and the lock -/

/-- How a statement ends. A failed one may leave the transaction open. -/
inductive StmtResult where
  | ok
  | error (stillOpen : Bool)
  deriving DecidableEq, Repr

/-- What an await delivers: the awaited call's own result, or `CancelledError`. -/
inductive Resumption where
  | result
  | cancelled
  deriving DecidableEq, Repr

/-- The factory's `asyncio.Lock` and the shared connection. -/
structure Shared where
  /-- `Lock.locked()`. -/
  locked : Bool := false
  /-- `Connection.in_transaction`. -/
  inTransaction : Bool := false
  /-- A rollback of `__aexit__` has failed and left its transaction open. -/
  rollbackFailed : Bool := false
  deriving DecidableEq, Repr

namespace Shared

/-- `BEGIN`, refused inside a transaction. -/
def execBegin (sh : Shared) : StmtResult → Option Shared
  | .ok => if sh.inTransaction then none else some { sh with inTransaction := true }
  | .error _ => some sh

/-- `COMMIT` or `ROLLBACK`. -/
def endTransaction (sh : Shared) : StmtResult → Shared
  | .ok => { sh with inTransaction := false }
  | .error stillOpen => { sh with inTransaction := sh.inTransaction && stillOpen }

/-- A `ROLLBACK` of `__aexit__`, whose failure is logged and otherwise ignored. -/
def exitRollback (sh : Shared) (r : StmtResult) : Shared :=
  let sh' := sh.endTransaction r
  { sh' with rollbackFailed := sh.rollbackFailed || sh'.inTransaction }

/-- No transaction is open, a failed rollback apart. -/
def NoTransaction (sh : Shared) : Prop :=
  sh.rollbackFailed = false → sh.inTransaction = false

end Shared

/-! ## One unit of work -/

/-- Where a unit of work is suspended; a statement it awaits has its result already. -/
inductive Pc where
  /-- Made by the factory, `__aenter__` not called. -/
  | created
  /-- At `await self._lock.acquire()`. -/
  | acquiring
  /-- At `await self._conn.execute("BEGIN")`. -/
  | beginning (r : StmtResult)
  /-- In the `async with` block. -/
  | body
  /-- At the `await self._conn.commit()` of `commit`. -/
  | committing (r : StmtResult)
  /-- At the `await self._conn.rollback()` of `rollback`. -/
  | rollingBack (r : StmtResult)
  /-- In `__aexit__`, at the rollback of a block that raised. -/
  | exitRollback (r : StmtResult)
  /-- In `__aexit__`, at the commit of a block that ended normally. -/
  | exitCommit (r : StmtResult)
  /-- In `__aexit__`, at the rollback after a failed commit. -/
  | exitCommitRollback (r : StmtResult)
  /-- `__aenter__` has raised; `__aexit__` will not run. -/
  | notEntered
  /-- `__aexit__` has finished. -/
  | exited
  deriving DecidableEq, Repr

/-- `SqliteUnitOfWork`: its flags, and how often it took and released the lock. -/
structure Uow where
  pc : Pc := .created
  /-- `_entered`. -/
  entered : Bool := false
  /-- `_finalized`. -/
  finalized : Bool := false
  /-- `_lock_held`. -/
  lockHeld : Bool := false
  acquires : Nat := 0
  releases : Nat := 0
  deriving DecidableEq, Repr

/-- What happens to a unit of work between two awaits. -/
inductive Event where
  /-- `__aenter__` is called. -/
  | enter
  /-- `acquire()` returns and `BEGIN` is handed to the connection, with this result. -/
  | acquired (r : StmtResult)
  /-- `CancelledError` at `acquire()`. -/
  | acquireCancelled
  /-- A repository statement in the block. -/
  | statement (opensTransaction : Bool)
  /-- The block calls `commit()`. -/
  | commit (r : StmtResult)
  /-- The block calls `rollback()`. -/
  | rollback (r : StmtResult)
  /-- The block ends, by an exception or not, and `__aexit__` runs to its first await. -/
  | leave (raised : Bool) (r : StmtResult)
  /-- The awaited statement resumes; `r` is the result of the rollback `__aexit__` issues next
  when the statement was its commit and has failed. -/
  | resume (d : Resumption) (r : StmtResult)
  deriving DecidableEq, Repr

namespace Uow

/-- `_release_lock`: releases once, whatever path runs it again. -/
def releaseLock (sh : Shared) (u : Uow) : Shared × Uow :=
  if u.lockHeld then
    ({ sh with locked := false }, { u with lockHeld := false, releases := u.releases + 1 })
  else (sh, u)

/-- Release the lock and go on at `pc`. -/
def releaseTo (pc : Pc) (sh : Shared) (u : Uow) : Shared × Uow :=
  let (sh', u') := releaseLock sh u
  (sh', { u' with pc := pc })

/-- `commit()` or `rollback()` has succeeded: finalized, the lock released, back in the block. -/
def finalize (sh : Shared) (u : Uow) : Shared × Uow :=
  releaseTo .body sh { u with finalized := true }

/-- What the resumption of an awaited statement does. -/
def resume (sh : Shared) (u : Uow) (r : StmtResult) :
    Pc → Resumption → Option (Shared × Uow)
  | .beginning .ok, .result => some (sh, { u with pc := .body })
  | .beginning (.error _), .result => some (releaseTo .notEntered sh u)
  -- `except Exception` does not catch a `CancelledError`
  | .beginning _, .cancelled => some (sh, { u with pc := .notEntered })
  | .committing .ok, .result => some (finalize sh u)
  | .committing _, _ => some (sh, { u with pc := .body })
  | .rollingBack .ok, .result => some (finalize sh u)
  | .rollingBack _, _ => some (sh, { u with pc := .body })
  | .exitRollback _, _ => some (releaseTo .exited sh u)
  | .exitCommit (.error _), .result =>
    some (sh.exitRollback r, { u with pc := .exitCommitRollback r })
  | .exitCommit _, _ => some (releaseTo .exited sh u)
  | .exitCommitRollback _, _ => some (releaseTo .exited sh u)
  | _, _ => none

/-- One step of one unit of work, `none` when the event cannot happen there. -/
def step (sh : Shared) (u : Uow) : Event → Option (Shared × Uow)
  | .enter =>
    -- a second `__aenter__` raises `PersistenceError` and touches nothing
    if u.entered then some (sh, u)
    else some (sh, { u with entered := true, pc := .acquiring })
  | .acquired r =>
    if u.pc = .acquiring ∧ sh.locked = false then
      ({ sh with locked := true }.execBegin r).map fun sh' =>
        (sh', { u with lockHeld := true, acquires := u.acquires + 1, pc := .beginning r })
    else none
  | .acquireCancelled =>
    if u.pc = .acquiring then some (sh, { u with pc := .notEntered }) else none
  | .statement opens =>
    if u.pc = .body ∧ u.finalized = false then some ({ sh with inTransaction := opens }, u)
    else none
  | .commit r =>
    if u.pc = .body then
      -- "UnitOfWork already finalized"
      if u.finalized then some (sh, u)
      else some (sh.endTransaction r, { u with pc := .committing r })
    else none
  | .rollback r =>
    if u.pc = .body then
      if u.finalized then some (sh, u)
      else some (sh.endTransaction r, { u with pc := .rollingBack r })
    else none
  | .leave raised r =>
    if u.pc = .body then
      if u.finalized then some (sh, { u with pc := .exited })
      else if raised then some (sh.exitRollback r, { u with pc := .exitRollback r })
      else some (sh.endTransaction r, { u with pc := .exitCommit r })
    else none
  | .resume d r => resume sh u r u.pc d

/-- Holds the lock: has taken it and not given it back. -/
def Holds (u : Uow) : Prop := u.releases < u.acquires

/-- `__aenter__` has raised or `__aexit__` has finished. -/
def Finished (u : Uow) : Prop := u.pc = .notEntered ∨ u.pc = .exited

/-- Between the call of `__aenter__` and its failure or the end of `__aexit__`. -/
def Live (u : Uow) : Prop := u.pc ≠ .created ∧ ¬u.Finished

instance (u : Uow) : Decidable u.Holds := inferInstanceAs (Decidable (_ < _))

instance (u : Uow) : Decidable u.Finished := inferInstanceAs (Decidable (_ ∨ _))

instance (u : Uow) : Decidable u.Live := inferInstanceAs (Decidable (_ ∧ _))

end Uow

/-! ## All units of work of a factory -/

/-- The shared connection and lock with every unit of work the factory produces. -/
structure State where
  shared : Shared := {}
  uow : Nat → Uow := fun _ => {}

namespace State

/-- Unit of work `e.1` takes the step `e.2`. -/
def step (s : State) (e : Nat × Event) : Option State :=
  ((s.uow e.1).step s.shared e.2).map fun (sh, u) =>
    { shared := sh, uow := Function.update s.uow e.1 u }

/-- Every interleaving of the units of work of one factory. -/
def system : System State (Nat × Event) := .ofFun (· = {}) step

/-- Unit of work `i` enters with nothing going wrong on its way into the block. -/
def enterSteps (i : Nat) : List (Nat × Event) :=
  [(i, .enter), (i, .acquired .ok), (i, .resume .result .ok)]

/-- Unit of work `i` can take the lock and begin its transaction. -/
def CanBegin (s : State) (i : Nat) : Prop :=
  ∃ t, System.run step s (enterSteps i) = some t ∧ (t.uow i).pc = .body ∧
    (t.uow i).Holds ∧ t.shared.inTransaction = true

end State

end MessageService.Infrastructure
