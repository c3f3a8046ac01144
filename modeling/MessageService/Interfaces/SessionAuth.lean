import MessageService.Infrastructure.LockDiscipline
import MessageService.Infrastructure.SessionRepository

/-!
# The session middleware and the unit-of-work lock

Model of `SessionAuthMiddleware.dispatch` (`interfaces/rest/app.py`), up to the moment it starts
`call_next` or raises. `dispatch` takes everything the request and the database hold and how each
await ends, and returns what its unit of work went through (`Dispatch.events`), the sessions it
committed, and whether `call_next` starts.

`call_next` is started in three places. Without a cookie there is no unit of work; on an expired
and on a valid session the unit of work has committed, which gives the lock back. On a cookie
whose hash is in no row the middleware returns from inside the `async with` block without a
commit: the handler runs with the lock held, and the unit of work it opens itself waits for a lock
that is given back only after the handler has returned.

* `callNext_unlocked_iff`: the handler starts without the lock exactly when this is not the case.
* `unknown_cookie_blocks`: on an unknown cookie no other unit of work gets in, whatever happens,
  until the request itself goes on.

`_hash_token` (SHA-256 in hexadecimal) is a parameter: nothing depends on which hash it is.
-/

namespace MessageService.Interfaces

open MessageService.Domain MessageService.Lib MessageService.Infrastructure

/-! ## The middleware -/

/-- How the await of a repository statement ends. -/
inductive Await where
  | returned
  | raised
  | cancelled
  deriving DecidableEq, Repr

/-- How each await of one request ends, where it is reached. -/
structure Awaits where
  /-- `await self._lock.acquire()`. -/
  acquire : Resumption := .result
  /-- `await self._conn.execute("BEGIN")`. -/
  begins : StmtResult × Resumption := (.ok, .result)
  /-- `get_by_token_hash`, the decoding of its row included. -/
  select : Await := .returned
  /-- `delete_by_token_hash`. -/
  delete : Await := .returned
  /-- `touch`. -/
  touch : Await := .returned
  /-- `await self._conn.commit()`. -/
  commit : StmtResult × Resumption := (.ok, .result)
  deriving DecidableEq, Repr

/-- `request.state`. -/
structure RequestState where
  userId : Option Int := none
  sessionToken : Option String := none
  deriving DecidableEq, Repr

/-- How far the request gets. -/
inductive Next where
  /-- `call_next` starts. -/
  | callNext (state : RequestState)
  /-- An exception leaves the middleware. -/
  | raised
  deriving DecidableEq, Repr

/-- One request through the middleware. -/
structure Dispatch where
  /-- What its unit of work has gone through, up to then. -/
  events : List Event
  /-- The committed sessions. -/
  sessions : Sessions
  next : Next

/-- What the unit of work goes through in `await uow.commit()`. -/
def commitEvents (w : Awaits) : List Event := [.commit w.commit.1, .resume w.commit.2 .ok]

/-- The `COMMIT` has succeeded, whether or not its awaiter was cancelled. -/
def Awaits.committed (w : Awaits) : Bool := w.commit.1 = .ok

/-- `await uow.commit()` has returned. -/
def Awaits.commitReturned (w : Awaits) : Bool := w.commit = (.ok, .result)

/-- The `async with` block, entered. -/
def dispatchInBlock (idleTimeout : Duration) (plaintextToken tokenHash : String) (now : Instant)
    (sessions : Sessions) (w : Awaits) (entered : List Event) : Dispatch :=
  let selected := entered ++ [.statement true]
  if w.select ≠ .returned then ⟨selected, sessions, .raised⟩
  else
    match sessions.getByTokenHash tokenHash with
    | none => ⟨selected, sessions, .callNext {}⟩
    | some session =>
      let written := selected ++ [.statement true]
      if idleTimeout ≤ now - session.lastActivityAt then
        if w.delete ≠ .returned then ⟨written, sessions, .raised⟩
        else
          ⟨written ++ commitEvents w,
            if w.committed then sessions.deleteByTokenHash tokenHash else sessions,
            if w.commitReturned then .callNext {} else .raised⟩
      else
        match w.touch, sessions.touch tokenHash now with
        | .returned, some touched =>
          let sessions' := if w.committed then touched else sessions
          if w.commitReturned then
            ⟨written ++ commitEvents w ++ [.leave false .ok], sessions',
              .callNext { userId := session.userId, sessionToken := plaintextToken }⟩
          else ⟨written ++ commitEvents w, sessions', .raised⟩
        | _, _ => ⟨written, sessions, .raised⟩

/-- `SessionAuthMiddleware.dispatch`, up to the start of `call_next`. -/
def dispatch (hashToken : String → String) (idleTimeout : Duration) (cookie : Option String)
    (now : Instant) (sessions : Sessions) (w : Awaits) : Dispatch :=
  match cookie with
  | none => ⟨[], sessions, .callNext {}⟩
  | some plaintextToken =>
    match w.acquire with
    | .cancelled => ⟨[.enter, .acquireCancelled], sessions, .raised⟩
    | .result =>
      let entered := [.enter, .acquired w.begins.1, .resume w.begins.2 .ok]
      if w.begins = (.ok, .result) then
        dispatchInBlock idleTimeout plaintextToken (hashToken plaintextToken) now sessions w entered
      else ⟨entered, sessions, .raised⟩

/-- Unit of work `m` has a transaction open. -/
def OpenTransaction (s : State) (m : Nat) : Prop :=
  (s.uow m).pc.Inside ∧ (s.uow m).finalized = false ∧ s.shared.inTransaction = true

/-- When `call_next` starts the request holds neither the lock nor a transaction: in every run of
the service in which its unit of work has gone through `d.events`. -/
def HandlerUnlocked (d : Dispatch) : Prop :=
  ∀ state, d.next = .callNext state → ∀ m ls s, System.run State.step {} ls = some s →
    State.eventsOf m ls = d.events → ¬(s.uow m).Holds ∧ ¬OpenTransaction s m

/-- The cookie is looked up, without a failure, and its hash is in no row. -/
def UnknownCookie (hashToken : String → String) (cookie : Option String) (sessions : Sessions)
    (w : Awaits) : Prop :=
  ∃ token, cookie = some token ∧ w.acquire = .result ∧ w.begins = (.ok, .result) ∧
    w.select = .returned ∧ sessions.getByTokenHash (hashToken token) = none

/-! ## Where the unit of work is when the handler starts -/

/-- Into the block and through the lookup. -/
def lookupEvents : List Event := [.enter, .acquired .ok, .resume .result .ok, .statement true]

/-- Through a statement and a commit. -/
def commitEventsOk : List Event := [.statement true, .commit .ok, .resume .result .ok]

theorem run_expired : System.run Uow.after {} (lookupEvents ++ commitEventsOk) =
    some (Uow.releasedAt .body true) := rfl

theorem run_valid : System.run Uow.after {} (lookupEvents ++ commitEventsOk ++ [.leave false .ok]) =
    some (Uow.releasedAt .exited true) := rfl

theorem commitEvents_of_returned {w : Awaits} (h : w.commitReturned = true) :
    commitEvents w = [.commit .ok, .resume .result .ok] := by
  have : w.commit = (.ok, .result) := by simpa [Awaits.commitReturned] using h
  simp [commitEvents, this]

/-- What the unit of work has gone through when the block starts `call_next`, or the middleware
does after it. -/
theorem events_of_block {idleTimeout : Duration} {token tokenHash : String} {now : Instant}
    {sessions : Sessions} {w : Awaits} {entered : List Event} {state : RequestState} {d : Dispatch}
    (hd : d = dispatchInBlock idleTimeout token tokenHash now sessions w entered)
    (h : d.next = .callNext state) :
    w.select = .returned ∧
      (sessions.getByTokenHash tokenHash = none ∧ d.events = entered ++ [.statement true] ∨
        sessions.getByTokenHash tokenHash ≠ none ∧
          (d.events = entered ++ [.statement true] ++ commitEventsOk ∨
            d.events = entered ++ [.statement true] ++ commitEventsOk ++ [.leave false .ok])) := by
  subst hd
  unfold dispatchInBlock at h ⊢
  by_cases hsel : w.select = .returned
  · refine ⟨hsel, ?_⟩
    simp only [hsel, ne_eq, not_true_eq_false, if_false] at h ⊢
    cases hget : sessions.getByTokenHash tokenHash with
    | none => exact .inl ⟨rfl, rfl⟩
    | some session =>
      refine .inr ⟨by simp, ?_⟩
      simp only [hget] at h ⊢
      by_cases hret : w.commitReturned = true
      · simp only [hret, commitEvents_of_returned hret, if_true] at h ⊢
        by_cases hexp : idleTimeout ≤ now - session.lastActivityAt
        · -- expired: the handler starts inside the block, which has committed
          by_cases hdel : w.delete = .returned
          · left
            simp [hexp, hdel, commitEventsOk]
          · simp [hexp, hdel] at h
        · -- valid: the block has committed and is left
          simp only [hexp, if_false] at h ⊢
          right
          cases ht : w.touch <;> cases hts : sessions.touch tokenHash now <;>
            simp [ht, hts, commitEventsOk] at h ⊢
      · simp only [hret] at h
        split at h
        · split at h <;> cases h
        · split at h <;> cases h
  · simp [hsel] at h

/-- What the unit of work has gone through when `call_next` starts. -/
theorem events_of_callNext {hashToken : String → String} {idleTimeout : Duration}
    {cookie : Option String} {now : Instant} {sessions : Sessions} {w : Awaits}
    {state : RequestState} {d : Dispatch}
    (hd : d = dispatch hashToken idleTimeout cookie now sessions w)
    (h : d.next = .callNext state) :
    (UnknownCookie hashToken cookie sessions w ∧ d.events = lookupEvents) ∨
      (¬UnknownCookie hashToken cookie sessions w ∧ (d.events = [] ∨
        d.events = lookupEvents ++ commitEventsOk ∨
        d.events = lookupEvents ++ commitEventsOk ++ [.leave false .ok])) := by
  subst hd
  cases cookie with
  | none => exact .inr ⟨(by rintro ⟨t, ht, _⟩; cases ht), .inl rfl⟩
  | some token =>
    simp only [dispatch] at h ⊢
    cases ha : w.acquire with
    | cancelled => simp [ha] at h
    | result =>
      by_cases hb : w.begins = (.ok, .result)
      · simp only [ha, hb, if_true] at h ⊢
        rcases events_of_block rfl h with ⟨hsel, ⟨hget, he⟩ | ⟨hget, he⟩⟩
        · exact .inl ⟨⟨token, rfl, ha, hb, hsel, hget⟩, he⟩
        · refine .inr ⟨?_, .inr he⟩
          rintro ⟨t, ht, -, -, -, hn⟩
          cases ht
          exact hget hn
      · simp [ha, hb] at h

/-- An unknown cookie is answered from inside the block. -/
theorem dispatch_of_unknown {hashToken : String → String} (idleTimeout : Duration)
    {cookie : Option String} (now : Instant) {sessions : Sessions} {w : Awaits}
    (h : UnknownCookie hashToken cookie sessions w) :
    dispatch hashToken idleTimeout cookie now sessions w =
      ⟨lookupEvents, sessions, .callNext {}⟩ := by
  obtain ⟨token, rfl, ha, hb, hsel, hget⟩ := h
  simp [dispatch, dispatchInBlock, ha, hb, hsel, hget, lookupEvents]

/-! ## The handler and the lock -/

theorem unlocked_fresh {s : State} {m : Nat} (h : s.uow m = {}) :
    ¬(s.uow m).Holds ∧ ¬OpenTransaction s m := by
  refine ⟨?_, fun ht => ?_⟩
  · simp [h, Uow.Holds]
  · have := ht.1
    rw [h] at this
    exact this

theorem unlocked_releasedAt {s : State} {m : Nat} {pc : Pc}
    (h : s.uow m = Uow.releasedAt pc true) : ¬(s.uow m).Holds ∧ ¬OpenTransaction s m := by
  refine ⟨?_, fun ht => ?_⟩
  · simp [h, Uow.Holds, Uow.releasedAt]
  · have := ht.2.1
    simp [h, Uow.releasedAt] at this

/-- **When the handler starts without the lock.** The request holds neither the lock nor a
transaction when `call_next` starts if and only if it does not carry a cookie that was looked up
and whose hash is in no row. -/
theorem callNext_unlocked_iff (hashToken : String → String) (idleTimeout : Duration)
    (cookie : Option String) (now : Instant) (sessions : Sessions) (w : Awaits) :
    HandlerUnlocked (dispatch hashToken idleTimeout cookie now sessions w) ↔
      ¬UnknownCookie hashToken cookie sessions w := by
  constructor
  · intro h hu
    have hd := dispatch_of_unknown idleTimeout now hu
    -- the request alone in the service
    have := h {} (by rw [hd]) 0 (lookupEvents.map (0, ·)) _ rfl (by rw [hd]; rfl)
    exact this.1 (by decide)
  · intro hu state hn m ls s hrun he
    have hm := State.uow_of_run hrun m
    rw [he] at hm
    rcases events_of_callNext rfl hn with ⟨h, -⟩ | ⟨-, h | h | h⟩
    · exact absurd h hu
    · rw [h] at hm
      exact unlocked_fresh (Option.some.inj hm).symm
    · rw [h] at hm
      exact unlocked_releasedAt (Option.some.inj (hm.symm.trans run_expired))
    · rw [h] at hm
      exact unlocked_releasedAt (Option.some.inj (hm.symm.trans run_valid))

/-- **An unknown cookie stops the service.** The handler starts with the lock held by its own
request, and no other unit of work gets in as long as that request does not go on. -/
theorem unknown_cookie_blocks :
    let d := dispatch (fun _ => "9f86d081884c7d659a2feaa0c55ad015a3bf4f1b2b0b822cd15d6c15b0f00a08")
      (seconds 3600) (some "forged") 0 Table.empty {}
    d.next = .callNext {} ∧ ¬HandlerUnlocked d ∧
      ∃ s, System.run State.step {} (d.events.map (0, ·)) = some s ∧ (s.uow 0).Holds ∧
        ∀ ls t, (∀ e ∈ ls, e.1 ≠ 0) → System.run State.step s ls = some t →
          ∀ j, j ≠ 0 → ¬(t.uow j).Holds := by
  intro d
  have hd : d = ⟨lookupEvents, Table.empty, .callNext {}⟩ := rfl
  let s : State := { shared := { locked := true, inTransaction := true },
                     uow := Function.update (fun _ => {}) 0 (Uow.holdingAt .body) }
  have hrun : System.run State.step {} (lookupEvents.map (0, ·)) = some s := by
    simp [lookupEvents, System.run, State.step, Uow.step, Uow.resume, Shared.execBegin, s,
      Uow.holdingAt]
  have owned : s.Owned (some 0) := State.owned_alone 0 .body trivial id true
  have holds : (s.uow 0).Holds := by decide
  refine ⟨by rw [hd], fun hu => ?_, s, by rw [hd]; exact hrun, holds, ?_⟩
  · exact (hu {} (by rw [hd]) 0 _ s hrun (by rw [hd]; rfl)).1 holds
  · intro ls t hls ht j hj hh
    exact hj (State.blocked_of_owned owned hls ht j hh)

end MessageService.Interfaces
