import MessageService.Interfaces.ErrorMapping
import MessageService.Lib.Pool
import MessageService.Lib.Python
import MessageService.Lib.TransitionSystem

/-!
# The concurrency limit

Model of `interfaces/grpc/concurrency_limit_interceptor.py` as a transition system: the tasks of the
RPCs on one counter. A task runs from one `await` to the next in one step; its phases are the places
it can be suspended at, or has ended in. At any of them it can be cancelled. `context.abort` is code
of the server, which may return here; that it always raises is the guard `AbortsRaise`.

* `next_enter`, `next_leave`, `next_keep`: what a step of a task can be, by what it does to the
  counter.
* `inv_of_reach`: the counter is the number of handlers that have started and not ended.
* `limiter_counts_exactly`: and it is within the limit, and untouched by the RPCs that are rejected.
-/

namespace MessageService.Interfaces.ConcurrencyLimit

open MessageService.Lib

/-- `ConcurrencyLimitInterceptor`, without its counter. -/
structure ConcurrencyLimitInterceptor where
  limit : Int
  limit_pos : 1 ≤ limit

/-- `ConcurrencyLimitInterceptor.__init__`. -/
def ConcurrencyLimitInterceptor.make (limit : Int) :
    Except PyException ConcurrencyLimitInterceptor :=
  if h : limit < 1 then .error {
    className := "ValueError"
    bases := ["Exception", "BaseException", "object"]
    text := "concurrency limit must be positive, got " ++ toString limit }
  else .ok { limit, limit_pos := by omega }

/-! ## The rejection -/

/-- The message of a rejection. -/
def rejectionMessage (limit inFlight : Int) : String :=
  "concurrency limit reached (" ++ toString inFlight ++ "/" ++ toString limit ++
    " in-flight); retry later"

/-- The status that `_reject` aborts with. -/
def rejectionStatus (limit inFlight : Int) : RpcStatus :=
  statusDetails 8 (rejectionMessage limit inFlight) "RESOURCE_EXHAUSTED_CONCURRENCY"
    [("limit", .int limit), ("in_flight", .int inFlight)]

/-! ## Tasks -/

/-- How a handler ends. -/
inductive Outcome where
  | returned
  | raised
  | cancelled
  deriving DecidableEq, Repr

/-- How the task of an RPC ends. -/
inductive Ending where
  /-- Before `_wrapped` is called. -/
  | notCalled
  | rejected
  | handled (outcome : Outcome)
  deriving DecidableEq, Repr

/-- Where the task of an RPC is. -/
inductive Phase where
  /-- At `await continuation(...)`. -/
  | intercepting
  /-- The handler is returned as it is: it is not unary, or there is none. -/
  | unwrapped
  /-- `_wrapped` has not been called yet. -/
  | wrapped
  /-- At `await context.abort(...)`, with the counter that is reported. -/
  | rejecting (inFlight : Int)
  /-- At `await inner(...)`. -/
  | running
  | ended (ending : Ending)
  deriving DecidableEq, Repr

/-- What a task goes on with. -/
inductive Event where
  | resolved (unary : Bool)
  | called
  | aborted (raises : Bool)
  /-- The handler returns, or raises. -/
  | finished (raises : Bool)
  /-- `CancelledError` is raised at the `await`, and nothing catches it. -/
  | cancelled
  deriving DecidableEq, Repr

/-- What a step does to the counter. -/
inductive Effect where
  | keep
  | enter
  | leave
  deriving DecidableEq, Repr

/-- One step of a task. -/
def Phase.next (limit inFlight : Int) : Phase → Event → Option (Phase × Effect)
  | .intercepting, .resolved unary => some (if unary then .wrapped else .unwrapped, .keep)
  | .wrapped, .called =>
    -- no `await` stands between the comparison and the increment
    if limit ≤ inFlight then some (.rejecting inFlight, .keep) else some (.running, .enter)
  | .rejecting _, .aborted raises =>
    if raises then some (.ended .rejected, .keep) else some (.running, .enter)
  | .running, .finished raises =>
    some (.ended (.handled (if raises then .raised else .returned)), .leave)
  | .intercepting, .cancelled => some (.ended .notCalled, .keep)
  | .wrapped, .cancelled => some (.ended .notCalled, .keep)
  | .rejecting _, .cancelled => some (.ended .rejected, .keep)
  | .running, .cancelled => some (.ended (.handled .cancelled), .leave)
  | _, _ => none

/-- The handler has been called. -/
def Phase.isHandled : Phase → Bool
  | .running => true
  | .ended (.handled _) => true
  | _ => false

/-- The RPC is rejected. -/
def Phase.isRejected : Phase → Bool
  | .rejecting _ => true
  | .ended .rejected => true
  | _ => false

/-- The task has ended. -/
def Phase.isEnded : Phase → Bool
  | .ended _ => true
  | _ => false

/-- Only a call under the limit enters, or an abort that returns. -/
theorem next_enter {limit inFlight : Int} {p q : Phase} {e : Event}
    (h : p.next limit inFlight e = some (q, .enter)) :
    q = .running ∧ p.isHandled = false ∧ p.isEnded = false ∧
      (inFlight < limit ∨ e = .aborted false) := by
  cases p <;> cases e <;>
    simp only [Phase.next, Option.some.injEq, Prod.mk.injEq, reduceCtorEq, and_false] at h
  case wrapped.called =>
    split_ifs at h with hlimit
    · cases h
    · cases h
      exact ⟨rfl, rfl, rfl, .inl (not_le.mp hlimit)⟩
  case rejecting.aborted n raises =>
    split_ifs at h with hraises
    · cases h
    · cases h
      rw [Bool.not_eq_true] at hraises
      exact ⟨rfl, rfl, rfl, .inr (by rw [hraises])⟩

/-- Only the end of a handler leaves. -/
theorem next_leave {limit inFlight : Int} {p q : Phase} {e : Event}
    (h : p.next limit inFlight e = some (q, .leave)) :
    p = .running ∧ ∃ outcome, q = .ended (.handled outcome) := by
  cases p <;> cases e <;>
    simp only [Phase.next, Option.some.injEq, Prod.mk.injEq, reduceCtorEq, and_false] at h
  case wrapped.called => split_ifs at h <;> cases h
  case rejecting.aborted => split_ifs at h <;> cases h
  case running.finished => exact ⟨rfl, _, h.1.symm⟩
  case running.cancelled => exact ⟨rfl, _, h.1.symm⟩

/-- No other step has to do with a handler. -/
theorem next_keep {limit inFlight : Int} {p q : Phase} {e : Event}
    (h : p.next limit inFlight e = some (q, .keep)) :
    p.isHandled = false ∧ q.isHandled = false ∧
      ∀ n, q = .rejecting n → limit ≤ inFlight ∧ n = inFlight := by
  cases p <;> cases e <;>
    simp only [Phase.next, Option.some.injEq, Prod.mk.injEq, reduceCtorEq, and_false] at h
  case intercepting.resolved unary =>
    obtain ⟨rfl, -⟩ := h
    cases unary <;> exact ⟨rfl, rfl, fun n hn => by cases hn⟩
  case wrapped.called =>
    split_ifs at h with hlimit
    · cases h
      exact ⟨rfl, rfl, fun n hn => ⟨hlimit, by cases hn; rfl⟩⟩
    · cases h
  case rejecting.aborted =>
    split_ifs at h
    · cases h
      exact ⟨rfl, rfl, fun n hn => by cases hn⟩
    · cases h
  all_goals
    obtain ⟨rfl, -⟩ := h
    exact ⟨rfl, rfl, fun n hn => by cases hn⟩

/-! ## The system -/

/-- The counter, the tasks of the RPCs by their number, and the handlers that have been called. -/
structure State where
  inFlight : Int := 0
  rpcs : List Phase := []
  called : List Nat := []
  deriving DecidableEq, Repr

/-- A step. -/
inductive Label where
  /-- An RPC arrives, with the next number. -/
  | arrive
  /-- A task goes on. -/
  | task (i : Nat) (e : Event)
  deriving DecidableEq, Repr

/-- What the effect of a step is on the counter and the calls. -/
def State.apply (s : State) (i : Nat) (q : Phase) : Effect → State
  | .keep => { s with rpcs := s.rpcs.set i q }
  | .enter => { inFlight := s.inFlight + 1, rpcs := s.rpcs.set i q, called := s.called ++ [i] }
  | .leave => { s with inFlight := s.inFlight - 1, rpcs := s.rpcs.set i q }

/-- One step of the server. -/
def step (m : ConcurrencyLimitInterceptor) (s : State) : Label → Option State
  | .arrive => some { s with rpcs := s.rpcs ++ [.intercepting] }
  | .task i e => do
    let p ← s.rpcs[i]?
    let (q, effect) ← p.next m.limit s.inFlight e
    pure (s.apply i q effect)

/-- `context.abort` raises. -/
def AbortsRaise (_ : State) (l : Label) : Prop := ∀ i, l ≠ .task i (.aborted false)

/-- The interceptor in a server whose `context.abort` always raises. -/
def limiter (m : ConcurrencyLimitInterceptor) : System State Label :=
  (System.ofFun (fun s => s = {}) (step m)).restrict AbortsRaise

/-- The task has ended. -/
def State.hasEnded (s : State) (i : Nat) : Bool := s.rpcs[i]?.any Phase.isEnded

/-- The handlers that have started and not ended. -/
def State.live (s : State) : List Nat := s.called.filter fun i => !s.hasEnded i

/-- What holds of every reachable state. -/
structure Inv (m : ConcurrencyLimitInterceptor) (s : State) : Prop where
  counted : s.inFlight = s.live.length
  bounded : s.inFlight ≤ m.limit
  called : ∀ i, i ∈ s.called ↔ s.rpcs[i]?.any Phase.isHandled = true
  nodup : s.called.Nodup
  reported : ∀ (i : Nat) (n : Int), s.rpcs[i]? = some (Phase.rejecting n) → n = m.limit

theorem step_task {m : ConcurrencyLimitInterceptor} {s t : State} {i : Nat} {e : Event}
    (h : step m s (.task i e) = some t) :
    ∃ p q effect, s.rpcs[i]? = some p ∧ p.next m.limit s.inFlight e = some (q, effect) ∧
      t = s.apply i q effect := by
  simp only [step, Option.bind_eq_bind, Option.bind_eq_some_iff] at h
  obtain ⟨p, hp, ⟨q, effect⟩, hq, ht⟩ := h
  cases ht
  exact ⟨p, q, effect, hp, hq, rfl⟩

/-! ## The invariant -/

/-- The calls that are live, when a task moves that is not called or does not end. -/
theorem filter_hasEnded_set {rpcs : List Phase} {i : Nat} {p q : Phase} {called : List Nat}
    (h : rpcs[i]? = some p) (hi : i ∉ called ∨ p.isEnded = q.isEnded) :
    called.filter (fun j => !(rpcs.set i q)[j]?.any Phase.isEnded) =
      called.filter (fun j => !rpcs[j]?.any Phase.isEnded) := by
  refine List.filter_congr fun j hj => ?_
  by_cases hij : i = j
  · subst hij
    have hsame := hi.resolve_left (not_not.mpr hj)
    rw [getElem?_set_of_some h, h]
    simp only [Option.any_some, hsame]
  · rw [List.getElem?_set_ne hij]

/-- A new task is not called, and has not ended. -/
theorem any_getElem?_arrive {rpcs : List Phase} {test : Phase → Bool}
    (h : test .intercepting = false) (i : Nat) :
    (rpcs ++ [.intercepting])[i]?.any test = rpcs[i]?.any test := by
  rcases lt_trichotomy i rpcs.length with hi | rfl | hi
  · rw [List.getElem?_append_left hi]
  · rw [List.getElem?_concat_length, List.getElem?_eq_none (Nat.le_refl _)]
    simp [h]
  · rw [List.getElem?_eq_none (by simp; omega), List.getElem?_eq_none (by omega)]

namespace Inv

variable {m : ConcurrencyLimitInterceptor} {s : State} {i : Nat} {p q : Phase} {e : Event}

theorem init : Inv m {} where
  counted := rfl
  bounded := le_trans (by decide) m.limit_pos
  called i := by simp
  nodup := List.nodup_nil
  reported i n h := by simp at h

theorem arrive (h : Inv m s) : Inv m { s with rpcs := s.rpcs ++ [.intercepting] } where
  counted := by
    rw [h.counted]
    simp only [State.live, State.hasEnded, any_getElem?_arrive (show Phase.isEnded _ = _ by rfl)]
  bounded := h.bounded
  called j := by rw [any_getElem?_arrive (show Phase.isHandled _ = _ by rfl), h.called]
  nodup := h.nodup
  reported j n hj := by
    rcases lt_or_ge j s.rpcs.length with hlt | hge
    · rw [List.getElem?_append_left hlt] at hj
      exact h.reported j n hj
    · rw [List.getElem?_append_right hge] at hj
      have := List.mem_of_getElem? hj
      simp at this

theorem called_set (h : Inv m s) (hp : s.rpcs[i]? = some p)
    (hpq : p.isHandled = q.isHandled) (j : Nat) :
    j ∈ s.called ↔ (s.rpcs.set i q)[j]?.any Phase.isHandled = true := by
  by_cases hij : i = j
  · subst hij
    rw [h.called, hp, getElem?_set_of_some hp, Option.any_some, Option.any_some, hpq]
  · rw [List.getElem?_set_ne hij, h.called]

theorem reported_set (h : Inv m s) (hp : s.rpcs[i]? = some p)
    (hq : ∀ n, q = .rejecting n → n = m.limit) (j : Nat) (n : Int)
    (hj : (s.rpcs.set i q)[j]? = some (.rejecting n)) : n = m.limit := by
  by_cases hij : i = j
  · subst hij
    rw [getElem?_set_of_some hp] at hj
    exact hq n (Option.some.inj hj)
  · rw [List.getElem?_set_ne hij] at hj
    exact h.reported j n hj

theorem not_called (h : Inv m s) (hp : s.rpcs[i]? = some p) (hhandled : p.isHandled = false) :
    i ∉ s.called := by
  rw [h.called, hp, Option.any_some, hhandled]
  exact Bool.false_ne_true

theorem keep (h : Inv m s) (hp : s.rpcs[i]? = some p)
    (hnext : p.next m.limit s.inFlight e = some (q, .keep)) : Inv m (s.apply i q .keep) := by
  obtain ⟨hpHandled, hqHandled, hreports⟩ := next_keep hnext
  have hnot := h.not_called hp hpHandled
  refine ⟨?_, h.bounded, h.called_set hp (by rw [hpHandled, hqHandled]), h.nodup,
    h.reported_set hp fun n hn => ?_⟩
  · simp only [State.apply, State.live, State.hasEnded]
    rw [filter_hasEnded_set hp (.inl hnot)]
    exact h.counted
  · obtain ⟨hfull, rfl⟩ := hreports n hn
    exact le_antisymm h.bounded hfull

theorem enter (h : Inv m s) (hp : s.rpcs[i]? = some p)
    (hnext : p.next m.limit s.inFlight e = some (q, .enter)) (he : e ≠ .aborted false) :
    Inv m (s.apply i q .enter) := by
  obtain ⟨rfl, hpHandled, hpEnded, hroom⟩ := next_enter hnext
  have hlt := hroom.resolve_right he
  have hnot := h.not_called hp hpHandled
  refine ⟨?_, ?_, fun j => ?_, ?_, h.reported_set hp fun n hn => by cases hn⟩
  · have hself : ((s.rpcs.set i .running)[i]?.any Phase.isEnded) = false := by
      rw [getElem?_set_of_some hp]
      rfl
    simp only [State.apply, State.live, State.hasEnded]
    rw [List.filter_append, filter_hasEnded_set hp (.inl hnot), List.length_append,
      List.filter_cons_of_pos (by rw [hself]; rfl), List.filter_nil, h.counted]
    rfl
  · simp only [State.apply]
    omega
  · simp only [State.apply, List.mem_append, List.mem_singleton]
    by_cases hij : i = j
    · subst hij
      rw [getElem?_set_of_some hp]
      simp [Phase.isHandled]
    · rw [List.getElem?_set_ne hij, h.called]
      simp [Ne.symm hij]
  · exact List.nodup_append.mpr ⟨h.nodup, List.nodup_singleton i, by
      rintro a ha b hb rfl
      exact hnot (List.mem_singleton.mp hb ▸ ha)⟩

theorem leave (h : Inv m s) (hp : s.rpcs[i]? = some p)
    (hnext : p.next m.limit s.inFlight e = some (q, .leave)) : Inv m (s.apply i q .leave) := by
  obtain ⟨rfl, outcome, rfl⟩ := next_leave hnext
  refine ⟨?_, ?_, h.called_set hp rfl, h.nodup, h.reported_set hp fun n hn => by cases hn⟩
  · have hcalled : i ∈ s.called := by
      rw [h.called, hp]
      rfl
    have hlive : i ∈ s.live := by
      simp [State.live, State.hasEnded, hcalled, hp, Phase.isEnded]
    -- the handler that ends is the one that is taken out
    have herase : (s.apply i (.ended (.handled outcome)) .leave).live = s.live.erase i := by
      unfold State.live
      rw [(h.nodup.filter _).erase_eq_filter, List.filter_filter]
      refine List.filter_congr fun j _ => ?_
      simp only [State.hasEnded, State.apply]
      by_cases hij : i = j
      · subst hij
        rw [getElem?_set_of_some hp]
        simp [Phase.isEnded]
      · rw [List.getElem?_set_ne hij]
        simp [Ne.symm hij]
    have hpos : 0 < s.live.length := List.length_pos_of_mem hlive
    have hcounted := h.counted
    rw [herase, List.length_erase_of_mem hlive]
    simp only [State.apply]
    omega
  · have := h.bounded
    simp only [State.apply]
    omega

/-- **The step lemma.** -/
theorem step {t : State} {l : Label} (h : Inv m s) (hl : AbortsRaise s l)
    (hstep : ConcurrencyLimit.step m s l = some t) : Inv m t := by
  cases l with
  | arrive =>
    cases hstep
    exact h.arrive
  | task i e =>
    obtain ⟨p, q, effect, hp, hnext, rfl⟩ := step_task hstep
    cases effect with
    | keep => exact h.keep hp hnext
    | enter => exact h.enter hp hnext fun he => hl i (by rw [he])
    | leave => exact h.leave hp hnext

end Inv

/-- **The run lemma.** -/
theorem inv_of_reach {m : ConcurrencyLimitInterceptor} {s : State} (h : (limiter m).Reach s) :
    Inv m s :=
  System.inv_of_reach ⟨fun _ hs => hs ▸ Inv.init, fun _ _ _ hs hstep => hs.step hstep.2 hstep.1⟩ h

/-- Every rejection reports a counter that is at the limit. -/
theorem rejectionStatus_of_reach {m : ConcurrencyLimitInterceptor} {s : State} {i : Nat} {n : Int}
    (h : (limiter m).Reach s) (hi : s.rpcs[i]? = some (.rejecting n)) :
    rejectionStatus m.limit n = rejectionStatus m.limit m.limit := by
  rw [(inv_of_reach h).reported i n hi]

/-! ## The limit -/

/-- A rejected RPC is not handled. -/
theorem not_isHandled_of_isRejected {p : Phase} (h : p.isRejected = true) :
    p.isHandled = false := by
  unfold Phase.isRejected at h
  split at h
  · rfl
  · rfl
  · cases h

/-- A step that rejects an RPC, or ends its rejection, keeps the counter. -/
theorem keeps_of_rejected {m : ConcurrencyLimitInterceptor} {s t : State} {i : Nat} {e : Event}
    (h : step m s (.task i e) = some t) (hrejected : t.rpcs[i]?.any Phase.isRejected = true) :
    t.inFlight = s.inFlight ∧ t.called = s.called := by
  obtain ⟨p, q, effect, hp, hnext, rfl⟩ := step_task h
  cases effect with
  | keep => exact ⟨rfl, rfl⟩
  | enter =>
    obtain ⟨rfl, -⟩ := next_enter hnext
    simp only [State.apply, getElem?_set_of_some hp] at hrejected
    cases hrejected
  | leave =>
    obtain ⟨-, outcome, rfl⟩ := next_leave hnext
    simp only [State.apply, getElem?_set_of_some hp] at hrejected
    cases hrejected

/-- **The limiter counts exactly.** In every reachable state the counter is the number of handlers
that have been called, each once, and not ended, and it is within the limit; the handler of a
rejected RPC has not been called; and when all RPCs have ended the counter is zero. No step of a
rejection touches the counter or calls a handler. -/
theorem limiter_counts_exactly (m : ConcurrencyLimitInterceptor) :
    (∀ s, (limiter m).Reach s →
      s.called.Nodup ∧
      s.inFlight = (s.called.filter fun i => !s.hasEnded i).length ∧
      s.inFlight ≤ m.limit ∧
      (∀ i, s.rpcs[i]?.any Phase.isRejected = true → i ∉ s.called) ∧
      ((∀ p ∈ s.rpcs, p.isEnded = true ∨ p = .unwrapped) → s.inFlight = 0)) ∧
    (limiter m).Always fun s l t => ∀ i e, l = .task i e →
      t.rpcs[i]?.any Phase.isRejected = true → t.inFlight = s.inFlight ∧ t.called = s.called := by
  refine ⟨fun s hs => ?_, fun s l t hs hstep i e hl hrejected => ?_⟩
  · have h := inv_of_reach hs
    refine ⟨h.nodup, h.counted, h.bounded, fun i hi hcalled => ?_, fun hall => ?_⟩
    · obtain ⟨p, hp, hrejected⟩ := (Option.any_eq_true _ _).mp hi
      have hhandled := (h.called i).mp hcalled
      rw [hp, Option.any_some, not_isHandled_of_isRejected hrejected] at hhandled
      cases hhandled
    · -- a handler that was called is running or has ended, and none is running
      have hlive : s.live = [] := by
        refine List.filter_eq_nil_iff.mpr fun i hi => ?_
        obtain ⟨p, hp, hhandled⟩ := (Option.any_eq_true _ _).mp ((h.called i).mp hi)
        have hended : p.isEnded = true := by
          rcases hall p (List.mem_of_getElem? hp) with hended | rfl
          · exact hended
          · cases hhandled
        simp [State.hasEnded, hp, hended]
      rw [h.counted, hlive]
      rfl
  · subst hl
    exact keeps_of_rejected hstep.1 hrejected

/-- Of two calls under a limit of one, the second is rejected. -/
example :
    System.run (step ⟨1, le_rfl⟩) {}
        [.arrive, .arrive, .task 0 (.resolved true), .task 1 (.resolved true), .task 0 .called,
          .task 1 .called, .task 1 .cancelled, .task 0 (.finished true)] =
      some {
        inFlight := 0
        rpcs := [.ended (.handled .raised), .ended .rejected]
        called := [0] } := rfl

end MessageService.Interfaces.ConcurrencyLimit
