import MessageService.Lib.Python

/-!
# A connection to a transactional database

What a program sees of a database behind a driver: the committed state, and the state of the open
transaction, if there is one. A statement opens a transaction, commits it, or does its work on the
state it sees; outside a transaction its work is committed at once. DDL is work like any other.

A program is a sequence of calls (`Driver`). Each call takes the next fate from a schedule: it
completes, the engine fails it, it takes effect and the caller is cancelled all the same, or the
process dies before it. A schedule that has run out completes every call.

* `Spec`: what holds when a program returns, and what holds when it raises or dies, whatever the
  schedule; `Spec.bind`, `Spec.call` and `Spec.rescue` are its rules.
* `spec_transaction`: **a script in one transaction is atomic**, wherever it stops.
* `transaction_nil`: with nothing in its way it does all of its work.
-/

namespace MessageService.Lib.Sql

universe u v w

/-- An error of the engine. Some errors end the open transaction by themselves. -/
structure Failure where
  exc : PyException
  rollsBack : Bool := false
  deriving DecidableEq, Repr

/-- What a statement does to the state it sees. -/
abbrev Work (δ : Type u) := δ → Except Failure δ

/-- A statement. -/
inductive Statement (δ : Type u) where
  | begin
  | commit
  | work (f : Work δ)

/-- A connection: the committed state, and that of the open transaction. -/
structure Connection (δ : Type u) where
  committed : δ
  working : Option δ := none

/-- `OperationalError`. -/
def operationalError (text : String) : PyException where
  className := "OperationalError"
  bases := ["DatabaseError", "Error", "Exception", "BaseException", "object"]
  text := text

namespace Connection

variable {δ : Type u} {α : Type v}

/-- A connection without a transaction. -/
def opened (d : δ) : Connection δ := { committed := d }

@[simp] theorem opened_committed (d : δ) : (opened d).committed = d := rfl

/-- The state that a statement sees. -/
def view (c : Connection δ) : δ := c.working.getD c.committed

/-- What an error leaves of the connection. -/
def failed (c : Connection δ) (e : Failure) : Connection δ :=
  if e.rollsBack then { c with working := none } else c

@[simp] theorem failed_committed (c : Connection δ) (e : Failure) :
    (c.failed e).committed = c.committed := by
  unfold failed
  split <;> rfl

/-- One statement. -/
def execute (s : Statement δ) (c : Connection δ) : Except Failure (Unit × Connection δ) :=
  match s, c.working with
  | .begin, none => .ok ((), { c with working := some c.committed })
  | .begin, some _ =>
    .error { exc := operationalError "cannot start a transaction within a transaction" }
  | .commit, some d => .ok ((), { committed := d })
  | .commit, none => .error { exc := operationalError "cannot commit - no transaction is active" }
  | .work f, none => (f c.committed).map fun d => ((), { committed := d })
  | .work f, some d => (f d).map fun d' => ((), { c with working := some d' })

/-- `conn.commit()`. -/
def commit (c : Connection δ) : Except Failure (Unit × Connection δ) :=
  .ok ((), { committed := c.view })

/-- `conn.rollback()`. -/
def rollback (c : Connection δ) : Except Failure (Unit × Connection δ) :=
  .ok ((), { committed := c.committed })

/-- A query. -/
def select (f : δ → Except Failure α) (c : Connection δ) : Except Failure (α × Connection δ) :=
  (f c.view).map fun a => (a, c)

end Connection

/-! ## Programs -/

/-- What becomes of a call. -/
inductive CallFate where
  | completes
  /-- The engine reports an error. -/
  | fails (e : Failure)
  /-- It takes effect, and the caller gets an exception (a cancellation). -/
  | lost (exc : PyException)
  /-- The process dies before it takes effect. -/
  | dies
  deriving DecidableEq, Repr

/-- How a program ends. -/
inductive Ending (ε : Type v) (α : Type w) where
  | returned (a : α)
  | raised (e : ε)
  | died
  deriving DecidableEq, Repr

/-- A program that uses a connection, under a schedule of fates. -/
def Driver (δ : Type u) (ε : Type v) (α : Type w) :=
  Connection δ → List CallFate → Ending ε α × Connection δ × List CallFate

namespace Driver

variable {δ : Type u} {ε ε' : Type v} {α β : Type w}

instance : Monad (Driver δ ε) where
  pure a := fun c fates => (.returned a, c, fates)
  bind x f := fun c fates =>
    match x c fates with
    | (.returned a, c', fates') => f a c' fates'
    | (.raised e, c', fates') => (.raised e, c', fates')
    | (.died, c', fates') => (.died, c', fates')

/-- Raise. -/
def throw (e : ε) : Driver δ ε α := fun c fates => (.raised e, c, fates)

/-- One call. -/
def call (f : Connection δ → Except Failure (α × Connection δ)) : Driver δ PyException α :=
  fun c fates =>
    match fates.headD .completes, f c with
    | .dies, _ => (.died, c, fates.tail)
    | .fails e, _ => (.raised e.exc, c.failed e, fates.tail)
    | _, .error e => (.raised e.exc, c.failed e, fates.tail)
    | .lost exc, .ok (_, c') => (.raised exc, c', fates.tail)
    | .completes, .ok (a, c') => (.returned a, c', fates.tail)

/-- `try: x except: ...`, where the handler sees every exception. -/
def rescue (x : Driver δ ε α) (handler : ε → Driver δ ε' α) : Driver δ ε' α := fun c fates =>
  match x c fates with
  | (.returned a, c', fates') => (.returned a, c', fates')
  | (.raised e, c', fates') => handler e c' fates'
  | (.died, c', fates') => (.died, c', fates')

/-- The statements of a script, one call each. -/
def script : List (Statement δ) → Driver δ PyException Unit
  | [] => pure ()
  | s :: ss => call (Connection.execute s) >>= fun _ => script ss

/-- `conn.executescript(script)`: a transaction that is open is committed first, and no other is
opened. -/
def executescript (ss : List (Statement δ)) : Driver δ PyException Unit :=
  call Connection.commit >>= fun _ => script ss

/-! ## What a program ensures -/

/-- Whatever the schedule, `Q` holds when the program returns, and `P` when it raises or dies. -/
def Spec (x : Driver δ ε α) (c : Connection δ) (Q : α → Connection δ → Prop)
    (P : Connection δ → Prop) : Prop :=
  ∀ fates, match x c fates with
    | (.returned a, c', _) => Q a c'
    | (.raised _, c', _) => P c'
    | (.died, c', _) => P c'

namespace Spec

variable {c : Connection δ} {Q Q' : α → Connection δ → Prop} {R : β → Connection δ → Prop}
  {P P' : Connection δ → Prop}

theorem pure {a : α} (h : Q a c) : Spec (Pure.pure a : Driver δ ε α) c Q P := fun _ => h

theorem throw {e : ε} (h : P c) : Spec (Driver.throw e : Driver δ ε α) c Q P := fun _ => h

theorem mono {x : Driver δ ε α} (h : Spec x c Q P) (hQ : ∀ a c', Q a c' → Q' a c')
    (hP : ∀ c', P c' → P' c') : Spec x c Q' P' := by
  intro fates
  have hx := h fates
  split at hx
  · exact hQ _ _ hx
  · exact hP _ hx
  · exact hP _ hx

/-- What is known of a run once it has ended. -/
theorem cases {x : Driver δ ε α} (h : Spec x c Q P) (fates : List CallFate) :
    (∃ a, (x c fates).1 = .returned a ∧ Q a (x c fates).2.1) ∨
      (∀ a, (x c fates).1 ≠ .returned a) ∧ P (x c fates).2.1 := by
  have hx := h fates
  generalize x c fates = r at hx
  obtain ⟨_ | _ | _, c', fates'⟩ := r
  · exact .inl ⟨_, rfl, hx⟩
  · exact .inr ⟨by simp, hx⟩
  · exact .inr ⟨by simp, hx⟩

/-- **Sequence.** -/
theorem bind {x : Driver δ ε α} {f : α → Driver δ ε β} (hx : Spec x c Q P)
    (hf : ∀ a c', Q a c' → Spec (f a) c' R P) : Spec (x >>= f) c R P := by
  intro fates
  have h := hx fates
  simp only [Bind.bind]
  split at h
  · exact hf _ _ h _
  · exact h
  · exact h

/-- **One call.** It fails or dies where it is, or it takes effect, whether it returns or not. -/
theorem call {f : Connection δ → Except Failure (α × Connection δ)} (hstay : P c)
    (hfail : ∀ e, P (c.failed e)) (hdone : ∀ a c', f c = .ok (a, c') → Q a c' ∧ P c') :
    Spec (Driver.call f) c Q P := by
  intro fates
  unfold Driver.call
  cases hf : f c with
  | error e => cases fates.headD .completes <;> first | exact hstay | exact hfail _
  | ok r =>
    obtain ⟨a, c'⟩ := r
    cases fates.headD .completes with
    | completes => exact (hdone a c' hf).1
    | fails e => exact hfail e
    | lost exc => exact (hdone a c' hf).2
    | dies => exact hstay

/-- **A handler** starts where the program stopped. -/
theorem rescue {x : Driver δ ε α} {handler : ε → Driver δ ε' α} (hx : Spec x c Q P)
    (hh : ∀ e c', P c' → Spec (handler e) c' Q P) : Spec (x.rescue handler) c Q P := by
  intro fates
  have h := hx fates
  unfold Driver.rescue
  split at h
  · exact h
  · exact hh _ _ h _
  · exact h

end Spec

/-! ## A script in one transaction -/

/-- The pieces of work, in turn. -/
def applyAll (works : List (Work δ)) (d : δ) : Except Failure δ :=
  works.foldlM (fun d f => f d) d

theorem applyAll_cons (f : Work δ) (works : List (Work δ)) (d : δ) :
    applyAll (f :: works) d = f d >>= applyAll works := rfl

theorem applyAll_append (fs gs : List (Work δ)) (d : δ) :
    applyAll (fs ++ gs) d = applyAll fs d >>= applyAll gs :=
  List.foldlM_append

/-- What each piece keeps, all of them keep. -/
theorem applyAll_keeps {γ : Type w} {g : δ → γ} {works : List (Work δ)}
    (hg : ∀ f ∈ works, ∀ d d', f d = .ok d' → g d' = g d) {d d' : δ}
    (h : applyAll works d = .ok d') : g d' = g d := by
  induction works generalizing d with
  | nil => cases h; rfl
  | cons f works ih =>
    rw [applyAll_cons] at h
    obtain ⟨w, hf, h⟩ := bind_eq_ok_iff.mp h
    have hw := ih (fun k hk => hg k (List.mem_cons_of_mem f hk)) h
    exact hw.trans (hg f List.mem_cons_self d w hf)

/-- The statements of `BEGIN; ...; COMMIT;`. -/
def transaction (works : List (Work δ)) : List (Statement δ) :=
  .begin :: works.map .work ++ [.commit]

/-- The rest of the script, inside its transaction: nothing is committed before the end. -/
theorem spec_inside (works : List (Work δ)) (d w : δ) :
    Spec (script (works.map .work ++ [.commit])) ⟨d, some w⟩
      (fun _ c => ∃ d', applyAll works w = .ok d' ∧ c = .opened d')
      (fun c => c.committed = d ∨ ∃ d', applyAll works w = .ok d' ∧ c.committed = d') := by
  induction works generalizing w with
  | nil =>
    refine .bind (Q := fun _ c => c = .opened w) (.call (.inl rfl) (fun e => .inl (by simp)) ?_) ?_
    · intro a c' h
      simp only [Connection.execute, Except.ok.injEq, Prod.mk.injEq, true_and] at h
      subst h
      exact ⟨rfl, .inr ⟨w, rfl, rfl⟩⟩
    · intro a c' h
      exact .pure ⟨w, rfl, h⟩
  | cons f works ih =>
    refine .bind (Q := fun _ c => ∃ w', f w = .ok w' ∧ c = ⟨d, some w'⟩)
      (.call (.inl rfl) (fun e => .inl (by simp)) ?_) ?_
    · intro a c' h
      cases hf : f w with
      | error e => simp [Connection.execute, hf, Except.map] at h
      | ok w' =>
        simp only [Connection.execute, hf, Except.map, Except.ok.injEq, Prod.mk.injEq,
          true_and] at h
        subst h
        exact ⟨⟨w', rfl, rfl⟩, .inl rfl⟩
    · rintro a c' ⟨w', hf, rfl⟩
      have h : applyAll (f :: works) w = applyAll works w' := by rw [applyAll_cons, hf]; rfl
      rw [h]
      exact ih w'

/-- **A script in one transaction is atomic.** It returns with all of its work committed; where it
raises or the process dies, either nothing is committed or all of it is. -/
theorem spec_transaction (works : List (Work δ)) (d : δ) :
    Spec (executescript (transaction works)) (.opened d)
      (fun _ c => ∃ d', applyAll works d = .ok d' ∧ c = .opened d')
      (fun c => c.committed = d ∨ ∃ d', applyAll works d = .ok d' ∧ c.committed = d') := by
  refine .bind (Q := fun _ c => c = .opened d) (.call (.inl rfl) (fun e => .inl (by simp)) ?_) ?_
  · rintro a c' ⟨⟩
    exact ⟨rfl, .inl rfl⟩
  · rintro a c' rfl
    refine .bind (Q := fun _ c => c = ⟨d, some d⟩)
      (.call (.inl rfl) (fun e => .inl (by simp)) ?_) ?_
    · rintro a c' ⟨⟩
      exact ⟨rfl, .inl rfl⟩
    · rintro a c' rfl
      exact spec_inside works d d

/-! ## Nothing in the way -/

variable {c c' : Connection δ}

@[simp] theorem call_nil {f : Connection δ → Except Failure (α × Connection δ)} {a : α}
    (h : f c = .ok (a, c')) : call f c [] = (.returned a, c', []) := by
  simp [call, h]

theorem bind_nil {x : Driver δ ε α} {f : α → Driver δ ε β} {a : α}
    (h : x c [] = (.returned a, c', [])) : (x >>= f) c [] = f a c' [] := by
  simp [Bind.bind, h]

theorem inside_nil {works : List (Work δ)} {d w d' : δ} (h : applyAll works w = .ok d') :
    script (works.map .work ++ [.commit]) ⟨d, some w⟩ [] = (.returned (), .opened d', []) := by
  induction works generalizing w with
  | nil =>
    cases h
    rfl
  | cons f works ih =>
    rw [applyAll_cons] at h
    obtain ⟨w', hf, h⟩ := bind_eq_ok_iff.mp h
    have hcall : Connection.execute (.work f) ⟨d, some w⟩ = .ok ((), ⟨d, some w'⟩) := by
      simp [Connection.execute, hf, Except.map]
    exact (bind_nil (call_nil hcall)).trans (ih h)

/-- **Nothing in its way, a script does all of its work.** -/
theorem transaction_nil {works : List (Work δ)} {d d' : δ} (h : applyAll works d = .ok d') :
    executescript (transaction works) (.opened d) [] = (.returned (), .opened d', []) :=
  (bind_nil (call_nil rfl)).trans ((bind_nil (call_nil rfl)).trans (inside_nil h))

end Driver

end MessageService.Lib.Sql
