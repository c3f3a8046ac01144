import Mathlib.Tactic.Common

/-!
# Transactions

A transaction reads and writes a store and either returns a value or raises (`Tx`). Nothing it
wrote survives an exception: that is `Tx.commit`, which runs it as one unit of work, together with
what a database failure or a cancellation can do to the unit of work (`Fate`).

* `ok_bind`, `ok_read`, `ok_write`, `ok_require`, `ok_attempt`: inversion rules, one for each
  primitive. Rewriting with them turns a successful run of a `do` block into the facts each line
  of it established.
* `Keeps`: what a transaction leaves as it is, with a rule for each primitive.
* `commit_spec`: a unit of work leaves the store alone, or does what its transaction does.
* `resume_spec`: the same for a machine whose phase depends on how its unit of work ends (`resume`).
-/

namespace MessageService.Lib

universe u v w

/-- A transaction over the store `σ`, raising `ε`. -/
def Tx (σ : Type u) (ε : Type v) (α : Type w) := σ → Except ε (α × σ)

namespace Tx

variable {σ : Type u} {ε : Type v} {α β : Type w}

instance : Monad (Tx σ ε) where
  pure a := fun s => .ok (a, s)
  bind x f := fun s =>
    match x s with
    | .ok (a, s') => f a s'
    | .error e => .error e

/-- Raise. -/
def throw (e : ε) : Tx σ ε α := fun _ => .error e

/-- Read the store. -/
def read (g : σ → α) : Tx σ ε α := fun s => .ok (g s, s)

/-- Read the store, where the reading may raise. -/
def attempt (g : σ → Except ε α) : Tx σ ε α := fun s =>
  match g s with
  | .ok a => .ok (a, s)
  | .error e => .error e

/-- Change the store. -/
def write (g : σ → σ) : Tx σ ε Unit := fun s => .ok ((), g s)

/-- Raise unless `c` holds. -/
def require (c : Prop) [Decidable c] (e : ε) : Tx σ ε Unit := fun s =>
  if c then .ok ((), s) else .error e

/-- Run `x` if `c` holds. -/
def when (c : Prop) [Decidable c] (x : Tx σ ε Unit) : Tx σ ε Unit := fun s =>
  if c then x s else .ok ((), s)

/-- Run `f` on each element in turn. -/
def forEach {ι : Type w} (f : ι → Tx σ ε Unit) : List ι → Tx σ ε Unit
  | [] => pure ()
  | i :: is => f i >>= fun _ => forEach f is

variable {s s' : σ} {a : α} {b : β}

@[simp] theorem ok_pure {x : α} : (pure x : Tx σ ε α) s = .ok (a, s') ↔ x = a ∧ s = s' := by
  simp [pure]

@[simp] theorem ok_bind {x : Tx σ ε α} {f : α → Tx σ ε β} :
    (x >>= f) s = .ok (b, s') ↔ ∃ a t, x s = .ok (a, t) ∧ f a t = .ok (b, s') := by
  simp only [bind]
  cases x s with
  | error e => simp
  | ok r => obtain ⟨a, t⟩ := r; simp

@[simp] theorem ok_read {g : σ → α} :
    (read g : Tx σ ε α) s = .ok (a, s') ↔ g s = a ∧ s = s' := by
  simp [read]

@[simp] theorem ok_attempt {g : σ → Except ε α} :
    (attempt g : Tx σ ε α) s = .ok (a, s') ↔ g s = .ok a ∧ s = s' := by
  unfold attempt
  cases g s <;> simp

@[simp] theorem ok_write {g : σ → σ} {r : Unit} :
    (write g : Tx σ ε Unit) s = .ok (r, s') ↔ g s = s' := by
  simp [write]

@[simp] theorem ok_require {c : Prop} [Decidable c] {e : ε} {r : Unit} :
    (require c e : Tx σ ε Unit) s = .ok (r, s') ↔ c ∧ s = s' := by
  unfold require
  by_cases h : c <;> simp [h]

@[simp] theorem ok_when {c : Prop} [Decidable c] {x : Tx σ ε Unit} {r : Unit} :
    (when c x) s = .ok (r, s') ↔ c ∧ x s = .ok (r, s') ∨ ¬c ∧ s = s' := by
  unfold when
  by_cases h : c <;> simp [h]

@[simp] theorem ok_ite {c : Prop} [Decidable c] {x y : Tx σ ε α} :
    (if c then x else y) s = .ok (a, s') ↔ c ∧ x s = .ok (a, s') ∨ ¬c ∧ y s = .ok (a, s') := by
  by_cases h : c <;> simp [h]

theorem require_of {c : Prop} [Decidable c] {e : ε} (h : c) :
    (require c e : Tx σ ε Unit) = pure () := by
  funext s
  exact if_pos h

/-! ## Frames -/

/-- A transaction leaves `f` of the store as it is. -/
def Keeps {γ : Type} (f : σ → γ) (x : Tx σ ε α) : Prop :=
  ∀ s a s', x s = .ok (a, s') → f s' = f s

namespace Keeps

variable {γ : Type} {f : σ → γ}

theorem pure (a : α) : Keeps f (Pure.pure a : Tx σ ε α) := by
  intro s b s' h
  rw [(ok_pure.mp h).2]

theorem bind {x : Tx σ ε α} {k : α → Tx σ ε β} (hx : Keeps f x) (hk : ∀ a, Keeps f (k a)) :
    Keeps f (x >>= k) := by
  intro s b s' h
  obtain ⟨a, t, h1, h2⟩ := ok_bind.mp h
  exact (hk a t b s' h2).trans (hx s a t h1)

theorem read (g : σ → α) : Keeps f (Tx.read g : Tx σ ε α) := by
  intro s a s' h
  rw [(ok_read.mp h).2]

theorem attempt (g : σ → Except ε α) : Keeps f (Tx.attempt g) := by
  intro s a s' h
  rw [(ok_attempt.mp h).2]

theorem require (c : Prop) [Decidable c] (e : ε) : Keeps f (Tx.require c e) := by
  intro s a s' h
  rw [(ok_require.mp h).2]

theorem write {g : σ → σ} (h : ∀ s, f (g s) = f s) : Keeps f (Tx.write g : Tx σ ε Unit) := by
  intro s a s' hw
  rw [← ok_write.mp hw]
  exact h s

theorem ite {c : Prop} [Decidable c] {x y : Tx σ ε α} (hx : Keeps f x) (hy : Keeps f y) :
    Keeps f (if c then x else y) := by
  by_cases h : c
  · rw [if_pos h]
    exact hx
  · rw [if_neg h]
    exact hy

theorem forEach {ι : Type w} {g : ι → Tx σ ε Unit} (h : ∀ i, Keeps f (g i)) (is : List ι) :
    Keeps f (Tx.forEach g is) := by
  induction is with
  | nil => exact pure ()
  | cons i is ih => exact bind (h i) fun _ => ih

end Keeps

/-! ## Units of work -/

/-- What happens to a unit of work besides its own transaction. -/
inductive Fate where
  /-- It runs to its end and its commit succeeds. -/
  | commits
  /-- A statement or the commit fails, or it is cancelled before the commit; rolled back. -/
  | fails
  /-- Its commit succeeds and the caller is cancelled, or the process dies, right there. -/
  | lost
  deriving DecidableEq, Repr

/-- How a unit of work ends for its caller. -/
inductive Outcome (ε : Type v) (α : Type w) where
  | returned (a : α)
  | raised (e : ε)
  /-- A database failure, a cancellation or a crash. -/
  | broken
  deriving DecidableEq, Repr

/-- Run a transaction as one unit of work. -/
def commit (x : Tx σ ε α) (fate : Fate) (s : σ) : Outcome ε α × σ :=
  match x s, fate with
  | .ok (a, s'), .commits => (.returned a, s')
  | .ok (_, s'), .lost => (.broken, s')
  | .ok _, .fails => (.broken, s)
  | .error _, .fails => (.broken, s)
  | .error e, _ => (.raised e, s)

/-- A transaction that raises leaves the store alone. -/
theorem commit_snd_of_error {x : Tx σ ε α} {fate : Fate} {s : σ} {e : ε} (h : x s = .error e) :
    (x.commit fate s).2 = s := by
  unfold commit
  rw [h]
  cases fate <;> rfl

/-- One that returns changes it unless the unit of work fails. -/
theorem commit_snd_of_ok {x : Tx σ ε α} {fate : Fate} {s s' : σ} {a : α} (h : x s = .ok (a, s')) :
    (x.commit fate s).2 = if fate = .fails then s else s' := by
  unfold commit
  rw [h]
  cases fate <;> rfl

/-- The unit of work is rolled back: its transaction raises, or it fails. -/
def aborts (x : Tx σ ε α) (fate : Fate) (s : σ) : Bool :=
  match x s with
  | .ok _ => fate = .fails
  | .error _ => true

theorem commit_of_aborts {x : Tx σ ε α} {fate : Fate} {s : σ} (h : x.aborts fate s = true) :
    (x.commit fate s).2 = s := by
  unfold aborts at h
  cases hx : x s with
  | error e => exact commit_snd_of_error hx
  | ok r =>
    rw [hx] at h
    exact (commit_snd_of_ok hx).trans (if_pos (of_decide_eq_true h))

/-- **A unit of work is atomic.** Either the store is as it was and the caller has no result, or
the transaction has run to its end and the store is what it made of it. -/
theorem commit_spec (x : Tx σ ε α) (fate : Fate) (s : σ) :
    ((x.commit fate s).2 = s ∧ ∀ a, (x.commit fate s).1 ≠ .returned a) ∨
      ∃ a s', x s = .ok (a, s') ∧ (x.commit fate s).2 = s' ∧
        ((x.commit fate s).1 = .returned a ∨ (x.commit fate s).1 = .broken) := by
  unfold commit
  cases h : x s with
  | error e => left; cases fate <;> simp
  | ok r =>
    obtain ⟨a, s'⟩ := r
    cases fate with
    | fails => left; simp
    | commits => exact .inr ⟨a, s', rfl, rfl, .inl rfl⟩
    | lost => exact .inr ⟨a, s', rfl, rfl, .inr rfl⟩

/-- Run `x` as a unit of work and go on with its result; anything else stops the caller. -/
def resume {γ : Type w} (x : Tx σ ε α) (fate : Fate) (next : α → γ)
    (stop : Outcome ε Unit → γ) (s : σ) : γ × σ :=
  match x.commit fate s with
  | (.returned a, s') => (next a, s')
  | (.raised e, s') => (stop (.raised e), s')
  | (.broken, s') => (stop .broken, s')

theorem resume_snd {γ : Type w} (x : Tx σ ε α) (fate : Fate) (next : α → γ)
    (stop : Outcome ε Unit → γ) (s : σ) : (x.resume fate next stop s).2 = (x.commit fate s).2 := by
  unfold resume
  generalize x.commit fate s = r
  obtain ⟨o, s'⟩ := r
  cases o <;> rfl

theorem resume_of_aborts {γ : Type w} {x : Tx σ ε α} {fate : Fate} {next : α → γ}
    {stop : Outcome ε Unit → γ} {s : σ} (h : x.aborts fate s = true) :
    (x.resume fate next stop s).2 = s :=
  (resume_snd x fate next stop s).trans (commit_of_aborts h)

theorem commit_of_not_aborts {x : Tx σ ε α} {fate : Fate} {s : σ} (h : x.aborts fate s = false) :
    ∃ a s', x s = .ok (a, s') ∧ (x.commit fate s).2 = s' := by
  unfold aborts at h
  cases hx : x s with
  | error e => rw [hx] at h; cases h
  | ok r =>
    obtain ⟨a, s'⟩ := r
    rw [hx] at h
    exact ⟨a, s', rfl, (commit_snd_of_ok hx).trans (if_neg (of_decide_eq_false h))⟩

theorem resume_of_not_aborts {γ : Type w} {x : Tx σ ε α} {fate : Fate} {next : α → γ}
    {stop : Outcome ε Unit → γ} {s : σ} (h : x.aborts fate s = false) :
    ∃ a s', x s = .ok (a, s') ∧ (x.resume fate next stop s).2 = s' := by
  obtain ⟨a, s', hx, hs⟩ := commit_of_not_aborts h
  exact ⟨a, s', hx, (resume_snd x fate next stop s).trans hs⟩

/-- **What a caller sees of its unit of work.** -/
theorem resume_spec {γ : Type w} (x : Tx σ ε α) (fate : Fate) (next : α → γ)
    (stop : Outcome ε Unit → γ) (s : σ) :
    ((x.resume fate next stop s).2 = s ∧ ∃ o, (x.resume fate next stop s).1 = stop o) ∨
      ∃ a s', x s = .ok (a, s') ∧ (x.resume fate next stop s).2 = s' ∧
        ((x.resume fate next stop s).1 = next a ∨
          (x.resume fate next stop s).1 = stop .broken) := by
  unfold resume commit
  cases h : x s with
  | error e => left; cases fate <;> simp
  | ok r =>
    obtain ⟨a, s'⟩ := r
    cases fate with
    | fails => left; simp
    | commits => exact .inr ⟨a, s', rfl, rfl, .inl rfl⟩
    | lost => exact .inr ⟨a, s', rfl, rfl, .inr rfl⟩

/-- Two continuations of one unit of work meet the same result. -/
theorem resume_map₂ {γ δ ζ : Type w} (g : γ → δ → ζ) (x : Tx σ ε α) (fate : Fate) (next : α → γ)
    (stop : Outcome ε Unit → γ) (next' : α → δ) (stop' : Outcome ε Unit → δ) (s : σ) :
    x.resume fate (fun a => g (next a) (next' a)) (fun o => g (stop o) (stop' o)) s =
      (g (x.resume fate next stop s).1 (x.resume fate next' stop' s).1, (x.commit fate s).2) := by
  unfold resume
  generalize x.commit fate s = r
  obtain ⟨o, s'⟩ := r
  cases o <;> rfl

/-- What holds of the store before a unit of work and after its transaction holds after it. -/
theorem resume_induct {γ : Type w} {x : Tx σ ε α} {fate : Fate} {next : α → γ}
    {stop : Outcome ε Unit → γ} {s : σ} {P : σ → Prop} (h0 : P s)
    (h1 : ∀ a s', x s = .ok (a, s') → P s') : P (x.resume fate next stop s).2 := by
  obtain ⟨h, -⟩ | ⟨a, s', hx, h, -⟩ := resume_spec x fate next stop s
  · rw [h]
    exact h0
  · rw [h]
    exact h1 a s' hx

/-- What holds of every way to stop and of every continuation holds of the result. -/
theorem resume_fst_induct {γ : Type w} {x : Tx σ ε α} {fate : Fate} {next : α → γ}
    {stop : Outcome ε Unit → γ} {s : σ} {P : γ → Prop} (h0 : ∀ o, P (stop o))
    (h1 : ∀ a, P (next a)) : P (x.resume fate next stop s).1 := by
  obtain ⟨-, o, h⟩ | ⟨a, s', -, -, h | h⟩ := resume_spec x fate next stop s
  · rw [h]
    exact h0 o
  · rw [h]
    exact h1 a
  · rw [h]
    exact h0 _

/-- What holds of every way to stop and of every continuation after the transaction holds of the
result, with the store. -/
theorem resume_rule {γ : Type w} {x : Tx σ ε α} {fate : Fate} {next : α → γ}
    {stop : Outcome ε Unit → γ} {s : σ} {P : γ → σ → Prop} (h0 : ∀ o s', P (stop o) s')
    (h1 : ∀ a s', x s = .ok (a, s') → P (next a) s') :
    P (x.resume fate next stop s).1 (x.resume fate next stop s).2 := by
  obtain ⟨-, o, h⟩ | ⟨a, s', hx, hs, h | h⟩ := resume_spec x fate next stop s
  · rw [h]
    exact h0 o _
  · rw [h, hs]
    exact h1 a s' hx
  · rw [h]
    exact h0 _ _

/-- The same for `commit`. -/
theorem commit_induct {x : Tx σ ε α} {fate : Fate} {s : σ} {P : σ → Prop} (h0 : P s)
    (h1 : ∀ a s', x s = .ok (a, s') → P s') : P (x.commit fate s).2 := by
  obtain ⟨h, -⟩ | ⟨a, s', hx, h, -⟩ := commit_spec x fate s
  · rw [h]
    exact h0
  · rw [h]
    exact h1 a s' hx

/-- A unit of work whose transaction leaves the store alone does so itself. -/
theorem resume_snd_eq {γ : Type w} {x : Tx σ ε α} {fate : Fate} {next : α → γ}
    {stop : Outcome ε Unit → γ} {s : σ} (h : ∀ a s', x s = .ok (a, s') → s' = s) :
    (x.resume fate next stop s).2 = s :=
  resume_induct (P := fun s' => s' = s) rfl h

@[simp] theorem resume_of_ok {γ : Type w} {x : Tx σ ε α} {next : α → γ}
    {stop : Outcome ε Unit → γ} {s s' : σ} {a : α} (h : x s = .ok (a, s')) :
    x.resume .commits next stop s = (next a, s') := by
  simp [resume, commit, h]

@[simp] theorem resume_of_error {γ : Type w} {x : Tx σ ε α} {next : α → γ}
    {stop : Outcome ε Unit → γ} {s : σ} {e : ε} (h : x s = .error e) :
    x.resume .commits next stop s = (stop (.raised e), s) := by
  simp [resume, commit, h]

theorem of_commit_returned {x : Tx σ ε α} {fate : Fate} {s s' : σ} {a : α}
    (h : x.commit fate s = (.returned a, s')) : x s = .ok (a, s') := by
  unfold commit at h
  cases hx : x s with
  | error e => rw [hx] at h; cases fate <;> simp at h
  | ok r =>
    rw [hx] at h
    cases fate
    · simp only [Prod.mk.injEq, Outcome.returned.injEq] at h
      rw [← h.1, ← h.2]
    · simp at h
    · simp at h

@[simp] theorem commit_of_ok {x : Tx σ ε α} {s s' : σ} {a : α} (h : x s = .ok (a, s')) :
    x.commit .commits s = (.returned a, s') := by
  simp [commit, h]

end Tx

end MessageService.Lib
