import Mathlib.Logic.Basic
import Mathlib.Logic.Relation
import Mathlib.Tactic.Common

/-!
# Labelled transition systems

A labelled transition system with a set of initial states, the states it reaches, and the three
rules every safety argument of this development is an instance of.

* `System.inv_of_reach`: an inductive invariant holds of every reachable state.
* `System.inv_of_reach_and`: the same, where the step may assume what is already known of
  reachable states.
* `System.Refines.reach`: a refinement maps reachable states to reachable states.

`System.Always` is a property of the steps of all runs, `System.Leads` is "later in a run", and
`System.Leads.stable` is the rule for what stays true once it is.

`System.restrict` keeps the steps that meet a guard; a result about `(S.restrict C).Reach` is a
result about the runs of `S` whose steps all meet `C`. `System.ofFun` turns an executable partial
step function into a system, and `System.reach_run` makes a concrete run of it a proof of
reachability.
-/

namespace MessageService.Lib

universe u v w x

/-- Initial states and a labelled step relation. -/
structure System (σ : Type u) (ℓ : Type v) where
  /-- The initial states. -/
  init : σ → Prop
  /-- `step s l t`: label `l` takes `s` to `t`. -/
  step : σ → ℓ → σ → Prop

namespace System

variable {σ : Type u} {ℓ : Type v}

/-- The reachable states. -/
inductive Reach (S : System σ ℓ) : σ → Prop
  | init {s : σ} (h : S.init s) : Reach S s
  | step {s t : σ} {l : ℓ} (r : Reach S s) (h : S.step s l t) : Reach S t

/-- `I` holds initially and every step preserves it. -/
structure Inductive (S : System σ ℓ) (I : σ → Prop) : Prop where
  init : ∀ s, S.init s → I s
  step : ∀ s l t, I s → S.step s l t → I t

/-- **Invariant rule.** An inductive predicate holds of every reachable state. -/
theorem inv_of_reach {S : System σ ℓ} {I : σ → Prop} (hI : S.Inductive I) {s : σ}
    (h : S.Reach s) : I s := by
  induction h with
  | init h => exact hI.init _ h
  | step _ h ih => exact hI.step _ _ _ ih h

/-- **Invariant rule, with what is known of reachable states.** -/
theorem inv_of_reach_and {S : System σ ℓ} {I : σ → Prop} (h0 : ∀ s, S.init s → I s)
    (h1 : ∀ s l t, S.Reach s → I s → S.step s l t → I t) {s : σ} (h : S.Reach s) : I s := by
  induction h with
  | init h => exact h0 _ h
  | step r h ih => exact h1 _ _ _ r ih h

/-- `t` is `s` or comes after it in a run. -/
def Leads (S : System σ ℓ) : σ → σ → Prop := Relation.ReflTransGen fun s t => ∃ l, S.step s l t

theorem Reach.leads {S : System σ ℓ} {s t : σ} (h : S.Reach s) (hst : S.Leads s t) :
    S.Reach t := by
  induction hst with
  | refl => exact h
  | tail _ hstep ih =>
    obtain ⟨l, hl⟩ := hstep
    exact .step ih hl

/-- **Stability rule.** What every step from a reachable state preserves holds from then on. -/
theorem Leads.stable {S : System σ ℓ} {I : σ → Prop}
    (hI : ∀ s l t, S.Reach s → I s → S.step s l t → I t) {s t : σ} (hst : S.Leads s t)
    (h : S.Reach s) (hs : I s) : I t := by
  induction hst with
  | refl => exact hs
  | tail hsu hstep ih =>
    obtain ⟨l, hl⟩ := hstep
    exact hI _ l _ (h.leads hsu) ih hl

/-- The system whose steps also meet the guard `C`. -/
def restrict (S : System σ ℓ) (C : σ → ℓ → Prop) : System σ ℓ where
  init := S.init
  step s l t := S.step s l t ∧ C s l

theorem reach_of_restrict {S : System σ ℓ} {C : σ → ℓ → Prop} {s : σ}
    (h : (S.restrict C).Reach s) : S.Reach s := by
  induction h with
  | init h => exact .init h
  | step _ h ih => exact .step ih h.1

theorem leads_of_restrict {S : System σ ℓ} {C : σ → ℓ → Prop} {s t : σ}
    (h : (S.restrict C).Leads s t) : S.Leads s t := by
  induction h with
  | refl => exact .refl
  | tail _ hstep ih =>
    obtain ⟨l, hl, -⟩ := hstep
    exact ih.tail ⟨l, hl⟩

/-- `P` holds of every step of every run. -/
def Always (S : System σ ℓ) (P : σ → ℓ → σ → Prop) : Prop :=
  ∀ s l t, S.Reach s → S.step s l t → P s l t

/-- `S` refines `T` along `f`: initial states map to initial states, and a step maps to a step or
to no step at all. -/
structure Refines {τ : Type w} {m : Type x} (S : System σ ℓ) (T : System τ m) (f : σ → τ) :
    Prop where
  init : ∀ s, S.init s → T.init (f s)
  step : ∀ s l t, S.Reach s → S.step s l t → f t = f s ∨ ∃ k, T.step (f s) k (f t)

/-- **Refinement rule.** A refinement maps reachable states to reachable states. -/
theorem Refines.reach {τ : Type w} {m : Type x} {S : System σ ℓ} {T : System τ m} {f : σ → τ}
    (hf : S.Refines T f) {s : σ} (h : S.Reach s) : T.Reach (f s) := by
  induction h with
  | init h => exact .init (hf.init _ h)
  | step r h ih =>
    rcases hf.step _ _ _ r h with e | ⟨k, hk⟩
    · rw [e]; exact ih
    · exact .step ih hk

/-- The system of a partial step function. -/
def ofFun (init : σ → Prop) (f : σ → ℓ → Option σ) : System σ ℓ where
  init := init
  step s l t := f s l = some t

/-- Running a partial step function along a list of labels. -/
def run (f : σ → ℓ → Option σ) : σ → List ℓ → Option σ
  | s, [] => some s
  | s, l :: ls => (f s l).bind fun t => run f t ls

/-- **Runs reach.** What a run of the step function returns is reachable. -/
theorem reach_run {init : σ → Prop} {f : σ → ℓ → Option σ} {s t : σ} (ls : List ℓ)
    (hs : (ofFun init f).Reach s) (h : run f s ls = some t) : (ofFun init f).Reach t := by
  induction ls generalizing s with
  | nil =>
    simp only [run, Option.some.injEq] at h
    exact h ▸ hs
  | cons l ls ih =>
    simp only [run, Option.bind_eq_some_iff] at h
    obtain ⟨u, hu, ht⟩ := h
    exact ih (.step hs hu) ht

/-- A run whose last state passes a test reaches a state that does. -/
theorem exists_reach_of_run {init : σ → Prop} {f : σ → ℓ → Option σ} {s : σ} {p : σ → Bool}
    (ls : List ℓ) (hs : (ofFun init f).Reach s) (h : (run f s ls).any p = true) :
    ∃ t, (ofFun init f).Reach t ∧ p t = true := by
  cases hr : run f s ls with
  | none => rw [hr] at h; cases h
  | some t =>
    rw [hr] at h
    exact ⟨t, reach_run ls hs hr, h⟩

/-- The same for a run whose steps all meet a guard. -/
theorem reach_run_restrict {init : σ → Prop} {f : σ → ℓ → Option σ} {C : σ → ℓ → Prop}
    [∀ s l, Decidable (C s l)] {s t : σ} (ls : List ℓ)
    (hs : ((ofFun init f).restrict C).Reach s)
    (h : run (fun s l => if C s l then f s l else none) s ls = some t) :
    ((ofFun init f).restrict C).Reach t := by
  induction ls generalizing s with
  | nil =>
    simp only [run, Option.some.injEq] at h
    exact h ▸ hs
  | cons l ls ih =>
    simp only [run, Option.bind_eq_some_iff, Option.ite_none_right_eq_some] at h
    obtain ⟨u, ⟨hc, hu⟩, ht⟩ := h
    exact ih (.step hs ⟨hu, hc⟩) ht

/-- A guarded run whose last state passes a test reaches a state that does. -/
theorem exists_reach_of_run_restrict {init : σ → Prop} {f : σ → ℓ → Option σ} {C : σ → ℓ → Prop}
    [∀ s l, Decidable (C s l)] {s : σ} {p : σ → Bool} (ls : List ℓ)
    (hs : ((ofFun init f).restrict C).Reach s)
    (h : (run (fun s l => if C s l then f s l else none) s ls).any p = true) :
    ∃ t, ((ofFun init f).restrict C).Reach t ∧ p t = true := by
  obtain ⟨t, ht, hp⟩ := (Option.any_eq_true _ _).mp h
  exact ⟨t, reach_run_restrict ls hs ht, hp⟩

/-- A run of labels that meet a guard in every state leads to its last state. -/
theorem leads_run_restrict {init : σ → Prop} {f : σ → ℓ → Option σ} {C : σ → ℓ → Prop} {s t : σ}
    {ls : List ℓ} (hC : ∀ l ∈ ls, ∀ u, C u l) (h : run f s ls = some t) :
    ((ofFun init f).restrict C).Leads s t := by
  induction ls generalizing s with
  | nil =>
    simp only [run, Option.some.injEq] at h
    exact h ▸ .refl
  | cons l ls ih =>
    simp only [run, Option.bind_eq_some_iff] at h
    obtain ⟨u, hu, ht⟩ := h
    exact .head ⟨l, hu, hC l List.mem_cons_self s⟩
      (ih (fun l hl => hC l (List.mem_cons_of_mem _ hl)) ht)

/-! ## A machine that runs alone -/

/-- The first `n` steps of a machine whose step `i` is `f i`. -/
def alone (f : Nat → σ → σ) (s : σ) : Nat → σ
  | 0 => s
  | n + 1 => f n (alone f s n)

theorem alone_succ {f : Nat → σ → σ} {s t : σ} {n : Nat} (h : alone f s n = t) :
    alone f s (n + 1) = f n t :=
  congrArg (f n) h

/-- A machine that has come to rest stays where it is. -/
theorem alone_of_halted {f : Nat → σ → σ} {s t : σ} {n m : Nat} (ht : ∀ i, f i t = t)
    (hm : n ≤ m) (h : alone f s n = t) : alone f s m = t := by
  induction hm with
  | refl => exact h
  | @step m _ ih => exact (alone_succ ih).trans (ht m)

/-- **Termination.** A measure that every step lowers bounds the steps left. -/
theorem alone_measure {f : Nat → σ → σ} {μ : σ → Nat} (hμ : ∀ i t, μ (f i t) ≤ μ t - 1) (s : σ)
    (n : Nat) : μ (alone f s n) ≤ μ s - n := by
  induction n with
  | zero => exact Nat.le_refl _
  | succ n ih =>
    have h : μ (alone f s (n + 1)) ≤ μ (alone f s n) - 1 := hμ n _
    omega

end System

end MessageService.Lib
