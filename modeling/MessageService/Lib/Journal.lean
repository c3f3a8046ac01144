import Mathlib.Data.List.Chain
import Mathlib.Data.List.Nodup
import Mathlib.Tactic.Common

/-!
# Journals

A journal of the changes of registers: each entry concerns some registers and may describe a change
of value (`Reading`). Replaying the entries of a register gives the value the last of them describes
(`Reading.replay`).

* `replay_append_silent`, `replay_append_describing`: what an append does to a replay. With them a
  system whose every change is described by exactly one entry keeps `replay` equal to its registers.
* `nodup_of_isChain`: a register that only moves up a rank takes no value twice.
-/

namespace MessageService.Lib

universe u v w

/-- How the entries of a journal read: the registers an entry concerns, and the change it
describes, from a value (`none` if there was none) to another. -/
structure Reading (κ : Type u) (S : Type v) (E : Type w) where
  concerns : κ → E → Bool
  describes : E → Option (Option S × S)

namespace Reading

variable {κ : Type u} {S : Type v} {E : Type w} (R : Reading κ S E)

/-- What an entry makes of a value. -/
def apply (s : Option S) (e : E) : Option S :=
  match R.describes e with
  | some (_, s') => some s'
  | none => s

/-- Replay the entries that concern `k`, in order. -/
def replay (k : κ) (log : List E) : Option S := (log.filter (R.concerns k)).foldl R.apply none

variable {R}

theorem foldl_apply_silent {es : List E} (h : ∀ e ∈ es, R.describes e = none) (s : Option S) :
    es.foldl R.apply s = s := by
  induction es with
  | nil => rfl
  | cons e es ih =>
    have he : R.apply s e = s := by
      unfold apply
      rw [h e List.mem_cons_self]
    rw [List.foldl_cons, he]
    exact ih fun x hx => h x (List.mem_cons_of_mem _ hx)

/-- **Entries that describe nothing change no replay.** -/
theorem replay_append_silent {k : κ} {log es : List E} (h : ∀ e ∈ es, R.describes e = none) :
    R.replay k (log ++ es) = R.replay k log := by
  unfold replay
  rw [List.filter_append, List.foldl_append]
  exact foldl_apply_silent (fun e he => h e (List.mem_of_mem_filter he)) _

/-- **An entry that describes a change of `k` alone** sets the replay of `k`. -/
theorem replay_append_describing [DecidableEq κ] {k : κ} {log : List E} {e : E} {p : Option S}
    {s : S} (hk : ∀ k', R.concerns k' e = true ↔ k' = k) (he : R.describes e = some (p, s))
    (k' : κ) : R.replay k' (log ++ [e]) = if k' = k then some s else R.replay k' log := by
  unfold replay
  rw [List.filter_append, List.foldl_append]
  by_cases h : k' = k
  · rw [if_pos h, List.filter_cons_of_pos ((hk k').mpr h)]
    simp [apply, he]
  · rw [if_neg h, List.filter_cons_of_neg fun hc => h ((hk k').mp hc)]
    rfl

end Reading

/-- **A walk up a rank repeats nothing.** -/
theorem nodup_of_isChain {S : Type u} {r : S → S → Prop} {rank : S → Nat}
    (hr : ∀ a b, r a b → rank a < rank b) {l : List S} (h : l.IsChain r) : l.Nodup := by
  have hp : l.Pairwise fun a b => rank a < rank b := by
    have hc : l.IsChain fun a b => rank a < rank b := h.imp hr
    exact List.isChain_iff_pairwise.mp hc
  refine hp.imp ?_
  intro a b hab e
  rw [e] at hab
  exact Nat.lt_irrefl _ hab

end MessageService.Lib
