import MessageService.Lib.Faults
import MessageService.Lib.Tx

/-!
# What a transaction is rejected for

`Tx.rejection` is the class of the exception that a transaction raises, if it raises one. A rule for
each primitive computes it line by line, so that the checks of a `do` block become a decision table.
-/

namespace MessageService.Lib.Tx

universe u v w x

variable {σ : Type u} {ε : Type v} {α β : Type w} {κ : Type x} {cls : ε → κ} {s t : σ}

/-- The class, under `cls`, of the exception that a transaction raises. -/
def rejection (cls : ε → κ) (x : Tx σ ε α) (s : σ) : Option κ :=
  match x s with
  | .ok _ => none
  | .error e => some (cls e)

theorem rejection_of_ok {x : Tx σ ε α} {r : α × σ} (h : x s = .ok r) :
    rejection cls x s = none := by
  rw [rejection, h]

theorem rejection_of_error {x : Tx σ ε α} {e : ε} (h : x s = .error e) :
    rejection cls x s = some (cls e) := by
  rw [rejection, h]

theorem rejection_bind_of_ok {x : Tx σ ε α} {f : α → Tx σ ε β} {a : α} (h : x s = .ok (a, t)) :
    rejection cls (x >>= f) s = rejection cls (f a) t := by
  simp only [rejection, bind, h]

theorem rejection_bind_of_error {x : Tx σ ε α} {f : α → Tx σ ε β} {e : ε} (h : x s = .error e) :
    rejection cls (x >>= f) s = some (cls e) := by
  simp only [rejection, bind, h]

theorem bind_bind {γ : Type w} (x : Tx σ ε α) (f : α → Tx σ ε β) (g : β → Tx σ ε γ) :
    (x >>= f) >>= g = x >>= fun a => f a >>= g := by
  funext s
  simp only [bind]
  cases x s <;> rfl

/-- A check. -/
theorem rejection_require_bind {β : Type} {c : Prop} [Decidable c] {e : ε} {f : Unit → Tx σ ε β} :
    rejection cls (require c e >>= f) s = if c then rejection cls (f ()) s else some (cls e) := by
  by_cases h : c
  · rw [if_pos h]
    exact rejection_bind_of_ok (if_pos h)
  · rw [if_neg h]
    exact rejection_bind_of_error (if_neg h)

theorem rejection_write_bind {β : Type} {g : σ → σ} {f : Unit → Tx σ ε β} :
    rejection cls (write g >>= f) s = rejection cls (f ()) (g s) :=
  rejection_bind_of_ok rfl

theorem rejection_when_bind {β : Type} {c : Prop} [Decidable c] {x : Tx σ ε Unit}
    {f : Unit → Tx σ ε β} : rejection cls (when c x >>= f) s =
      if c then rejection cls (x >>= f) s else rejection cls (f ()) s := by
  by_cases h : c
  · simp only [rejection, bind, when, if_pos h]
  · simp only [rejection, bind, when, if_neg h]

theorem rejection_attempt_bind_of_ok {g : σ → Except ε α} {f : α → Tx σ ε β} {a : α}
    (h : g s = .ok a) : rejection cls (attempt g >>= f) s = rejection cls (f a) s :=
  rejection_bind_of_ok (by simp [attempt, h])

theorem rejection_attempt_bind_of_error {g : σ → Except ε α} {f : α → Tx σ ε β} {e : ε}
    (h : g s = .error e) : rejection cls (attempt g >>= f) s = some (cls e) :=
  rejection_bind_of_error (by simp [attempt, h])

/-- A computation that returns exactly where `c` holds, and what follows it. -/
theorem rejection_attempt_bind {c : Prop} [Decidable c] {k : κ} {P : α → Prop} {v : Option κ}
    {g : σ → Except ε α} {f : α → Tx σ ε β} (h : Decides c (fun e => cls e = k) P (g s))
    (hf : c → ∀ a, P a → rejection cls (f a) s = v) :
    rejection cls (attempt g >>= f) s = if c then v else some k := by
  generalize hr : g s = r at h
  cases h with
  | ok hc ha => rw [rejection_attempt_bind_of_ok hr, if_pos hc, hf hc _ ha]
  | error hc he => rw [rejection_attempt_bind_of_error hr, if_neg hc, he]

end MessageService.Lib.Tx
