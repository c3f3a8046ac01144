import Mathlib.Tactic.Common

/-!
# Pools of tasks

Tasks numbered by their position in a list, one of which steps at a time.
-/

namespace MessageService.Lib

universe u

variable {τ : Type u}

/-- **When one task steps,** a count of tasks loses what the old task counted for and gains what the
new one counts for. -/
theorem countP_set {p : τ → Bool} {l : List τ} {i : Nat} {x : τ} (h : l[i]? = some x) (y : τ) :
    (l.set i y).countP p + (p x).toNat = l.countP p + (p y).toNat := by
  induction l generalizing i with
  | nil => cases h
  | cons z l ih =>
    cases i with
    | zero =>
      obtain rfl : z = x := by simpa using h
      rw [List.set_cons_zero, List.countP_cons, List.countP_cons]
      cases p z <;> cases p y <;> rfl
    | succ i =>
      have h : l[i]? = some x := by simpa using h
      have := ih h
      rw [List.set_cons_succ, List.countP_cons, List.countP_cons]
      omega

theorem getElem?_set_of_some {l : List τ} {i : Nat} {x : τ} (h : l[i]? = some x) (y : τ) :
    (l.set i y)[i]? = some y := by
  obtain ⟨hi, -⟩ := List.getElem?_eq_some_iff.mp h
  exact List.getElem?_set_self hi

theorem map_set_of_some {κ : Type*} {f : τ → κ} {l : List τ} {i : Nat} {x y : τ}
    (h : l[i]? = some x) (hf : f y = f x) : (l.set i y).map f = l.map f := by
  obtain ⟨hi, rfl⟩ := List.getElem?_eq_some_iff.mp h
  rw [List.map_set, hf, ← List.map_set, List.set_getElem_self]

end MessageService.Lib
