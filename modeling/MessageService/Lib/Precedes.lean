import Mathlib.Tactic.Common

/-!
# The order of first occurrences

`Precedes l a b`: `a` occurs in the list `l` before `b` first does. For a history it is the order of
first occurrences, and it never changes once both have occurred (`Precedes.append`).

* `precedes_append_of_mem`, `precedes_append_of_not_mem`: what an appended part decides.
* `precedes_of_pairwise`: in a sorted list the smaller element precedes the larger.
-/

namespace MessageService.Lib

universe u

variable {α : Type u} [DecidableEq α]

/-- `a` occurs in `l` before the first `b`. -/
def Precedes (l : List α) (a b : α) : Prop := a ∈ l.takeWhile fun x => x ≠ b

instance (l : List α) (a b : α) : Decidable (Precedes l a b) :=
  inferInstanceAs (Decidable (a ∈ List.takeWhile _ l))

variable {l l' : List α} {a b x : α}

theorem not_precedes_nil : ¬Precedes [] a b := List.not_mem_nil

theorem precedes_cons : Precedes (x :: l) a b ↔ x ≠ b ∧ (a = x ∨ Precedes l a b) := by
  unfold Precedes
  by_cases h : x = b
  · simp [h]
  · simp [h]

theorem Precedes.mem (h : Precedes l a b) : a ∈ l :=
  (List.takeWhile_prefix _).subset h

/-- Whatever comes later, `a` precedes `b`. -/
theorem Precedes.append (h : Precedes l a b) : Precedes (l ++ l') a b := by
  induction l with
  | nil => exact absurd h not_precedes_nil
  | cons x l ih =>
    rw [precedes_cons] at h
    rw [List.cons_append, precedes_cons]
    exact ⟨h.1, h.2.imp_right ih⟩

/-- Once `b` has occurred nothing more comes to precede it. -/
theorem precedes_append_of_mem (hb : b ∈ l) : Precedes (l ++ l') a b ↔ Precedes l a b := by
  induction l with
  | nil => cases hb
  | cons x l ih =>
    rw [List.cons_append, precedes_cons, precedes_cons]
    by_cases hx : x = b
    · simp [hx]
    · rw [ih ((List.mem_cons.mp hb).resolve_left (Ne.symm hx))]

/-- As long as `b` has not occurred, what has occurred precedes it. -/
theorem precedes_append_of_not_mem (hb : b ∉ l) :
    Precedes (l ++ l') a b ↔ a ∈ l ∨ Precedes l' a b := by
  induction l with
  | nil => simp
  | cons x l ih =>
    rw [List.mem_cons, not_or] at hb
    rw [List.cons_append, precedes_cons, ih hb.2, List.mem_cons, or_assoc]
    exact and_iff_right (Ne.symm hb.1)

/-- In a sorted list an element precedes those it does not come after. -/
theorem precedes_of_pairwise {r : α → α → Prop} (hl : l.Pairwise r) (ha : a ∈ l) (hne : a ≠ b)
    (hr : ¬r b a) : Precedes l a b := by
  induction l with
  | nil => cases ha
  | cons x l ih =>
    rw [List.pairwise_cons] at hl
    rw [precedes_cons]
    rcases List.mem_cons.mp ha with rfl | ha
    · exact ⟨hne, .inl rfl⟩
    · refine ⟨?_, .inr (ih hl.2 ha)⟩
      rintro rfl
      exact hr (hl.1 a ha)

/-- What precedes an element of a list's beginning is in the beginning. -/
theorem Precedes.take {n : Nat} (h : Precedes l a b) (hb : b ∈ l.take n) :
    Precedes (l.take n) a b := by
  rw [← List.take_append_drop n l] at h
  exact (precedes_append_of_mem hb).mp h

/-- An injective renaming keeps the order. -/
theorem precedes_map {β : Type u} [DecidableEq β] {f : α → β}
    (hf : ∀ y ∈ l, f y = f b → y = b) (h : Precedes l a b) : Precedes (l.map f) (f a) (f b) := by
  induction l with
  | nil => exact absurd h not_precedes_nil
  | cons x l ih =>
    rw [precedes_cons] at h
    rw [List.map_cons, precedes_cons]
    refine ⟨fun e => h.1 (hf x List.mem_cons_self e), ?_⟩
    rcases h.2 with rfl | h
    · exact .inl rfl
    · exact .inr (ih (fun y hy => hf y (List.mem_cons_of_mem _ hy)) h)

end MessageService.Lib
