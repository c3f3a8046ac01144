import MessageService.Lib.Attempt

/-!
# First faults

A computation that checks in turn raises what the first of its faults says, and else returns.

* `mapM_firstFault`: a loop has the faults of its elements, one after the other.
* `firstFault_bind`: so has a sequence.
* `Yields`: the same where what is returned is only there if there is no fault, with the rules
  `Yields.bind` and `Yields.mapM`.
* `Decides`: the same without the faults, by the condition under which there is none.
-/

namespace MessageService.Lib

universe u v

variable {α β : Type u} {ε : Type v}

/-- Raise the first fault, if there is one. -/
def firstFault (faults : List ε) (x : α) : Except ε α :=
  match faults with
  | [] => .ok x
  | e :: _ => .error e

@[simp] theorem firstFault_nil (x : α) : firstFault ([] : List ε) x = .ok x := rfl

@[simp] theorem firstFault_cons (e : ε) (faults : List ε) (x : α) :
    firstFault (e :: faults) x = .error e := rfl

theorem firstFault_eq_ok_iff {faults : List ε} {x y : α} :
    firstFault faults x = .ok y ↔ faults = [] ∧ x = y := by
  cases faults <;> simp

theorem firstFault_eq_error_iff {faults : List ε} {x : α} {e : ε} :
    firstFault faults x = .error e ↔ faults.head? = some e := by
  cases faults <;> simp

theorem map_firstFault (f : α → β) (faults : List ε) (x : α) :
    f <$> firstFault faults x = firstFault faults (f x) := by
  cases faults <;> rfl

/-- A sequence of which the first part has the faults `faults`. -/
theorem firstFault_bind {faults others : List ε} {x : α} {y : β} {f : α → Except ε β}
    (h : f x = firstFault others y) :
    firstFault faults x >>= f = firstFault (faults ++ others) y := by
  cases faults with
  | nil => exact h
  | cons e faults => rfl

/-- **A loop has the faults of its elements**, one after the other. -/
theorem mapM_firstFault {f : α → Except ε β} {faults : α → List ε} {g : α → β} {l : List α}
    (h : ∀ x ∈ l, f x = firstFault (faults x) (g x)) :
    l.mapM f = firstFault (l.flatMap faults) (l.map g) := by
  induction l with
  | nil => rfl
  | cons x l ih =>
    obtain ⟨hx, hl⟩ := List.forall_mem_cons.mp h
    rw [List.mapM_cons, hx, List.flatMap_cons, ih hl, List.map_cons]
    exact firstFault_bind (map_firstFault _ _ _)

/-- Faults that are a check of each element. -/
theorem firstFault_flatMap_ite {γ : Type} {p : γ → Bool} {e : γ → ε} {l : List γ} {x : α} :
    firstFault (l.flatMap fun a => if p a then [e a] else []) x =
      match l.find? p with
      | some a => .error (e a)
      | none => .ok x := by
  induction l with
  | nil => rfl
  | cons a l ih =>
    rw [List.flatMap_cons, List.find?_cons]
    cases p a with
    | true => rfl
    | false => exact ih

theorem map_eq_of_forall₂ {γ δ ζ : Type} {R : γ → δ → Prop} {f : γ → ζ} {g : δ → ζ} {l : List γ}
    {l' : List δ} (h : List.Forall₂ R l l') (hR : ∀ a b, R a b → f a = g b) :
    l.map f = l'.map g := by
  induction h with
  | nil => rfl
  | cons hab _ ih => rw [List.map_cons, List.map_cons, hR _ _ hab, ih]

/-! ## Values that need their checks -/

/-- The first fault is raised; without faults, a value with the property `P` is returned. -/
def Yields (faults : List ε) (P : α → Prop) (r : Except ε α) : Prop :=
  match faults with
  | [] => ∃ a, r = .ok a ∧ P a
  | e :: _ => r = .error e

namespace Yields

variable {faults others : List ε} {P : α → Prop} {Q : β → Prop} {r : Except ε α}

theorem pure {a : α} (h : P a) : Yields ([] : List ε) P (.ok a) := ⟨a, rfl, h⟩

theorem error (e : ε) (faults : List ε) : Yields (e :: faults) P (.error e) := rfl

/-- A sequence has the faults of its parts. -/
theorem bind (h : Yields faults P r) {f : α → Except ε β} (hf : ∀ a, P a → Yields others Q (f a)) :
    Yields (faults ++ others) Q (r >>= f) := by
  cases faults with
  | nil =>
    obtain ⟨a, rfl, ha⟩ := h
    exact hf a ha
  | cons e faults =>
    obtain rfl : r = .error e := h
    rfl

/-- So has a loop, and it returns the values of its elements. -/
theorem mapM {f : α → Except ε β} {faults : α → List ε} {R : α → β → Prop} {l : List α}
    (h : ∀ x ∈ l, Yields (faults x) (R x) (f x)) :
    Yields (l.flatMap faults) (List.Forall₂ R l) (l.mapM f) := by
  induction l with
  | nil => exact pure .nil
  | cons x l ih =>
    obtain ⟨hx, hl⟩ := List.forall_mem_cons.mp h
    rw [List.flatMap_cons, List.mapM_cons]
    refine hx.bind fun y hy => ?_
    rw [← List.append_nil (l.flatMap faults)]
    exact (ih hl).bind fun ys hys => pure (.cons hy hys)

theorem eq_ok (h : Yields faults P r) {a : α} (hr : r = .ok a) : faults = [] ∧ P a := by
  cases faults with
  | nil =>
    obtain ⟨b, hb, hP⟩ := h
    obtain rfl := Except.ok.inj (hb.symm.trans hr)
    exact ⟨rfl, hP⟩
  | cons e faults => cases hr.symm.trans h

theorem eq_error (h : Yields faults P r) {e : ε} (hr : r = .error e) : faults.head? = some e := by
  cases faults with
  | nil =>
    obtain ⟨a, ha, -⟩ := h
    cases ha.symm.trans hr
  | cons e' faults =>
    obtain rfl := Except.error.inj (hr.symm.trans h)
    rfl

end Yields

/-! ## Conditions -/

/-- The computation returns exactly where `C` holds, a value with the property `P`, and else raises
an exception with the property `E`. -/
inductive Decides (C : Prop) (E : ε → Prop) (P : α → Prop) : Except ε α → Prop where
  | ok (h : C) {a : α} (ha : P a) : Decides C E P (.ok a)
  | error (h : ¬C) {e : ε} (he : E e) : Decides C E P (.error e)

namespace Decides

variable {C D : Prop} {E : ε → Prop} {P : α → Prop} {Q : β → Prop} {r : Except ε α}

theorem congr (h : Decides C E P r) (hCD : C ↔ D) : Decides D E P r := by
  cases h with
  | ok hC ha => exact .ok (hCD.mp hC) ha
  | error hC he => exact .error (mt hCD.mpr hC) he

/-- A sequence returns where both parts do. -/
theorem bind (h : Decides C E P r) {f : α → Except ε β} (hf : ∀ a, P a → Decides D E Q (f a)) :
    Decides (C ∧ D) E Q (r >>= f) := by
  cases h with
  | ok hC ha => exact (hf _ ha).congr ⟨fun hD => ⟨hC, hD⟩, And.right⟩
  | error hC he => exact .error (fun h => hC h.1) he

theorem map (h : Decides C E P r) {f : α → β} (hf : ∀ a, P a → Q (f a)) :
    Decides C E Q (r.map f) := by
  cases h with
  | ok hC ha => exact .ok hC (hf _ ha)
  | error hC he => exact .error hC he

/-- A loop returns where it does on every element. -/
theorem mapM {f : α → Except ε β} {C : α → Prop} {R : α → β → Prop} {l : List α}
    (h : ∀ x ∈ l, Decides (C x) E (R x) (f x)) :
    Decides (∀ x ∈ l, C x) E (List.Forall₂ R l) (l.mapM f) := by
  induction l with
  | nil => exact .ok (fun _ hx => absurd hx List.not_mem_nil) .nil
  | cons x l ih =>
    obtain ⟨hx, hl⟩ := List.forall_mem_cons.mp h
    rw [List.mapM_cons]
    refine Decides.congr (D := ∀ y ∈ x :: l, C y) (hx.bind (D := (∀ y ∈ l, C y) ∧ True)
      fun y hy => (ih hl).bind fun ys hys => .ok trivial (.cons hy hys)) ?_
    rw [and_true, List.forall_mem_cons]

theorem forM {f : α → Except ε PUnit.{u + 1}} {C : α → Prop} {R : α → PUnit → Prop} {l : List α}
    (h : ∀ x ∈ l, Decides (C x) E (R x) (f x)) :
    Decides (∀ x ∈ l, C x) E (fun _ => True) (l.forM f) := by
  induction l with
  | nil => exact .ok (fun _ hx => absurd hx List.not_mem_nil) trivial
  | cons x l ih =>
    obtain ⟨hx, hl⟩ := List.forall_mem_cons.mp h
    exact Decides.congr (hx.bind fun _ _ => ih hl) List.forall_mem_cons.symm

end Decides

end MessageService.Lib
