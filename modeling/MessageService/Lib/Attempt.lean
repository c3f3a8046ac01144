import Mathlib.Tactic.Common

/-!
# Computations that may raise

Inversion rules for `Except`: where a sequence and where a loop stops.
-/

namespace MessageService.Lib

universe u v

variable {α β : Type u} {ε : Type v}

theorem bind_eq_ok_iff {x : Except ε α} {f : α → Except ε β} {b : β} :
    x >>= f = .ok b ↔ ∃ a, x = .ok a ∧ f a = .ok b := by
  cases x with
  | error e => simp [bind, Except.bind]
  | ok a => simp [bind, Except.bind]

theorem bind_ok (a : α) (f : α → Except ε β) : (Except.ok a >>= f) = f a := rfl

theorem map_eq_ok_iff {f : α → β} {x : Except ε α} {b : β} :
    f <$> x = .ok b ↔ ∃ a, x = .ok a ∧ f a = b := by
  cases x with
  | error e => simp [Functor.map, Except.map]
  | ok a => simp [Functor.map, Except.map]

theorem mapError_eq_ok_iff {ε' : Type v} {x : Except ε α} {f : ε → ε'} {a : α} :
    x.mapError f = .ok a ↔ x = .ok a := by
  cases x <;> simp [Except.mapError]

theorem bind_eq_error_iff {x : Except ε α} {f : α → Except ε β} {e : ε} :
    x >>= f = .error e ↔ x = .error e ∨ ∃ a, x = .ok a ∧ f a = .error e := by
  cases x with
  | error e' => simp [bind, Except.bind]
  | ok a => simp [bind, Except.bind]

/-- **A loop raises at its first element that raises.** -/
theorem mapM_eq_error_iff {f : α → Except ε β} {l : List α} {e : ε} :
    l.mapM f = .error e ↔
      ∃ before x after, l = before ++ x :: after ∧ (∀ y ∈ before, ∃ b, f y = .ok b) ∧
        f x = .error e := by
  induction l with
  | nil => simp [pure, Except.pure]
  | cons y l ih =>
    rw [List.mapM_cons, bind_eq_error_iff]
    constructor
    · rintro (h | ⟨b, hb, h⟩)
      · exact ⟨[], y, l, rfl, by simp, h⟩
      · rw [bind_eq_error_iff] at h
        rcases h with h | ⟨bs, -, h⟩
        · obtain ⟨before, x, after, rfl, returned, raised⟩ := ih.mp h
          refine ⟨y :: before, x, after, rfl, ?_, raised⟩
          intro z hz
          rcases List.mem_cons.mp hz with rfl | hz
          · exact ⟨b, hb⟩
          · exact returned z hz
        · cases h
    · rintro ⟨before, x, after, hl, returned, raised⟩
      cases before with
      | nil =>
        obtain ⟨rfl, rfl⟩ := List.cons.inj hl
        exact .inl raised
      | cons z before =>
        obtain ⟨rfl, rfl⟩ := List.cons.inj hl
        obtain ⟨b, hb⟩ := returned y List.mem_cons_self
        refine .inr ⟨b, hb, bind_eq_error_iff.mpr (.inl (ih.mpr ?_))⟩
        exact ⟨before, x, after, rfl, fun w hw => returned w (List.mem_cons_of_mem _ hw), raised⟩

theorem mapM_eq_ok {f : α → Except ε β} {l : List α} {l' : List β} (h : l.mapM f = .ok l') :
    List.Forall₂ (fun a b => f a = .ok b) l l' := by
  induction l generalizing l' with
  | nil =>
    simp only [List.mapM_nil, pure, Except.pure, Except.ok.injEq] at h
    subst h
    exact .nil
  | cons x l ih =>
    rw [List.mapM_cons] at h
    cases hx : f x with
    | error e => rw [hx] at h; cases h
    | ok b =>
      cases hl : l.mapM f with
      | error e => rw [hx, hl] at h; cases h
      | ok bs =>
        rw [hx, hl] at h
        cases h
        exact .cons hx (ih hl)

/-- A loop that undoes `g` at each element. -/
theorem mapM_map_ok {f : β → Except ε α} {g : α → β} {l : List α}
    (h : ∀ a ∈ l, f (g a) = .ok a) : (l.map g).mapM f = .ok l := by
  induction l with
  | nil => rfl
  | cons a l ih =>
    obtain ⟨ha, hl⟩ := List.forall_mem_cons.mp h
    rw [List.map_cons, List.mapM_cons, ha, ih hl]
    rfl

/-- A loop that returns has raised at no element. -/
theorem forM_eq_ok {f : α → Except ε PUnit.{u + 1}} {l : List α} (h : l.forM f = .ok ⟨⟩) :
    ∀ x ∈ l, f x = .ok ⟨⟩ := by
  induction l with
  | nil => exact fun x hx => absurd hx List.not_mem_nil
  | cons y l ih =>
    change (f y >>= fun _ => l.forM f) = _ at h
    cases hy : f y with
    | error e => rw [hy] at h; cases h
    | ok r =>
      rw [hy] at h
      exact List.forall_mem_cons.mpr ⟨hy, ih h⟩

theorem exists_of_mem_mapM {f : α → Except ε β} {l : List α} {l' : List β}
    (h : l.mapM f = .ok l') {b : β} (hb : b ∈ l') : ∃ a ∈ l, f a = .ok b := by
  have hall := mapM_eq_ok h
  clear h
  induction hall with
  | nil => cases hb
  | @cons a c l l' hac _ ih =>
    rcases List.mem_cons.mp hb with rfl | hb
    · exact ⟨a, List.mem_cons_self, hac⟩
    · obtain ⟨x, hx, hxb⟩ := ih hb
      exact ⟨x, List.mem_cons_of_mem _ hx, hxb⟩

/-- A loop that returns has a result for each element. -/
theorem exists_mem_of_mapM {f : α → Except ε β} {l : List α} {l' : List β}
    (h : l.mapM f = .ok l') {a : α} (ha : a ∈ l) : ∃ b ∈ l', f a = .ok b := by
  have hall := mapM_eq_ok h
  clear h
  induction hall with
  | nil => cases ha
  | @cons x c l l' hxc _ ih =>
    rcases List.mem_cons.mp ha with rfl | ha
    · exact ⟨c, List.mem_cons_self, hxc⟩
    · obtain ⟨b, hb, hab⟩ := ih ha
      exact ⟨b, List.mem_cons_of_mem _ hb, hab⟩

end MessageService.Lib
