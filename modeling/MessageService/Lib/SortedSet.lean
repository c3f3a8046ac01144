import Mathlib.Data.String.Basic
import Mathlib.Order.Basic

/-!
# Finite sets as sorted lists

A finite set over a linear order, held as the list of its elements in increasing order
(`SortedSet`), so that equal sets are equal values and `sorted(s)` is the set's own list.
-/

namespace MessageService.Lib

universe u

variable {α : Type u} [LinearOrder α]

/-- `x` put in its place in a sorted list, once. -/
def insertSorted (x : α) : List α → List α
  | [] => [x]
  | y :: ys => if x < y then x :: y :: ys else if x = y then y :: ys else y :: insertSorted x ys

theorem mem_insertSorted {x y : α} {l : List α} : y ∈ insertSorted x l ↔ y = x ∨ y ∈ l := by
  induction l with
  | nil => simp [insertSorted]
  | cons z l ih =>
    unfold insertSorted
    by_cases h1 : x < z
    · simp [h1]
    · by_cases h2 : x = z
      · subst h2; simp
      · simp only [h1, h2, if_false, List.mem_cons, ih]
        constructor
        · rintro (rfl | rfl | h)
          · exact .inr (.inl rfl)
          · exact .inl rfl
          · exact .inr (.inr h)
        · rintro (rfl | rfl | h)
          · exact .inr (.inl rfl)
          · exact .inl rfl
          · exact .inr (.inr h)

theorem pairwise_insertSorted {x : α} {l : List α} (h : l.Pairwise (· < ·)) :
    (insertSorted x l).Pairwise (· < ·) := by
  induction l with
  | nil => simp [insertSorted]
  | cons z l ih =>
    rw [List.pairwise_cons] at h
    unfold insertSorted
    by_cases h1 : x < z
    · rw [if_pos h1, List.pairwise_cons, List.pairwise_cons]
      refine ⟨?_, h⟩
      intro y hy
      rcases List.mem_cons.mp hy with rfl | hy
      · exact h1
      · exact lt_trans h1 (h.1 y hy)
    · by_cases h2 : x = z
      · rw [if_neg h1, if_pos h2, List.pairwise_cons]
        exact h
      · rw [if_neg h1, if_neg h2, List.pairwise_cons]
        refine ⟨?_, ih h.2⟩
        intro y hy
        rcases mem_insertSorted.mp hy with rfl | hy
        · exact lt_of_le_of_ne (not_lt.mp h1) (Ne.symm h2)
        · exact h.1 y hy

/-- A finite set: its elements in increasing order. -/
structure SortedSet (α : Type u) [LinearOrder α] where
  elems : List α
  sorted : elems.Pairwise (· < ·)
  deriving DecidableEq

namespace SortedSet

/-- The empty set. -/
def empty : SortedSet α := ⟨[], List.Pairwise.nil⟩

/-- The set of the elements of a list. -/
def ofList : List α → SortedSet α
  | [] => empty
  | x :: xs => ⟨insertSorted x (ofList xs).elems, pairwise_insertSorted (ofList xs).sorted⟩

instance : Membership α (SortedSet α) := ⟨fun s x => x ∈ s.elems⟩

instance (x : α) (s : SortedSet α) : Decidable (x ∈ s) := inferInstanceAs (Decidable (x ∈ s.elems))

@[simp] theorem mem_ofList {x : α} {l : List α} : x ∈ ofList l ↔ x ∈ l := by
  change x ∈ (ofList l).elems ↔ _
  induction l with
  | nil => simp [ofList, empty]
  | cons y l ih => simp [ofList, mem_insertSorted, ih]

theorem elems_ofList_eq_nil {l : List α} : (ofList l).elems = [] ↔ l = [] := by
  constructor
  · intro h
    refine List.eq_nil_iff_forall_not_mem.mpr fun x hx => ?_
    have hmem : x ∈ (ofList l).elems := mem_ofList.mpr hx
    rw [h] at hmem
    cases hmem
  · rintro rfl
    rfl

theorem not_mem_of_elems_eq_nil {s : SortedSet α} (h : s.elems = []) (x : α) : x ∉ s := by
  intro hx
  have hmem : x ∈ s.elems := hx
  rw [h] at hmem
  cases hmem

/-- Sets with the same members are equal. -/
theorem ext_of_mem {s s' : SortedSet α} (h : ∀ x, x ∈ s ↔ x ∈ s') : s = s' := by
  have hnodup (s : SortedSet α) : s.elems.Nodup := s.sorted.imp ne_of_lt
  have hperm : s.elems.Perm s'.elems := (List.perm_ext_iff_of_nodup (hnodup s) (hnodup s')).mpr h
  have helems : s.elems = s'.elems :=
    hperm.eq_of_pairwise (fun a b _ _ hab hba => absurd hab (lt_asymm hba)) s.sorted s'.sorted
  cases s
  cases s'
  cases helems
  rfl

/-- `len(s)`. -/
def card (s : SortedSet α) : Nat := s.elems.length

end SortedSet

end MessageService.Lib
