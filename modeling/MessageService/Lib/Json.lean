import Mathlib.Tactic.Common

/-!
# JSON values and dictionaries

JSON values, and Python's `dict` with string keys as a list of entries in insertion order.

* `Dict.set` is `d[k] = v`: the value replaces the one under `k` in its place, or goes to the end.
* `Dict.merge` is `{**a, **b}`; `get?_merge_of_absent` is what the merge keeps of `a`.
* `Dict.erase` is `d.pop(k, None)` as far as `d` is concerned.
-/

namespace MessageService.Lib

universe u

/-- A JSON value. A float is its shortest decimal representation (`repr`). -/
inductive Json where
  | null
  | bool (b : Bool)
  | int (n : Int)
  | float (repr : String)
  | str (s : String)
  | arr (xs : List Json)
  | obj (entries : List (String × Json))
  deriving Repr, Inhabited

/-- A `dict` with string keys. -/
abbrev Dict (α : Type u) := List (String × α)

namespace Dict

variable {α : Type u}

/-- `d.get(k)`. -/
def get? : Dict α → String → Option α
  | [], _ => none
  | (k', v) :: d, k => if k' = k then some v else get? d k

/-- `d[k] = v`. -/
def set : Dict α → String → α → Dict α
  | [], k, v => [(k, v)]
  | (k', v') :: d, k, v => if k' = k then (k', v) :: d else (k', v') :: set d k v

/-- `{**a, **b}`. -/
def merge (a b : Dict α) : Dict α := b.foldl (fun d e => set d e.1 e.2) a

/-- `d` without the key `k`. -/
def erase (d : Dict α) (k : String) : Dict α := d.filter fun e => e.1 ≠ k

@[simp] theorem get?_nil (k : String) : get? ([] : Dict α) k = none := rfl

theorem get?_cons (k' : String) (v : α) (d : Dict α) (k : String) :
    get? ((k', v) :: d) k = if k' = k then some v else get? d k := rfl

theorem get?_set (d : Dict α) (k : String) (v : α) (k' : String) :
    (d.set k v).get? k' = if k = k' then some v else d.get? k' := by
  induction d with
  | nil => rfl
  | cons e d ih =>
    obtain ⟨j, w⟩ := e
    simp only [set]
    by_cases hj : j = k
    · subst hj
      by_cases hk : j = k' <;> simp [get?_cons, hk]
    · by_cases hk : k = k'
      · subst hk
        simp [get?_cons, hj, ih]
      · simp [get?_cons, hj, hk, ih]

theorem get?_merge_of_absent {a b : Dict α} {k : String} (h : b.get? k = none) :
    (merge a b).get? k = a.get? k := by
  unfold merge
  induction b generalizing a with
  | nil => rfl
  | cons e b ih =>
    obtain ⟨j, w⟩ := e
    by_cases hj : j = k
    · simp [get?_cons, hj] at h
    · rw [get?_cons, if_neg hj] at h
      rw [List.foldl_cons, ih h, get?_set, if_neg hj]

theorem get?_eq_none_iff {d : Dict α} {k : String} : d.get? k = none ↔ k ∉ d.map Prod.fst := by
  induction d with
  | nil => simp
  | cons e d ih =>
    obtain ⟨j, w⟩ := e
    by_cases hj : j = k
    · simp [get?_cons, hj]
    · simp [get?_cons, hj, Ne.symm hj, ih]

theorem mem_of_get? {d : Dict α} {k : String} {v : α} (h : d.get? k = some v) : (k, v) ∈ d := by
  induction d with
  | nil => cases h
  | cons e d ih =>
    obtain ⟨j, w⟩ := e
    rw [get?_cons] at h
    split_ifs at h with hj
    · cases h
      exact hj ▸ List.mem_cons_self
    · exact List.mem_cons_of_mem _ (ih h)

theorem get?_of_mem {d : Dict α} (h : (d.map Prod.fst).Nodup) {e : String × α}
    (he : e ∈ d) : d.get? e.1 = some e.2 := by
  induction d with
  | nil => cases he
  | cons x d ih =>
    obtain ⟨hnew, hrest⟩ := List.nodup_cons.mp h
    rw [Dict.get?_cons]
    rcases List.mem_cons.mp he with rfl | he
    · rw [if_pos rfl]
    · have hne : x.1 ≠ e.1 := fun hx => hnew (hx ▸ List.mem_map_of_mem he)
      rw [if_neg hne, ih hrest he]

theorem mem_set {d : Dict α} {k : String} {v : α} {f : String × α}
    (h : f ∈ d.set k v) : f ∈ d ∨ f = (k, v) := by
  induction d with
  | nil => exact .inr (List.mem_singleton.mp h)
  | cons x d ih =>
    rw [Dict.set] at h
    split at h
    · next hx =>
      rcases List.mem_cons.mp h with rfl | h
      · exact .inr (by rw [hx])
      · exact .inl (List.mem_cons_of_mem _ h)
    · rcases List.mem_cons.mp h with rfl | h
      · exact .inl List.mem_cons_self
      · exact (ih h).imp_left (List.mem_cons_of_mem _)

theorem set_of_absent {d : Dict α} {k : String} (h : d.get? k = none) (v : α) :
    d.set k v = d ++ [(k, v)] := by
  induction d with
  | nil => rfl
  | cons e d ih =>
    obtain ⟨j, w⟩ := e
    by_cases hj : j = k
    · simp [get?_cons, hj] at h
    · rw [get?_cons, if_neg hj] at h
      simp only [set, if_neg hj, ih h, List.cons_append]

theorem get?_last {d : Dict α} {k : String} (h : d.get? k = none) (v : α) :
    get? (d ++ [(k, v)]) k = some v := by
  rw [← set_of_absent h, get?_set, if_pos rfl]

/-- Writing the last entry again. -/
theorem set_last {d : Dict α} {k : String} (h : d.get? k = none) (v w : α) :
    Dict.set (d ++ [(k, v)]) k w = d ++ [(k, w)] := by
  induction d with
  | nil => exact if_pos rfl
  | cons e d ih =>
    obtain ⟨j, u⟩ := e
    rw [get?_cons] at h
    split_ifs at h with hj
    rw [List.cons_append, set, if_neg hj, ih h, List.cons_append]

/-- Merging entries with new keys, none of them twice, appends them. -/
theorem merge_of_nodup {a b : Dict α} (h : ((a ++ b).map Prod.fst).Nodup) :
    merge a b = a ++ b := by
  unfold merge
  induction b generalizing a with
  | nil => exact (List.append_nil a).symm
  | cons e b ih =>
    have hset : a.set e.1 e.2 = a ++ [e] := by
      rw [List.map_append, List.nodup_append] at h
      refine set_of_absent (get?_eq_none_iff.mpr fun hmem => ?_) e.2
      exact h.2.2 e.1 hmem e.1 (List.mem_map_of_mem List.mem_cons_self) rfl
    rw [List.append_cons] at h
    rw [List.foldl_cons, hset, ih h, ← List.append_cons]

theorem get?_erase (d : Dict α) (k k' : String) :
    (d.erase k).get? k' = if k' = k then none else d.get? k' := by
  unfold erase
  induction d with
  | nil => simp
  | cons e d ih =>
    obtain ⟨j, w⟩ := e
    by_cases hj : j = k
    · subst hj
      rw [List.filter_cons_of_neg (by simp), ih, get?_cons]
      by_cases hk : k' = j
      · simp [hk]
      · simp [hk, Ne.symm hk]
    · rw [List.filter_cons_of_pos (by simpa using hj), get?_cons, get?_cons, ih]
      by_cases hk : j = k'
      · subst hk
        simp [hj]
      · simp [hk]

end Dict

end MessageService.Lib
