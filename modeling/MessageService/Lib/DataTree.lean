import Mathlib.Tactic.Common

/-!
# Trees of mappings and sequences

Values built from scalars by sequences, of several kinds, and string-keyed mappings: what an
exception carries as details, or what a template is rendered with. Two operations, each on the whole
tree: a function on the scalars (`map`), and the replacement of whatever is under a hidden key
(`redact`).

* `map_map`, `exists_of_leaf_map`: a function on the scalars keeps everything else.
* `redact_eq_iff`: **two trees are redacted to the same** exactly if they differ beneath hidden keys
  at most (`Agree`).
* `redact_redact`: redaction is a retraction.
* `eq_placeholder_of_under`: whatever is under a hidden key of a redacted tree, at any depth, is the
  placeholder.
-/

namespace MessageService.Lib

universe u v w

/-- A tree: `κ` are the kinds of sequences, `α` the scalars. -/
inductive DataTree (κ : Type u) (α : Type v) where
  | scalar (x : α)
  | seq (kind : κ) (xs : List (DataTree κ α))
  | mapping (es : List (String × DataTree κ α))

namespace DataTree

variable {κ : Type u} {α : Type v} {β : Type w}

/-- Induction over a tree, with one case for sequences and one for mappings. -/
theorem induct {P : DataTree κ α → Prop} (scalar : ∀ x, P (.scalar x))
    (seq : ∀ kind xs, (∀ x ∈ xs, P x) → P (.seq kind xs))
    (mapping : ∀ es, (∀ e ∈ es, P e.2) → P (.mapping es)) (v : DataTree κ α) : P v := by
  refine @DataTree.rec κ α P (fun xs => ∀ x ∈ xs, P x) (fun es => ∀ e ∈ es, P e.2) (fun e => P e.2)
    scalar seq mapping ?_ ?_ ?_ ?_ (fun _ _ h => h) v
  · exact fun x hx => absurd hx List.not_mem_nil
  · exact fun x xs hx hxs => List.forall_mem_cons.mpr ⟨hx, hxs⟩
  · exact fun e he => absurd he List.not_mem_nil
  · exact fun e es he hes => List.forall_mem_cons.mpr ⟨he, hes⟩

/-- `Under k v x`: `x` is under the key `k` in `v`, at any depth. -/
inductive Under (k : String) : DataTree κ α → DataTree κ α → Prop where
  | here {es x} (h : (k, x) ∈ es) : Under k (.mapping es) x
  | entry {es e x} (he : e ∈ es) (h : Under k e.2 x) : Under k (.mapping es) x
  | element {kind xs y x} (hy : y ∈ xs) (h : Under k y x) : Under k (.seq kind xs) x

/-! ## Scalars -/

mutual

/-- A function on the scalars. -/
def map (f : α → β) : DataTree κ α → DataTree κ β
  | .scalar x => .scalar (f x)
  | .seq kind xs => .seq kind (mapElements f xs)
  | .mapping es => .mapping (mapEntries f es)

/-- The elements of a sequence. -/
def mapElements (f : α → β) : List (DataTree κ α) → List (DataTree κ β)
  | [] => []
  | x :: xs => map f x :: mapElements f xs

/-- The entries of a mapping. -/
def mapEntries (f : α → β) : List (String × DataTree κ α) → List (String × DataTree κ β)
  | [] => []
  | (k, v) :: es => (k, map f v) :: mapEntries f es

end

/-- `Leaf x v`: the scalar `x` is in `v`, at any depth. -/
inductive Leaf (x : α) : DataTree κ α → Prop where
  | scalar : Leaf x (.scalar x)
  | element {kind xs v} (hv : v ∈ xs) (h : Leaf x v) : Leaf x (.seq kind xs)
  | entry {es e} (he : e ∈ es) (h : Leaf x e.2) : Leaf x (.mapping es)

theorem mapElements_eq_map (f : α → β) (xs : List (DataTree κ α)) :
    mapElements f xs = xs.map (map f) := by
  induction xs with
  | nil => rfl
  | cons x xs ih => rw [mapElements, List.map_cons, ih]

theorem mapEntries_eq_map (f : α → β) (es : List (String × DataTree κ α)) :
    mapEntries f es = es.map fun e => (e.1, map f e.2) := by
  induction es with
  | nil => rfl
  | cons e es ih => rw [mapEntries, List.map_cons, ih]

theorem map_map {γ : Type w} (f : α → β) (g : β → γ) (v : DataTree κ α) :
    map g (map f v) = map (g ∘ f) v := by
  induction v using induct with
  | scalar x => rfl
  | seq kind xs ih =>
    rw [map, map, map, mapElements_eq_map, mapElements_eq_map, mapElements_eq_map, List.map_map]
    exact congrArg _ (List.map_congr_left ih)
  | mapping es ih =>
    rw [map, map, map, mapEntries_eq_map, mapEntries_eq_map, mapEntries_eq_map, List.map_map]
    refine congrArg _ (List.map_congr_left fun e he => ?_)
    simp only [Function.comp_apply, ih e he]

theorem exists_of_leaf_map {f : α → β} {y : β} {v : DataTree κ α} (h : Leaf y (map f v)) :
    ∃ x, y = f x := by
  induction v using induct with
  | scalar x =>
    cases h
    exact ⟨x, rfl⟩
  | seq kind xs ih =>
    rw [map, mapElements_eq_map] at h
    cases h with
    | element hmem hleaf =>
      obtain ⟨x, hx, rfl⟩ := List.mem_map.mp hmem
      exact ih x hx hleaf
  | mapping es ih =>
    rw [map, mapEntries_eq_map] at h
    cases h with
    | entry hmem hleaf =>
      obtain ⟨e, he, rfl⟩ := List.mem_map.mp hmem
      exact ih e he hleaf

/-! ## Redaction -/

section

variable (hidden : String → Bool) (placeholder : α)

mutual

/-- A tree with the placeholder under each hidden key. -/
def redact : DataTree κ α → DataTree κ α
  | .scalar x => .scalar x
  | .seq kind xs => .seq kind (redactElements xs)
  | .mapping es => .mapping (redactEntries es)

/-- The elements of a sequence. -/
def redactElements : List (DataTree κ α) → List (DataTree κ α)
  | [] => []
  | x :: xs => redact x :: redactElements xs

/-- The entries of a mapping. -/
def redactEntries : List (String × DataTree κ α) → List (String × DataTree κ α)
  | [] => []
  | (k, v) :: es => (k, if hidden k then .scalar placeholder else redact v) :: redactEntries es

end

mutual

/-- The trees differ beneath hidden keys at most. -/
def Agree : DataTree κ α → DataTree κ α → Prop
  | .scalar x, .scalar y => x = y
  | .seq kind xs, .seq kind' ys => kind = kind' ∧ AgreeElements xs ys
  | .mapping es, .mapping fs => AgreeEntries es fs
  | _, _ => False

/-- The same of sequences. -/
def AgreeElements : List (DataTree κ α) → List (DataTree κ α) → Prop
  | [], [] => True
  | x :: xs, y :: ys => Agree x y ∧ AgreeElements xs ys
  | _, _ => False

/-- The same of the entries of mappings. -/
def AgreeEntries : List (String × DataTree κ α) → List (String × DataTree κ α) → Prop
  | [], [] => True
  | (k, v) :: es, (l, w) :: fs => k = l ∧ (hidden k = true ∨ Agree v w) ∧ AgreeEntries es fs
  | _, _ => False

end

variable {hidden placeholder}

theorem redactElements_eq_map (xs : List (DataTree κ α)) :
    redactElements hidden placeholder xs = xs.map (redact hidden placeholder) := by
  induction xs with
  | nil => rfl
  | cons x xs ih => rw [redactElements, List.map_cons, ih]

theorem redactEntries_eq_map (es : List (String × DataTree κ α)) :
    redactEntries hidden placeholder es =
      es.map fun e => (e.1, if hidden e.1 then .scalar placeholder
        else redact hidden placeholder e.2) := by
  induction es with
  | nil => rfl
  | cons e es ih => rw [redactEntries, List.map_cons, ih]

/-- **Redaction keeps** exactly what is beneath no hidden key. -/
theorem redact_eq_iff {v w : DataTree κ α} :
    redact hidden placeholder v = redact hidden placeholder w ↔ Agree hidden v w := by
  induction v using induct generalizing w with
  | scalar x => cases w <;> simp [redact, Agree]
  | seq kind xs ih =>
    cases w with
    | scalar y => simp [redact, Agree]
    | mapping fs => simp [redact, Agree]
    | seq kind' ys =>
      have helements : redactElements hidden placeholder xs =
          redactElements hidden placeholder ys ↔ AgreeElements hidden xs ys := by
        induction xs generalizing ys with
        | nil => cases ys <;> simp [redactElements, AgreeElements]
        | cons x xs ihxs =>
          obtain ⟨hx, hxs⟩ := List.forall_mem_cons.mp ih
          cases ys with
          | nil => simp [redactElements, AgreeElements]
          | cons y ys =>
            rw [redactElements, redactElements, AgreeElements, List.cons.injEq, hx, ihxs hxs]
      rw [redact, redact, Agree, DataTree.seq.injEq, helements]
  | mapping es ih =>
    cases w with
    | scalar y => simp [redact, Agree]
    | seq kind ys => simp [redact, Agree]
    | mapping fs =>
      rw [redact, redact, Agree, DataTree.mapping.injEq]
      induction es generalizing fs with
      | nil => cases fs <;> simp [redactEntries, AgreeEntries]
      | cons e es ihes =>
        obtain ⟨he, hes⟩ := List.forall_mem_cons.mp ih
        obtain ⟨k, v⟩ := e
        cases fs with
        | nil => simp [redactEntries, AgreeEntries]
        | cons f fs =>
          obtain ⟨l, w⟩ := f
          rw [redactEntries, redactEntries, AgreeEntries, List.cons.injEq, Prod.mk.injEq,
            ihes hes, and_assoc]
          refine and_congr_right fun hkey => and_congr_left fun _ => ?_
          subst hkey
          by_cases hk : hidden k = true
          · simp [hk]
          · simp [hk, he]

/-- The same of the entries of a mapping. -/
theorem redactEntries_eq_iff {es fs : List (String × DataTree κ α)} :
    redactEntries hidden placeholder es = redactEntries hidden placeholder fs ↔
      AgreeEntries hidden es fs := by
  have h := @redact_eq_iff κ α hidden placeholder (.mapping es) (.mapping fs)
  rwa [redact, redact, Agree, DataTree.mapping.injEq] at h

/-- **Redacting twice** is redacting once. -/
theorem redact_redact (v : DataTree κ α) :
    redact hidden placeholder (redact hidden placeholder v) = redact hidden placeholder v := by
  induction v using induct with
  | scalar x => rfl
  | seq kind xs ih =>
    rw [redact, redact, redactElements_eq_map, redactElements_eq_map, List.map_map]
    exact congrArg _ (List.map_congr_left ih)
  | mapping es ih =>
    rw [redact, redact, redactEntries_eq_map, redactEntries_eq_map, List.map_map]
    refine congrArg _ (List.map_congr_left fun e he => ?_)
    simp only [Function.comp_apply]
    split_ifs with hk
    · rfl
    · rw [ih e he]

/-- **Nothing is left** under a hidden key, at any depth. -/
theorem eq_placeholder_of_under {v x : DataTree κ α} {k : String} (hk : hidden k = true)
    (h : Under k (redact hidden placeholder v) x) : x = .scalar placeholder := by
  induction v using induct with
  | scalar y => cases h
  | seq kind xs ih =>
    rw [redact, redactElements_eq_map] at h
    cases h with
    | element hmem hunder =>
      obtain ⟨y, hy, rfl⟩ := List.mem_map.mp hmem
      exact ih y hy hunder
  | mapping es ih =>
    rw [redact, redactEntries_eq_map] at h
    cases h with
    | here hmem =>
      obtain ⟨e, -, he⟩ := List.mem_map.mp hmem
      obtain ⟨rfl, rfl⟩ := Prod.mk.inj he
      rw [if_pos hk]
    | entry hmem hunder =>
      obtain ⟨e, he, rfl⟩ := List.mem_map.mp hmem
      simp only at hunder
      split_ifs at hunder with hkey
      · cases hunder
      · exact ih e he hunder

end

end DataTree

end MessageService.Lib
