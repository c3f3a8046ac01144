import MessageService.Lib.Sql
import Mathlib.Data.List.Sort
import Mathlib.Order.Basic

/-!
# Queries over ordered columns

A `SELECT` whose `WHERE` and `ORDER BY` compare the columns `κ` of a row with each other and with
parameters. The values `τ` of these columns are whatever is stored; what a query asks of the other
columns is a predicate. A comparison with `NULL` is neither true nor false, and `NULL` sorts first.
A `CHECK` is a condition that must not be false (`Test.Passes`).

* `Query.select_map`, `Test.passes_map`: **storing the values in another form changes nothing**, if
  the form keeps their order.
-/

namespace MessageService.Lib.Sql

universe u v w x

variable {κ : Type u} {ρ : Type v} {τ : Type w} {υ : Type x}

namespace Truth

@[simp] theorem and_eq_false {a b : Truth} :
    a.and b = some false ↔ a = some false ∨ b = some false := by
  rcases a with _ | _ | _ <;> rcases b with _ | _ | _ <;> simp [and]

@[simp] theorem or_eq_false {a b : Truth} :
    a.or b = some false ↔ a = some false ∧ b = some false := by
  rcases a with _ | _ | _ <;> rcases b with _ | _ | _ <;> simp [or]

end Truth

/-- What stands in a comparison: a column, or a parameter by its number. -/
inductive Term (κ : Type u) where
  | column (c : κ)
  | param (i : Nat)

/-- A condition on a row. -/
inductive Test (ρ : Type v) (κ : Type u) where
  /-- `a < b`. -/
  | less (a b : Term κ)
  /-- `a <= b`. -/
  | lessEq (a b : Term κ)
  | isNull (c : κ)
  | isNotNull (c : κ)
  /-- A condition on the other columns. -/
  | holds (p : ρ → Bool)
  | and (s t : Test ρ κ)
  | or (s t : Test ρ κ)

/-- A term of an `ORDER BY`. -/
inductive SortKey (ρ : Type v) (κ : Type u) where
  | ascending (c : κ)
  | descending (c : κ)
  /-- By another column; `le a b` says that `a` is not behind `b`. -/
  | other (le : ρ → ρ → Bool)

/-- `SELECT ... WHERE where ORDER BY order`. -/
structure Query (ρ : Type v) (κ : Type u) where
  test : Test ρ κ
  order : List (SortKey ρ κ) := []

/-- A comparison of two values. -/
def compared (r : τ → τ → Bool) : Option τ → Option τ → Truth
  | some a, some b => some (r a b)
  | _, _ => none

/-- The order of `ORDER BY`. -/
def nullsFirst [LE τ] [DecidableLE τ] : Option τ → Option τ → Bool
  | none, _ => true
  | some _, none => false
  | some a, some b => a ≤ b

section

variable (columns : ρ → κ → Option τ) (params : List τ)

/-- Its value. -/
def Term.eval (row : ρ) : Term κ → Option τ
  | column c => columns row c
  | param i => params[i]?

variable [LinearOrder τ]

/-- Its truth on a row. -/
def Test.eval (row : ρ) : Test ρ κ → Truth
  | less a b => compared (fun x y => x < y) (a.eval columns params row) (b.eval columns params row)
  | lessEq a b => compared (fun x y => x ≤ y) (a.eval columns params row) (b.eval columns params row)
  | isNull c => some (columns row c).isNone
  | isNotNull c => some (columns row c).isSome
  | holds p => some (p row)
  | and s t => (s.eval row).and (t.eval row)
  | or s t => (s.eval row).or (t.eval row)

/-- A `CHECK` lets a row pass unless it is false of it. -/
def Test.Passes (t : Test ρ κ) (row : ρ) : Prop := t.eval columns params row ≠ some false

instance (t : Test ρ κ) (row : ρ) : Decidable (t.Passes columns params row) :=
  inferInstanceAs (Decidable (_ ≠ _))

/-- `a` is not behind `b`. -/
def SortKey.le (a b : ρ) : SortKey ρ κ → Bool
  | ascending c => nullsFirst (columns a c) (columns b c)
  | descending c => nullsFirst (columns b c) (columns a c)
  | other le => le a b

/-- `a` is not behind `b` by the first key that tells them apart. -/
def precedes (a b : ρ) : List (SortKey ρ κ) → Bool
  | [] => true
  | k :: ks => k.le columns a b && (!k.le columns b a || precedes a b ks)

/-- The rows of a query, in its order. -/
def Query.select (q : Query ρ κ) (rows : List ρ) : List ρ :=
  (rows.filter fun row => q.test.eval columns params row = some true).insertionSort
    fun a b => precedes columns a b q.order

end

section

variable [LinearOrder τ] {columns : ρ → κ → Option τ} {c : κ} {a b : ρ} {x y : τ}

@[simp] theorem Test.passes_and {params : List τ} {s t : Test ρ κ} :
    (s.and t).Passes columns params a ↔
      s.Passes columns params a ∧ t.Passes columns params a := by
  simp [Test.Passes, Test.eval, not_or]

@[simp] theorem Test.passes_or {params : List τ} {s t : Test ρ κ} :
    (s.or t).Passes columns params a ↔ s.Passes columns params a ∨ t.Passes columns params a := by
  simp [Test.Passes, Test.eval, imp_iff_not_or]

/-- `ORDER BY c`. -/
theorem precedes_ascending (ha : columns a c = some x) (hb : columns b c = some y) :
    precedes columns a b [.ascending c] = true ↔ x ≤ y := by
  simp [precedes, SortKey.le, nullsFirst, ha, hb]

/-- `ORDER BY c, other`. -/
theorem precedes_ascending_other {le : ρ → ρ → Bool} (ha : columns a c = some x)
    (hb : columns b c = some y) :
    precedes columns a b [.ascending c, .other le] = true ↔ x < y ∨ x = y ∧ le a b = true := by
  rcases lt_trichotomy x y with h | rfl | h
  · simp [precedes, SortKey.le, nullsFirst, ha, hb, h, h.le]
  · simp [precedes, SortKey.le, nullsFirst, ha, hb]
  · simp [precedes, SortKey.le, nullsFirst, ha, hb, h.not_ge, h.not_gt, h.ne']

/-- `ORDER BY c DESC, other`. -/
theorem precedes_descending_other {le : ρ → ρ → Bool} (ha : columns a c = some x)
    (hb : columns b c = some y) :
    precedes columns a b [.descending c, .other le] = true ↔ y < x ∨ x = y ∧ le a b = true := by
  rcases lt_trichotomy x y with h | rfl | h
  · simp [precedes, SortKey.le, nullsFirst, ha, hb, h.not_ge, h.not_gt, h.ne]
  · simp [precedes, SortKey.le, nullsFirst, ha, hb]
  · simp [precedes, SortKey.le, nullsFirst, ha, hb, h, h.le]

end

/-! ## Another form of the values -/

/-- `f` keeps the order of the values that meet `P`. -/
def KeepsOrder [LT τ] [LT υ] (P : τ → Prop) (f : τ → υ) : Prop :=
  ∀ x y, P x → P y → (f x < f y ↔ x < y)

/-- A row holds values that meet `P`. -/
def RowMeets (P : τ → Prop) (columns : ρ → κ → Option τ) (row : ρ) : Prop :=
  ∀ c, ∀ x ∈ columns row c, P x

section

variable {P : τ → Prop} {f : τ → υ} {columns : ρ → κ → Option τ} {params : List τ}

theorem Term.meets (hps : ∀ x ∈ params, P x) {row : ρ} (hrow : RowMeets P columns row)
    (a : Term κ) : ∀ x ∈ a.eval columns params row, P x := by
  intro x hx
  cases a with
  | column c => exact hrow c x hx
  | param i => exact hps x (List.mem_of_getElem? hx)

theorem Term.eval_map (row : ρ) (a : Term κ) :
    a.eval (fun r c => (columns r c).map f) (params.map f) row =
      (a.eval columns params row).map f := by
  cases a with
  | column c => rfl
  | param i => exact List.getElem?_map

/-- A comparison that `f` keeps. -/
theorem compared_map {r : τ → τ → Bool} {s : υ → υ → Bool} {a b : Option τ}
    (h : ∀ x ∈ a, ∀ y ∈ b, s (f x) (f y) = r x y) :
    compared s (a.map f) (b.map f) = compared r a b := by
  cases a with
  | none => rfl
  | some x =>
    cases b with
    | none => rfl
    | some y => exact congrArg some (h x rfl y rfl)

/-- Sorting by relations that agree on the list. -/
theorem insertionSort_congr {r s : ρ → ρ → Prop} [DecidableRel r] [DecidableRel s] {l : List ρ}
    (h : ∀ a ∈ l, ∀ b ∈ l, r a b ↔ s a b) : l.insertionSort r = l.insertionSort s := by
  simpa using List.map_insertionSort r s id l h

variable [LinearOrder τ] [LinearOrder υ] (hf : KeepsOrder P f) (hps : ∀ x ∈ params, P x)

theorem KeepsOrder.le_iff (hf : KeepsOrder P f) {x y : τ} (hx : P x) (hy : P y) :
    f x ≤ f y ↔ x ≤ y := by
  rw [← not_lt, ← not_lt, hf y x hy hx]

include hf in
theorem nullsFirst_map {a b : Option τ} (ha : ∀ x ∈ a, P x) (hb : ∀ x ∈ b, P x) :
    nullsFirst (a.map f) (b.map f) = nullsFirst a b := by
  cases a with
  | none => rfl
  | some x =>
    cases b with
    | none => rfl
    | some y => simp only [Option.map_some, nullsFirst, hf.le_iff (ha x rfl) (hb y rfl)]

include hf hps in
/-- **A condition is as true of the stored values** as of the values. -/
theorem Test.eval_map {row : ρ} (hrow : RowMeets P columns row) (t : Test ρ κ) :
    t.eval (fun r c => (columns r c).map f) (params.map f) row = t.eval columns params row := by
  induction t with
  | less a b =>
    simp only [Test.eval, Term.eval_map]
    refine compared_map fun x hx y hy => ?_
    simp only [hf x y (a.meets hps hrow x hx) (b.meets hps hrow y hy)]
  | lessEq a b =>
    simp only [Test.eval, Term.eval_map]
    refine compared_map fun x hx y hy => ?_
    simp only [hf.le_iff (a.meets hps hrow x hx) (b.meets hps hrow y hy)]
  | isNull c => simp [Test.eval]
  | isNotNull c => simp [Test.eval]
  | holds p => rfl
  | and s t ihs iht => rw [Test.eval, ihs, iht, Test.eval]
  | or s t ihs iht => rw [Test.eval, ihs, iht, Test.eval]

include hf hps in
theorem Test.passes_map {row : ρ} (hrow : RowMeets P columns row) (t : Test ρ κ) :
    t.Passes (fun r c => (columns r c).map f) (params.map f) row ↔ t.Passes columns params row := by
  rw [Test.Passes, Test.eval_map hf hps hrow, Test.Passes]

include hf in
theorem SortKey.le_map {a b : ρ} (ha : RowMeets P columns a) (hb : RowMeets P columns b)
    (k : SortKey ρ κ) :
    k.le (fun r c => (columns r c).map f) a b = k.le columns a b := by
  cases k with
  | ascending c => exact nullsFirst_map hf (ha c) (hb c)
  | descending c => exact nullsFirst_map hf (hb c) (ha c)
  | other le => rfl

include hf in
theorem precedes_map {a b : ρ} (ha : RowMeets P columns a) (hb : RowMeets P columns b)
    (ks : List (SortKey ρ κ)) :
    precedes (fun r c => (columns r c).map f) a b ks = precedes columns a b ks := by
  induction ks with
  | nil => rfl
  | cons k ks ih => rw [precedes, SortKey.le_map hf ha hb, SortKey.le_map hf hb ha, ih, precedes]

include hf hps in
/-- **A query over the stored values** selects the rows that it selects over the values, in their
order. -/
theorem Query.select_map {rows : List ρ} (hrows : ∀ row ∈ rows, RowMeets P columns row)
    (q : Query ρ κ) : q.select (fun r c => (columns r c).map f) (params.map f) rows =
      q.select columns params rows := by
  have hfilter : rows.filter (fun row =>
      q.test.eval (fun r c => (columns r c).map f) (params.map f) row = some true) =
        rows.filter fun row => q.test.eval columns params row = some true :=
    List.filter_congr fun row hrow => by rw [Test.eval_map hf hps (hrows row hrow)]
  unfold Query.select
  rw [hfilter]
  refine insertionSort_congr fun a ha b hb => ?_
  rw [precedes_map hf (hrows a (List.mem_of_mem_filter ha)) (hrows b (List.mem_of_mem_filter hb))]

end

end MessageService.Lib.Sql
