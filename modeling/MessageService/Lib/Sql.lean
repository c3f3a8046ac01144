import Mathlib.Algebra.GroupWithZero.Nat
import Mathlib.Data.List.Dedup
import Mathlib.Tactic.Common

/-!
# SQL conditions

The conditions of a `WHERE` or `ON` clause as SQLite evaluates them on a row: three-valued logic, in
which a comparison with `NULL` is neither true nor false, and positional parameters, which take the
values given to the statement in the order of their occurrence. A row is selected when the condition
is true of it (`Holds`).

* `holds_and`, `holds_or`, `holds_equal`, `holds_isIn`: when a condition holds, by its form. Each
  part of it reads the parameters that the parts before it have left.
* `mem_selectDistinct`: what a `SELECT DISTINCT` of one column from a join returns.
-/

namespace MessageService.Lib.Sql

universe u v

/-! ## Values and truth -/

/-- A value of a column. -/
inductive Value where
  | null
  | integer (n : Int)
  | text (s : String)
  deriving DecidableEq, Repr

/-- The value of a nullable text column. -/
def Value.ofOption : Option String → Value
  | none => null
  | some s => text s

/-- A truth value; `none` is `NULL`. -/
abbrev Truth := Option Bool

namespace Truth

/-- `AND`. -/
def and : Truth → Truth → Truth
  | some false, _ | _, some false => some false
  | some true, some true => some true
  | _, _ => none

/-- `OR`. -/
def or : Truth → Truth → Truth
  | some true, _ | _, some true => some true
  | some false, some false => some false
  | _, _ => none

@[simp] theorem and_eq_true {a b : Truth} : a.and b = some true ↔ a = some true ∧ b = some true := by
  rcases a with _ | _ | _ <;> rcases b with _ | _ | _ <;> simp [and]

@[simp] theorem or_eq_true {a b : Truth} : a.or b = some true ↔ a = some true ∨ b = some true := by
  rcases a with _ | _ | _ <;> rcases b with _ | _ | _ <;> simp [or]

end Truth

namespace Value

/-- `a = b`. -/
def equals (a b : Value) : Truth := if a = null ∨ b = null then none else some (a = b)

/-- `a IN (bs)`. -/
def isIn (a : Value) (bs : List Value) : Truth :=
  bs.foldr (fun b r => (a.equals b).or r) (some false)

@[simp] theorem equals_eq_true {a b : Value} : a.equals b = some true ↔ a = b ∧ b ≠ null := by
  unfold equals
  by_cases ha : a = null
  · subst ha
    simpa using fun h : null = b => h.symm
  · by_cases hb : b = null
    · simp [hb]
    · simp [ha, hb]

theorem isIn_eq_true {a : Value} {bs : List Value} :
    a.isIn bs = some true ↔ a ∈ bs ∧ a ≠ null := by
  unfold isIn
  induction bs with
  | nil => simp
  | cons b bs ih =>
    rw [List.foldr_cons, Truth.or_eq_true, equals_eq_true, ih, List.mem_cons]
    constructor
    · rintro (⟨rfl, h⟩ | ⟨h, hne⟩)
      · exact ⟨.inl rfl, h⟩
      · exact ⟨.inr h, hne⟩
    · rintro ⟨rfl | h, hne⟩
      · exact .inl ⟨rfl, hne⟩
      · exact .inr ⟨h, hne⟩

end Value

/-! ## Conditions -/

/-- An operand over the columns `κ`. -/
inductive Operand (κ : Type u) where
  | column (c : κ)
  | literal (v : Value)
  /-- `?`. -/
  | param

/-- A condition over the columns `κ`. -/
inductive Condition (κ : Type u) where
  | equal (a b : Operand κ)
  | isIn (a : Operand κ) (bs : List (Operand κ))
  | and (c d : Condition κ)
  | or (c d : Condition κ)

variable {κ : Type u}

namespace Operand

/-- How many parameters it takes. -/
def params : Operand κ → Nat
  | param => 1
  | _ => 0

/-- Its value on a row, with the parameters that are left. -/
def eval (row : κ → Value) (ps : List Value) : Operand κ → Value
  | column c => row c
  | literal v => v
  | param => ps.headD .null

/-- The values of a list of operands. -/
def evalList (row : κ → Value) : List (Operand κ) → List Value → List Value
  | [], _ => []
  | a :: as, ps => a.eval row ps :: evalList row as (ps.drop a.params)

theorem evalList_replicate_param (row : κ → Value) (ps qs : List Value) :
    evalList row (List.replicate ps.length param) (ps ++ qs) = ps := by
  induction ps with
  | nil => rfl
  | cons p ps ih => exact congrArg (p :: ·) ih

end Operand

namespace Condition

/-- How many parameters it takes. -/
def params : Condition κ → Nat
  | equal a b => a.params + b.params
  | isIn a bs => a.params + (bs.map Operand.params).sum
  | and c d => c.params + d.params
  | or c d => c.params + d.params

/-- Its truth on a row, with the parameters that are left. -/
def eval (row : κ → Value) : Condition κ → List Value → Truth
  | equal a b, ps => (a.eval row ps).equals (b.eval row (ps.drop a.params))
  | isIn a bs, ps => (a.eval row ps).isIn (Operand.evalList row bs (ps.drop a.params))
  | and c d, ps => (c.eval row ps).and (d.eval row (ps.drop c.params))
  | or c d, ps => (c.eval row ps).or (d.eval row (ps.drop c.params))

/-- It is true of a row. -/
def Holds (row : κ → Value) (c : Condition κ) (ps : List Value) : Prop := c.eval row ps = some true

instance (row : κ → Value) (c : Condition κ) (ps : List Value) : Decidable (c.Holds row ps) :=
  inferInstanceAs (Decidable (_ = _))

variable {row : κ → Value} {ps : List Value} {c d : Condition κ}

@[simp] theorem holds_and :
    (and c d).Holds row ps ↔ c.Holds row ps ∧ d.Holds row (ps.drop c.params) :=
  Truth.and_eq_true

@[simp] theorem holds_or :
    (or c d).Holds row ps ↔ c.Holds row ps ∨ d.Holds row (ps.drop c.params) :=
  Truth.or_eq_true

@[simp] theorem holds_equal {a b : Operand κ} : (equal a b).Holds row ps ↔
    a.eval row ps = b.eval row (ps.drop a.params) ∧ b.eval row (ps.drop a.params) ≠ .null :=
  Value.equals_eq_true

@[simp] theorem holds_isIn {a : Operand κ} {bs : List (Operand κ)} : (isIn a bs).Holds row ps ↔
    a.eval row ps ∈ Operand.evalList row bs (ps.drop a.params) ∧ a.eval row ps ≠ .null :=
  Value.isIn_eq_true

end Condition

/-! ## Queries -/

/-- `SELECT DISTINCT column FROM left JOIN right ON on WHERE cond`, executed with parameters. -/
structure SelectDistinct (κ : Type u) where
  column : κ
  on : Condition κ
  cond : Condition κ

/-- How many parameters it takes. -/
def SelectDistinct.params (q : SelectDistinct κ) : Nat := q.on.params + q.cond.params

/-- It is given as many parameters as it takes. -/
def SelectDistinct.Binds (q : SelectDistinct κ) (ps : List Value) : Prop := q.params = ps.length

instance (q : SelectDistinct κ) (ps : List Value) : Decidable (q.Binds ps) :=
  inferInstanceAs (Decidable (_ = _))

variable {α β : Type v}

/-- What it returns; `row` gives the columns of a pair of rows. -/
def SelectDistinct.rows (q : SelectDistinct κ) (row : α × β → κ → Value) (left : List α)
    (right : List β) (ps : List Value) : List Value :=
  (((left.product right).filter fun r =>
    q.on.Holds (row r) ps ∧ q.cond.Holds (row r) (ps.drop q.on.params)).map
      fun r => row r q.column).dedup

/-- **A value is returned** when it is in the column of some pair of rows that both clauses hold
of. -/
theorem mem_selectDistinct {q : SelectDistinct κ} {row : α × β → κ → Value} {left : List α}
    {right : List β} {ps : List Value} {v : Value} : v ∈ q.rows row left right ps ↔
      ∃ a ∈ left, ∃ b ∈ right, q.on.Holds (row (a, b)) ps ∧
        q.cond.Holds (row (a, b)) (ps.drop q.on.params) ∧ row (a, b) q.column = v := by
  simp only [SelectDistinct.rows, List.mem_dedup, List.mem_map, List.mem_filter, Prod.exists,
    List.pair_mem_product, decide_eq_true_eq]
  constructor
  · rintro ⟨a, b, ⟨⟨ha, hb⟩, hon, hcond⟩, rfl⟩
    exact ⟨a, ha, b, hb, hon, hcond, rfl⟩
  · rintro ⟨a, ha, b, hb, hon, hcond, rfl⟩
    exact ⟨a, b, ⟨⟨ha, hb⟩, hon, hcond⟩, rfl⟩

end MessageService.Lib.Sql
