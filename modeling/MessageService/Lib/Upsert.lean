import Mathlib.Data.List.Induction
import MessageService.Lib.Table

/-!
# Sequences of upserts

`INSERT .. ON CONFLICT DO UPDATE SET ..` as one statement executed again and again. The `SET` list
is a function of two rows (`Upsert.merge`): the one that could not be inserted, and the one that is
there.

* `get?_exec`: one execution changes nothing under another key.
* `get?_foldl_exec`: what a sequence leaves under a key depends on the rows of that key only.
* `Upsert.LastWins`: a column of the `SET` list does not depend on what was there, and the others
  never change. Then **a sequence leaves the last row merged into the first** (`foldl_latest`).
-/

namespace MessageService.Lib

universe u v

/-- An upsert statement. -/
structure Upsert {ρ : Type u} {κ : Type v} (key : ρ → κ) where
  /-- The row that the `SET` list makes, of `excluded` and the old row. -/
  merge : ρ → ρ → ρ
  key_merge : ∀ excluded old, key old = key excluded → key (merge excluded old) = key excluded

namespace Upsert

variable {ρ : Type u} {κ : Type v} {key : ρ → κ} [DecidableEq κ] (u : Upsert key)

/-- Its execution with the row `r`. -/
def exec (t : Table key) (r : ρ) : Table key := t.upsert r (u.merge r) (u.key_merge r)

/-- What it leaves under the key of `r`. -/
def latest (old : Option ρ) (r : ρ) : Option ρ := some ((old.map (u.merge r)).getD r)

theorem get?_exec (t : Table key) (r : ρ) (k : κ) :
    (u.exec t r).get? k = if k = key r then u.latest (t.get? k) r else t.get? k :=
  Table.get?_upsert t r _ _ k

theorem get?_exec_ne {t : Table key} {r : ρ} {k : κ} (h : k ≠ key r) :
    (u.exec t r).get? k = t.get? k := by
  rw [get?_exec, if_neg h]

/-- **A sequence of executions**, read under one key. -/
theorem get?_foldl_exec (l : List ρ) (t : Table key) (k : κ) :
    (l.foldl u.exec t).get? k = (l.filter fun r => key r = k).foldl u.latest (t.get? k) := by
  induction l generalizing t with
  | nil => rfl
  | cons r l ih =>
    rw [List.foldl_cons, ih, get?_exec]
    by_cases hk : key r = k
    · rw [List.filter_cons_of_pos (by simpa using hk), List.foldl_cons, if_pos hk.symm]
    · rw [List.filter_cons_of_neg (by simpa using hk), if_neg (Ne.symm hk)]

/-- The columns of the `SET` list are those of the last row, and the others are left alone. -/
structure LastWins : Prop where
  merge_merge : ∀ a b c, u.merge a (u.merge b c) = u.merge a c
  merge_self : ∀ a, u.merge a a = a

variable {u}

omit [DecidableEq κ] in
theorem foldl_latest_some (h : u.LastWins) (old : ρ) (l : List ρ) :
    l.foldl u.latest (some old) = some ((l.getLast?.map (u.merge · old)).getD old) := by
  induction l using List.reverseRecOn with
  | nil => rfl
  | append_singleton l r ih =>
    rw [List.foldl_concat, ih, List.getLast?_concat, latest, Option.map_some, Option.map_some,
      Option.getD_some, Option.getD_some]
    cases l.getLast? with
    | none => rfl
    | some b => rw [Option.map_some, Option.getD_some, h.merge_merge]

omit [DecidableEq κ] in
/-- **Under a new key** the last row is merged into the first. -/
theorem foldl_latest (h : u.LastWins) (first : ρ) (rest : List ρ) :
    (first :: rest).foldl u.latest none = some (u.merge (rest.getLast?.getD first) first) := by
  rw [List.foldl_cons, latest, Option.map_none, Option.getD_none, foldl_latest_some h]
  cases rest.getLast? with
  | none => exact congrArg some (h.merge_self first).symm
  | some last => rfl

end Upsert

end MessageService.Lib
