import MessageService.Lib.Binary64
import MessageService.Lib.DataTree

/-!
# Numbers of a context

Model of `_demote_integral_floats` and `_struct_to_dict` (`interfaces/grpc/servicer.py`): a
`Struct` has doubles only, and the integral ones become integers before a context is used. The
values are those `MessageToDict` returns, and the integers put in their place.

* `datum_demoteScalar`: a scalar keeps what it says.
* `demotion_preserves_values`: so does a whole context, in which no integral double is left.
-/

namespace MessageService.Interfaces

open MessageService.Lib

/-- A scalar of a context. -/
inductive ContextScalar where
  | none
  | bool (b : Bool)
  | int (n : ℤ)
  | float (x : Binary64)
  | str (s : String)
  deriving DecidableEq

/-- A value of a context: its sequences are lists, its mappings dicts. -/
abbrev ContextValue := DataTree Unit ContextScalar

/-- `_demote_integral_floats` of a scalar. A `bool` is an `int` in Python, but no `float`. -/
def demoteScalar : ContextScalar → ContextScalar
  | .bool b => .bool b
  | .float x => if x.isInteger then .int x.toInt else .float x
  | v => v

/-- `_demote_integral_floats`. -/
def demoteIntegralFloats : ContextValue → ContextValue := DataTree.map demoteScalar

/-- `_struct_to_dict`, from what `MessageToDict` returns. -/
def structToDict (result : List (String × ContextValue)) : List (String × ContextValue) :=
  result.map fun e => (e.1, demoteIntegralFloats e.2)

/-- What a scalar says. -/
inductive Datum where
  | null
  | bool (b : Bool)
  | number (n : Number)
  | str (s : String)
  deriving DecidableEq

/-- The exact value of a number; any other scalar as it is. -/
def ContextScalar.datum : ContextScalar → Datum
  | none => .null
  | bool b => .bool b
  | int n => .number (.finite n)
  | float x => .number x.number
  | str s => .str s

theorem datum_demoteScalar : ContextScalar.datum ∘ demoteScalar = ContextScalar.datum := by
  funext v
  simp only [Function.comp_apply]
  cases v with
  | float x =>
    rw [demoteScalar]
    split_ifs with hinteger
    · rw [ContextScalar.datum, ContextScalar.datum, Binary64.number_of_isInteger hinteger]
    · rfl
  | none => rfl
  | bool b => rfl
  | int n => rfl
  | str s => rfl

theorem demoteScalar_demoteScalar : demoteScalar ∘ demoteScalar = demoteScalar := by
  funext v
  simp only [Function.comp_apply]
  cases v with
  | float x =>
    rw [demoteScalar]
    split_ifs with hinteger
    · rfl
    · rw [demoteScalar, if_neg hinteger]
  | none => rfl
  | bool b => rfl
  | int n => rfl
  | str s => rfl

theorem not_isInteger_of_demoteScalar {v : ContextScalar} {x : Binary64}
    (h : .float x = demoteScalar v) : x.isInteger = false := by
  cases v with
  | float y =>
    rw [demoteScalar] at h
    split_ifs at h with hinteger
    cases h
    exact Bool.eq_false_iff.mpr hinteger
  | none => cases h
  | bool b => cases h
  | int n => cases h
  | str s => cases h

/-- **Demotion preserves values.** Shape, keys, strings, booleans and the exact value of every
number stay as they are, no integral double is left at any depth, and demoting twice is demoting
once. -/
theorem demotion_preserves_values (v : ContextValue) :
    DataTree.map ContextScalar.datum (demoteIntegralFloats v) = DataTree.map ContextScalar.datum v ∧
      (∀ x, DataTree.Leaf (.float x) (demoteIntegralFloats v) → x.isInteger = false) ∧
      demoteIntegralFloats (demoteIntegralFloats v) = demoteIntegralFloats v := by
  unfold demoteIntegralFloats
  refine ⟨?_, fun x hx => ?_, ?_⟩
  · rw [DataTree.map_map, datum_demoteScalar]
  · obtain ⟨y, hy⟩ := DataTree.exists_of_leaf_map hx
    exact not_isInteger_of_demoteScalar hy
  · rw [DataTree.map_map, demoteScalar_demoteScalar]

/-- `42.0`, `-0.0`, `0.5` and infinity. -/
example :
    [0x4045000000000000#64, 0x8000000000000000#64, 0x3FE0000000000000#64,
        0x7FF0000000000000#64].map (fun x => demoteScalar (.float x)) =
      [.int 42, .int 0, .float 0x3FE0000000000000#64, .float 0x7FF0000000000000#64] := by
  decide +kernel

end MessageService.Interfaces
