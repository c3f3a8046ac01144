import MessageService.Lib.Attempt
import Mathlib.Algebra.GroupWithZero.Nat

/-!
# Python exceptions and strings

What a model of Python code needs of exceptions it does not choose itself: their class with its
bases, the `try` statement that translates some of them and lets the others through (`handling`),
and how an exception travels through a sequence of statements (`escapes_bind`). A `str` is a list of
code points, surrogates included, which is why `encode` can fail.
-/

namespace MessageService.Lib

universe u v

/-- An exception: the name of its class, those of the class's bases, and `str(exc)`. -/
structure PyException where
  className : String
  bases : List String
  text : String
  deriving DecidableEq, Repr

/-- `isinstance(exc, cls)`. -/
def PyException.isA (exc : PyException) (cls : String) : Bool :=
  exc.className = cls || exc.bases.contains cls

/-- `isinstance(exc, classes)`. -/
def PyException.isOneOf (exc : PyException) (classes : List String) : Bool := classes.any exc.isA

/-- What a function raises: an exception it constructs, or one it lets through. -/
inductive Raised (ε : Type u) where
  | own (e : ε)
  | through (exc : PyException)

variable {ε : Type u} {α β : Type v}

/-- `try: x except classes as exc: raise wrap(exc) from exc`. -/
def handling (classes : List String) (wrap : PyException → ε) :
    Except PyException α → Except (Raised ε) α
  | .ok a => .ok a
  | .error exc => .error (if exc.isOneOf classes then .own (wrap exc) else .through exc)

/-- A call outside any `try`. -/
def uncaught : Except PyException α → Except (Raised ε) α
  | .ok a => .ok a
  | .error exc => .error (.through exc)

/-- `exc` is let through. -/
def Escapes (x : Except (Raised ε) α) (exc : PyException) : Prop := x = .error (.through exc)

/-- Every exception of the function's own meets `P`. -/
def OwnErrors (P : ε → Prop) (x : Except (Raised ε) α) : Prop := ∀ e, x = .error (.own e) → P e

@[simp] theorem handling_eq_ok {classes : List String} {wrap : PyException → ε}
    {x : Except PyException α} {a : α} : handling classes wrap x = .ok a ↔ x = .ok a := by
  cases x <;> simp [handling]

@[simp] theorem uncaught_eq_ok {x : Except PyException α} {a : α} :
    (uncaught x : Except (Raised ε) α) = .ok a ↔ x = .ok a := by
  cases x <;> simp [uncaught]

theorem escapes_uncaught {x : Except PyException α} {exc : PyException} :
    Escapes (uncaught x : Except (Raised ε) α) exc ↔ x = .error exc := by
  cases x <;> simp [Escapes, uncaught]

theorem escapes_handling {classes : List String} {wrap : PyException → ε}
    {x : Except PyException α} {exc : PyException} :
    Escapes (handling classes wrap x) exc ↔ x = .error exc ∧ exc.isOneOf classes = false := by
  unfold Escapes
  cases x with
  | ok a => simp [handling]
  | error e =>
    by_cases h : e.isOneOf classes = true
    · simp only [handling, if_pos h, Except.error.injEq, reduceCtorEq, false_iff, not_and]
      rintro rfl
      simp [h]
    · simp only [handling, if_neg h, Except.error.injEq, Raised.through.injEq]
      constructor
      · rintro rfl
        exact ⟨rfl, by simpa using h⟩
      · exact fun h => h.1

theorem escapes_bind {x : Except (Raised ε) α} {f : α → Except (Raised ε) β} {exc : PyException} :
    Escapes (x >>= f) exc ↔ Escapes x exc ∨ ∃ a, x = .ok a ∧ Escapes (f a) exc :=
  bind_eq_error_iff

theorem not_escapes_ok {a : α} {exc : PyException} :
    ¬Escapes (.ok a : Except (Raised ε) α) exc := by
  simp [Escapes]

theorem not_escapes_mapError_own {x : Except ε α} {exc : PyException} :
    ¬Escapes (x.mapError Raised.own) exc := by
  cases x <;> simp [Escapes, Except.mapError]

theorem not_escapes_own {e : ε} {exc : PyException} :
    ¬Escapes (.error (.own e) : Except (Raised ε) α) exc := by
  simp [Escapes]

namespace OwnErrors

variable {P : ε → Prop}

theorem ok (a : α) : OwnErrors P (.ok a) := by
  intro e h
  cases h

theorem own {e : ε} (h : P e) : OwnErrors P (.error (.own e) : Except (Raised ε) α) := by
  intro e' h'
  obtain rfl := Raised.own.inj (Except.error.inj h')
  exact h

theorem mapError_own {x : Except ε α} (h : ∀ e, x = .error e → P e) :
    OwnErrors P (x.mapError Raised.own) := by
  intro e he
  cases x with
  | ok a => cases he
  | error e' =>
    obtain rfl := Raised.own.inj (Except.error.inj he)
    exact h _ rfl

theorem handling {classes : List String} {wrap : PyException → ε} (h : ∀ exc, P (wrap exc))
    (x : Except PyException α) : OwnErrors P (handling classes wrap x) := by
  intro e he
  cases x with
  | ok a => cases he
  | error exc =>
    simp only [Lib.handling] at he
    split at he
    · obtain rfl := Raised.own.inj (Except.error.inj he)
      exact h exc
    · cases he

theorem uncaught (x : Except PyException α) :
    OwnErrors P (uncaught x : Except (Raised ε) α) := by
  intro e he
  cases x <;> cases he

theorem bind {x : Except (Raised ε) α} {f : α → Except (Raised ε) β} (hx : OwnErrors P x)
    (hf : ∀ a, OwnErrors P (f a)) : OwnErrors P (x >>= f) := by
  intro e he
  cases x with
  | ok a => exact hf a e he
  | error r => exact hx e (by simpa [Bind.bind, Except.bind] using he)

end OwnErrors

/-! ## Strings -/

/-- A `str`: its code points. -/
abbrev PyStr := List (Fin 0x110000)

/-- `\r`. -/
def carriageReturn : Fin 0x110000 := 13

/-- A `str` without surrogates. -/
def PyStr.ofString (s : String) : PyStr := s.toList.map fun c => Fin.ofNat _ c.toNat

/-- How many bytes UTF-8 has for a code point. -/
def utf8Width (c : Fin 0x110000) : Nat :=
  if c.val < 0x80 then 1 else if c.val < 0x800 then 2 else if c.val < 0x10000 then 3 else 4

/-- `len(s.encode("utf-8"))`: UTF-8 has no surrogates. -/
def encodedLength (s : PyStr) : Except PyException Nat :=
  if s.any fun c => 0xD800 ≤ c.val && c.val ≤ 0xDFFF then
    .error {
      className := "UnicodeEncodeError"
      bases := ["UnicodeError", "ValueError", "Exception", "BaseException"]
      text := "surrogates not allowed" }
  else .ok (s.map utf8Width).sum

/-- Text-mode reading: a carriage return, with a line feed or without, becomes a line feed.
`afterCr` says that the last character read was one. -/
def translateNewlines (afterCr : Bool) : PyStr → PyStr
  | [] => []
  | c :: cs =>
    if c = carriageReturn then 10 :: translateNewlines true cs
    else if c = 10 ∧ afterCr then translateNewlines false cs
    else c :: translateNewlines false cs

/-- What a file reads as in text mode (`newline=None`). -/
def universalNewlines (s : PyStr) : PyStr := translateNewlines false s

theorem not_mem_translateNewlines (afterCr : Bool) (s : PyStr) :
    carriageReturn ∉ translateNewlines afterCr s := by
  induction s generalizing afterCr with
  | nil => exact List.not_mem_nil
  | cons c s ih =>
    unfold translateNewlines
    split
    · exact List.not_mem_cons_of_ne_of_not_mem (by decide) (ih true)
    · next hc =>
      split
      · exact ih false
      · simpa [Ne.symm hc] using ih false

/-- **Text mode keeps the strings without a carriage return**, and no other. -/
theorem universalNewlines_eq_self_iff {s : PyStr} :
    universalNewlines s = s ↔ carriageReturn ∉ s := by
  constructor
  · intro h
    rw [← h]
    exact not_mem_translateNewlines false s
  · intro h
    unfold universalNewlines
    induction s with
    | nil => rfl
    | cons c s ih =>
      obtain ⟨hc, hs⟩ := List.ne_and_not_mem_of_not_mem_cons h
      simp [translateNewlines, Ne.symm hc, ih hs]

end MessageService.Lib
