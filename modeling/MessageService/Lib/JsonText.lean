import Mathlib.Data.List.Sort
import Mathlib.Data.List.TakeWhile
import Mathlib.Data.String.Basic
import MessageService.Lib.Json

/-!
# JSON texts

`json.dumps(.., separators=(",", ":"), sort_keys=True)` and `json.loads`, on lists of characters.

* `dumps` writes every object with its keys in order (`sortKeys`), and in printable ASCII: any other
  character of a string is an escape (`escape`).
* `loads` is recursive descent (`scanOnce`), with the length of the text as fuel. A float keeps the
  text it is written in, which is what `float` makes of the text of a `repr`. An escape of a lone
  surrogate is rejected, since it is no `Char`.
* `valid` is what a Python value satisfies: no key of a `dict` is there twice, and a float is a text
  that reads as one. Two values are equal as Python objects when `sortKeys` makes them equal.

`loads_dumps` is the round trip, and `newline_not_mem_dumps` says that a text is one line.
-/

namespace MessageService.Lib.Json

/-- Induction over a value, with one case for lists and one for objects. -/
theorem induct {P : Json → Prop} (null : P .null) (bool : ∀ b, P (.bool b)) (int : ∀ n, P (.int n))
    (float : ∀ r, P (.float r)) (str : ∀ s, P (.str s))
    (arr : ∀ xs, (∀ x ∈ xs, P x) → P (.arr xs))
    (obj : ∀ es, (∀ e ∈ es, P e.2) → P (.obj es)) (v : Json) : P v := by
  refine @Json.rec P (fun xs => ∀ x ∈ xs, P x) (fun es => ∀ e ∈ es, P e.2) (fun e => P e.2)
    null bool int float str arr obj ?_ ?_ ?_ ?_ (fun _ _ h => h) v
  · exact fun x hx => absurd hx List.not_mem_nil
  · exact fun x xs hx hxs => List.forall_mem_cons.mpr ⟨hx, hxs⟩
  · exact fun e he => absurd he List.not_mem_nil
  · exact fun e es he hes => List.forall_mem_cons.mpr ⟨he, hes⟩

/-! ## Writing -/

/-- `ESCAPE_DCT`: the characters with an escape of their own, and its letter. -/
def escapes : List (Char × Char) :=
  [('\\', '\\'), ('"', '"'), ('\x08', 'b'), ('\x0c', 'f'), ('\n', 'n'), ('\r', 'r'), ('\t', 't')]

/-- Four hexadecimal digits. -/
def hexDigits (n : Nat) : List Char :=
  [Nat.digitChar (n / 4096 % 16), Nat.digitChar (n / 256 % 16), Nat.digitChar (n / 16 % 16),
    Nat.digitChar (n % 16)]

/-- `\uXXXX`. -/
def unicodeEscape (n : Nat) : List Char := '\\' :: 'u' :: hexDigits n

/-- A character inside a string literal. -/
def escape (c : Char) : List Char :=
  match escapes.find? fun e => e.1 = c with
  | some e => ['\\', e.2]
  | none =>
    if 32 ≤ c.toNat ∧ c.toNat ≤ 126 then [c]
    else if c.toNat < 65536 then unicodeEscape c.toNat
    else
      -- a surrogate pair
      unicodeEscape (55296 + (c.toNat - 65536) / 1024) ++
        unicodeEscape (56320 + (c.toNat - 65536) % 1024)

/-- A string literal. -/
def quote (s : String) : List Char := '"' :: (s.toList.flatMap escape ++ ['"'])

mutual

/-- The text of a value, the keys of its objects in the order they are in. -/
def text : Json → List Char
  | .null => ['n', 'u', 'l', 'l']
  | .bool true => ['t', 'r', 'u', 'e']
  | .bool false => ['f', 'a', 'l', 's', 'e']
  | .int n => (toString n).toList
  | .float repr => repr.toList
  | .str s => quote s
  | .arr xs => '[' :: elementsText xs
  | .obj es => '\x7b' :: membersText es

/-- The text of a list after its opening bracket. -/
def elementsText : List Json → List Char
  | [] => [']']
  | [x] => text x ++ [']']
  | x :: y :: xs => text x ++ ',' :: elementsText (y :: xs)

/-- The text of an object after its opening brace. -/
def membersText : List (String × Json) → List Char
  | [] => ['\x7d']
  | [(k, v)] => quote k ++ ':' :: (text v ++ ['\x7d'])
  | (k, v) :: e :: es => quote k ++ ':' :: (text v ++ ',' :: membersText (e :: es))

end

/-- The order of two members of an object. -/
abbrev keyLE (a b : String × Json) : Prop := a.1 ≤ b.1

mutual

/-- The value with the keys of every object in order. -/
def sortKeys : Json → Json
  | .arr xs => .arr (sortElements xs)
  | .obj es => .obj ((sortMembers es).insertionSort keyLE)
  | v => v

/-- `sortKeys` on the elements of a list. -/
def sortElements : List Json → List Json
  | [] => []
  | x :: xs => sortKeys x :: sortElements xs

/-- `sortKeys` on the values of an object. -/
def sortMembers : List (String × Json) → List (String × Json)
  | [] => []
  | (k, v) :: es => (k, sortKeys v) :: sortMembers es

end

/-- `json.dumps(v, separators=(",", ":"), sort_keys=True)`. -/
def dumps (v : Json) : List Char := text (sortKeys v)

mutual

/-- `json.dumps(v)`, which writes a space after each comma and each colon and sorts nothing. -/
def spacedText : Json → List Char
  | .arr xs => '[' :: spacedElementsText xs
  | .obj es => '\x7b' :: spacedMembersText es
  | v => text v

/-- A list of it after its opening bracket. -/
def spacedElementsText : List Json → List Char
  | [] => [']']
  | [x] => spacedText x ++ [']']
  | x :: y :: xs => spacedText x ++ ',' :: ' ' :: spacedElementsText (y :: xs)

/-- An object of it after its opening brace. -/
def spacedMembersText : List (String × Json) → List Char
  | [] => ['\x7d']
  | [(k, v)] => quote k ++ ':' :: ' ' :: (spacedText v ++ ['\x7d'])
  | (k, v) :: e :: es =>
    quote k ++ ':' :: ' ' :: (spacedText v ++ ',' :: ' ' :: spacedMembersText (e :: es))

end

/-! ## Reading -/

/-- Whitespace between tokens. -/
def isSpace (c : Char) : Bool := c = ' ' || c = '\t' || c = '\n' || c = '\r'

/-- The text after the whitespace it starts with. -/
def skipSpace (cs : List Char) : List Char := cs.dropWhile isSpace

/-- The value of a hexadecimal digit. -/
def hexValue (c : Char) : Option Nat :=
  if '0' ≤ c ∧ c ≤ '9' then some (c.toNat - 48)
  else if 'a' ≤ c ∧ c ≤ 'f' then some (c.toNat - 87)
  else if 'A' ≤ c ∧ c ≤ 'F' then some (c.toNat - 55)
  else none

/-- The four digits of a `\u` escape. -/
def scanHex : List Char → Option (Nat × List Char)
  | a :: b :: c :: d :: cs => do
    let a ← hexValue a
    let b ← hexValue b
    let c ← hexValue c
    let d ← hexValue d
    some (4096 * a + 256 * b + 16 * c + d, cs)
  | _ => none

/-- The rest of an escape after `\u`, with the second half of a surrogate pair. -/
def scanUnicode (cs : List Char) : Option (Char × List Char) := do
  let (n, cs) ← scanHex cs
  if 55296 ≤ n ∧ n < 56320 then
    match cs with
    | '\\' :: 'u' :: cs =>
      let (m, cs) ← scanHex cs
      if 56320 ≤ m ∧ m < 57344 then
        some (Char.ofNat (65536 + 1024 * (n - 55296) + (m - 56320)), cs)
      else none
    | _ => none
  else if 56320 ≤ n ∧ n < 57344 then none
  else some (Char.ofNat n, cs)

/-- The rest of an escape after its backslash. -/
def scanEscape : List Char → Option (Char × List Char)
  | [] => none
  | 'u' :: cs => scanUnicode cs
  | '/' :: cs => some ('/', cs)
  | e :: cs => (escapes.find? fun x => x.2 = e).map fun x => (x.1, cs)

/-- One character of a string literal. A control character has to be escaped. -/
def scanChar : List Char → Option (Char × List Char)
  | [] => none
  | '\\' :: cs => scanEscape cs
  | c :: cs => if c.toNat < 32 then none else some (c, cs)

/-- The rest of a string literal after its opening quote. -/
def scanString : Nat → List Char → Option (List Char × List Char)
  | 0, _ => none
  | _ + 1, '"' :: cs => some ([], cs)
  | n + 1, cs => do
    let (c, cs) ← scanChar cs
    let (s, cs) ← scanString n cs
    some (c :: s, cs)

/-- A character that passes `p`, if there is one. -/
def scanOptional (p : Char → Bool) : List Char → List Char × List Char
  | [] => ([], [])
  | c :: cs => if p c then ([c], cs) else ([], c :: cs)

/-- The integer part of a number: no digit follows a leading zero. -/
def scanInteger : List Char → Option (List Char × List Char)
  | [] => none
  | c :: cs =>
    if c = '0' then some (['0'], cs)
    else if c.isDigit then some (c :: cs.takeWhile Char.isDigit, cs.dropWhile Char.isDigit)
    else none

/-- The fraction of a number, if there is one. -/
def scanFraction : List Char → List Char × List Char
  | [] => ([], [])
  | c :: cs =>
    let digits := cs.takeWhile Char.isDigit
    if c = '.' ∧ digits ≠ [] then (c :: digits, cs.dropWhile Char.isDigit) else ([], c :: cs)

/-- The exponent of a number, if there is one. -/
def scanExponent : List Char → List Char × List Char
  | [] => ([], [])
  | c :: cs =>
    let (sign, rest) := scanOptional (fun c => c = '-' || c = '+') cs
    let digits := rest.takeWhile Char.isDigit
    if (c = 'e' ∨ c = 'E') ∧ digits ≠ [] then
      (c :: (sign ++ digits), rest.dropWhile Char.isDigit)
    else ([], c :: cs)

/-- `_match_number`. -/
def scanNumber (cs : List Char) : Option (Json × List Char) := do
  let (sign, cs) := scanOptional (fun c => c = '-') cs
  let (digits, cs) ← scanInteger cs
  let (fraction, cs) := scanFraction cs
  let (exponent, cs) := scanExponent cs
  if fraction = [] ∧ exponent = [] then
    let n : Int := Nat.ofDigitChars 10 digits 0
    some (.int (if sign = [] then n else -n), cs)
  else some (.float (String.ofList (sign ++ digits ++ fraction ++ exponent)), cs)

/-- The names a text may use for values. -/
def names : List (List Char × Json) :=
  [("null".toList, .null), ("true".toList, .bool true), ("false".toList, .bool false),
    ("NaN".toList, .float "NaN"), ("Infinity".toList, .float "Infinity"),
    ("-Infinity".toList, .float "-Infinity")]

/-- A name. -/
def scanName (cs : List Char) : Option (Json × List Char) :=
  (names.find? fun e => e.1.isPrefixOf cs).map fun e => (e.2, cs.drop e.1.length)

mutual

/-- `scan_once`: a value at the start of the text. -/
def scanOnce : Nat → List Char → Option (Json × List Char)
  | 0, _ => none
  | n + 1, cs =>
    match cs with
    | '"' :: cs => (scanString cs.length cs).map fun (s, cs) => (.str (String.ofList s), cs)
    | '[' :: cs =>
      if (skipSpace cs).head? = some ']' then some (.arr [], (skipSpace cs).tail)
      else (scanElements n (skipSpace cs)).map fun (xs, cs) => (.arr xs, cs)
    | '\x7b' :: cs =>
      if (skipSpace cs).head? = some '\x7d' then some (.obj [], (skipSpace cs).tail)
      else (scanMembers n (skipSpace cs)).map fun (es, cs) => (.obj (Dict.merge [] es), cs)
    | cs => (scanNumber cs).or (scanName cs)

/-- `JSONArray`, from an element on. -/
def scanElements : Nat → List Char → Option (List Json × List Char)
  | 0, _ => none
  | n + 1, cs => do
    let (x, cs) ← scanOnce n cs
    match skipSpace cs with
    | ']' :: cs => some ([x], cs)
    | ',' :: cs =>
      let (xs, cs) ← scanElements n (skipSpace cs)
      some (x :: xs, cs)
    | _ => none

/-- `JSONObject`, from a key on. -/
def scanMembers : Nat → List Char → Option (List (String × Json) × List Char)
  | 0, _ => none
  | n + 1, '"' :: cs => do
    let (k, cs) ← scanString cs.length cs
    match skipSpace cs with
    | ':' :: cs =>
      let (v, cs) ← scanOnce n (skipSpace cs)
      match skipSpace cs with
      | '\x7d' :: cs => some ([(String.ofList k, v)], cs)
      | ',' :: cs =>
        let (es, cs) ← scanMembers n (skipSpace cs)
        some ((String.ofList k, v) :: es, cs)
      | _ => none
    | _ => none
  | _ + 1, _ => none

end

/-- `json.loads`. -/
def loads (cs : List Char) : Option Json :=
  match scanOnce cs.length (skipSpace cs) with
  | some (v, rest) => if skipSpace rest = [] then some v else none
  | none => none

/-! ## Values that Python can hold -/

/-- The text of a float. -/
def isFloat (repr : String) : Bool :=
  ["NaN", "Infinity", "-Infinity"].contains repr ||
    match scanNumber repr.toList with
    | some (.float r, []) => r = repr
    | _ => false

mutual

/-- No key of an object is there twice, and every float is the text of one. -/
def valid : Json → Bool
  | .float repr => isFloat repr
  | .arr xs => validElements xs
  | .obj es => decide (es.map Prod.fst).Nodup && validMembers es
  | _ => true

/-- `valid` on the elements of a list. -/
def validElements : List Json → Bool
  | [] => true
  | x :: xs => valid x && validElements xs

/-- `valid` on the values of an object. -/
def validMembers : List (String × Json) → Bool
  | [] => true
  | (_, v) :: es => valid v && validMembers es

end

theorem validElements_iff {xs : List Json} : validElements xs = true ↔ ∀ x ∈ xs, x.valid := by
  induction xs with
  | nil => simp [validElements]
  | cons x xs ih => simp [validElements, ih]

theorem validMembers_iff {es : List (String × Json)} :
    validMembers es = true ↔ ∀ e ∈ es, e.2.valid := by
  induction es with
  | nil => simp [validMembers]
  | cons e es ih => simp [validMembers, ih]

theorem valid_arr {xs : List Json} : (arr xs).valid = true ↔ ∀ x ∈ xs, x.valid :=
  validElements_iff

theorem valid_obj {es : List (String × Json)} :
    (obj es).valid = true ↔ (es.map Prod.fst).Nodup ∧ ∀ e ∈ es, e.2.valid := by
  rw [valid, Bool.and_eq_true, decide_eq_true_eq, validMembers_iff]

theorem of_isFloat {repr : String} (h : isFloat repr = true) :
    repr ∈ ["NaN", "Infinity", "-Infinity"] ∨
      scanNumber repr.toList = some (.float repr, []) := by
  rw [isFloat, Bool.or_eq_true, List.contains_iff_mem] at h
  refine h.imp_right fun h => ?_
  split at h
  · next r hr =>
    rw [hr, decide_eq_true_eq.mp h]
  · cases h

/-! ## Strings -/

theorem hexValue_digitChar : ∀ n < 16, hexValue (Nat.digitChar n) = some n := by decide

theorem scanHex_hexDigits {n : Nat} (h : n < 65536) (cs : List Char) :
    scanHex (hexDigits n ++ cs) = some (n, cs) := by
  have hdigit (m : Nat) : hexValue (Nat.digitChar (m % 16)) = some (m % 16) :=
    hexValue_digitChar _ (Nat.mod_lt _ (by decide))
  have hsum : 4096 * (n / 4096 % 16) + 256 * (n / 256 % 16) + 16 * (n / 16 % 16) + n % 16 = n := by
    omega
  simp [scanHex, hexDigits, hdigit, hsum]

theorem scanEscape_of_mem {e : Char × Char} (h : e ∈ escapes) (cs : List Char) :
    scanEscape (e.2 :: cs) = some (e.1, cs) := by
  revert e
  simp [escapes, scanEscape]

/-- A character outside the surrogates. -/
theorem toNat_lt_or (c : Char) : c.toNat < 55296 ∨ 57344 ≤ c.toNat ∧ c.toNat < 1114112 := by
  rcases c.valid with h | ⟨h, h'⟩
  · exact .inl h
  · exact .inr ⟨h, h'⟩

theorem scanUnicode_basic {c : Char} (h : c.toNat < 65536) (cs : List Char) :
    scanUnicode (hexDigits c.toNat ++ cs) = some (c, cs) := by
  have hrange := toNat_lt_or c
  have h1 : ¬(55296 ≤ c.toNat ∧ c.toNat < 56320) := by omega
  have h2 : ¬(56320 ≤ c.toNat ∧ c.toNat < 57344) := by omega
  simp [scanUnicode, scanHex_hexDigits h, h1, h2]

theorem scanUnicode_pair {n m : Nat} (hn : 55296 ≤ n ∧ n < 56320) (hm : 56320 ≤ m ∧ m < 57344)
    (cs : List Char) : scanUnicode (hexDigits n ++ (unicodeEscape m ++ cs)) =
      some (Char.ofNat (65536 + 1024 * (n - 55296) + (m - 56320)), cs) := by
  have h1 : n < 65536 := by omega
  have h2 : m < 65536 := by omega
  simp [scanUnicode, unicodeEscape, scanHex_hexDigits h1, scanHex_hexDigits h2, hn, hm]

/-- The code point of a surrogate pair is the one it was made from. -/
theorem pair_toNat {k : Nat} (h : 65536 ≤ k) :
    65536 + 1024 * (55296 + (k - 65536) / 1024 - 55296) +
      (56320 + (k - 65536) % 1024 - 56320) = k := by
  omega

/-- An escaped character reads back. -/
theorem scanChar_escape (c : Char) (cs : List Char) :
    scanChar (escape c ++ cs) = some (c, cs) := by
  unfold escape
  cases hfind : escapes.find? fun e => e.1 = c with
  | some e =>
    have hc : e.1 = c := by simpa using List.find?_some hfind
    simp [scanChar, scanEscape_of_mem (List.mem_of_find?_eq_some hfind), hc]
  | none =>
    have hne : c ≠ '\\' := by
      rintro rfl
      exact absurd hfind (by decide)
    simp only
    split_ifs with hprint hbasic
    · have h32 : ¬c.toNat < 32 := by omega
      simp [scanChar, h32]
    · simp [unicodeEscape, scanChar, scanEscape, scanUnicode_basic hbasic]
    · have hrange := toNat_lt_or c
      have hpair : scanUnicode (hexDigits (55296 + (c.toNat - 65536) / 1024) ++
          (unicodeEscape (56320 + (c.toNat - 65536) % 1024) ++ cs)) = some (c, cs) := by
        rw [scanUnicode_pair (by omega) (by omega), pair_toNat (by omega), Char.ofNat_toNat]
      rw [unicodeEscape, List.append_assoc, List.cons_append, List.cons_append]
      exact hpair

/-- No escape starts like the end of a literal. -/
theorem escape_cons (c : Char) : ∃ d ds, escape c = d :: ds ∧ d ≠ '"' := by
  unfold escape
  cases hfind : escapes.find? fun e => e.1 = c with
  | some e => exact ⟨_, _, rfl, by decide⟩
  | none =>
    have hne : c ≠ '"' := by
      rintro rfl
      exact absurd hfind (by decide)
    simp only
    split_ifs
    · exact ⟨_, _, rfl, hne⟩
    · exact ⟨_, _, rfl, by decide⟩
    · exact ⟨_, _, rfl, by decide⟩

theorem scanString_quoted (s : List Char) {n : Nat} (h : s.length < n) (cs : List Char) :
    scanString n (s.flatMap escape ++ '"' :: cs) = some (s, cs) := by
  induction s generalizing n with
  | nil =>
    obtain ⟨m, rfl⟩ := Nat.exists_eq_add_of_lt h
    simp [scanString]
  | cons c s ih =>
    obtain ⟨m, rfl⟩ : ∃ m, n = m + 1 := Nat.exists_eq_succ_of_ne_zero (by omega)
    obtain ⟨d, ds, hd, hne⟩ := escape_cons c
    have hchar : scanChar (d :: (ds ++ (s.flatMap escape ++ '"' :: cs))) =
        some (c, s.flatMap escape ++ '"' :: cs) := by
      rw [← List.cons_append, ← hd]
      exact scanChar_escape c _
    rw [List.flatMap_cons, hd, List.cons_append, List.cons_append, List.append_assoc, scanString]
    · simp [hchar, ih (by simpa using h)]
    · exact fun _ e => hne (List.cons.inj e).1

/-! ## Numbers -/

/-- What follows a value inside a text. -/
def Stops (rest : List Char) : Prop := ∀ c ∈ rest.head?, c = ',' ∨ c = ']' ∨ c = '\x7d'

theorem Stops.nil : Stops [] := by simp [Stops]

/-- `f` scans the start of a text, and no character that may follow a value. -/
def Ends {α : Type} (f : List Char → α × List Char) : Prop :=
  ∀ cs rest, Stops rest → f (cs ++ rest) = ((f cs).1, (f cs).2 ++ rest)

theorem Stops.not_isDigit {c : Char} {cs : List Char} (h : Stops (c :: cs)) :
    c.isDigit = false := by
  rcases h c rfl with rfl | rfl | rfl <;> rfl

theorem takeWhile_append {rest : List Char} (h : Stops rest) (cs : List Char) :
    (cs ++ rest).takeWhile Char.isDigit = cs.takeWhile Char.isDigit := by
  induction cs with
  | nil =>
    cases rest with
    | nil => rfl
    | cons c rest => simp [h.not_isDigit]
  | cons c cs ih => simp [List.takeWhile_cons, ih]

theorem dropWhile_append {rest : List Char} (h : Stops rest) (cs : List Char) :
    (cs ++ rest).dropWhile Char.isDigit = cs.dropWhile Char.isDigit ++ rest := by
  induction cs with
  | nil =>
    cases rest with
    | nil => rfl
    | cons c rest => simp [h.not_isDigit]
  | cons c cs ih =>
    rw [List.cons_append, List.dropWhile_cons, List.dropWhile_cons, ih]
    split <;> rfl

theorem ends_of_cons {f : List Char → List Char × List Char} (nil : f [] = ([], []))
    (stop : ∀ c cs, c = ',' ∨ c = ']' ∨ c = '\x7d' → f (c :: cs) = ([], c :: cs))
    (cons : ∀ c cs rest, Stops rest →
      f (c :: (cs ++ rest)) = ((f (c :: cs)).1, (f (c :: cs)).2 ++ rest)) : Ends f := by
  intro cs rest h
  cases cs with
  | cons c cs => exact cons c cs rest h
  | nil =>
    cases rest with
    | nil => simp [nil]
    | cons c rest => simp [nil, stop c rest (h c rfl)]

theorem ends_scanOptional {p : Char → Bool}
    (hp : p ',' = false ∧ p ']' = false ∧ p '\x7d' = false) : Ends (scanOptional p) := by
  refine ends_of_cons rfl ?_ ?_
  · rintro c cs (rfl | rfl | rfl) <;> simp [scanOptional, hp]
  · intro c cs rest _
    by_cases hc : p c <;> simp [scanOptional, hc]

theorem ends_scanFraction : Ends scanFraction := by
  refine ends_of_cons rfl ?_ ?_
  · rintro c cs (rfl | rfl | rfl) <;> simp [scanFraction]
  · intro c cs rest h
    simp only [scanFraction, takeWhile_append h, dropWhile_append h]
    split <;> rfl

theorem ends_scanExponent : Ends scanExponent := by
  refine ends_of_cons rfl ?_ ?_
  · rintro c cs (rfl | rfl | rfl) <;> simp [scanExponent]
  · intro c cs rest h
    have hsign := ends_scanOptional (p := fun c => c = '-' || c = '+') (by decide) cs rest h
    simp only [scanExponent, hsign, takeWhile_append h, dropWhile_append h]
    split <;> rfl

theorem scanInteger_append {cs ds cs' rest : List Char} (h : Stops rest)
    (hcs : scanInteger cs = some (ds, cs')) : scanInteger (cs ++ rest) = some (ds, cs' ++ rest) := by
  cases cs with
  | nil => cases hcs
  | cons c cs =>
    simp only [scanInteger, List.cons_append, takeWhile_append h, dropWhile_append h] at hcs ⊢
    split_ifs at hcs ⊢
    · cases hcs
      rfl
    · cases hcs
      rfl

/-- Scanning a number stops where another token begins. -/
theorem scanNumber_append {cs cs' rest : List Char} {v : Json} (h : Stops rest)
    (hcs : scanNumber cs = some (v, cs')) : scanNumber (cs ++ rest) = some (v, cs' ++ rest) := by
  have hsign := ends_scanOptional (p := fun c => c = '-') (by decide) cs rest h
  simp only [scanNumber, Option.bind_eq_bind, Option.bind_eq_some_iff] at hcs
  obtain ⟨⟨ds, ds'⟩, hint, hcs⟩ := hcs
  simp only [scanNumber, hsign, scanInteger_append h hint, Option.bind_eq_bind, Option.bind_some,
    ends_scanFraction ds' rest h, ends_scanExponent _ rest h]
  by_cases hint' : (scanFraction ds').1 = [] ∧ (scanExponent (scanFraction ds').2).1 = []
  · rw [if_pos hint'] at hcs ⊢
    cases hcs
    rfl
  · rw [if_neg hint'] at hcs ⊢
    cases hcs
    rfl

/-- A number starts with a digit or a sign. -/
theorem scanNumber_cons {cs : List Char} {r : Json × List Char} (h : scanNumber cs = some r) :
    ∃ c cs', cs = c :: cs' ∧ (c = '-' ∨ c.isDigit = true) := by
  cases cs with
  | nil => cases h
  | cons c cs =>
    refine ⟨c, cs, rfl, ?_⟩
    by_contra hc
    rw [not_or] at hc
    have hzero : c ≠ '0' := by
      rintro rfl
      exact hc.2 rfl
    simp [scanNumber, scanOptional, scanInteger, hc, hzero] at h

theorem digitChar_ne_zero : ∀ d < 10, d ≠ 0 → Nat.digitChar d ≠ '0' := by decide

/-- The decimal digits of a positive number do not start with a zero. -/
theorem head_toDigits {n : Nat} (h : n ≠ 0) : (Nat.toDigits 10 n).head? ≠ some '0' := by
  induction n using Nat.strong_induction_on with
  | _ n ih =>
    by_cases hlt : n < 10
    · rw [Nat.toDigits_of_lt_base hlt]
      simpa using digitChar_ne_zero n hlt h
    · have hne : n / 10 ≠ 0 := by omega
      obtain ⟨c, cs, hcs⟩ := List.exists_cons_of_ne_nil (@Nat.toDigits_ne_nil (n / 10) 10)
      have hhead := ih (n / 10) (by omega) hne
      rw [Nat.toDigits_of_base_le (by decide) (by omega), hcs]
      rwa [hcs] at hhead

theorem scanInteger_toDigits (n : Nat) :
    scanInteger (Nat.toDigits 10 n) = some (Nat.toDigits 10 n, []) := by
  by_cases hn : n = 0
  · subst hn
    rfl
  · have hdigit : ∀ c ∈ Nat.toDigits 10 n, c.isDigit = true := fun c hc =>
      Nat.isDigit_of_mem_toDigits (by decide) (by decide) hc
    have hhead := head_toDigits hn
    obtain ⟨c, cs, hcs⟩ := List.exists_cons_of_ne_nil (@Nat.toDigits_ne_nil n 10)
    rw [hcs] at hdigit hhead ⊢
    obtain ⟨hc, hcs⟩ := List.forall_mem_cons.mp hdigit
    have hzero : c ≠ '0' := by simpa using hhead
    have htake : cs.takeWhile Char.isDigit = cs := List.takeWhile_eq_self_iff.mpr hcs
    have hdrop : cs.dropWhile Char.isDigit = [] := List.dropWhile_eq_nil_iff.mpr hcs
    simp [scanInteger, hzero, hc, htake, hdrop]

theorem scanNumber_digits {cs sign : List Char} {n : Nat}
    (h : scanOptional (fun c => c = '-') cs = (sign, Nat.toDigits 10 n)) :
    scanNumber cs = some (.int (if sign = [] then (n : Int) else -(n : Int)), []) := by
  simp only [scanNumber, h, scanInteger_toDigits, Option.bind_eq_bind, Option.bind_some,
    Nat.ofDigitChars_ten_toDigits]
  rfl

/-- The text of an integer reads back. -/
theorem scanNumber_int (n : Int) : scanNumber (toString n).toList = some (.int n, []) := by
  rw [Int.toString_eq_repr, Int.repr_eq_if]
  by_cases hn : 0 ≤ n
  · rw [if_pos hn, Nat.toList_repr]
    have hsign : scanOptional (fun c => c = '-') (Nat.toDigits 10 n.toNat) =
        ([], Nat.toDigits 10 n.toNat) := by
      obtain ⟨c, cs, hcs⟩ := List.exists_cons_of_ne_nil (@Nat.toDigits_ne_nil n.toNat 10)
      have hdigit : c.isDigit = true :=
        Nat.isDigit_of_mem_toDigits (by decide) (by decide) (hcs ▸ List.mem_cons_self)
      have hc : c ≠ '-' := by
        rintro rfl
        exact absurd hdigit (by decide)
      simp [hcs, scanOptional, hc]
    simpa [Int.toNat_of_nonneg hn] using scanNumber_digits hsign
  · rw [if_neg hn, String.toList_append, Nat.toList_repr]
    have hsign : scanOptional (fun c => c = '-') ("-".toList ++ Nat.toDigits 10 (-n).toNat) =
        (['-'], Nat.toDigits 10 (-n).toNat) := rfl
    have habs : ((-n).toNat : Int) = -n := Int.toNat_of_nonneg (by omega)
    simpa [habs] using scanNumber_digits hsign

/-! ## The round trip -/

/-- `c` may be the first character of a value. -/
def opens (c : Char) : Bool := !isSpace c && c ≠ ']'

theorem opens_of_number {c : Char} (h : c = '-' ∨ c.isDigit = true) : opens c = true := by
  by_contra hc
  simp only [opens, isSpace, Bool.and_eq_true, Bool.not_eq_true', Bool.or_eq_false_iff,
    decide_eq_false_iff_not, decide_eq_true_eq, not_and_or, not_not] at hc
  rcases hc with (((rfl | rfl) | rfl) | rfl) | rfl <;> revert h <;> decide

theorem text_cons {v : Json} (h : v.valid = true) :
    ∃ c cs, text v = c :: cs ∧ opens c = true := by
  cases v with
  | null => exact ⟨_, _, rfl, rfl⟩
  | bool b => cases b <;> exact ⟨_, _, rfl, rfl⟩
  | int n =>
    obtain ⟨c, cs, hcs, hc⟩ := scanNumber_cons (scanNumber_int n)
    exact ⟨c, cs, hcs, opens_of_number hc⟩
  | float repr =>
    rcases of_isFloat h with h | h
    · simp only [List.mem_cons, List.not_mem_nil, or_false] at h
      rcases h with rfl | rfl | rfl <;> exact ⟨_, _, rfl, rfl⟩
    · obtain ⟨c, cs, hcs, hc⟩ := scanNumber_cons h
      exact ⟨c, cs, hcs, opens_of_number hc⟩
  | str s => exact ⟨_, _, rfl, rfl⟩
  | arr xs => exact ⟨_, _, rfl, rfl⟩
  | obj es => exact ⟨_, _, rfl, rfl⟩

theorem skipSpace_of_opens {c : Char} {cs : List Char} (h : opens c = true) :
    skipSpace (c :: cs) = c :: cs := by
  rw [opens, Bool.and_eq_true, Bool.not_eq_true'] at h
  rw [skipSpace, List.dropWhile_cons_of_neg]
  simp [h.1]

theorem skipSpace_text {v : Json} (h : v.valid = true) (cs : List Char) :
    skipSpace (text v ++ cs) = text v ++ cs := by
  obtain ⟨c, ds, hds, hc⟩ := text_cons h
  rw [hds, List.cons_append, skipSpace_of_opens hc]

/-- With as much fuel as its text is long, `v` reads back from the start of a text. -/
def Reads (v : Json) : Prop :=
  ∀ n rest, (text v).length ≤ n → Stops rest → scanOnce n (text v ++ rest) = some (v, rest)

/-- A scalar is what the number and the name scanner read. -/
theorem reads_scalar {v : Json} {c : Char} {cs : List Char} (htext : text v = c :: cs)
    (hc : c ≠ '"' ∧ c ≠ '[' ∧ c ≠ '\x7b')
    (h : ∀ rest, Stops rest →
      (scanNumber (text v ++ rest)).or (scanName (text v ++ rest)) = some (v, rest)) :
    Reads v := by
  intro n rest hn hrest
  rw [htext] at hn
  obtain ⟨m, rfl⟩ : ∃ m, n = m + 1 := Nat.exists_eq_succ_of_ne_zero (by
    rintro rfl
    cases hn)
  rw [← h rest hrest, htext, List.cons_append, scanOnce]
  · exact fun _ e => hc.1 (List.cons.inj e).1
  · exact fun _ e => hc.2.1 (List.cons.inj e).1
  · exact fun _ e => hc.2.2 (List.cons.inj e).1

theorem reads_of_scanNumber {v : Json} (h : scanNumber (text v) = some (v, [])) : Reads v := by
  obtain ⟨c, cs, hcs, hc⟩ := scanNumber_cons h
  refine reads_scalar hcs ?_ fun rest hrest => by rw [scanNumber_append hrest h]; rfl
  refine ⟨?_, ?_, ?_⟩ <;> rintro rfl <;> revert hc <;> decide

theorem reads_null : Reads .null :=
  reads_scalar rfl (by decide) fun _ _ => rfl

theorem reads_bool (b : Bool) : Reads (.bool b) := by
  cases b
  · exact reads_scalar rfl (by decide) fun _ _ => rfl
  · exact reads_scalar rfl (by decide) fun _ _ => rfl

theorem reads_float {repr : String} (h : isFloat repr = true) : Reads (.float repr) := by
  rcases of_isFloat h with h | h
  · simp only [List.mem_cons, List.not_mem_nil, or_false] at h
    rcases h with rfl | rfl | rfl <;> exact reads_scalar rfl (by decide) fun _ _ => rfl
  · exact reads_of_scanNumber h

theorem length_le_flatMap_escape (s : List Char) : s.length ≤ (s.flatMap escape).length := by
  induction s with
  | nil => exact Nat.le_refl _
  | cons c s ih =>
    obtain ⟨d, ds, hd, -⟩ := escape_cons c
    rw [List.flatMap_cons, hd, List.cons_append, List.length_cons, List.length_cons,
      List.length_append]
    omega

/-- A string literal reads back. -/
theorem scanString_quote (s : String) (cs : List Char) :
    scanString (s.toList.flatMap escape ++ '"' :: cs).length
      (s.toList.flatMap escape ++ '"' :: cs) = some (s.toList, cs) := by
  refine scanString_quoted _ ?_ _
  have hle := length_le_flatMap_escape s.toList
  rw [List.length_append, List.length_cons]
  omega

theorem reads_str (s : String) : Reads (.str s) := by
  intro n rest hn _
  obtain ⟨m, rfl⟩ : ∃ m, n = m + 1 := Nat.exists_eq_succ_of_ne_zero (by
    rintro rfl
    cases hn)
  simp only [text, quote, List.cons_append, List.append_assoc, List.nil_append, scanOnce,
    scanString_quote, Option.map_some, String.ofList_toList]

theorem stops_cons {c : Char} (h : c = ',' ∨ c = ']' ∨ c = '\x7d') (cs : List Char) :
    Stops (c :: cs) := by
  rintro d hd
  rw [List.head?_cons, Option.mem_some_iff] at hd
  exact hd ▸ h

theorem scanElements_text {xs : List Json} (hne : xs ≠ []) (hvalid : ∀ x ∈ xs, x.valid = true)
    (hreads : ∀ x ∈ xs, Reads x) {n : Nat} (hn : (elementsText xs).length ≤ n)
    (rest : List Char) : scanElements n (elementsText xs ++ rest) = some (xs, rest) := by
  induction xs generalizing n with
  | nil => exact absurd rfl hne
  | cons x xs ih =>
    have hx := hreads x List.mem_cons_self
    obtain ⟨m, rfl⟩ : ∃ m, n = m + 1 := by
      obtain ⟨c, cs, hcs, -⟩ := text_cons (hvalid x List.mem_cons_self)
      cases xs <;> cases n <;> simp [elementsText, hcs] at hn ⊢
    cases xs with
    | nil =>
      rw [elementsText, List.length_append] at hn
      have hread := hx m (']' :: rest) (Nat.le_of_succ_le_succ hn) (stops_cons (by simp) rest)
      rw [elementsText, List.append_assoc, List.singleton_append, scanElements, hread]
      rfl
    | cons y ys =>
      rw [elementsText, List.length_append, List.length_cons] at hn
      have hread := hx m (',' :: (elementsText (y :: ys) ++ rest)) (by omega)
        (stops_cons (by simp) _)
      have hskip : skipSpace (elementsText (y :: ys) ++ rest) = elementsText (y :: ys) ++ rest := by
        have hy := hvalid y (List.mem_cons_of_mem _ List.mem_cons_self)
        cases ys <;> rw [elementsText, List.append_assoc, skipSpace_text hy]
      have hrest := ih (List.cons_ne_nil _ _) (fun z hz => hvalid z (List.mem_cons_of_mem _ hz))
        (fun z hz => hreads z (List.mem_cons_of_mem _ hz)) (n := m) (by omega)
      have hcomma : skipSpace (',' :: (elementsText (y :: ys) ++ rest)) =
          ',' :: (elementsText (y :: ys) ++ rest) := rfl
      rw [elementsText, List.append_assoc, List.cons_append, scanElements, hread]
      simp only [Option.bind_eq_bind, Option.bind_some, hcomma, hskip, hrest]

theorem scanMembers_text {es : List (String × Json)} (hne : es ≠ [])
    (hvalid : ∀ e ∈ es, e.2.valid = true) (hreads : ∀ e ∈ es, Reads e.2) {n : Nat}
    (hn : (membersText es).length ≤ n) (rest : List Char) :
    scanMembers n (membersText es ++ rest) = some (es, rest) := by
  induction es generalizing n with
  | nil => exact absurd rfl hne
  | cons e es ih =>
    obtain ⟨k, v⟩ := e
    have hv : Reads v := hreads (k, v) List.mem_cons_self
    have hskipv := skipSpace_text (hvalid (k, v) List.mem_cons_self)
    obtain ⟨m, rfl⟩ : ∃ m, n = m + 1 := by
      cases es <;> cases n <;> simp [membersText, quote] at hn ⊢
    cases es with
    | nil =>
      simp only [membersText, quote, List.length_append, List.length_cons, List.cons_append] at hn
      have hread := hv m ('\x7d' :: rest) (by omega) (stops_cons (by simp) rest)
      have hcolon (cs : List Char) : skipSpace (':' :: cs) = ':' :: cs := rfl
      have hbrace : skipSpace ('\x7d' :: rest) = '\x7d' :: rest := rfl
      simp only [membersText, quote, List.append_assoc, List.cons_append, List.nil_append,
        scanMembers, scanString_quote, Option.bind_eq_bind, Option.bind_some, hcolon, hskipv,
        hread, hbrace, String.ofList_toList]
    | cons e' es =>
      simp only [membersText, quote, List.length_append, List.length_cons, List.cons_append] at hn
      have hread := hv m (',' :: (membersText (e' :: es) ++ rest)) (by omega)
        (stops_cons (by simp) _)
      have hskip : skipSpace (membersText (e' :: es) ++ rest) = membersText (e' :: es) ++ rest := by
        obtain ⟨k', v'⟩ := e'
        cases es <;> rfl
      have hrest := ih (List.cons_ne_nil _ _) (fun z hz => hvalid z (List.mem_cons_of_mem _ hz))
        (fun z hz => hreads z (List.mem_cons_of_mem _ hz)) (n := m) (by omega)
      have hcolon (cs : List Char) : skipSpace (':' :: cs) = ':' :: cs := rfl
      have hcomma (cs : List Char) : skipSpace (',' :: cs) = ',' :: cs := rfl
      simp only [membersText, quote, List.append_assoc, List.cons_append, List.nil_append,
        scanMembers, scanString_quote, Option.bind_eq_bind, Option.bind_some, hcolon, hskipv,
        hread, hcomma, hskip, hrest, String.ofList_toList]

/-- **Every valid value reads back from the start of a text.** -/
theorem reads_of_valid (v : Json) (h : v.valid = true) : Reads v := by
  induction v using induct with
  | null => exact reads_null
  | bool b => exact reads_bool b
  | int n => exact reads_of_scanNumber (scanNumber_int n)
  | float repr => exact reads_float h
  | str s => exact reads_str s
  | arr xs ih =>
    rw [valid_arr] at h
    have hreads : ∀ x ∈ xs, Reads x := fun x hx => ih x hx (h x hx)
    intro n rest hn _
    obtain ⟨m, rfl⟩ : ∃ m, n = m + 1 := Nat.exists_eq_succ_of_ne_zero (by
      rintro rfl
      cases hn)
    cases xs with
    | nil => rfl
    | cons x xs =>
      have hx := h x List.mem_cons_self
      obtain ⟨c, cs, hcs, hc⟩ : ∃ c cs, elementsText (x :: xs) = c :: cs ∧ opens c = true := by
        obtain ⟨c, cs, hcs, hc⟩ := text_cons hx
        cases xs <;> exact ⟨c, _, by rw [elementsText, hcs]; rfl, hc⟩
      have hbracket : c ≠ ']' := by
        rintro rfl
        cases hc
      have hread := scanElements_text (List.cons_ne_nil x xs) h hreads
        (Nat.le_of_succ_le_succ hn) rest
      rw [hcs, List.cons_append] at hread
      rw [text, hcs, List.cons_append, List.cons_append, scanOnce, skipSpace_of_opens hc,
        List.head?_cons, if_neg (fun e => hbracket (Option.some.inj e)), hread]
      rfl
  | obj es ih =>
    rw [valid_obj] at h
    have hreads : ∀ e ∈ es, Reads e.2 := fun e he => ih e he (h.2 e he)
    intro n rest hn _
    obtain ⟨m, rfl⟩ : ∃ m, n = m + 1 := Nat.exists_eq_succ_of_ne_zero (by
      rintro rfl
      cases hn)
    cases es with
    | nil => rfl
    | cons e es =>
      obtain ⟨cs, hcs⟩ : ∃ cs, membersText (e :: es) = '"' :: cs := by
        obtain ⟨k, v⟩ := e
        cases es <;> exact ⟨_, rfl⟩
      have hread := scanMembers_text (List.cons_ne_nil e es) h.2 hreads
        (Nat.le_of_succ_le_succ hn) rest
      rw [hcs, List.cons_append] at hread
      have hquote : skipSpace ('"' :: (cs ++ rest)) = '"' :: (cs ++ rest) := rfl
      rw [text, hcs, List.cons_append, List.cons_append, scanOnce, hquote, List.head?_cons,
        if_neg (by decide), hread, Option.map_some]
      exact congrArg (fun es => some (obj es, rest)) (Dict.merge_of_nodup h.1)

theorem loads_text {v : Json} (h : v.valid = true) : loads (text v) = some v := by
  have hskip := skipSpace_text h []
  have hread := reads_of_valid v h (text v).length [] (Nat.le_refl _) Stops.nil
  rw [List.append_nil] at hskip hread
  rw [loads, hskip, hread]
  rfl

theorem sortElements_eq (xs : List Json) : sortElements xs = xs.map sortKeys := by
  induction xs with
  | nil => rfl
  | cons x xs ih => rw [sortElements, ih, List.map_cons]

theorem sortMembers_eq (es : List (String × Json)) :
    sortMembers es = es.map fun e => (e.1, e.2.sortKeys) := by
  induction es with
  | nil => rfl
  | cons e es ih => rw [sortMembers, ih, List.map_cons]

/-- Sorting the keys does not change the keys, up to order. -/
theorem perm_sortKeys (es : List (String × Json)) :
    ((sortMembers es).insertionSort keyLE).Perm
      (es.map fun e => (e.1, e.2.sortKeys)) := by
  rw [sortMembers_eq]
  exact List.perm_insertionSort _ _

/-- A member is found under its key, whatever the order of the keys. -/
theorem get?_sortKeys {es : List (String × Json)} (h : (es.map Prod.fst).Nodup)
    {e : String × Json} (he : e ∈ es) :
    Dict.get? ((sortMembers es).insertionSort keyLE) e.1 = some e.2.sortKeys := by
  have hperm := perm_sortKeys es
  have hkeys : (((sortMembers es).insertionSort keyLE).map Prod.fst).Nodup := by
    rw [(hperm.map Prod.fst).nodup_iff, List.map_map]
    exact h
  have hmem : (e.1, e.2.sortKeys) ∈ (sortMembers es).insertionSort keyLE :=
    hperm.mem_iff.mpr (List.mem_map_of_mem he)
  exact Dict.get?_of_mem hkeys hmem

theorem valid_sortKeys {v : Json} (h : v.valid = true) : v.sortKeys.valid = true := by
  induction v using induct with
  | null => rfl
  | bool b => rfl
  | int n => rfl
  | float repr => exact h
  | str s => rfl
  | arr xs ih =>
    rw [valid_arr] at h
    rw [sortKeys, sortElements_eq, valid_arr, List.forall_mem_map]
    exact fun x hx => ih x hx (h x hx)
  | obj es ih =>
    rw [valid_obj] at h
    have hperm := perm_sortKeys es
    rw [sortKeys, valid_obj]
    refine ⟨?_, ?_⟩
    · rw [(hperm.map Prod.fst).nodup_iff, List.map_map]
      exact h.1
    · intro e he
      obtain ⟨e', he', rfl⟩ := List.mem_map.mp (hperm.mem_iff.mp he)
      exact ih e' he' (h.2 e' he')

/-- **Round trip.** What was written reads back as the same value, its keys in order. -/
theorem loads_dumps {v : Json} (h : v.valid = true) : loads (dumps v) = some v.sortKeys :=
  loads_text (valid_sortKeys h)

example : (loads " \x7b\"k\": [1, -2.50e3, \"\\u00e9\\ud83d\\ude00\"]\x7d ".toList).map dumps =
    some "\x7b\"k\":[1,-2.50e3,\"\\u00e9\\ud83d\\ude00\"]\x7d".toList := by
  decide +kernel

theorem total_keyLE : Std.Total keyLE := ⟨fun a b => le_total a.1 b.1⟩

theorem isTrans_keyLE : IsTrans _ keyLE := ⟨fun _ _ _ hab hbc => le_trans hab hbc⟩

theorem sortKeys_sortKeys (v : Json) : v.sortKeys.sortKeys = v.sortKeys := by
  induction v using induct with
  | null => rfl
  | bool b => rfl
  | int n => rfl
  | float repr => rfl
  | str s => rfl
  | arr xs ih =>
    rw [sortKeys, sortKeys, sortElements_eq, sortElements_eq, List.map_map]
    exact congrArg arr (List.map_congr_left ih)
  | obj es ih =>
    have htotal := total_keyLE
    have htrans := isTrans_keyLE
    have hmap : (es.map fun e => (e.1, e.2.sortKeys)).map (fun e => (e.1, e.2.sortKeys)) =
        es.map fun e => (e.1, e.2.sortKeys) := by
      rw [List.map_map]
      exact List.map_congr_left fun e he => congrArg (Prod.mk e.1) (ih e he)
    -- the keys stay, so sorting the values inside and sorting the members commute
    have hcomm := List.map_insertionSort keyLE keyLE (fun e => (e.1, e.2.sortKeys))
      (es.map fun e => (e.1, e.2.sortKeys)) fun _ _ _ _ => Iff.rfl
    rw [sortKeys, sortKeys, sortMembers_eq, sortMembers_eq, hcomm, hmap,
      (List.pairwise_insertionSort _ _).insertionSort_eq]

/-! ## One line -/

theorem newline_not_mem_hexDigits (n : Nat) : '\n' ∉ hexDigits n := by
  have hdigit : ∀ d < 16, '\n' ≠ Nat.digitChar d := by decide
  have hmod (m : Nat) : '\n' ≠ Nat.digitChar (m % 16) := hdigit _ (Nat.mod_lt _ (by decide))
  simp [hexDigits, hmod]

theorem newline_not_mem_escape (c : Char) : '\n' ∉ escape c := by
  have hunicode (n : Nat) : '\n' ∉ unicodeEscape n := by
    simp [unicodeEscape, newline_not_mem_hexDigits]
  unfold escape
  cases hfind : escapes.find? fun e => e.1 = c with
  | some e =>
    have hletter : ∀ e ∈ escapes, '\n' ∉ ['\\', e.2] := by decide
    exact hletter e (List.mem_of_find?_eq_some hfind)
  | none =>
    have hne : '\n' ≠ c := by
      rintro rfl
      exact absurd hfind (by decide)
    simp only
    split_ifs
    · simpa using hne
    · exact hunicode _
    · simp [hunicode]

theorem newline_not_mem_quote (s : String) : '\n' ∉ quote s := by
  simp [quote, newline_not_mem_escape]

/-- A character of a number. -/
def isNumeric (c : Char) : Bool := c.isDigit || ['-', '+', '.', 'e', 'E'].contains c

theorem isNumeric_digits {cs : List Char} : ∀ c ∈ cs.takeWhile Char.isDigit, isNumeric c = true :=
  fun c hc => by rw [isNumeric, List.mem_takeWhile_imp hc, Bool.true_or]

theorem isNumeric_scanOptional {p : Char → Bool} (hp : ∀ c, p c = true → isNumeric c = true)
    (cs : List Char) : ∀ c ∈ (scanOptional p cs).1, isNumeric c = true := by
  cases cs with
  | nil => simp [scanOptional]
  | cons c cs =>
    by_cases hc : p c = true
    · simpa [scanOptional, hc] using hp c hc
    · simp [scanOptional, hc]

theorem isNumeric_scanInteger {cs ds cs' : List Char} (h : scanInteger cs = some (ds, cs')) :
    ∀ c ∈ ds, isNumeric c = true := by
  cases cs with
  | nil => cases h
  | cons c cs =>
    simp only [scanInteger] at h
    split_ifs at h with hzero hdigit
    · cases h
      exact List.forall_mem_singleton.mpr rfl
    · cases h
      refine List.forall_mem_cons.mpr ⟨?_, isNumeric_digits⟩
      rw [isNumeric, hdigit, Bool.true_or]

theorem isNumeric_scanFraction (cs : List Char) :
    ∀ c ∈ (scanFraction cs).1, isNumeric c = true := by
  cases cs with
  | nil => simp [scanFraction]
  | cons c cs =>
    simp only [scanFraction]
    split
    · next h =>
      obtain ⟨rfl, -⟩ := h
      exact List.forall_mem_cons.mpr ⟨rfl, isNumeric_digits⟩
    · simp

theorem isNumeric_scanExponent (cs : List Char) :
    ∀ c ∈ (scanExponent cs).1, isNumeric c = true := by
  cases cs with
  | nil => simp [scanExponent]
  | cons c cs =>
    simp only [scanExponent]
    split
    · next h =>
      have hsign (d : Char) (hd : (d = '-' || d = '+') = true) : isNumeric d = true := by
        rw [Bool.or_eq_true, decide_eq_true_eq, decide_eq_true_eq] at hd
        rcases hd with rfl | rfl <;> rfl
      refine List.forall_mem_cons.mpr ⟨?_, List.forall_mem_append.mpr
        ⟨isNumeric_scanOptional hsign cs, isNumeric_digits⟩⟩
      rcases h.1 with rfl | rfl <;> rfl
    · simp

theorem isNumeric_scanNumber {cs : List Char} {repr : String}
    (h : scanNumber cs = some (.float repr, [])) : ∀ c ∈ repr.toList, isNumeric c = true := by
  simp only [scanNumber, Option.bind_eq_bind, Option.bind_eq_some_iff] at h
  obtain ⟨⟨ds, ds'⟩, hint, h⟩ := h
  by_cases hsplit : (scanFraction ds').1 = [] ∧ (scanExponent (scanFraction ds').2).1 = []
  · rw [if_pos hsplit] at h
    cases h
  · have hsign (d : Char) (hd : decide (d = '-') = true) : isNumeric d = true := by
      rw [decide_eq_true_eq.mp hd]
      rfl
    rw [if_neg hsplit, Option.some.injEq, Prod.mk.injEq, float.injEq] at h
    rw [← h.1, String.toList_ofList]
    simp only [List.forall_mem_append]
    exact ⟨⟨⟨isNumeric_scanOptional hsign cs, isNumeric_scanInteger hint⟩,
      isNumeric_scanFraction ds'⟩, isNumeric_scanExponent _⟩

theorem newline_not_mem_of_isNumeric {cs : List Char} (h : ∀ c ∈ cs, isNumeric c = true) :
    '\n' ∉ cs :=
  fun hmem => absurd (h _ hmem) (by decide)

theorem newline_not_mem_int (n : Int) : '\n' ∉ (toString n).toList := by
  have hdigits (m : Nat) : '\n' ∉ Nat.toDigits 10 m := fun hmem =>
    absurd (Nat.isDigit_of_mem_toDigits (by decide) (by decide) hmem) (by decide)
  rw [Int.toString_eq_repr, Int.repr_eq_if]
  split
  · rw [Nat.toList_repr]
    exact hdigits _
  · rw [String.toList_append, Nat.toList_repr]
    simp [hdigits]

theorem newline_not_mem_elementsText {xs : List Json} (h : ∀ x ∈ xs, '\n' ∉ text x) :
    '\n' ∉ elementsText xs := by
  induction xs with
  | nil => decide
  | cons x xs ih =>
    have hx := h x List.mem_cons_self
    have hxs := ih fun y hy => h y (List.mem_cons_of_mem _ hy)
    cases xs with
    | nil => simpa [elementsText] using hx
    | cons y ys => simp [elementsText, hx, hxs]

theorem newline_not_mem_membersText {es : List (String × Json)}
    (h : ∀ e ∈ es, '\n' ∉ text e.2) : '\n' ∉ membersText es := by
  induction es with
  | nil => decide
  | cons e es ih =>
    obtain ⟨k, v⟩ := e
    have hv : '\n' ∉ text v := h (k, v) List.mem_cons_self
    have hes := ih fun y hy => h y (List.mem_cons_of_mem _ hy)
    cases es with
    | nil => simpa [membersText, newline_not_mem_quote] using hv
    | cons e' es => simp [membersText, newline_not_mem_quote, hv, hes]

theorem newline_not_mem_text {v : Json} (h : v.valid = true) : '\n' ∉ text v := by
  induction v using induct with
  | null => decide
  | bool b => cases b <;> decide
  | int n => exact newline_not_mem_int n
  | float repr =>
    rcases of_isFloat h with h | h
    · simp only [List.mem_cons, List.not_mem_nil, or_false] at h
      rcases h with rfl | rfl | rfl <;> decide
    · exact newline_not_mem_of_isNumeric (isNumeric_scanNumber h)
  | str s => exact newline_not_mem_quote s
  | arr xs ih =>
    rw [valid_arr] at h
    have hxs := newline_not_mem_elementsText fun x hx => ih x hx (h x hx)
    simp [text, hxs]
  | obj es ih =>
    rw [valid_obj] at h
    have hes := newline_not_mem_membersText fun e he => ih e he (h.2 e he)
    simp [text, hes]

/-- **A text is one line.** -/
theorem newline_not_mem_dumps {v : Json} (h : v.valid = true) : '\n' ∉ dumps v :=
  newline_not_mem_text (valid_sortKeys h)

end MessageService.Lib.Json
