import MessageService.Lib.Faults
import Mathlib.Data.List.Infix
import Mathlib.Data.List.TakeWhile

/-!
# References in a text

References such as `${env:NAME}` in a text, and their replacement from left to right
(`re.sub` with a function). A reference starts with a mark that occurs nowhere else in it, so no two
of them overlap.

* `scan_append_refText`: a reference is read as one, whatever stands before and after it.
* `mem_refs_iff`: the references that are read are those that occur.
* `replace_append_refText`: a reference is replaced once, and its value is not read again.
* `expand_firstFault`: a replacement that may raise has the faults of the references.
-/

namespace MessageService.Lib

universe u

/-- The syntax of a reference: `mark opening name closing`. -/
structure Placeholder where
  mark : Char
  opening : List Char
  closing : Char
  /-- What a name starts with. -/
  start : Char → Bool
  /-- What it goes on with. -/
  inner : Char → Bool
  mark_notMem_opening : mark ∉ opening
  not_inner_mark : inner mark = false
  not_inner_closing : inner closing = false
  mark_ne_closing : mark ≠ closing
  inner_of_start : ∀ c, start c = true → inner c = true

/-- A piece of a text. -/
inductive Segment where
  | lit (c : Char)
  | ref (name : List Char)
  deriving DecidableEq, Repr

/-- The name that a piece refers to. -/
def Segment.name? : Segment → Option (List Char)
  | lit _ => none
  | ref name => some name

namespace Placeholder

variable (p : Placeholder)

/-- A name that may be referred to. -/
def IsName (name : List Char) : Prop :=
  name.head?.any p.start = true ∧ ∀ c ∈ name, p.inner c = true

/-- The text of a reference. -/
def refText (name : List Char) : List Char := p.mark :: (p.opening ++ name ++ [p.closing])

/-- The reference at the head of a text. -/
def matchAt (cs : List Char) : Option (List Char) :=
  if (p.mark :: p.opening) <+: cs then
    let rest := cs.drop (p.opening.length + 1)
    let name := rest.takeWhile p.inner
    if name.head?.any p.start ∧ (rest.drop name.length).head? = some p.closing then some name
    else none
  else none

/-- Read a text, of which `skip` characters belong to the last reference. -/
def scanFrom : List Char → Nat → List Segment
  | [], _ => []
  | _ :: cs, skip + 1 => scanFrom cs skip
  | c :: cs, 0 =>
    match p.matchAt (c :: cs) with
    | some name => .ref name :: scanFrom cs (p.opening.length + name.length + 1)
    | none => .lit c :: scanFrom cs 0

/-- The pieces of a text. -/
def scan (cs : List Char) : List Segment := p.scanFrom cs 0

@[simp] theorem filterMap_lit (c : Char) (l : List Segment) :
    (Segment.lit c :: l).filterMap Segment.name? = l.filterMap Segment.name? := rfl

@[simp] theorem filterMap_ref (name : List Char) (l : List Segment) :
    (Segment.ref name :: l).filterMap Segment.name? = name :: l.filterMap Segment.name? := rfl

/-- The references in a text, from left to right. -/
def refs (cs : List Char) : List (List Char) := (p.scan cs).filterMap Segment.name?

variable {p}

@[simp] theorem length_refText (name : List Char) :
    (p.refText name).length = p.opening.length + name.length + 2 := by
  simp [refText, Nat.add_assoc]

/-- **The head of a text is a reference** when it reads as one. -/
theorem matchAt_eq_some_iff {cs name : List Char} :
    p.matchAt cs = some name ↔ p.IsName name ∧ p.refText name <+: cs := by
  unfold matchAt
  constructor
  · intro h
    split at h
    · next hopen =>
      obtain ⟨rest, rfl⟩ := hopen
      simp only [List.cons_append, List.drop_succ_cons, List.drop_left,
        Option.ite_none_right_eq_some, Option.some.injEq] at h
      obtain ⟨⟨hstart, hclose⟩, rfl⟩ := h
      refine ⟨⟨hstart, fun c hc => List.mem_takeWhile_imp hc⟩, ?_⟩
      have hrest : rest.takeWhile p.inner ++ rest.dropWhile p.inner = rest :=
        List.takeWhile_append_dropWhile
      have hdrop : rest.drop (rest.takeWhile p.inner).length = rest.dropWhile p.inner := by
        calc rest.drop (rest.takeWhile p.inner).length
            = (rest.takeWhile p.inner ++ rest.dropWhile p.inner).drop
                (rest.takeWhile p.inner).length := by rw [hrest]
          _ = rest.dropWhile p.inner := List.drop_left
      rw [hdrop] at hclose
      obtain ⟨after, hafter⟩ : ∃ after, rest.dropWhile p.inner = p.closing :: after := by
        cases hd : rest.dropWhile p.inner with
        | nil =>
          rw [hd] at hclose
          cases hclose
        | cons d after =>
          rw [hd] at hclose
          obtain rfl : d = p.closing := by simpa using hclose
          exact ⟨after, rfl⟩
      refine ⟨after, ?_⟩
      conv_rhs => rw [← hrest, hafter]
      simp [refText]
    · cases h
  · rintro ⟨⟨hstart, hinner⟩, after, rfl⟩
    have htake : (name ++ p.closing :: after).takeWhile p.inner = name := by
      rw [List.takeWhile_append_of_pos hinner, List.takeWhile_cons_of_neg (by
        rw [p.not_inner_closing]; exact Bool.false_ne_true), List.append_nil]
    have htext : p.refText name ++ after =
        p.mark :: p.opening ++ (name ++ p.closing :: after) := by simp [refText]
    rw [htext, if_pos (List.prefix_append _ _)]
    simp only [List.cons_append, List.drop_succ_cons, List.drop_left, htake, hstart,
      List.head?_cons, and_self, if_true]

theorem scanFrom_length (l cs : List Char) : p.scanFrom (l ++ cs) l.length = p.scan cs := by
  induction l with
  | nil => rfl
  | cons c l ih => exact ih

theorem scan_of_match {name : List Char} (h : p.IsName name) (after : List Char) :
    p.scan (p.refText name ++ after) = .ref name :: p.scan after := by
  have hmatch : p.matchAt (p.refText name ++ after) = some name :=
    matchAt_eq_some_iff.mpr ⟨h, List.prefix_append _ _⟩
  have hlength : (p.opening ++ name ++ [p.closing]).length = p.opening.length + name.length + 1 := by
    simp [Nat.add_assoc]
  rw [refText, List.cons_append] at hmatch ⊢
  rw [scan, scanFrom, hmatch]
  simp only
  rw [← hlength, scanFrom_length]

theorem scan_of_none {c : Char} {cs : List Char} (h : p.matchAt (c :: cs) = none) :
    p.scan (c :: cs) = .lit c :: p.scan cs := by
  rw [scan, scanFrom, h]
  rfl

theorem mark_notMem {name : List Char} (h : p.IsName name) :
    p.mark ∉ p.opening ++ name ++ [p.closing] := by
  simp only [List.mem_append, List.mem_singleton, not_or]
  refine ⟨⟨p.mark_notMem_opening, fun hmem => ?_⟩, p.mark_ne_closing⟩
  have hinner := h.2 _ hmem
  rw [p.not_inner_mark] at hinner
  cases hinner

/-- **A reference does not reach into another**: its mark is only at its head. -/
theorem prefix_of_prefix_append {name l other after : List Char} {c : Char} (h : p.IsName name)
    (hpre : p.refText name <+: (c :: l) ++ (p.refText other ++ after)) :
    p.refText name <+: c :: l := by
  by_cases hlength : (p.refText name).length ≤ (c :: l).length
  · exact List.prefix_of_prefix_length_le hpre (List.prefix_append _ _) hlength
  · exfalso
    obtain ⟨t, ht⟩ := List.prefix_of_prefix_length_le (List.prefix_append (c :: l) _) hpre
      (Nat.le_of_not_le hlength)
    rw [← ht, List.prefix_append_right_inj] at hpre
    have hne : t ≠ [] := by
      rintro rfl
      rw [List.append_nil] at ht
      exact hlength (ht ▸ le_refl _)
    obtain ⟨d, t, rfl⟩ := List.exists_cons_of_ne_nil hne
    obtain ⟨u, hu⟩ := hpre
    obtain rfl : d = p.mark := (List.cons.inj hu).1
    have hrest : l ++ p.mark :: t = p.opening ++ name ++ [p.closing] := (List.cons.inj ht).2
    exact mark_notMem h (hrest ▸ List.mem_append_right _ List.mem_cons_self)

/-- **A reference is read as one**, whatever stands before and after it. -/
theorem scan_append_refText {name : List Char} (h : p.IsName name) (before after : List Char) :
    p.scan (before ++ (p.refText name ++ after)) =
      p.scan before ++ .ref name :: p.scan after := by
  induction hn : before.length using Nat.strong_induction_on generalizing before with
  | _ n ih =>
    cases before with
    | nil => exact scan_of_match h after
    | cons c before =>
      cases hmatch : p.matchAt (c :: before) with
      | some other =>
        obtain ⟨hother, rest, hrest⟩ := matchAt_eq_some_iff.mp hmatch
        have hlt : rest.length < n := by
          have := congrArg List.length hrest
          rw [List.length_append, length_refText] at this
          omega
        rw [← hrest, List.append_assoc, scan_of_match hother, scan_of_match hother, ih _ hlt _ rfl]
        rfl
      | none =>
        have hnone : p.matchAt ((c :: before) ++ (p.refText name ++ after)) = none := by
          rw [Option.eq_none_iff_forall_ne_some]
          intro other hother
          obtain ⟨hname, hpre⟩ := matchAt_eq_some_iff.mp hother
          have := matchAt_eq_some_iff.mpr ⟨hname, prefix_of_prefix_append hname hpre⟩
          rw [hmatch] at this
          cases this
        have hlt : before.length < n := by
          rw [← hn]
          exact Nat.lt_succ_self _
        rw [List.cons_append] at hnone ⊢
        rw [scan_of_none hnone, scan_of_none hmatch, ih _ hlt _ rfl]
        rfl

/-- A text in which no reference occurs. -/
theorem scan_of_not_infix {cs : List Char}
    (h : ∀ name, p.IsName name → ¬p.refText name <:+: cs) : p.scan cs = cs.map .lit := by
  induction cs with
  | nil => rfl
  | cons c cs ih =>
    have hnone : p.matchAt (c :: cs) = none := by
      rw [Option.eq_none_iff_forall_ne_some]
      intro name hname
      obtain ⟨hname, hpre⟩ := matchAt_eq_some_iff.mp hname
      exact h name hname hpre.isInfix
    rw [scan_of_none hnone, List.map_cons,
      ih fun name hname hin => h name hname (hin.trans (List.suffix_cons c cs).isInfix)]

theorem isName_of_mem_refs {cs name : List Char} (h : name ∈ p.refs cs) :
    p.IsName name ∧ p.refText name <:+: cs := by
  induction hn : cs.length using Nat.strong_induction_on generalizing cs with
  | _ n ih =>
    cases cs with
    | nil => cases h
    | cons c cs =>
      cases hmatch : p.matchAt (c :: cs) with
      | some other =>
        obtain ⟨hother, rest, hrest⟩ := matchAt_eq_some_iff.mp hmatch
        have hlt : rest.length < n := by
          have := congrArg List.length hrest
          rw [List.length_append, length_refText] at this
          omega
        rw [← hrest] at h ⊢
        rw [refs, scan_of_match hother, filterMap_ref, List.mem_cons] at h
        rcases h with rfl | h
        · exact ⟨hother, (List.prefix_append _ _).isInfix⟩
        · obtain ⟨hname, hin⟩ := ih _ hlt h rfl
          exact ⟨hname, hin.trans (List.suffix_append _ _).isInfix⟩
      | none =>
        have hlt : cs.length < n := by
          rw [← hn]
          exact Nat.lt_succ_self _
        rw [refs, scan_of_none hmatch, filterMap_lit] at h
        obtain ⟨hname, hin⟩ := ih _ hlt h rfl
        exact ⟨hname, hin.trans (List.suffix_cons c cs).isInfix⟩

/-- **The references that are read are those that occur.** -/
theorem mem_refs_iff {cs name : List Char} :
    name ∈ p.refs cs ↔ p.IsName name ∧ p.refText name <:+: cs := by
  refine ⟨isName_of_mem_refs, ?_⟩
  rintro ⟨hname, before, after, rfl⟩
  rw [refs, List.append_assoc, scan_append_refText hname, List.filterMap_append,
    filterMap_ref]
  exact List.mem_append_right _ List.mem_cons_self

/-! ## Replacement -/

section

variable (p) (value : List Char → List Char)

/-- What a piece is replaced by. -/
def replaceSegment : Segment → List Char
  | .lit c => [c]
  | .ref name => value name

/-- Replace each reference. -/
def replace (cs : List Char) : List Char := (p.scan cs).flatMap (replaceSegment value)

variable {p value}

/-- **A reference is replaced once**: its value stands between what becomes of the text before it
and of the text after it. -/
theorem replace_append_refText {name : List Char} (h : p.IsName name) (before after : List Char) :
    p.replace value (before ++ (p.refText name ++ after)) =
      p.replace value before ++ (value name ++ p.replace value after) := by
  rw [replace, scan_append_refText h, List.flatMap_append, List.flatMap_cons]
  rfl

/-- The replacement reads the values of the references that occur, and no others. -/
theorem replace_congr {value' : List Char → List Char} {cs : List Char}
    (h : ∀ name ∈ p.refs cs, value name = value' name) :
    p.replace value cs = p.replace value' cs := by
  refine List.flatMap_congr fun x hx => ?_
  cases x with
  | lit c => rfl
  | ref name => exact h name (List.mem_filterMap.mpr ⟨_, hx, rfl⟩)

/-- A text without references stays. -/
theorem replace_of_not_infix {cs : List Char}
    (h : ∀ name, p.IsName name → ¬p.refText name <:+: cs) : p.replace value cs = cs := by
  rw [replace, scan_of_not_infix h, List.flatMap_map]
  exact List.flatMap_singleton' cs

end

section

variable {ε : Type} {f : List Char → Except ε (List Char)} {faults : List Char → List ε}
  {value : List Char → List Char}

variable (f) in
/-- What a piece is replaced by, where a function may raise. -/
def expandSegment : Segment → Except ε (List Char)
  | .lit c => .ok [c]
  | .ref name => f name

variable (p) (f) in
/-- Replace each reference by what the function returns. -/
def expand (cs : List Char) : Except ε (List Char) :=
  List.flatten <$> (p.scan cs).mapM (expandSegment f)

/-- **The replacement has the faults of the references**, from left to right. -/
theorem expand_firstFault {cs : List Char}
    (h : ∀ name ∈ p.refs cs, f name = firstFault (faults name) (value name)) :
    p.expand f cs = firstFault ((p.refs cs).flatMap faults) (p.replace value cs) := by
  have hloop : (p.scan cs).mapM (expandSegment f) =
      firstFault ((p.scan cs).flatMap fun x => x.name?.toList.flatMap faults)
        ((p.scan cs).map (replaceSegment value)) := by
    refine mapM_firstFault fun x hx => ?_
    cases x with
    | lit c => rfl
    | ref name =>
      rw [expandSegment, h name (List.mem_filterMap.mpr ⟨_, hx, rfl⟩)]
      simp [Segment.name?, replaceSegment]
  have hrefs (l : List Segment) : l.flatMap (fun x => x.name?.toList.flatMap faults) =
      (l.filterMap Segment.name?).flatMap faults := by
    induction l with
    | nil => rfl
    | cons x l ih =>
      rw [List.flatMap_cons, ih]
      cases x <;> simp [Segment.name?]
  rw [expand, hloop, map_firstFault, hrefs, replace, List.flatMap_def]
  rfl

end

end Placeholder

end MessageService.Lib
