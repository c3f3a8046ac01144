import Mathlib.Algebra.GroupWithZero.Nat
import Mathlib.Data.List.DropRight

/-!
# Comma-separated header values

A header value lists items at its top-level commas: those outside every construct that nests, such
as a quoted string. What nests is the business of a `ListReader`, a machine that passes over the
text; `splitTop` is the list it reads. `joinItems` writes a list with `", "`. Items without blanks
that hold a given mark once, as `@` in addresses, are read back exactly when the list is
`Separable`.

Results:
* `splitTop_append_comma`: a value splits where the reader meets a comma at top level.
* `map_strip_splitTop_joinItems`: a separable list is read back.
* `separable_of_items`: a list whose pieces are all items is separable.
-/

namespace MessageService.Lib

/-! ## Splitting -/

/-- A reader of a comma-separated list. A blank between two items does not count, neither a comma
nor a blank ends a nested construct, and how a character is read depends on what follows it as far
as the next blank only. -/
structure ListReader (Q : Type) where
  start : Q
  /-- A comma separates here. -/
  separates : Q → Bool
  /-- The reader passes a character that a text follows. -/
  next : Q → Char → List Char → Q
  next_blank (cs : List Char) : next start ' ' cs = start
  nested_comma {q : Q} (cs : List Char) : separates q = false → separates (next q ',' cs) = false
  nested_blank {q : Q} (cs : List Char) : separates q = false → separates (next q ' ' cs) = false
  near (q : Q) (c : Char) {cs : List Char} (ds : List Char) :
    ' ' ∉ cs → next q c (cs ++ ',' :: ' ' :: ds) = next q c cs

section

variable {Q : Type} (r : ListReader Q)

/-- The reader passes a text. -/
def ListReader.scan : Q → List Char → Q
  | q, [] => q
  | q, c :: cs => scan (if r.separates q ∧ c = ',' then r.start else r.next q c cs) cs

/-- The text has a comma at top level. -/
def ListReader.hasSeparator : Q → List Char → Bool
  | _, [] => false
  | q, c :: cs => (r.separates q && c = ',') || hasSeparator (r.next q c cs) cs

/-- The pieces of a text between its top-level commas. -/
def ListReader.splitTop : Q → List Char → List (List Char)
  | _, [] => [[]]
  | q, c :: cs =>
    if r.separates q ∧ c = ',' then [] :: splitTop r.start cs
    else (splitTop (r.next q c cs) cs).modifyHead (c :: ·)

end

/-- The items, separated by commas. -/
def joinItems (items : List (List Char)) : List Char := List.intercalate [',', ' '] items

@[simp] theorem joinItems_cons_cons (a b : List Char) (items : List (List Char)) :
    joinItems (a :: b :: items) = a ++ ',' :: ' ' :: joinItems (b :: items) := by
  simp [joinItems, List.intercalate_cons_cons]

@[simp] theorem joinItems_singleton (a : List Char) : joinItems [a] = a := by
  simp [joinItems]

theorem joinItems_cons_eq (c : Char) (cs : List Char) (items : List (List Char)) :
    ∃ ds, joinItems ((c :: cs) :: items) = c :: ds := by
  cases items with
  | nil => exact ⟨cs, joinItems_singleton _⟩
  | cons b items => exact ⟨_, joinItems_cons_cons _ _ _⟩

/-- The characters of the items are in the list. -/
theorem mem_joinItems_of_mem {items : List (List Char)} {a : List Char} (ha : a ∈ items) {c : Char}
    (hc : c ∈ a) : c ∈ joinItems items := by
  induction items with
  | nil => cases ha
  | cons b items ih =>
    cases items with
    | nil =>
      obtain rfl := List.mem_singleton.mp ha
      rwa [joinItems_singleton]
    | cons d items =>
      rw [joinItems_cons_cons, List.mem_append]
      rcases List.mem_cons.mp ha with rfl | ha
      · exact .inl hc
      · exact .inr (List.mem_cons_of_mem _ (List.mem_cons_of_mem _ (ih ha)))

theorem mem_of_mem_joinItems {items : List (List Char)} {c : Char} (h : c ∈ joinItems items) :
    c = ',' ∨ c = ' ' ∨ ∃ a ∈ items, c ∈ a := by
  induction items with
  | nil => simp [joinItems] at h
  | cons a items ih =>
    cases items with
    | nil => exact .inr (.inr ⟨a, List.mem_cons_self, by rwa [joinItems_singleton] at h⟩)
    | cons b items =>
      rw [joinItems_cons_cons, List.mem_append, List.mem_cons, List.mem_cons] at h
      rcases h with h | h | h | h
      · exact .inr (.inr ⟨a, List.mem_cons_self, h⟩)
      · exact .inl h
      · exact .inr (.inl h)
      · refine (ih h).imp_right (Or.imp_right ?_)
        exact fun ⟨d, hd, hcd⟩ => ⟨d, List.mem_cons_of_mem _ hd, hcd⟩

namespace ListReader

variable {Q : Type} {r : ListReader Q} {q : Q}

theorem splitTop_separator {cs : List Char} (h : r.separates q = true) :
    r.splitTop q (',' :: cs) = [] :: r.splitTop r.start cs :=
  if_pos ⟨h, rfl⟩

theorem splitTop_cons {c : Char} (h : ¬(r.separates q ∧ c = ',')) (cs : List Char) :
    r.splitTop q (c :: cs) = (r.splitTop (r.next q c cs) cs).modifyHead (c :: ·) :=
  if_neg h

theorem scan_cons {c : Char} (h : ¬(r.separates q ∧ c = ',')) (cs : List Char) :
    r.scan q (c :: cs) = r.scan (r.next q c cs) cs :=
  congrArg (r.scan · cs) (if_neg h)

theorem splitTop_ne_nil (cs : List Char) : r.splitTop q cs ≠ [] := by
  induction cs generalizing q with
  | nil => exact List.cons_ne_nil _ _
  | cons c cs ih =>
    by_cases hsep : r.separates q ∧ c = ','
    · obtain ⟨hq, rfl⟩ := hsep
      rw [splitTop_separator hq]
      exact List.cons_ne_nil _ _
    · rw [splitTop_cons hsep, Ne, List.modifyHead_eq_nil_iff]
      exact ih

/-- A text without a separator is one piece. -/
theorem splitTop_of_not_hasSeparator {cs : List Char} (h : r.hasSeparator q cs = false) :
    r.splitTop q cs = [cs] := by
  induction cs generalizing q with
  | nil => rfl
  | cons c cs ih =>
    unfold hasSeparator at h
    simp only [Bool.or_eq_false_iff, Bool.and_eq_false_iff, decide_eq_false_iff_not] at h
    have hsep : ¬(r.separates q ∧ c = ',') := fun hs => by simp [hs.1, hs.2] at h
    rw [splitTop_cons hsep, ih h.2]
    rfl

theorem length_splitTop_of_hasSeparator {cs : List Char} (h : r.hasSeparator q cs = true) :
    2 ≤ (r.splitTop q cs).length := by
  induction cs generalizing q with
  | nil => cases h
  | cons c cs ih =>
    by_cases hsep : r.separates q ∧ c = ','
    · obtain ⟨hq, rfl⟩ := hsep
      rw [splitTop_separator hq, List.length_cons]
      exact Nat.succ_le_succ (List.length_pos_iff.mpr (splitTop_ne_nil cs))
    · unfold hasSeparator at h
      have hcs : r.hasSeparator (r.next q c cs) cs = true := by
        rcases Bool.or_eq_true_iff.mp h with hs | hcs
        · exact absurd (by simpa using hs) hsep
        · exact hcs
      rw [splitTop_cons hsep, List.length_modifyHead]
      exact ih hcs

/-- **A comma that the reader meets at top level separates.** -/
theorem splitTop_append_comma {cs : List Char} (ds : List Char) (hcs : ' ' ∉ cs)
    (h : r.separates (r.scan q cs) = true) :
    r.splitTop q (cs ++ ',' :: ' ' :: ds) = r.splitTop q cs ++ r.splitTop r.start (' ' :: ds) := by
  induction cs generalizing q with
  | nil => exact splitTop_separator h
  | cons c cs ih =>
    have hcs' : ' ' ∉ cs := fun hmem => hcs (List.mem_cons_of_mem _ hmem)
    rw [List.cons_append]
    by_cases hsep : r.separates q ∧ c = ','
    · obtain ⟨hq, rfl⟩ := hsep
      rw [scan, if_pos ⟨hq, rfl⟩] at h
      rw [splitTop_separator hq, splitTop_separator hq, ih hcs' h, List.cons_append]
    · rw [scan_cons hsep] at h
      rw [splitTop_cons hsep, splitTop_cons hsep, r.near q c ds hcs', ih hcs' h]
      obtain ⟨p, ps, hp⟩ := List.exists_cons_of_ne_nil (splitTop_ne_nil (q := r.next q c cs) cs)
      rw [hp]
      rfl

/-- A comma that the reader meets elsewhere is inside a piece, with what surrounds it. -/
theorem exists_mem_splitTop_of_nested {cs : List Char} (ds : List Char) (c : Char)
    (hcs : ' ' ∉ cs) (h : r.separates (r.scan q cs) = false) :
    ∃ us vs, us ++ ',' :: ' ' :: c :: vs ∈ r.splitTop q (cs ++ ',' :: ' ' :: c :: ds) := by
  induction cs generalizing q with
  | nil =>
    have hq : r.separates q = false := h
    have hcomma := r.nested_comma (' ' :: c :: ds) hq
    have hblank := r.nested_blank (c :: ds) hcomma
    generalize hq1 : r.next q ',' (' ' :: c :: ds) = q1 at hcomma hblank
    generalize hq2 : r.next q1 ' ' (c :: ds) = q2 at hblank
    obtain ⟨p, ps, hp⟩ := List.exists_cons_of_ne_nil (splitTop_ne_nil (q := r.next q2 c ds) ds)
    refine ⟨[], p, ?_⟩
    rw [List.nil_append, List.nil_append, splitTop_cons (by simp [hq]), hq1,
      splitTop_cons (by simp [hcomma]), hq2, splitTop_cons (by simp [hblank]), hp]
    exact List.mem_cons_self
  | cons d cs ih =>
    have hcs' : ' ' ∉ cs := fun hmem => hcs (List.mem_cons_of_mem _ hmem)
    rw [List.cons_append]
    by_cases hsep : r.separates q ∧ d = ','
    · obtain ⟨hq, rfl⟩ := hsep
      rw [scan, if_pos ⟨hq, rfl⟩] at h
      obtain ⟨us, vs, hmem⟩ := ih hcs' h
      rw [splitTop_separator hq]
      exact ⟨us, vs, List.mem_cons_of_mem _ hmem⟩
    · rw [scan_cons hsep] at h
      obtain ⟨us, vs, hmem⟩ := ih hcs' h
      rw [splitTop_cons hsep, r.near q d (c :: ds) hcs']
      obtain ⟨p, ps, hp⟩ := List.exists_cons_of_ne_nil
        (splitTop_ne_nil (q := r.next q d cs) (cs ++ ',' :: ' ' :: c :: ds))
      rw [hp] at hmem ⊢
      rcases List.mem_cons.mp hmem with rfl | hmem
      · exact ⟨d :: us, vs, List.mem_cons_self⟩
      · exact ⟨us, vs, List.mem_cons_of_mem _ hmem⟩

/-- The pieces hold every character but the commas. -/
theorem sum_count_splitTop {mark : Char} (hmark : mark ≠ ',') (cs : List Char) :
    ((r.splitTop q cs).map (List.count mark)).sum = cs.count mark := by
  induction cs generalizing q with
  | nil => rfl
  | cons c cs ih =>
    by_cases hsep : r.separates q ∧ c = ','
    · obtain ⟨hq, rfl⟩ := hsep
      rw [splitTop_separator hq, List.map_cons, List.sum_cons, ih,
        List.count_cons_of_ne hmark.symm]
      exact Nat.zero_add _
    · obtain ⟨p, ps, hp⟩ := List.exists_cons_of_ne_nil (splitTop_ne_nil (q := r.next q c cs) cs)
      have := ih (q := r.next q c cs)
      rw [splitTop_cons hsep]
      rw [hp] at this ⊢
      simp only [List.modifyHead_cons, List.map_cons, List.sum_cons] at this ⊢
      rw [List.count_cons, List.count_cons]
      omega

/-- A blank in front of a list is in front of its first item. -/
theorem splitTop_start_blank (cs : List Char) :
    r.splitTop r.start (' ' :: cs) = (r.splitTop r.start cs).modifyHead (' ' :: ·) := by
  rw [splitTop_cons (by simp), r.next_blank]

end ListReader

/-! ## Blanks around the pieces -/

section

variable {space : Char → Bool}

/-- The text without the blanks around it. -/
def strip (space : Char → Bool) (cs : List Char) : List Char :=
  (cs.dropWhile space).rdropWhile space

theorem strip_of_not_space {cs : List Char} (h : ∀ c ∈ cs, space c = false) :
    strip space cs = cs := by
  have hdrop : ∀ {l : List Char}, (∀ c ∈ l, space c = false) → l.dropWhile space = l := by
    intro l hl
    cases l with
    | nil => rfl
    | cons c l => rw [List.dropWhile_cons_of_neg (by simp [hl c List.mem_cons_self])]
  unfold strip List.rdropWhile
  rw [hdrop h, hdrop (fun c hc => h c (List.mem_reverse.mp hc)), List.reverse_reverse]

theorem strip_blank_cons {c : Char} (h : space c = true) (cs : List Char) :
    strip space (c :: cs) = strip space cs := by
  unfold strip
  rw [List.dropWhile_cons_of_pos h]

theorem count_dropWhile {mark : Char} (h : space mark = false) (cs : List Char) :
    (cs.dropWhile space).count mark = cs.count mark := by
  induction cs with
  | nil => rfl
  | cons c cs ih =>
    by_cases hc : space c = true
    · have hne : c ≠ mark := fun e => by simp [e, h] at hc
      rw [List.dropWhile_cons_of_pos hc, ih, List.count_cons_of_ne hne]
    · rw [List.dropWhile_cons_of_neg hc]

theorem count_strip {mark : Char} (h : space mark = false) (cs : List Char) :
    (strip space cs).count mark = cs.count mark := by
  unfold strip List.rdropWhile
  rw [List.count_reverse, count_dropWhile h, List.count_reverse, count_dropWhile h]

theorem dropWhile_append_cons {c : Char} (h : space c = false) (us vs : List Char) :
    ∃ ws, (us ++ c :: vs).dropWhile space = ws ++ c :: vs := by
  induction us with
  | nil => exact ⟨[], List.dropWhile_cons_of_neg (by simp [h])⟩
  | cons d us ih =>
    by_cases hd : space d = true
    · rw [List.cons_append, List.dropWhile_cons_of_pos hd]
      exact ih
    · exact ⟨d :: us, List.dropWhile_cons_of_neg hd⟩

/-- Blanks between two characters that are none stay. -/
theorem mem_strip_of_between {c d e : Char} (hc : space c = false) (he : space e = false)
    (us vs : List Char) : d ∈ strip space (us ++ c :: d :: e :: vs) := by
  obtain ⟨ws, hws⟩ := dropWhile_append_cons hc us (d :: e :: vs)
  obtain ⟨xs, hxs⟩ := dropWhile_append_cons he vs.reverse (d :: c :: ws.reverse)
  unfold strip List.rdropWhile
  have hrev : (ws ++ c :: d :: e :: vs).reverse = vs.reverse ++ e :: d :: c :: ws.reverse := by
    simp
  rw [hws, hrev, hxs, List.mem_reverse]
  simp

end

/-! ## Reading a list back -/

section

variable {mark : Char} {space : Char → Bool}

/-- A text without blanks that holds the mark once. -/
structure IsItem (mark : Char) (space : Char → Bool) (cs : List Char) : Prop where
  marked : cs.count mark = 1
  unspaced : ∀ c ∈ cs, space c = false

theorem IsItem.blank_notMem {cs : List Char} (hblank : space ' ' = true)
    (h : IsItem mark space cs) : ' ' ∉ cs := by
  intro hmem
  have := h.unspaced ' ' hmem
  simp [hblank] at this

namespace ListReader

variable {Q : Type} {r : ListReader Q}

/-- No item has a separator, and each but the last ends at top level. -/
def Separable (r : ListReader Q) : List (List Char) → Prop
  | [] => True
  | [a] => r.hasSeparator r.start a = false
  | a :: b :: items =>
    (r.hasSeparator r.start a = false ∧ r.separates (r.scan r.start a) = true) ∧
      Separable r (b :: items)

theorem separable_iff {items : List (List Char)} : r.Separable items ↔
    (∀ a ∈ items, r.hasSeparator r.start a = false) ∧
      ∀ a ∈ items.dropLast, r.separates (r.scan r.start a) = true := by
  induction items with
  | nil => simp [Separable]
  | cons a items ih =>
    cases items with
    | nil => simp [Separable]
    | cons b items =>
      rw [Separable, ih, List.dropLast_cons_cons, List.forall_mem_cons (a := a),
        List.forall_mem_cons (a := a)]
      tauto

/-- **A separable list is read back.** -/
theorem map_strip_splitTop_joinItems (hblank : space ' ' = true) {items : List (List Char)}
    (hne : items ≠ []) (hitems : ∀ a ∈ items, IsItem mark space a) (h : r.Separable items) :
    (r.splitTop r.start (joinItems items)).map (strip space) = items := by
  induction items with
  | nil => exact absurd rfl hne
  | cons a items ih =>
    obtain ⟨ha, hitems⟩ := List.forall_mem_cons.mp hitems
    cases items with
    | nil =>
      rw [joinItems_singleton, splitTop_of_not_hasSeparator h, List.map_singleton,
        strip_of_not_space ha.unspaced]
    | cons b items =>
      obtain ⟨⟨hsep, hscan⟩, h⟩ := h
      have ih := ih (List.cons_ne_nil _ _) hitems h
      rw [joinItems_cons_cons, splitTop_append_comma _ (ha.blank_notMem hblank) hscan,
        splitTop_of_not_hasSeparator hsep, splitTop_start_blank, List.map_append,
        List.map_singleton, strip_of_not_space ha.unspaced]
      obtain ⟨p, ps, hp⟩ := List.exists_cons_of_ne_nil
        (splitTop_ne_nil (r := r) (q := r.start) (joinItems (b :: items)))
      rw [hp] at ih
      rw [hp, List.modifyHead_cons, List.map_cons, strip_blank_cons hblank, ← List.map_cons, ih,
        List.singleton_append]

/-- **A list whose pieces are all items is separable.** -/
theorem separable_of_items (hblank : space ' ' = true) (hcomma : space ',' = false)
    (hmark : mark ≠ ',') (hspace : space mark = false) {items : List (List Char)}
    (hitems : ∀ a ∈ items, IsItem mark space a)
    (h : ∀ p ∈ r.splitTop r.start (joinItems items), IsItem mark space (strip space p)) :
    r.Separable items := by
  -- a text whose pieces hold the mark once has as many pieces as marks
  have hsingle {cs : List Char} (hcs : cs.count mark = 1)
      (hp : ∀ p ∈ r.splitTop r.start cs, IsItem mark space (strip space p)) :
      r.hasSeparator r.start cs = false := by
    have hcount : (r.splitTop r.start cs).map (List.count mark) =
        (r.splitTop r.start cs).map fun _ => 1 :=
      List.map_congr_left fun p hp' => (count_strip hspace p).symm.trans (hp p hp').marked
    have hsum := sum_count_splitTop (r := r) (q := r.start) hmark cs
    rw [hcount, hcs, List.map_const', List.sum_replicate_nat, Nat.mul_one] at hsum
    by_contra hsep
    have := length_splitTop_of_hasSeparator (by simpa using hsep)
    omega
  induction items with
  | nil => trivial
  | cons a items ih =>
    obtain ⟨ha, hitems⟩ := List.forall_mem_cons.mp hitems
    cases items with
    | nil =>
      rw [joinItems_singleton] at h
      exact hsingle ha.marked h
    | cons b items =>
      have hnoblank := ha.blank_notMem hblank
      rw [joinItems_cons_cons] at h
      have hscan : r.separates (r.scan r.start a) = true := by
        by_contra hscan
        obtain ⟨c, cs, rfl⟩ : ∃ c cs, b = c :: cs := by
          refine List.exists_cons_of_ne_nil ?_
          rintro rfl
          exact absurd (hitems [] List.mem_cons_self).marked (by simp)
        have hc : space c = false := (hitems _ List.mem_cons_self).unspaced c List.mem_cons_self
        obtain ⟨ds, hds⟩ := joinItems_cons_eq c cs items
        rw [hds] at h
        obtain ⟨us, vs, hmem⟩ := exists_mem_splitTop_of_nested (r := r) (q := r.start) ds c hnoblank
          (by simpa using hscan)
        have := (h _ hmem).unspaced ' ' (mem_strip_of_between hcomma hc us vs)
        simp [hblank] at this
      rw [splitTop_append_comma _ hnoblank hscan, splitTop_start_blank] at h
      refine ⟨⟨hsingle ha.marked fun p hp => h p (List.mem_append_left _ hp), hscan⟩,
        ih hitems fun p hp => ?_⟩
      obtain ⟨p₀, ps, hps⟩ := List.exists_cons_of_ne_nil
        (splitTop_ne_nil (r := r) (q := r.start) (joinItems (b :: items)))
      rw [hps] at hp
      rw [hps, List.modifyHead_cons] at h
      rcases List.mem_cons.mp hp with rfl | hp
      · rw [← strip_blank_cons hblank]
        exact h _ (List.mem_append_right _ List.mem_cons_self)
      · exact h p (List.mem_append_right _ (List.mem_cons_of_mem _ hp))

end ListReader

end

end MessageService.Lib
