import MessageService.Lib.HeaderList

/-!
# Lines and words of a text

`str.splitlines`, `str.split` with a bound on the number of splits, and `str.strip`, on lists of
characters. A line ends at any of Python's line boundaries, of which the line feed is only one, and
a carriage return with a line feed behind it is one boundary.

* `splitlines_write`: lines that end with a line feed and have no boundary inside are read back.
* `not_isLineBoundary_of_mem_splitlines`: no line has a boundary inside, whatever the text.
-/

namespace MessageService.Lib

/-- The line boundaries of `str.splitlines`. -/
def isLineBoundary (c : Char) : Bool :=
  (10 ≤ c.toNat && c.toNat ≤ 13) || (28 ≤ c.toNat && c.toNat ≤ 30) ||
    c.toNat ∈ [0x85, 0x2028, 0x2029]

/-- The lines from here on. `line` has been read of the current one, and `afterCr` says that it
begins behind a carriage return. -/
def splitlinesFrom : Bool → List Char → List Char → List (List Char)
  | _, line, [] => if line = [] then [] else [line]
  | afterCr, line, c :: cs =>
    if c = '\n' ∧ afterCr = true then splitlinesFrom false line cs
    else if isLineBoundary c then line :: splitlinesFrom (c = '\r') [] cs
    else splitlinesFrom false (line ++ [c]) cs

/-- `str.splitlines()`. -/
def splitlines (cs : List Char) : List (List Char) := splitlinesFrom false [] cs

theorem splitlinesFrom_append {l : List Char} (h : ∀ c ∈ l, isLineBoundary c = false)
    (line cs : List Char) :
    splitlinesFrom false line (l ++ '\n' :: cs) = (line ++ l) :: splitlinesFrom false [] cs := by
  induction l generalizing line with
  | nil =>
    rw [List.nil_append, List.append_nil, splitlinesFrom, if_neg (by simp), if_pos (by decide)]
    rfl
  | cons c l ih =>
    obtain ⟨hc, hl⟩ := List.forall_mem_cons.mp h
    rw [List.cons_append, splitlinesFrom, if_neg (by simp), if_neg (by simp [hc]), ih hl,
      List.append_assoc, List.singleton_append]

/-- **Written lines are read back.** -/
theorem splitlines_write {ls : List (List Char)}
    (h : ∀ l ∈ ls, ∀ c ∈ l, isLineBoundary c = false) :
    splitlines (ls.flatMap fun l => l ++ ['\n']) = ls := by
  unfold splitlines
  induction ls with
  | nil => rfl
  | cons l ls ih =>
    obtain ⟨hl, hls⟩ := List.forall_mem_cons.mp h
    rw [List.flatMap_cons, List.append_assoc, List.singleton_append, splitlinesFrom_append hl,
      ih hls, List.nil_append]

theorem not_isLineBoundary_of_mem_splitlinesFrom {afterCr : Bool} {line cs : List Char}
    (hline : ∀ c ∈ line, isLineBoundary c = false) {l : List Char}
    (hl : l ∈ splitlinesFrom afterCr line cs) : ∀ c ∈ l, isLineBoundary c = false := by
  induction cs generalizing afterCr line with
  | nil =>
    unfold splitlinesFrom at hl
    split_ifs at hl with hempty
    · cases hl
    · rwa [List.mem_singleton.mp hl]
  | cons c cs ih =>
    unfold splitlinesFrom at hl
    split_ifs at hl with hfeed hboundary
    · exact ih hline hl
    · rcases List.mem_cons.mp hl with rfl | hl
      · exact hline
      · exact ih (fun _ h => absurd h List.not_mem_nil) hl
    · refine ih (fun d hd => ?_) hl
      rcases List.mem_append.mp hd with hd | hd
      · exact hline d hd
      · rw [List.mem_singleton.mp hd]
        exact Bool.eq_false_iff.mpr hboundary

/-- **No line has a boundary inside.** -/
theorem not_isLineBoundary_of_mem_splitlines {cs l : List Char} (hl : l ∈ splitlines cs) :
    ∀ c ∈ l, isLineBoundary c = false :=
  not_isLineBoundary_of_mem_splitlinesFrom (fun _ h => absurd h List.not_mem_nil) hl

/-! ## Words -/

variable {space : Char → Bool}

/-- `str.split(maxsplit=n)`: at most `n` words, then the rest as it stands. -/
def splitMax (space : Char → Bool) : Nat → List Char → List (List Char)
  | 0, cs => if cs.dropWhile space = [] then [] else [cs.dropWhile space]
  | n + 1, cs =>
    if cs.dropWhile space = [] then []
    else (cs.dropWhile space).takeWhile (fun c => !space c) ::
      splitMax space n ((cs.dropWhile space).dropWhile fun c => !space c)

/-- A text without a space in it, by evaluation. -/
theorem forall_of_any {p : Char → Bool} {cs : List Char} (h : cs.any p = false) :
    ∀ c ∈ cs, p c = false :=
  fun c hc => Bool.eq_false_iff.mpr (List.any_eq_false.mp h c hc)

/-- What follows a word: nothing, or a space. -/
def Breaks (space : Char → Bool) (rest : List Char) : Prop := ∀ c ∈ rest.head?, space c = true

theorem takeWhile_word {word rest : List Char} (h : ∀ c ∈ word, space c = false)
    (hrest : Breaks space rest) :
    (word ++ rest).takeWhile (fun c => !space c) = word ∧
      (word ++ rest).dropWhile (fun c => !space c) = rest := by
  have hword : ∀ c ∈ word, (!space c) = true := fun c hc => by rw [h c hc]; rfl
  rw [List.takeWhile_append_of_pos hword, List.dropWhile_append_of_pos hword]
  cases rest with
  | nil => exact ⟨List.append_nil _, rfl⟩
  | cons c rest =>
    have hc : ¬(!space c) = true := by simp [hrest c rfl]
    constructor
    · rw [@List.takeWhile_cons_of_neg _ (fun c => !space c) c rest hc, List.append_nil]
    · exact @List.dropWhile_cons_of_neg _ (fun c => !space c) c rest hc

/-- A word is taken off the front. -/
theorem splitMax_word {word rest : List Char} (hne : word ≠ [])
    (h : ∀ c ∈ word, space c = false) (hrest : Breaks space rest) (n : Nat) :
    splitMax space (n + 1) (word ++ rest) = word :: splitMax space n rest := by
  obtain ⟨c, cs, rfl⟩ := List.exists_cons_of_ne_nil hne
  have hdrop : (c :: cs ++ rest).dropWhile space = c :: cs ++ rest :=
    List.dropWhile_cons_of_neg (by simp [h c List.mem_cons_self])
  obtain ⟨htake, hafter⟩ := takeWhile_word h hrest
  rw [splitMax, hdrop, if_neg (by simp), htake, hafter]

/-- Spaces in front of the words do not matter. -/
theorem splitMax_space {c : Char} (hc : space c = true) (n : Nat) (cs : List Char) :
    splitMax space n (c :: cs) = splitMax space n cs := by
  cases n <;> simp only [splitMax, List.dropWhile_cons_of_pos hc]

/-- A word at the end of the text. -/
theorem splitMax_last {word : List Char} (hne : word ≠ []) (h : ∀ c ∈ word, space c = false)
    (n : Nat) : splitMax space n word = [word] := by
  obtain ⟨c, cs, rfl⟩ := List.exists_cons_of_ne_nil hne
  have hdrop : (c :: cs).dropWhile space = c :: cs :=
    List.dropWhile_cons_of_neg (by simp [h c List.mem_cons_self])
  cases n with
  | zero => rw [splitMax, hdrop, if_neg (List.cons_ne_nil _ _)]
  | succ n =>
    have hend : Breaks space [] := fun c hc => absurd hc (by simp)
    have hword := splitMax_word hne h hend n
    rw [List.append_nil] at hword
    rw [hword]
    cases n <;> rfl

/-- A text that ends in no space keeps what is in front of its end. -/
theorem rdropWhile_append {a b : List Char}
    (hlast : ∀ c ∈ a.getLast?, space c = false) :
    (a ++ b).rdropWhile space = a ++ b.rdropWhile space := by
  induction b using List.reverseRecOn with
  | nil =>
    rw [List.rdropWhile_nil, List.append_nil, List.rdropWhile_eq_self_iff]
    intro hne
    rw [hlast _ (List.getLast?_eq_some_getLast hne)]
    exact Bool.false_ne_true
  | append_singleton b d ih =>
    rw [← List.append_assoc]
    by_cases hd : space d = true
    · rw [List.rdropWhile_concat_pos _ _ _ hd, List.rdropWhile_concat_pos _ _ _ hd, ih]
    · rw [List.rdropWhile_concat_neg _ _ _ hd, List.rdropWhile_concat_neg _ _ _ hd,
        List.append_assoc]

/-- Stripping a text that begins with one whose ends are no spaces. -/
theorem strip_append {a b : List Char} (ha : a ≠ []) (hhead : ∀ c ∈ a.head?, space c = false)
    (hlast : ∀ c ∈ a.getLast?, space c = false) :
    strip space (a ++ b) = a ++ b.rdropWhile space := by
  obtain ⟨c, cs, rfl⟩ := List.exists_cons_of_ne_nil ha
  have hdrop : (c :: cs ++ b).dropWhile space = c :: cs ++ b :=
    List.dropWhile_cons_of_neg (by simp [hhead c rfl])
  rw [strip, hdrop, rdropWhile_append hlast]

theorem mem_of_mem_strip {cs : List Char} {c : Char} (h : c ∈ strip space cs) : c ∈ cs :=
  (List.dropWhile_suffix space).subset ((List.rdropWhile_prefix space _).subset h)

/-- Nothing is stripped of a text whose ends are no spaces. -/
theorem strip_of_ends {cs : List Char} (hne : cs ≠ []) (hhead : ∀ c ∈ cs.head?, space c = false)
    (hlast : ∀ c ∈ cs.getLast?, space c = false) : strip space cs = cs := by
  have h := @strip_append space cs [] hne hhead hlast
  rwa [List.append_nil, List.rdropWhile_nil, List.append_nil] at h

end MessageService.Lib
