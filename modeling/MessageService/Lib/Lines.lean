import Mathlib.Data.List.Infix
import Mathlib.Tactic.Common

/-!
# Files of lines

What a file holds when it is read line by line. A line ends with a separator; what follows the last
separator is the tail, which a torn write leaves behind.

* `scan_append`: the lines and the tail of a file are those of its parts, joined. So no append takes
  a terminated line away (`lines_prefix_append`).
* `lines_append_write`: lines that are appended to a file all stand in it, but the first stands
  behind the tail of the file. At the start of a line (`AtLineStart`) it stands as it is
  (`lines_append_write_of_atLineStart`).
-/

namespace MessageService.Lib.Lines

universe u

variable {α : Type u}

/-- The lines and the tail of two files, one after the other. -/
def join (p q : List (List α) × List α) : List (List α) × List α :=
  match q.1 with
  | [] => (p.1, p.2 ++ q.2)
  | l :: ls => (p.1 ++ (p.2 ++ l) :: ls, q.2)

theorem join_assoc (p q r : List (List α) × List α) : join (join p q) r = join p (join q r) := by
  obtain ⟨ql, qt⟩ := q
  obtain ⟨rl, rt⟩ := r
  cases ql <;> cases rl <;> simp [join]

theorem nil_join (q : List (List α) × List α) : join ([], []) q = q := by
  obtain ⟨ql, qt⟩ := q
  cases ql <;> rfl

variable [DecidableEq α] (sep : α)

/-- The lines of a file, and its tail. -/
def scan : List α → List (List α) × List α
  | [] => ([], [])
  | c :: cs => join (if c = sep then ([[]], []) else ([], [c])) (scan cs)

/-- The lines of a file. -/
def lines (cs : List α) : List (List α) := (scan sep cs).1

/-- What follows the last separator. -/
def tail (cs : List α) : List α := (scan sep cs).2

/-- The file is empty or ends with a separator. -/
def AtLineStart (cs : List α) : Prop := tail sep cs = []

instance (cs : List α) : Decidable (AtLineStart sep cs) :=
  inferInstanceAs (Decidable (tail sep cs = []))

/-- The text of some lines. -/
def write (ls : List (List α)) : List α := ls.flatMap fun l => l ++ [sep]

variable {sep}

theorem scan_append (cs ds : List α) : scan sep (cs ++ ds) = join (scan sep cs) (scan sep ds) := by
  induction cs with
  | nil => exact (nil_join _).symm
  | cons c cs ih => rw [List.cons_append, scan, scan, ih, join_assoc]

theorem lines_prefix_append (cs ds : List α) : lines sep cs <+: lines sep (cs ++ ds) := by
  unfold lines
  rw [scan_append, join]
  split
  · exact List.prefix_rfl
  · exact List.prefix_append _ _

theorem scan_of_not_mem {l : List α} (h : sep ∉ l) : scan sep l = ([], l) := by
  induction l with
  | nil => rfl
  | cons c l ih =>
    rw [List.mem_cons, not_or] at h
    rw [scan, ih h.2, if_neg (Ne.symm h.1)]
    rfl

theorem scan_write {ls : List (List α)} (h : ∀ l ∈ ls, sep ∉ l) :
    scan sep (write sep ls) = (ls, []) := by
  induction ls with
  | nil => rfl
  | cons l ls ih =>
    have hl := scan_of_not_mem (h l List.mem_cons_self)
    have hsep : scan sep [sep] = ([[]], []) := by simp [scan, join]
    have hls := ih fun x hx => h x (List.mem_cons_of_mem _ hx)
    rw [write, List.flatMap_cons, scan_append, scan_append, hl, hsep]
    rw [write] at hls
    rw [hls]
    cases ls <;> simp [join]

/-- **Appended lines** all stand in the file, the first behind the tail. -/
theorem lines_append_write {cs l : List α} {ls : List (List α)} (h : ∀ x ∈ l :: ls, sep ∉ x) :
    lines sep (cs ++ write sep (l :: ls)) = lines sep cs ++ (tail sep cs ++ l) :: ls := by
  rw [lines, scan_append, scan_write h]
  rfl

/-- At the start of a line the appended lines stand as they are. -/
theorem lines_append_write_of_atLineStart {cs : List α} {ls : List (List α)}
    (h : ∀ x ∈ ls, sep ∉ x) (hcs : AtLineStart sep cs) :
    lines sep (cs ++ write sep ls) = lines sep cs ++ ls := by
  cases ls with
  | nil => simp [write]
  | cons l ls => rw [lines_append_write h, show tail sep cs = [] from hcs, List.nil_append]

end MessageService.Lib.Lines
