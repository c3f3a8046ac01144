import MessageService.Lib.TransitionSystem
import Mathlib.Data.List.Basic
import Mathlib.Data.List.Nodup

/-!
# Reading a listing page by page

A reader that asks a system for one page of a listing after the other, by limit and offset, until
it is given a page that is not full; the system runs on between its questions.

* `page`: one page.
* `Listing`: what a system lists, and the query that fetches a page of it. `Listing.paged` is the
  system with the reader beside it.
* `Listing.complete`: **a reader that has ended has seen every key that stood in the listing when it
  began and still does**, provided that no step lets a key that stays come earlier in the listing,
  and that a key that has gone does not come back (`Listing.Settled`).
* `Listing.settled_of_sublist`: a listing that only ever gains entries is such a one.
* `Listing.inOrder_of_reach`: one that gains them at its end is read in order, each entry once.
* `Listing.exists_reach_of_run`: a concrete reading, by evaluation.
-/

namespace MessageService.Lib

universe u v w x

/-! ## Pages -/

/-- `LIMIT limit OFFSET offset`. -/
def page {α : Type u} (l : List α) (limit offset : Nat) : List α := (l.drop offset).take limit

theorem map_page {α : Type u} {β : Type v} (f : α → β) (l : List α) (limit offset : Nat) :
    (page l limit offset).map f = page (l.map f) limit offset := by
  rw [page, page, List.map_take, List.map_drop]

theorem length_page {α : Type u} (l : List α) (limit offset : Nat) :
    (page l limit offset).length = min limit (l.length - offset) := by
  rw [page, List.length_take, List.length_drop]

theorem mem_of_mem_page {α : Type u} {l : List α} {limit offset : Nat} {a : α}
    (h : a ∈ page l limit offset) : a ∈ l :=
  List.mem_of_mem_drop (List.mem_of_mem_take h)

section Position

variable {κ : Type u} [DecidableEq κ]

/-- An entry whose position falls on a page is on it. -/
theorem mem_page_of_idxOf {l : List κ} {limit offset : Nat} {k : κ} (hk : k ∈ l)
    (hle : offset ≤ l.idxOf k) (hlt : l.idxOf k < offset + limit) : k ∈ page l limit offset := by
  have hlen : l.idxOf k < l.length := List.idxOf_lt_length_of_mem hk
  have hget : (l.drop offset)[l.idxOf k - offset]? = some k := by
    rw [List.getElem?_drop, Nat.add_sub_cancel' hle, List.getElem?_eq_getElem hlen,
      List.getElem_idxOf hlen]
  refine List.mem_of_getElem? (i := l.idxOf k - offset) ?_
  rw [page, List.getElem?_take_of_lt (by omega), hget]

/-- Entries that come in between push an entry back, never forward. -/
theorem idxOf_le_of_sublist {l l' : List κ} (h : l.Sublist l') (hl' : l'.Nodup) {k : κ}
    (hk : k ∈ l) : l.idxOf k ≤ l'.idxOf k := by
  induction h with
  | slnil => cases hk
  | @cons l l' a h ih =>
    obtain ⟨ha, hl'⟩ := List.nodup_cons.mp hl'
    have hne : a ≠ k := fun e => ha (e ▸ h.subset hk)
    rw [List.idxOf_cons_ne _ hne]
    exact Nat.le_succ_of_le (ih hl' hk)
  | @cons_cons l l' a h ih =>
    obtain ⟨-, hl'⟩ := List.nodup_cons.mp hl'
    by_cases hak : a = k
    · rw [hak, List.idxOf_cons_self]
      exact Nat.zero_le _
    · rw [List.idxOf_cons_ne _ hak, List.idxOf_cons_ne _ hak]
      exact Nat.succ_le_succ (ih hl' ((List.mem_cons.mp hk).resolve_left (Ne.symm hak)))

/-- Entries that go from behind an entry leave it where it is. -/
theorem idxOf_filter {l : List κ} {p : κ → Bool} (h : l.Pairwise fun a b => p b = true → p a = true)
    {k : κ} (hk : k ∈ l) (hp : p k = true) : (l.filter p).idxOf k = l.idxOf k := by
  induction l with
  | nil => cases hk
  | cons a l ih =>
    obtain ⟨hhead, htail⟩ := List.pairwise_cons.mp h
    by_cases hak : a = k
    · rw [hak, List.filter_cons_of_pos hp, List.idxOf_cons_self, List.idxOf_cons_self]
    · have hkl : k ∈ l := (List.mem_cons.mp hk).resolve_left (Ne.symm hak)
      rw [List.filter_cons_of_pos (hhead k hkl hp), List.idxOf_cons_ne _ hak,
        List.idxOf_cons_ne _ hak, ih htail hkl]

end Position

/-! ## A reader beside a system -/

/-- What a system lists, and how one page of it is fetched; a fetch may fail. -/
structure Listing (σ : Type u) (ρ : Type v) (κ : Type w) where
  key : ρ → κ
  /-- The keys of the whole listing, in order. -/
  keys : σ → List κ
  limit : Nat
  fetch : σ → Nat → Option (List ρ)
  fetch_eq : ∀ s offset rows, fetch s offset = some rows →
    rows.map key = page (keys s) limit offset

/-- A reader on its way through the pages. -/
structure Reader (ρ : Type v) (κ : Type w) where
  /-- What the listing held when it began. -/
  found : List κ
  seen : List ρ := []
  offset : Nat := 0
  ended : Bool := false

/-- The reader after a page; the first page that is not full is its last. -/
def Reader.turn {ρ : Type v} {κ : Type w} (r : Reader ρ κ) (limit : Nat) (rows : List ρ) :
    Reader ρ κ :=
  { r with
    seen := r.seen ++ rows
    offset := r.offset + limit
    ended := rows.length < limit }

/-- The system and its reader. -/
structure Paged (σ : Type u) (ρ : Type v) (κ : Type w) where
  state : σ
  reader : Option (Reader ρ κ) := none

/-- A step of the system, or of the reader. -/
inductive PagedLabel (ℓ : Type x) where
  | own (l : ℓ)
  | begin
  | next

namespace Listing

variable {σ : Type u} {ρ : Type v} {κ : Type w} {ℓ : Type x}

/-- One step of the system with a reader beside it. -/
inductive PagedStep (L : Listing σ ρ κ) (S : System σ ℓ) :
    Paged σ ρ κ → PagedLabel ℓ → Paged σ ρ κ → Prop
  | own {s t : σ} {l : ℓ} {reader : Option (Reader ρ κ)} (h : S.step s l t) :
      PagedStep L S ⟨s, reader⟩ (.own l) ⟨t, reader⟩
  | begin {s : σ} {reader : Option (Reader ρ κ)} :
      PagedStep L S ⟨s, reader⟩ .begin ⟨s, some { found := L.keys s }⟩
  | next {s : σ} {r : Reader ρ κ} {rows : List ρ} (open_ : r.ended = false)
      (h : L.fetch s r.offset = some rows) :
      PagedStep L S ⟨s, some r⟩ .next ⟨s, some (r.turn L.limit rows)⟩

/-- The system with a reader beside it. -/
def paged (L : Listing σ ρ κ) (S : System σ ℓ) : System (Paged σ ρ κ) (PagedLabel ℓ) where
  init p := S.init p.state ∧ p.reader = none
  step := L.PagedStep S

theorem reach_state {L : Listing σ ρ κ} {S : System σ ℓ} {p : Paged σ ρ κ}
    (h : (L.paged S).Reach p) : S.Reach p.state := by
  refine System.inv_of_reach (I := fun p => S.Reach p.state) ⟨fun _ hp => .init (And.left hp), ?_⟩ h
  rintro s l t hs (h | _ | ⟨_, _⟩)
  · exact .step hs h
  · exact hs
  · exact hs

/-- The reader may begin at any time. -/
theorem reach_waiting {L : Listing σ ρ κ} {S : System σ ℓ} {s : σ} (h : S.Reach s) :
    (L.paged S).Reach ⟨s, none⟩ := by
  induction h with
  | init h => exact .init ⟨h, rfl⟩
  | step _ h ih => exact .step ih (.own h)

/-- A reader that reads the first page at once. -/
theorem reach_firstPage {L : Listing σ ρ κ} {S : System σ ℓ} {s : σ} (h : S.Reach s) {rows : List ρ}
    (hrows : L.fetch s 0 = some rows) :
    (L.paged S).Reach ⟨s, some (({ found := L.keys s } : Reader ρ κ).turn L.limit rows)⟩ :=
  .step (.step (reach_waiting h) .begin) (.next rfl hrows)

/-! ## Concrete readings -/

/-- The step of the reader and of a system with an executable step. -/
def pagedFun (L : Listing σ ρ κ) (f : σ → ℓ → Option σ) (p : Paged σ ρ κ) :
    PagedLabel ℓ → Option (Paged σ ρ κ)
  | .own l => (f p.state l).map fun t => { p with state := t }
  | .begin => some { p with reader := some { found := L.keys p.state } }
  | .next =>
    match p.reader with
    | none => none
    | some r =>
      if r.ended then none
      else (L.fetch p.state r.offset).map fun rows =>
        { p with reader := some (r.turn L.limit rows) }

theorem pagedStep_of_fun {L : Listing σ ρ κ} {init : σ → Prop} {f : σ → ℓ → Option σ}
    {p q : Paged σ ρ κ} {l : PagedLabel ℓ} (h : L.pagedFun f p l = some q) :
    L.PagedStep (.ofFun init f) p l q := by
  obtain ⟨s, reader⟩ := p
  cases l with
  | own l =>
    obtain ⟨t, ht, rfl⟩ := Option.map_eq_some_iff.mp h
    exact .own ht
  | begin =>
    cases h
    exact .begin
  | next =>
    cases reader with
    | none => cases h
    | some r =>
      simp only [pagedFun, Option.ite_none_left_eq_some, Option.map_eq_some_iff] at h
      obtain ⟨hopen, rows, hrows, rfl⟩ := h
      exact .next (Bool.eq_false_iff.mpr hopen) hrows

theorem reach_of_fun {L : Listing σ ρ κ} {init : σ → Prop} {f : σ → ℓ → Option σ}
    {p : Paged σ ρ κ}
    (h : (System.ofFun (L.paged (.ofFun init f)).init (L.pagedFun f)).Reach p) :
    (L.paged (.ofFun init f)).Reach p := by
  induction h with
  | init h => exact .init h
  | step _ h ih => exact .step ih (pagedStep_of_fun h)

/-- **Concrete readings.** A run that ends with a reader that passes a test. -/
theorem exists_reach_of_run {L : Listing σ ρ κ} {init : σ → Prop} {f : σ → ℓ → Option σ} {s : σ}
    {t : σ → Reader ρ κ → Bool} (ls : List (PagedLabel ℓ)) (hs : init s)
    (h : (System.run (L.pagedFun f) ⟨s, none⟩ ls).any (fun p => p.reader.any (t p.state)) =
      true) :
    ∃ p r, (L.paged (.ofFun init f)).Reach p ∧ p.reader = some r ∧ t p.state r = true := by
  have hinit : (System.ofFun (L.paged (.ofFun init f)).init (L.pagedFun f)).Reach ⟨s, none⟩ :=
    .init ⟨hs, rfl⟩
  obtain ⟨p, hp, htest⟩ := System.exists_reach_of_run ls hinit h
  obtain ⟨r, hr, htest⟩ := (Option.any_eq_true _ _).mp htest
  exact ⟨p, r, reach_of_fun hp, hr, htest⟩

/-! ## What a reader may miss -/

section Complete

variable [DecidableEq κ]

/-- No step lets a key that stays come earlier, and a key that was ever there and has gone does not
come back. `Issued s k`: the key has been there, in `s` or before. -/
structure Settled (L : Listing σ ρ κ) (S : System σ ℓ) (Issued : σ → κ → Prop) : Prop where
  issued : ∀ s k, S.Reach s → k ∈ L.keys s → Issued s k
  stays : ∀ s l t k, S.Reach s → S.step s l t → Issued s k → Issued t k
  back : ∀ s l t k, S.Reach s → S.step s l t → Issued s k → k ∈ L.keys t →
    k ∈ L.keys s ∧ (L.keys s).idxOf k ≤ (L.keys t).idxOf k

/-- Every key found and still listed has been seen, or is at the reader's offset or further on. -/
structure Ahead (L : Listing σ ρ κ) (Issued : σ → κ → Prop) (s : σ) (r : Reader ρ κ) : Prop where
  issued : ∀ k ∈ r.found, Issued s k
  ahead : ∀ k ∈ r.found, k ∈ L.keys s →
    k ∈ r.seen.map L.key ∨ r.ended = false ∧ r.offset ≤ (L.keys s).idxOf k

theorem Ahead.own {L : Listing σ ρ κ} {S : System σ ℓ} {Issued : σ → κ → Prop}
    (hL : L.Settled S Issued) {s t : σ} {l : ℓ} {r : Reader ρ κ} (hs : S.Reach s)
    (ha : L.Ahead Issued s r) (h : S.step s l t) : L.Ahead Issued t r where
  issued := fun k hk => hL.stays s l t k hs h (ha.issued k hk)
  ahead := by
    intro k hk hkt
    obtain ⟨hks, hle⟩ := hL.back s l t k hs h (ha.issued k hk) hkt
    exact (ha.ahead k hk hks).imp_right fun ⟨hopen, ho⟩ => ⟨hopen, Nat.le_trans ho hle⟩

/-- A page takes the reader past what it shows it, and past nothing else. -/
theorem Ahead.turn {L : Listing σ ρ κ} {Issued : σ → κ → Prop} {s : σ} {r : Reader ρ κ}
    {rows : List ρ} (ha : L.Ahead Issued s r) (h : L.fetch s r.offset = some rows) :
    L.Ahead Issued s (r.turn L.limit rows) where
  issued := ha.issued
  ahead := by
    intro k hk hks
    have hpage := L.fetch_eq s r.offset rows h
    have hseen : (r.turn L.limit rows).seen.map L.key = r.seen.map L.key ++ rows.map L.key :=
      List.map_append
    rw [hseen, List.mem_append]
    obtain hold | ⟨-, hle⟩ := ha.ahead k hk hks
    · exact .inl (.inl hold)
    · by_cases hlt : (L.keys s).idxOf k < r.offset + L.limit
      · refine .inl (.inr ?_)
        rw [hpage]
        exact mem_page_of_idxOf hks hle hlt
      · refine .inr ⟨?_, Nat.not_lt.mp hlt⟩
        -- an entry further on means that the page is full
        have hlen : rows.length = min L.limit ((L.keys s).length - r.offset) := by
          rw [← List.length_map, hpage, length_page]
        have hpos : (L.keys s).idxOf k < (L.keys s).length := List.idxOf_lt_length_of_mem hks
        simp only [Reader.turn, decide_eq_false_iff_not]
        omega

theorem ahead_of_reach {L : Listing σ ρ κ} {S : System σ ℓ} {Issued : σ → κ → Prop}
    (hL : L.Settled S Issued) {p : Paged σ ρ κ} (h : (L.paged S).Reach p) {r : Reader ρ κ}
    (hr : p.reader = some r) : L.Ahead Issued p.state r := by
  refine System.inv_of_reach_and
    (I := fun p => ∀ r, p.reader = some r → L.Ahead Issued p.state r) ?_ ?_ h r hr
  · rintro p ⟨-, hp⟩ r hr
    rw [hp] at hr
    cases hr
  · rintro _ _ _ hs ha (h | _ | ⟨-, h⟩) r hr
    · exact (ha r hr).own hL (reach_state hs) h
    · cases hr
      have hstate := reach_state hs
      exact ⟨fun k hk => hL.issued _ k hstate hk, fun k _ _ => .inr ⟨rfl, Nat.zero_le _⟩⟩
    · cases hr
      exact (ha _ rfl).turn h

/-- **A reader that has ended has missed nothing.** Every key that stood in the listing when it
began and still does is among those it has seen. -/
theorem complete {L : Listing σ ρ κ} {S : System σ ℓ} {Issued : σ → κ → Prop}
    (hL : L.Settled S Issued) {p : Paged σ ρ κ} (h : (L.paged S).Reach p) {r : Reader ρ κ}
    (hr : p.reader = some r) (hended : r.ended = true) {k : κ} (hk : k ∈ r.found)
    (hlisted : k ∈ L.keys p.state) : k ∈ r.seen.map L.key := by
  obtain hseen | ⟨hopen, -⟩ := (ahead_of_reach hL h hr).ahead k hk hlisted
  · exact hseen
  · rw [hended] at hopen
    cases hopen

/-- A listing without repetition that only ever gains entries is settled. -/
theorem settled_of_sublist {L : Listing σ ρ κ} {S : System σ ℓ} (hnodup : ∀ s, (L.keys s).Nodup)
    (hstep : ∀ s l t, S.Reach s → S.step s l t → (L.keys s).Sublist (L.keys t)) :
    L.Settled S fun s k => k ∈ L.keys s where
  issued := fun _ _ _ h => h
  stays := fun s l t _ hs h hk => (hstep s l t hs h).subset hk
  back := fun s l t _ hs h hk _ => ⟨hk, idxOf_le_of_sublist (hstep s l t hs h) (hnodup t) hk⟩

/-- A reader of such a listing has seen all that it found. -/
theorem complete_of_sublist {L : Listing σ ρ κ} {S : System σ ℓ}
    (hnodup : ∀ s, (L.keys s).Nodup)
    (hstep : ∀ s l t, S.Reach s → S.step s l t → (L.keys s).Sublist (L.keys t))
    {p : Paged σ ρ κ} (h : (L.paged S).Reach p) {r : Reader ρ κ} (hr : p.reader = some r)
    (hended : r.ended = true) {k : κ} (hk : k ∈ r.found) : k ∈ r.seen.map L.key := by
  have hL := settled_of_sublist hnodup hstep
  exact complete hL h hr hended hk ((ahead_of_reach hL h hr).issued k hk)

end Complete

/-! ## What a reader is shown -/

/-- What a reader has been shown satisfies what every listed row satisfies, when no step of the
system takes that away. -/
theorem seen_of_reach {L : Listing σ ρ κ} {S : System σ ℓ} {P : σ → ρ → Prop}
    (hfetch : ∀ s offset rows, S.Reach s → L.fetch s offset = some rows → ∀ row ∈ rows, P s row)
    (hstep : ∀ s l t row, S.Reach s → S.step s l t → P s row → P t row)
    {p : Paged σ ρ κ} (h : (L.paged S).Reach p) {r : Reader ρ κ} (hr : p.reader = some r) :
    ∀ row ∈ r.seen, P p.state row := by
  refine System.inv_of_reach_and
    (I := fun p => ∀ r, p.reader = some r → ∀ row ∈ r.seen, P p.state row) ?_ ?_ h r hr
  · rintro p ⟨-, hp⟩ r hr
    rw [hp] at hr
    cases hr
  · rintro _ _ _ hs ha (h | _ | ⟨-, h⟩) r hr row hrow
    · exact hstep _ _ _ row (reach_state hs) h (ha r hr row hrow)
    · cases hr
      cases hrow
    · cases hr
      obtain hrow | hrow := List.mem_append.mp hrow
      · exact ha _ rfl row hrow
      · exact hfetch _ _ _ (reach_state hs) h row hrow

/-- What a reader of a listing that grows at its end has been shown: its beginning. -/
structure InOrder (L : Listing σ ρ κ) (s : σ) (r : Reader ρ κ) : Prop where
  found : r.found <+: L.keys s
  seen : r.seen.map L.key <+: L.keys s
  open_ : r.ended = false → (r.seen.map L.key).length = r.offset
  ended : r.ended = true → r.found <+: r.seen.map L.key

theorem InOrder.own {L : Listing σ ρ κ} {s t : σ} {r : Reader ρ κ} (h : L.InOrder s r)
    (hgrow : L.keys s <+: L.keys t) : L.InOrder t r where
  found := h.found.trans hgrow
  seen := h.seen.trans hgrow
  open_ := h.open_
  ended := h.ended

theorem InOrder.turn {L : Listing σ ρ κ} {s : σ} {r : Reader ρ κ} {rows : List ρ}
    (h : L.InOrder s r) (hopen : r.ended = false) (hrows : L.fetch s r.offset = some rows) :
    L.InOrder s (r.turn L.limit rows) := by
  have hpage := L.fetch_eq s r.offset rows hrows
  have hseen : (r.turn L.limit rows).seen.map L.key = (L.keys s).take (r.offset + L.limit) := by
    rw [List.take_add, ← h.open_ hopen, ← List.prefix_iff_eq_take.mp h.seen]
    exact List.map_append.trans (congrArg _ (by rw [hpage, ← h.open_ hopen, page]))
  have hlen : rows.length = min L.limit ((L.keys s).length - r.offset) := by
    rw [← List.length_map, hpage, length_page]
  refine ⟨h.found, ?_, fun hfull => ?_, fun hended => ?_⟩
  · rw [hseen]
    exact List.take_prefix _ _
  · simp only [Reader.turn, decide_eq_false_iff_not] at hfull ⊢
    have hold := h.open_ hopen
    rw [List.map_append, List.length_append, hold, List.length_map]
    omega
  · simp only [Reader.turn, decide_eq_true_eq] at hended
    rw [hseen, List.take_of_length_le (by omega)]
    exact h.found

/-- **A listing that grows at its end is read in order, each entry once**: what has been shown is
its beginning, and at least what the reader found. -/
theorem inOrder_of_reach {L : Listing σ ρ κ} {S : System σ ℓ}
    (hgrow : ∀ s l t, S.Reach s → S.step s l t → L.keys s <+: L.keys t)
    {p : Paged σ ρ κ} (h : (L.paged S).Reach p) {r : Reader ρ κ} (hr : p.reader = some r) :
    L.InOrder p.state r := by
  refine System.inv_of_reach_and
    (I := fun p => ∀ r, p.reader = some r → L.InOrder p.state r) ?_ ?_ h r hr
  · rintro p ⟨-, hp⟩ r hr
    rw [hp] at hr
    cases hr
  · rintro _ _ _ hs ha (h | _ | ⟨hopen, h⟩) r hr
    · exact (ha r hr).own (hgrow _ _ _ (reach_state hs) h)
    · cases hr
      exact ⟨List.prefix_rfl, List.nil_prefix, fun _ => rfl, fun h => Bool.noConfusion h⟩
    · cases hr
      exact (ha _ rfl).turn hopen h

end Listing

end MessageService.Lib
