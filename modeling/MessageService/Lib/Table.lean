import Mathlib.Data.List.Nodup
import Mathlib.Tactic.Common

/-!
# Tables

The two kinds of table a relational store has, with the invariant their key gives them as a field.

* `Table key`: rows with a primary key `key : ρ → κ`, in insertion order. `get?` reads a row,
  `upsert` is `INSERT .. ON CONFLICT DO UPDATE`, `modify` an `UPDATE` of one row by its key,
  `filter` a `DELETE` of the rows that fail a test.
* `Serial ρ`: rows under an `AUTOINCREMENT` id, which no two rows share and which grows with the
  insertion order. `insert` appends, `mapRows` is an `UPDATE`, `filter` a `DELETE`.

Every operation has a `get?` lemma, so that proofs about stores never look at the row list.
-/

namespace MessageService.Lib

universe u v

/-! ## Tables with a primary key -/

/-- Rows in insertion order, no key twice. -/
structure Table {ρ : Type u} {κ : Type v} (key : ρ → κ) where
  rows : List ρ
  nodup : (rows.map key).Nodup

namespace Table

variable {ρ : Type u} {κ : Type v} {key : ρ → κ} [DecidableEq κ]

/-- The empty table. -/
def empty : Table key := ⟨[], List.nodup_nil⟩

/-- The row with key `k`. -/
def get? (t : Table key) (k : κ) : Option ρ := t.rows.find? fun r => key r = k

theorem key_of_get? {t : Table key} {k : κ} {r : ρ} (h : t.get? k = some r) : key r = k := by
  simpa using List.find?_some h

theorem mem_of_get? {t : Table key} {k : κ} {r : ρ} (h : t.get? k = some r) : r ∈ t.rows :=
  List.mem_of_find?_eq_some h

theorem find?_of_mem {l : List ρ} (hn : (l.map key).Nodup) {r : ρ} (h : r ∈ l) :
    (l.find? fun x => key x = key r) = some r := by
  induction l with
  | nil => simp at h
  | cons x l ih =>
    simp only [List.map_cons, List.nodup_cons] at hn
    rcases List.mem_cons.mp h with rfl | h
    · simp
    · have hx : key x ≠ key r := fun e => hn.1 (e ▸ List.mem_map_of_mem h)
      simpa [hx] using ih hn.2 h

theorem get?_of_mem {t : Table key} {r : ρ} (h : r ∈ t.rows) : t.get? (key r) = some r :=
  find?_of_mem t.nodup h

theorem mem_iff_get? {t : Table key} {r : ρ} : r ∈ t.rows ↔ t.get? (key r) = some r :=
  ⟨get?_of_mem, mem_of_get?⟩

theorem get?_eq_none {t : Table key} {k : κ} : t.get? k = none ↔ ∀ r ∈ t.rows, key r ≠ k := by
  simp [get?]

theorem mem_keys_iff {t : Table key} {k : κ} : k ∈ t.rows.map key ↔ t.get? k ≠ none := by
  rw [Ne, get?_eq_none, List.mem_map]
  push Not
  rfl

/-- Replace the row with key `k` by what `g` makes of it. -/
def modify (t : Table key) (k : κ) (g : ρ → ρ) (hg : ∀ r, key r = k → key (g r) = k) :
    Table key where
  rows := t.rows.map fun r => if key r = k then g r else r
  nodup := by
    have : (t.rows.map fun r => if key r = k then g r else r).map key = t.rows.map key := by
      simp only [List.map_map, List.map_inj_left, Function.comp]
      intro r _
      by_cases h : key r = k
      · rw [if_pos h, hg r h, h]
      · rw [if_neg h]
    rw [this]
    exact t.nodup

theorem find?_map_ite {l : List ρ} {k k' : κ} {g : ρ → ρ} (hg : ∀ r, key r = k → key (g r) = k) :
    ((l.map fun r => if key r = k then g r else r).find? fun r => key r = k') =
      if k' = k then (l.find? fun r => key r = k').map g else l.find? fun r => key r = k' := by
  induction l with
  | nil => simp
  | cons x l ih =>
    simp only [List.map_cons, List.find?_cons]
    by_cases hx : key x = k
    · have hgx := hg x hx
      by_cases hk : k' = k
      · simp [hx, hgx, hk]
      · have h1 : k ≠ k' := Ne.symm hk
        simpa [hx, hgx, hk, h1] using ih
    · by_cases hk : k' = k
      · subst hk
        simpa [hx] using ih
      · by_cases hxk : key x = k'
        · simp [hxk, hk]
        · simpa [hx, hxk, hk] using ih

theorem get?_modify (t : Table key) (k : κ) (g : ρ → ρ) (hg : ∀ r, key r = k → key (g r) = k)
    (k' : κ) :
    (t.modify k g hg).get? k' = if k' = k then (t.get? k').map g else t.get? k' :=
  find?_map_ite hg

/-- Append a row whose key is new. -/
def append (t : Table key) (r : ρ) (h : t.get? (key r) = none) : Table key where
  rows := t.rows ++ [r]
  nodup := by
    rw [List.map_append, List.nodup_append]
    refine ⟨t.nodup, by simp, ?_⟩
    intro a ha b hb
    obtain ⟨x, hx, rfl⟩ := List.mem_map.mp ha
    simp only [List.map_cons, List.map_nil, List.mem_singleton] at hb
    rw [hb]
    exact get?_eq_none.mp h x hx

theorem get?_append (t : Table key) (r : ρ) (h : t.get? (key r) = none) (k : κ) :
    (t.append r h).get? k = if k = key r then some r else t.get? k := by
  by_cases hk : k = key r
  · subst hk
    have : t.rows.find? (fun x => key x = key r) = none := h
    simp [get?, append, List.find?_append, this]
  · have : key r ≠ k := Ne.symm hk
    simp [get?, append, List.find?_append, hk, this]

/-- `INSERT r .. ON CONFLICT DO UPDATE`: the row under `r`'s key becomes what `g` makes of it, or
`r` when there is none. -/
def upsert (t : Table key) (r : ρ) (g : ρ → ρ) (hg : ∀ x, key x = key r → key (g x) = key r) :
    Table key :=
  match h : t.get? (key r) with
  | none => t.append r h
  | some _ => t.modify (key r) g hg

theorem get?_upsert (t : Table key) (r : ρ) (g : ρ → ρ)
    (hg : ∀ x, key x = key r → key (g x) = key r) (k : κ) :
    (t.upsert r g hg).get? k =
      if k = key r then some (((t.get? k).map g).getD r) else t.get? k := by
  unfold upsert
  split
  · next h =>
    rw [get?_append]
    by_cases hk : k = key r
    · simp [hk, h]
    · simp [hk]
  · next x h =>
    rw [get?_modify]
    by_cases hk : k = key r
    · simp [hk, h]
    · simp [hk]

theorem get?_upsert_ne {t : Table key} {r : ρ} {g : ρ → ρ}
    {hg : ∀ x, key x = key r → key (g x) = key r} {k : κ} (h : k ≠ key r) :
    (t.upsert r g hg).get? k = t.get? k := by
  simp [get?_upsert, h]

theorem rows_upsert_of_none {t : Table key} {r : ρ} {g : ρ → ρ}
    {hg : ∀ x, key x = key r → key (g x) = key r} (h : t.get? (key r) = none) :
    (t.upsert r g hg).rows = t.rows ++ [r] := by
  unfold upsert
  split
  · rfl
  · next x hx => rw [h] at hx; cases hx

theorem get?_of_rows_append {t t' : Table key} {l : List ρ} (h : t'.rows = t.rows ++ l) (k : κ) :
    t'.get? k = (t.get? k).or (l.find? fun r => key r = k) := by
  unfold get?
  rw [h, List.find?_append]

/-- Keep the rows that pass `p`. -/
def filter (t : Table key) (p : ρ → Bool) : Table key where
  rows := t.rows.filter p
  nodup := t.nodup.sublist (List.filter_sublist.map key)

theorem get?_filter (t : Table key) (p : ρ → Bool) (k : κ) :
    (t.filter p).get? k = (t.get? k).filter p := by
  cases h : t.get? k with
  | none =>
    rw [Option.filter_none, get?_eq_none]
    intro r hr
    exact get?_eq_none.mp h r (List.mem_filter.mp hr).1
  | some r =>
    have hk := key_of_get? h
    by_cases hp : p r
    · have : r ∈ (t.filter p).rows := List.mem_filter.mpr ⟨mem_of_get? h, hp⟩
      rw [Option.filter_some, if_pos hp, ← hk]
      exact get?_of_mem this
    · rw [Option.filter_some, if_neg hp, get?_eq_none]
      intro x hx hxk
      obtain ⟨hx, hpx⟩ := List.mem_filter.mp hx
      have : t.get? k = some x := hxk ▸ get?_of_mem hx
      rw [h] at this
      exact hp (Option.some.inj this ▸ hpx)

theorem filter_key (t : Table key) (k : κ) :
    (t.rows.filter fun r => key r = k) = (t.get? k).toList := by
  have hfilter : ∀ l : List ρ, (l.map key).Nodup →
      (l.filter fun r => key r = k) = (l.find? fun r => key r = k).toList := by
    intro l hl
    induction l with
    | nil => rfl
    | cons r l ih =>
      obtain ⟨hr, hl⟩ := List.nodup_cons.mp hl
      by_cases hk : key r = k
      · have hnone : (l.filter fun r => key r = k) = [] := by
          refine List.filter_eq_nil_iff.mpr fun r' hr' h => hr ?_
          rw [hk, ← of_decide_eq_true h]
          exact List.mem_map_of_mem hr'
        simp [hk, hnone]
      · simpa [hk] using ih hl
  exact hfilter t.rows t.nodup

/-- **Counting.** Where two tables agree but for one key, what they count differs by the rows under
that key. -/
theorem countP_of_agree {t t' : Table key} {k : κ} (h : ∀ k', k' ≠ k → t'.get? k' = t.get? k')
    (p : ρ → Bool) :
    t'.rows.countP p + (t.get? k).toList.countP p =
      t.rows.countP p + (t'.get? k).toList.countP p := by
  have hothers : (t'.rows.filter fun r => !decide (key r = k)).Perm
      (t.rows.filter fun r => !decide (key r = k)) := by
    refine (List.perm_ext_iff_of_nodup (t'.nodup.of_map.filter _) (t.nodup.of_map.filter _)).mpr
      fun r => ?_
    rw [List.mem_filter, List.mem_filter, mem_iff_get?, mem_iff_get?]
    refine and_congr_left fun hr => ?_
    rw [h _ (by simpa using hr)]
  have hcount (u : Table key) : u.rows.countP p =
      (u.get? k).toList.countP p + (u.rows.filter fun r => !decide (key r = k)).countP p := by
    rw [← filter_key]
    exact List.countP_eq_countP_filter_add ..
  rw [hcount t', hcount t, hothers.countP_eq p]
  omega

end Table

/-! ## Tables under an autoincrement id -/

/-- Rows under ids that grow with the insertion order. -/
structure Serial (ρ : Type u) where
  rows : List (Nat × ρ)
  /-- The next id. -/
  next : Nat
  sorted : rows.Pairwise fun a b => a.1 < b.1
  below : ∀ r ∈ rows, r.1 < next

namespace Serial

variable {ρ : Type u}

/-- The empty table; ids start at 1. -/
def empty : Serial ρ := ⟨[], 1, List.Pairwise.nil, by simp⟩

/-- The row with id `i`. -/
def get? (t : Serial ρ) (i : Nat) : Option ρ := (t.rows.find? fun r => r.1 = i).map Prod.snd

theorem mem_iff_find? {l : List (Nat × ρ)} (hs : l.Pairwise fun a b => a.1 < b.1) {i : Nat}
    {r : ρ} : (i, r) ∈ l ↔ (l.find? fun x => x.1 = i).map Prod.snd = some r := by
  induction l with
  | nil => simp
  | cons x l ih =>
    simp only [List.pairwise_cons] at hs
    by_cases hx : x.1 = i
    · have hn : (i, r) ∉ l := fun h => absurd (hs.1 _ h) (by simp [hx])
      obtain ⟨j, y⟩ := x
      simp only at hx
      subst hx
      simp [hn, eq_comm]
    · have : (i, r) ≠ x := fun e => hx (by rw [← e])
      simpa [hx, this] using ih hs.2

theorem mem_iff_get? {t : Serial ρ} {i : Nat} {r : ρ} : (i, r) ∈ t.rows ↔ t.get? i = some r :=
  mem_iff_find? t.sorted

theorem nodup_rows (t : Serial ρ) : t.rows.Nodup :=
  t.sorted.imp fun h e => Nat.ne_of_lt h (congrArg Prod.fst e)

theorem eq_of_mem {t : Serial ρ} {a b : Nat × ρ} (ha : a ∈ t.rows) (hb : b ∈ t.rows)
    (h : a.1 = b.1) : a = b := by
  obtain ⟨i, r⟩ := a
  obtain ⟨j, r'⟩ := b
  obtain rfl : i = j := h
  exact congrArg (Prod.mk i)
    (Option.some.inj ((mem_iff_get?.mp ha).symm.trans (mem_iff_get?.mp hb)))

theorem lt_next_of_get? {t : Serial ρ} {i : Nat} {r : ρ} (h : t.get? i = some r) : i < t.next :=
  t.below _ (mem_iff_get?.mpr h)

/-- Append a row under the next id. -/
def insert (t : Serial ρ) (r : ρ) : Serial ρ where
  rows := t.rows ++ [(t.next, r)]
  next := t.next + 1
  sorted := by
    rw [List.pairwise_append]
    refine ⟨t.sorted, List.pairwise_singleton _ _, ?_⟩
    intro a ha b hb
    rw [List.mem_singleton.mp hb]
    exact t.below a ha
  below := by
    intro x hx
    rcases List.mem_append.mp hx with hx | hx
    · exact Nat.lt_succ_of_lt (t.below x hx)
    · rw [List.mem_singleton.mp hx]
      exact Nat.lt_succ_self _

theorem get?_insert (t : Serial ρ) (r : ρ) (i : Nat) :
    (t.insert r).get? i = if i = t.next then some r else t.get? i := by
  by_cases hi : i = t.next
  · subst hi
    have : (t.next, r) ∈ (t.insert r).rows := by simp [insert]
    simpa using mem_iff_get?.mp this
  · have : t.next ≠ i := Ne.symm hi
    simp [get?, insert, List.find?_append, hi, this]

@[simp] theorem rows_insert (t : Serial ρ) (r : ρ) :
    (t.insert r).rows = t.rows ++ [(t.next, r)] := rfl

@[simp] theorem next_insert (t : Serial ρ) (r : ρ) : (t.insert r).next = t.next + 1 := rfl

/-- Append rows, in order. -/
def insertAll (t : Serial ρ) (l : List ρ) : Serial ρ := l.foldl insert t

@[simp] theorem next_insertAll (t : Serial ρ) (l : List ρ) :
    (t.insertAll l).next = t.next + l.length := by
  unfold insertAll
  induction l generalizing t with
  | nil => rfl
  | cons r l ih =>
    rw [List.foldl_cons, ih, next_insert, List.length_cons]
    omega

theorem rows_insertAll (t : Serial ρ) (l : List ρ) :
    (t.insertAll l).rows = t.rows ++ (l.zipIdx t.next).map Prod.swap := by
  unfold insertAll
  induction l generalizing t with
  | nil => simp
  | cons r l ih =>
    rw [List.foldl_cons, ih, rows_insert, next_insert, List.zipIdx_cons, List.map_cons,
      List.append_assoc]
    rfl

theorem get?_insertAll_of_lt {t : Serial ρ} {l : List ρ} {i : Nat} (h : i < t.next) :
    (t.insertAll l).get? i = t.get? i := by
  unfold insertAll
  induction l generalizing t with
  | nil => rfl
  | cons r l ih =>
    rw [List.foldl_cons, ih (Nat.lt_succ_of_lt h), get?_insert, if_neg (Nat.ne_of_lt h)]

/-- Replace every row by what `f` makes of it and its id. -/
def mapRows (t : Serial ρ) (f : Nat → ρ → ρ) : Serial ρ where
  rows := t.rows.map fun r => (r.1, f r.1 r.2)
  next := t.next
  sorted := List.pairwise_map.mpr t.sorted
  below := by
    intro x hx
    obtain ⟨y, hy, rfl⟩ := List.mem_map.mp hx
    exact t.below y hy

theorem get?_mapRows (t : Serial ρ) (f : Nat → ρ → ρ) (i : Nat) :
    (t.mapRows f).get? i = (t.get? i).map (f i) := by
  have hc : ((fun r : Nat × ρ => decide (r.1 = i)) ∘ fun r : Nat × ρ => (r.1, f r.1 r.2)) =
      fun r => decide (r.1 = i) := rfl
  simp only [get?, mapRows, List.find?_map, hc, Option.map_map]
  cases h : t.rows.find? fun r => decide (r.1 = i) with
  | none => rfl
  | some r =>
    have : r.1 = i := by simpa using List.find?_some h
    simp [this]

/-- A row that the function fixes stays. -/
theorem get?_mapRows_of_fixed (t : Serial ρ) {f : Nat → ρ → ρ} {i : Nat} (h : ∀ r, f i r = r) :
    (t.mapRows f).get? i = t.get? i := by
  rw [get?_mapRows]
  cases t.get? i with
  | none => rfl
  | some r => rw [Option.map_some, h]

theorem mapRows_mapRows (t : Serial ρ) (f g : Nat → ρ → ρ) :
    (t.mapRows f).mapRows g = t.mapRows fun i r => g i (f i r) := by
  simp [mapRows, List.map_map, Function.comp_def]

/-- The table of what `f` makes of the rows. -/
def map {ρ' : Type v} (t : Serial ρ) (f : ρ → ρ') : Serial ρ' where
  rows := t.rows.map fun r => (r.1, f r.2)
  next := t.next
  sorted := List.pairwise_map.mpr t.sorted
  below := by
    intro x hx
    obtain ⟨y, hy, rfl⟩ := List.mem_map.mp hx
    exact t.below y hy

/-- An update that changes nothing. -/
theorem mapRows_eq_self {t : Serial ρ} {f : Nat → ρ → ρ} (h : ∀ i r, f i r = r) :
    t.mapRows f = t := by
  simp [mapRows, h]

/-- Keep the rows that pass `p`. -/
def filter (t : Serial ρ) (p : Nat × ρ → Bool) : Serial ρ where
  rows := t.rows.filter p
  next := t.next
  sorted := t.sorted.filter p
  below := fun x hx => t.below x (List.mem_filter.mp hx).1

theorem get?_filter (t : Serial ρ) (p : Nat × ρ → Bool) (i : Nat) :
    (t.filter p).get? i = (t.get? i).filter fun r => p (i, r) := by
  refine Option.ext fun r => ?_
  rw [← mem_iff_get?, Option.filter_eq_some_iff, ← mem_iff_get?]
  simp [filter, List.mem_filter]

end Serial

end MessageService.Lib
