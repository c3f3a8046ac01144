import MessageService.Lib.DataTree
import MessageService.Lib.Faults

/-!
# The sites of a tree

The scalars of a tree with the keys on the way to each, in the order of the document, and the
replacement of each by what a function makes of it, which may raise (`rewriteM`) or not
(`rewrite`).

* `rewriteM_firstFault`: the replacement has the faults of the sites, in the order of the document.
* `rewrite_rewrite`: two replacements in a row are one.
-/

namespace MessageService.Lib.DataTree

variable {κ α ε : Type}

/-- A step from a tree to a tree in it. -/
inductive Step where
  | key (k : String)
  | item
  deriving DecidableEq, Repr

mutual

/-- The scalars of a tree that stands at a path. -/
def sites (path : List Step) : DataTree κ α → List (List Step × α)
  | .scalar x => [(path, x)]
  | .seq _ xs => sitesOfElements path xs
  | .mapping es => sitesOfEntries path es

/-- The scalars of the elements of a sequence. -/
def sitesOfElements (path : List Step) : List (DataTree κ α) → List (List Step × α)
  | [] => []
  | x :: xs => sites (path ++ [.item]) x ++ sitesOfElements path xs

/-- The scalars of the entries of a mapping. -/
def sitesOfEntries (path : List Step) : List (String × DataTree κ α) → List (List Step × α)
  | [] => []
  | (k, v) :: es => sites (path ++ [.key k]) v ++ sitesOfEntries path es

end

mutual

/-- Replace each scalar, in the order of the document. -/
def rewriteM (f : List Step → α → Except ε α) (path : List Step) :
    DataTree κ α → Except ε (DataTree κ α)
  | .scalar x => .scalar <$> f path x
  | .seq kind xs => .seq kind <$> rewriteElementsM f path xs
  | .mapping es => .mapping <$> rewriteEntriesM f path es

/-- The elements of a sequence. -/
def rewriteElementsM (f : List Step → α → Except ε α) (path : List Step) :
    List (DataTree κ α) → Except ε (List (DataTree κ α))
  | [] => .ok []
  | x :: xs => do
    let x ← rewriteM f (path ++ [.item]) x
    let xs ← rewriteElementsM f path xs
    return x :: xs

/-- The entries of a mapping. -/
def rewriteEntriesM (f : List Step → α → Except ε α) (path : List Step) :
    List (String × DataTree κ α) → Except ε (List (String × DataTree κ α))
  | [] => .ok []
  | (k, v) :: es => do
    let v ← rewriteM f (path ++ [.key k]) v
    let es ← rewriteEntriesM f path es
    return (k, v) :: es

end

mutual

/-- Replace each scalar. -/
def rewrite (g : List Step → α → α) (path : List Step) : DataTree κ α → DataTree κ α
  | .scalar x => .scalar (g path x)
  | .seq kind xs => .seq kind (rewriteElements g path xs)
  | .mapping es => .mapping (rewriteEntries g path es)

/-- The elements of a sequence. -/
def rewriteElements (g : List Step → α → α) (path : List Step) :
    List (DataTree κ α) → List (DataTree κ α)
  | [] => []
  | x :: xs => rewrite g (path ++ [.item]) x :: rewriteElements g path xs

/-- The entries of a mapping. -/
def rewriteEntries (g : List Step → α → α) (path : List Step) :
    List (String × DataTree κ α) → List (String × DataTree κ α)
  | [] => []
  | (k, v) :: es => (k, rewrite g (path ++ [.key k]) v) :: rewriteEntries g path es

end

variable {f : List Step → α → Except ε α} {g g' : List Step → α → α} {path : List Step}

/-- The way to a site goes through where the tree stands. -/
theorem prefix_of_mem_sites {v : DataTree κ α} {s : List Step × α} (h : s ∈ sites path v) :
    path <+: s.1 := by
  induction v using induct generalizing path with
  | scalar x =>
    obtain rfl := List.mem_singleton.mp h
    exact List.prefix_rfl
  | seq kind xs ih =>
    rw [sites] at h
    induction xs with
    | nil => cases h
    | cons x xs ihxs =>
      obtain ⟨hx, hxs⟩ := List.forall_mem_cons.mp ih
      rcases List.mem_append.mp h with h | h
      · exact (List.prefix_append _ _).trans (hx h)
      · exact ihxs hxs h
  | mapping es ih =>
    rw [sites] at h
    induction es with
    | nil => cases h
    | cons e es ihes =>
      obtain ⟨he, hes⟩ := List.forall_mem_cons.mp ih
      rcases List.mem_append.mp h with h | h
      · exact (List.prefix_append _ _).trans (he h)
      · exact ihes hes h

theorem prefix_of_mem_sites_seq {kind : κ} {xs : List (DataTree κ α)} {s : List Step × α}
    (h : s ∈ sites path (.seq kind xs)) : path ++ [.item] <+: s.1 := by
  rw [sites] at h
  induction xs with
  | nil => cases h
  | cons x xs ih =>
    rcases List.mem_append.mp h with h | h
    · exact prefix_of_mem_sites h
    · exact ih h

theorem prefix_of_mem_sites_mapping {es : List (String × DataTree κ α)} {s : List Step × α}
    (h : s ∈ sites path (.mapping es)) : ∃ e ∈ es, path ++ [.key e.1] <+: s.1 := by
  rw [sites] at h
  induction es with
  | nil => cases h
  | cons e es ih =>
    rcases List.mem_append.mp h with h | h
    · exact ⟨e, List.mem_cons_self, prefix_of_mem_sites h⟩
    · obtain ⟨e', he, hpre⟩ := ih h
      exact ⟨e', List.mem_cons_of_mem _ he, hpre⟩

/-- **The replacement has the faults of the sites**, in the order of the document. -/
theorem rewriteM_firstFault (faults : List Step → α → List ε) {v : DataTree κ α}
    (h : ∀ s ∈ sites path v, f s.1 s.2 = firstFault (faults s.1 s.2) (g s.1 s.2)) :
    rewriteM f path v =
      firstFault ((sites path v).flatMap fun s => faults s.1 s.2) (rewrite g path v) := by
  induction v using induct generalizing path with
  | scalar x =>
    rw [rewriteM, h (path, x) List.mem_cons_self, map_firstFault, sites, List.flatMap_singleton]
    rfl
  | seq kind xs ih =>
    have hxs : rewriteElementsM f path xs = firstFault
        ((sitesOfElements path xs).flatMap fun s => faults s.1 s.2) (rewriteElements g path xs) := by
      rw [sites] at h
      induction xs with
      | nil => rfl
      | cons x xs ihxs =>
        obtain ⟨hx, hxs⟩ := List.forall_mem_cons.mp ih
        rw [sitesOfElements, List.forall_mem_append] at h
        rw [rewriteElementsM, hx h.1, ihxs hxs h.2, sitesOfElements, List.flatMap_append]
        exact firstFault_bind (map_firstFault _ _ _)
    rw [rewriteM, hxs, map_firstFault]
    rfl
  | mapping es ih =>
    have hes : rewriteEntriesM f path es = firstFault
        ((sitesOfEntries path es).flatMap fun s => faults s.1 s.2) (rewriteEntries g path es) := by
      rw [sites] at h
      induction es with
      | nil => rfl
      | cons e es ihes =>
        obtain ⟨he, hes⟩ := List.forall_mem_cons.mp ih
        rw [sitesOfEntries, List.forall_mem_append] at h
        rw [rewriteEntriesM, he h.1, ihes hes h.2, sitesOfEntries, List.flatMap_append]
        exact firstFault_bind (map_firstFault _ _ _)
    rw [rewriteM, hes, map_firstFault]
    rfl

/-- A replacement without faults. -/
theorem rewriteM_ok {v : DataTree κ α} (h : ∀ s ∈ sites path v, f s.1 s.2 = .ok (g s.1 s.2)) :
    rewriteM f path v = .ok (rewrite g path v) := by
  rw [rewriteM_firstFault (fun _ _ => []) h,
    List.flatMap_eq_nil_iff.mpr fun s _ => rfl, firstFault_nil]

/-- The sites of what comes of a replacement. -/
theorem sites_rewrite (v : DataTree κ α) :
    sites path (rewrite g path v) = (sites path v).map fun s => (s.1, g s.1 s.2) := by
  induction v using induct generalizing path with
  | scalar x => rfl
  | seq kind xs ih =>
    rw [rewrite, sites, sites]
    induction xs with
    | nil => rfl
    | cons x xs ihxs =>
      obtain ⟨hx, hxs⟩ := List.forall_mem_cons.mp ih
      rw [rewriteElements, sitesOfElements, sitesOfElements, List.map_append, hx, ihxs hxs]
  | mapping es ih =>
    rw [rewrite, sites, sites]
    induction es with
    | nil => rfl
    | cons e es ihes =>
      obtain ⟨he, hes⟩ := List.forall_mem_cons.mp ih
      rw [rewriteEntries, sitesOfEntries, sitesOfEntries, List.map_append, he, ihes hes]

/-- The replacement reads the function at the sites. -/
theorem rewrite_congr {v : DataTree κ α} (h : ∀ s ∈ sites path v, g s.1 s.2 = g' s.1 s.2) :
    rewrite g path v = rewrite g' path v := by
  let f : List Step → α → Except Empty α := fun p x => .ok (g p x)
  have hg : rewriteM f path v = .ok (rewrite g path v) := rewriteM_ok fun _ _ => rfl
  have hg' : rewriteM f path v = .ok (rewrite g' path v) :=
    rewriteM_ok fun s hs => congrArg Except.ok (h s hs)
  exact Except.ok.inj (hg.symm.trans hg')

/-- **Two replacements in a row** are one. -/
theorem rewrite_rewrite (v : DataTree κ α) :
    rewrite g' path (rewrite g path v) = rewrite (fun p x => g' p (g p x)) path v := by
  induction v using induct generalizing path with
  | scalar x => rfl
  | seq kind xs ih =>
    have hxs : rewriteElements g' path (rewriteElements g path xs) =
        rewriteElements (fun p x => g' p (g p x)) path xs := by
      induction xs with
      | nil => rfl
      | cons x xs ihxs =>
        obtain ⟨hx, hxs⟩ := List.forall_mem_cons.mp ih
        rw [rewriteElements, rewriteElements, rewriteElements, hx, ihxs hxs]
    rw [rewrite, rewrite, rewrite, hxs]
  | mapping es ih =>
    have hes : rewriteEntries g' path (rewriteEntries g path es) =
        rewriteEntries (fun p x => g' p (g p x)) path es := by
      induction es with
      | nil => rfl
      | cons e es ihes =>
        obtain ⟨he, hes⟩ := List.forall_mem_cons.mp ih
        rw [rewriteEntries, rewriteEntries, rewriteEntries, he, ihes hes]
    rw [rewrite, rewrite, rewrite, hes]

theorem rewrite_id (v : DataTree κ α) : rewrite (fun _ x => x) path v = v := by
  induction v using induct generalizing path with
  | scalar x => rfl
  | seq kind xs ih =>
    have hxs : rewriteElements (fun _ x => x) path xs = xs := by
      induction xs with
      | nil => rfl
      | cons x xs ihxs =>
        obtain ⟨hx, hxs⟩ := List.forall_mem_cons.mp ih
        rw [rewriteElements, hx, ihxs hxs]
    rw [rewrite, hxs]
  | mapping es ih =>
    have hes : rewriteEntries (fun _ x => x) path es = es := by
      induction es with
      | nil => rfl
      | cons e es ihes =>
        obtain ⟨he, hes⟩ := List.forall_mem_cons.mp ih
        rw [rewriteEntries, he, ihes hes]
    rw [rewrite, hes]

/-- A replacement that changes no site. -/
theorem rewriteM_eq_self {v : DataTree κ α} (h : ∀ s ∈ sites path v, f s.1 s.2 = .ok s.2) :
    rewriteM f path v = .ok v := by
  rw [rewriteM_ok (g := fun _ x => x) h, rewrite_id]

end MessageService.Lib.DataTree
