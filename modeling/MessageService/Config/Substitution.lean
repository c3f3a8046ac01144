import MessageService.Config.Loader

/-!
# The substitution of a configuration

The walk of the document is a replacement at its sites, of which the substitutable ones are changed
(`substituteAtPaths_eq`); so the substitution raises at the first reference to a variable that is not
set, and else replaces the references (`substitution_exact`).
-/

namespace MessageService.Config

open MessageService.Lib
open MessageService.Lib.DataTree (Step sites rewrite rewriteM)

/-- The path of keys. -/
def keyPath (keys : List String) : List Step := keys.map .key

theorem keyPath_injective : Function.Injective keyPath :=
  List.map_injective_iff.mpr fun _ _ h => Step.key.inj h

theorem item_notMem_keyPath (keys : List String) : Step.item ∉ keyPath keys := by
  simp [keyPath]

/-- A site that a list of field paths names, or an item of a list there. -/
def Marked (paths : List (List String)) (site : List Step) : Prop :=
  ∃ keys ∈ paths, site = keyPath keys ∨ site = keyPath keys ++ [.item]

instance (paths : List (List String)) (site : List Step) : Decidable (Marked paths site) :=
  inferInstanceAs (Decidable (∃ _ ∈ _, _))

theorem marked_keyPath {paths : List (List String)} {keys : List String} :
    Marked paths (keyPath keys) ↔ keys ∈ paths := by
  constructor
  · rintro ⟨keys', hmem, h | h⟩
    · exact keyPath_injective h ▸ hmem
    · exact absurd (h ▸ List.mem_append_right _ List.mem_cons_self) (item_notMem_keyPath keys)
  · exact fun h => ⟨keys, h, .inl rfl⟩

theorem marked_item {paths : List (List String)} {keys : List String} {rest : List Step} :
    Marked paths (keyPath keys ++ .item :: rest) ↔ keys ∈ paths ∧ rest = [] := by
  constructor
  · rintro ⟨keys', hmem, h | h⟩
    · refine absurd ?_ (item_notMem_keyPath keys')
      exact h ▸ List.mem_append_right _ List.mem_cons_self
    · obtain ⟨hkeys, -, hrest⟩ := (List.append_cons_inj_of_notMem (item_notMem_keyPath keys')
        List.not_mem_nil).mp h.symm
      exact ⟨keyPath_injective hkeys ▸ hmem, hrest.symm⟩
  · rintro ⟨hmem, rfl⟩
    exact ⟨keys, hmem, .inr rfl⟩

/-- What the substitution does at a site. -/
def substituteSite (environ : Environ) (paths : List (List String)) (site : List Step)
    (x : TomlScalar) : Except ConfigurationError TomlScalar :=
  if Marked paths site then substituteScalar environ x else .ok x

theorem substituteItem_eq {environ : Environ} {paths : List (List String)} {keys : List String}
    (h : keys ∈ paths) (v : Toml) :
    substituteItem environ v =
      rewriteM (substituteSite environ paths) (keyPath keys ++ [.item]) v := by
  have hinner {s : List Step × TomlScalar} {step : Step}
      (hs : keyPath keys ++ [.item] ++ [step] <+: s.1) :
      substituteSite environ paths s.1 s.2 = .ok s.2 := by
    obtain ⟨rest, hrest⟩ := hs
    refine if_neg fun hmarked => ?_
    rw [← hrest, List.append_assoc, List.append_assoc] at hmarked
    cases (marked_item.mp hmarked).2
  cases v with
  | scalar x => rw [substituteItem, rewriteM, substituteSite, if_pos (marked_item.mpr ⟨h, rfl⟩)]
  | seq kind xs =>
    exact (DataTree.rewriteM_eq_self fun s hs => hinner (DataTree.prefix_of_mem_sites_seq hs)).symm
  | mapping es =>
    refine (DataTree.rewriteM_eq_self fun s hs => ?_).symm
    obtain ⟨e, -, hpre⟩ := DataTree.prefix_of_mem_sites_mapping hs
    exact hinner hpre

theorem mapM_substituteItem {environ : Environ} {paths : List (List String)} {keys : List String}
    (h : keys ∈ paths) (xs : List Toml) :
    xs.mapM (substituteItem environ) =
      DataTree.rewriteElementsM (substituteSite environ paths) (keyPath keys) xs := by
  induction xs with
  | nil => rfl
  | cons x xs ih => rw [List.mapM_cons, DataTree.rewriteElementsM, substituteItem_eq h, ih]

/-- **The walk of the document** is a replacement at its sites. -/
theorem substituteAtPaths_eq (environ : Environ) (paths : List (List String)) (keys : List String)
    (v : Toml) :
    substituteAtPaths environ paths keys v =
      rewriteM (substituteSite environ paths) (keyPath keys) v := by
  induction v using DataTree.induct generalizing keys with
  | scalar x =>
    rw [substituteAtPaths, rewriteM, substituteSite]
    simp only [marked_keyPath, List.contains_iff_mem]
    split <;> rfl
  | seq kind xs _ =>
    rw [substituteAtPaths]
    by_cases h : keys ∈ paths
    · rw [if_pos (List.contains_iff_mem.mpr h), rewriteM, mapM_substituteItem h]
    · rw [if_neg (mt List.contains_iff_mem.mp h)]
      refine (DataTree.rewriteM_eq_self fun s hs => if_neg fun hmarked => h ?_).symm
      obtain ⟨rest, hrest⟩ := DataTree.prefix_of_mem_sites_seq hs
      rw [← hrest, List.append_assoc] at hmarked
      exact (marked_item.mp hmarked).1
  | mapping es ih =>
    have hes : substituteEntries environ paths keys es =
        DataTree.rewriteEntriesM (substituteSite environ paths) (keyPath keys) es := by
      induction es with
      | nil => rfl
      | cons e es ihes =>
        obtain ⟨he, hes⟩ := List.forall_mem_cons.mp ih
        have hkey : keyPath (keys ++ [e.1]) = keyPath keys ++ [.key e.1] := List.map_append
        rw [substituteEntries, DataTree.rewriteEntriesM, he, hkey, ihes hes]
    rw [substituteAtPaths, rewriteM, hes]

/-- A variable that is not set. -/
def unset (environ : Environ) (name : List Char) : Bool := (environ name).isNone

/-- The value of a variable that is set. -/
def valueOf (environ : Environ) (name : List Char) : List Char := (environ name).getD []

theorem replacer_eq (environ : Environ) (value name : List Char) :
    replacer environ value name =
      firstFault (if unset environ name then [notSet value name] else []) (valueOf environ name) := by
  unfold replacer unset valueOf
  cases environ name <;> rfl

/-- The references of a scalar at a site, each with the string it is in. -/
def siteRefs (s : List Step × TomlScalar) : List (List Char × List Char) :=
  match s.2 with
  | .str value =>
    if Marked collectSubstitutablePaths s.1 then (envPattern.refs value).map (value, ·) else []
  | _ => []

/-- **The references of a document** that are replaced: those in the substitutable fields. -/
def markedRefs (data : Toml) : List (List Char × List Char) := (sites [] data).flatMap siteRefs

/-- What becomes of a scalar at a site. -/
def substituted (environ : Environ) (site : List Step) : TomlScalar → TomlScalar
  | .str value =>
    .str (if Marked collectSubstitutablePaths site then
      envPattern.replace (valueOf environ) value else value)
  | x => x

/-- What is raised for a reference. -/
def refFaults (environ : Environ) (r : List Char × List Char) : List ConfigurationError :=
  if unset environ r.2 then [notSet r.1 r.2] else []

theorem substituteSite_eq (environ : Environ) (s : List Step × TomlScalar) :
    substituteSite environ collectSubstitutablePaths s.1 s.2 =
      firstFault ((siteRefs s).flatMap (refFaults environ)) (substituted environ s.1 s.2) := by
  obtain ⟨site, x⟩ := s
  by_cases h : Marked collectSubstitutablePaths site
  · rw [substituteSite, if_pos h]
    cases x with
    | str value =>
      rw [substituteScalar, applySubstitution,
        Placeholder.expand_firstFault fun name _ => replacer_eq environ value name, map_firstFault]
      simp only [siteRefs, substituted, if_pos h, List.flatMap_map, refFaults]
    | _ => rfl
  · rw [substituteSite, if_neg h]
    cases x with
    | str value => simp only [siteRefs, substituted, if_neg h, List.flatMap_nil, firstFault_nil]
    | _ => rfl

/-- **The substitution has the faults of the references**, in the order of the document. -/
theorem substituteEnvVars_firstFault (environ : Environ) (data : List (String × Toml)) :
    substituteEnvVars environ data =
      firstFault ((markedRefs (.mapping data)).flatMap (refFaults environ))
        (DataTree.rewriteEntries (substituted environ) [] data) := by
  have hwalk : substituteAtPaths environ collectSubstitutablePaths [] (.mapping data) =
      firstFault ((markedRefs (.mapping data)).flatMap (refFaults environ))
        (rewrite (substituted environ) [] (.mapping data)) := by
    rw [substituteAtPaths_eq, markedRefs, List.flatMap_assoc]
    exact DataTree.rewriteM_firstFault (fun site x => (siteRefs (site, x)).flatMap (refFaults environ))
      fun s _ => substituteSite_eq environ s
  rw [substituteEnvVars, hwalk]
  cases (markedRefs (.mapping data)).flatMap (refFaults environ) <;> rfl

/-- **The substitution raises at the first reference to a variable that is not set**, and else
replaces the references of the substitutable fields. -/
theorem substituteEnvVars_eq (environ : Environ) (data : List (String × Toml)) :
    substituteEnvVars environ data =
      match (markedRefs (.mapping data)).find? fun r => unset environ r.2 with
      | some r => .error (notSet r.1 r.2)
      | none => .ok (DataTree.rewriteEntries (substituted environ) [] data) := by
  rw [substituteEnvVars_firstFault]
  refine (firstFault_flatMap_ite (p := fun r : List Char × List Char => unset environ r.2)
    (e := fun r => notSet r.1 r.2)).trans ?_
  cases (markedRefs (.mapping data)).find? fun r => unset environ r.2 <;> rfl

/-- **What the substitution depends on**: the variables that are referred to. -/
theorem substituteEnvVars_congr {environ environ' : Environ} {data : List (String × Toml)}
    (h : ∀ r ∈ markedRefs (.mapping data), environ r.2 = environ' r.2) :
    substituteEnvVars environ data = substituteEnvVars environ' data := by
  have hfaults : (markedRefs (.mapping data)).flatMap (refFaults environ) =
      (markedRefs (.mapping data)).flatMap (refFaults environ') := by
    refine List.flatMap_congr fun r hr => ?_
    rw [refFaults, refFaults, unset, unset, h r hr]
  have hsubstituted : rewrite (substituted environ) [] (.mapping data) =
      rewrite (substituted environ') [] (.mapping data) := by
    refine DataTree.rewrite_congr fun ⟨site, x⟩ hs => ?_
    cases x with
    | str value =>
      by_cases hmarked : Marked collectSubstitutablePaths site
      · have hvalue (name : List Char) (hname : name ∈ envPattern.refs value) :
            valueOf environ name = valueOf environ' name := by
          refine congrArg (Option.getD · []) (h (value, name) (List.mem_flatMap.mpr ⟨_, hs, ?_⟩))
          simp only [siteRefs, if_pos hmarked]
          exact List.mem_map.mpr ⟨name, hname, rfl⟩
        simp only [substituted, if_pos hmarked, Placeholder.replace_congr hvalue]
      · simp only [substituted, if_neg hmarked]
    | _ => rfl
  rw [substituteEnvVars_firstFault, substituteEnvVars_firstFault, hfaults]
  exact congrArg _ (DataTree.mapping.inj hsubstituted)

/-- **The substitution of a configuration**, for every document and every environment.

* The references are those that occur in the substitutable fields (`markedRefs`), and a text in
  which none occurs stays.
* It raises at the first of them whose variable is not set, naming it; else the substitutable fields
  have their references replaced, and nothing else is changed.
* A value is not read again.
* The variables that are not referred to do not matter. -/
theorem substitution_exact (environ : Environ) (data : List (String × Toml)) :
    (∀ value name, name ∈ envPattern.refs value ↔
      envPattern.IsName name ∧ envPattern.refText name <:+: value) ∧
    substituteEnvVars environ data =
      (match (markedRefs (.mapping data)).find? fun r => unset environ r.2 with
      | some r => .error (notSet r.1 r.2)
      | none => .ok (DataTree.rewriteEntries (substituted environ) [] data)) ∧
    (∀ name before after, envPattern.IsName name →
      envPattern.replace (valueOf environ) (before ++ (envPattern.refText name ++ after)) =
        envPattern.replace (valueOf environ) before ++
          (valueOf environ name ++ envPattern.replace (valueOf environ) after)) ∧
    (∀ value, envPattern.refs value = [] → envPattern.replace (valueOf environ) value = value) ∧
    ∀ environ', (∀ r ∈ markedRefs (.mapping data), environ' r.2 = environ r.2) →
      substituteEnvVars environ' data = substituteEnvVars environ data := by
  refine ⟨fun value name => Placeholder.mem_refs_iff, substituteEnvVars_eq environ data,
    fun name before after hname => Placeholder.replace_append_refText hname before after,
    fun value hvalue => ?_, fun environ' h => substituteEnvVars_congr h⟩
  refine Placeholder.replace_of_not_infix fun name hname hin => ?_
  exact List.not_mem_nil (hvalue ▸ Placeholder.mem_refs_iff.mpr ⟨hname, hin⟩)

end MessageService.Config
