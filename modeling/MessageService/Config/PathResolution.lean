import MessageService.Config.Substitution

/-!
# The path fields of a configuration

The walk down the keys of a field is a replacement at one site (`resolveOne_eq`); so the resolution
changes the path fields and nothing else, and does so once (`path_resolution_exact`). With the
substitution, it says what the validation is given (`loadConfig_eq_ok_iff`).
-/

namespace MessageService.Config

open MessageService.Lib
open MessageService.Lib.DataTree (Step sites rewrite rewriteM)

section

variable (resolve : Resolve) (base : ParsedPath)

/-- The faults of a path: a name that `os.lstat` refuses, or a loop of symbolic links. -/
def pathFaults : TomlScalar → List PyException
  | .str raw =>
    if raw.head? = some '/' then []
    else if raw.contains (Char.ofNat 0) then [embeddedNull]
    else match resolve (base.join raw) with
      | .error e => [e]
      | .ok _ => []
  | _ => []

/-- What becomes of a path that has no fault. -/
def resolved : TomlScalar → TomlScalar
  | .str raw =>
    .str <| if raw.head? = some '/' then (base.join raw).chars
      else ((resolve (base.join raw)).toOption.getD base).chars
  | x => x

theorem resolveScalar_eq (x : TomlScalar) :
    resolveScalar resolve base x =
      firstFault (pathFaults resolve base x) (resolved resolve base x) := by
  cases x with
  | str raw =>
    rw [resolveScalar, resolveString, pathFaults, resolved]
    by_cases hroot : raw.head? = some '/'
    · simp only [if_pos hroot]
      rfl
    · simp only [if_neg hroot]
      by_cases hnull : raw.contains (Char.ofNat 0)
      · simp only [if_pos hnull]
        rfl
      · simp only [if_neg hnull]
        cases resolve (base.join raw) <;> rfl
  | _ => rfl

variable {resolve base} in
/-- **A path starts at the root** once it is resolved. -/
theorem head?_of_resolved {x : TomlScalar} {out : List Char}
    (h : resolved resolve base x = .str out) : out.head? = some '/' := by
  cases x with
  | str raw =>
    rw [resolved, TomlScalar.str.injEq] at h
    subst h
    split <;> exact ParsedPath.head?_chars _
  | _ => cases h

/-- **A resolved path stays** when it is resolved once more, wherever that is. -/
theorem resolved_resolved (resolve' : Resolve) (base' : ParsedPath) (x : TomlScalar) :
    resolved resolve' base' (resolved resolve base x) = resolved resolve base x := by
  have hchars (p : ParsedPath) : resolved resolve' base' (.str p.chars) = .str p.chars := by
    rw [resolved, if_pos p.head?_chars, ParsedPath.join_chars]
  cases x with
  | str raw =>
    rw [resolved]
    split <;> exact hchars _
  | _ => rfl

theorem pathFaults_resolved (resolve' : Resolve) (base' : ParsedPath) (x : TomlScalar) :
    pathFaults resolve' base' (resolved resolve base x) = [] := by
  cases hx : resolved resolve base x with
  | str out => rw [pathFaults, if_pos (head?_of_resolved hx)]
  | _ => rfl

theorem eq_key_of_below {path site : List Step} {step : Step} {key : String} {keys : List String}
    (hpre : path ++ [step] <+: site) (h : site = path ++ keyPath (key :: keys)) :
    step = .key key := by
  obtain ⟨rest, rfl⟩ := hpre
  rw [List.append_assoc, List.append_cancel_left_eq] at h
  exact (List.cons.inj h).1

theorem ne_of_below {path site : List Step} {step : Step} (hpre : path ++ [step] <+: site) :
    site ≠ path := by
  obtain ⟨rest, rfl⟩ := hpre
  simp

/-- **The walk down the keys of a field** is a replacement at one site. -/
theorem resolveOne_eq (keys : List String) (path : List Step) (v : Toml) :
    resolveOne resolve base keys v =
      rewriteM
        (fun site x => if site = path ++ keyPath keys then resolveScalar resolve base x else .ok x)
        path v := by
  induction keys generalizing path v with
  | nil =>
    have hpath : path ++ keyPath [] = path := List.append_nil path
    rw [hpath]
    cases v with
    | scalar x => rw [resolveOne, rewriteM, if_pos rfl]
    | seq kind xs =>
      exact (DataTree.rewriteM_eq_self fun s hs =>
        if_neg (ne_of_below (DataTree.prefix_of_mem_sites_seq hs))).symm
    | mapping es =>
      refine (DataTree.rewriteM_eq_self fun s hs => if_neg ?_).symm
      obtain ⟨e, -, hpre⟩ := DataTree.prefix_of_mem_sites_mapping hs
      exact ne_of_below hpre
  | cons key keys ih =>
    cases v with
    | scalar x =>
      refine (DataTree.rewriteM_eq_self fun s hs => if_neg ?_).symm
      obtain rfl := List.mem_singleton.mp hs
      simp [keyPath]
    | seq kind xs =>
      refine (DataTree.rewriteM_eq_self fun s hs => if_neg fun h => ?_).symm
      cases eq_key_of_below (DataTree.prefix_of_mem_sites_seq hs) h
    | mapping es =>
      rw [resolveOne, rewriteM]
      congr 1
      induction es with
      | nil => rfl
      | cons e es ihes =>
        rw [List.mapM_cons, DataTree.rewriteEntriesM, ihes]
        by_cases hkey : e.1 = key
        · subst hkey
          have hpath : path ++ [.key e.1] ++ keyPath keys = path ++ keyPath (e.1 :: keys) :=
            List.append_assoc ..
          rw [if_pos rfl, ih (path ++ [.key e.1]), hpath]
          cases rewriteM _ _ e.2 <;> rfl
        · rw [if_neg hkey, DataTree.rewriteM_eq_self fun s hs => if_neg fun h =>
            hkey (Step.key.inj (eq_key_of_below (DataTree.prefix_of_mem_sites hs) h))]
          rfl

/-- The faults of the field at some keys. -/
def fieldFaults (keys : List String) (data : Toml) : List PyException :=
  (sites [] data).flatMap fun s => if s.1 = keyPath keys then pathFaults resolve base s.2 else []

/-- What becomes of a document where the fields are resolved. -/
def resolvedAt (fields : List (List String)) (site : List Step) (x : TomlScalar) : TomlScalar :=
  if site ∈ fields.map keyPath then resolved resolve base x else x

theorem resolveOne_firstFault (keys : List String) (data : Toml) :
    resolveOne resolve base keys data =
      firstFault (fieldFaults resolve base keys data)
        (rewrite (resolvedAt resolve base [keys]) [] data) := by
  rw [resolveOne_eq resolve base keys [], fieldFaults]
  refine DataTree.rewriteM_firstFault
    (fun site x => if site = keyPath keys then pathFaults resolve base x else []) fun s _ => ?_
  simp only [List.nil_append, resolvedAt, List.map_singleton, List.mem_singleton]
  by_cases h : s.1 = keyPath keys
  · simp only [if_pos h, resolveScalar_eq]
  · simp only [if_neg h, firstFault_nil]

/-- The resolution of some fields keeps the faults of the others. -/
theorem fieldFaults_rewrite {fields : List (List String)} {keys : List String} (h : keys ∉ fields)
    (data : Toml) :
    fieldFaults resolve base keys (rewrite (resolvedAt resolve base fields) [] data) =
      fieldFaults resolve base keys data := by
  rw [fieldFaults, fieldFaults, DataTree.sites_rewrite, List.flatMap_map]
  refine List.flatMap_congr fun s _ => ?_
  by_cases hsite : s.1 = keyPath keys
  · have hout : s.1 ∉ fields.map keyPath := by
      rw [hsite, List.mem_map_of_injective keyPath_injective]
      exact h
    simp only [if_pos hsite, resolvedAt, if_neg hout]
  · simp only [if_neg hsite]

/-- A resolved field has no faults. -/
theorem fieldFaults_resolved (resolve' : Resolve) (base' : ParsedPath)
    {fields : List (List String)} {keys : List String} (h : keys ∈ fields) (data : Toml) :
    fieldFaults resolve' base' keys (rewrite (resolvedAt resolve base fields) [] data) = [] := by
  rw [fieldFaults, DataTree.sites_rewrite, List.flatMap_map, List.flatMap_eq_nil_iff]
  intro s _
  by_cases hsite : s.1 = keyPath keys
  · have hin : s.1 ∈ fields.map keyPath := hsite ▸ List.mem_map_of_mem h
    simp only [if_pos hsite, resolvedAt, if_pos hin, pathFaults_resolved]
  · simp only [if_neg hsite]

theorem foldlM_resolveOne {fields : List (List String)} (h : fields.Nodup) (data : Toml) :
    fields.foldlM (fun data field => resolveOne resolve base field data) data =
      firstFault (fields.flatMap (fieldFaults resolve base · data))
        (rewrite (resolvedAt resolve base fields) [] data) := by
  induction fields generalizing data with
  | nil =>
    have hid : rewrite (resolvedAt resolve base []) [] data = data :=
      (DataTree.rewrite_congr fun s _ => if_neg List.not_mem_nil).trans (DataTree.rewrite_id data)
    rw [hid]
    rfl
  | cons keys fields ih =>
    obtain ⟨hkeys, hfields⟩ := List.nodup_cons.mp h
    have hrest : fields.flatMap
          (fieldFaults resolve base · (rewrite (resolvedAt resolve base [keys]) [] data)) =
        fields.flatMap (fieldFaults resolve base · data) := by
      refine List.flatMap_congr fun field hfield => fieldFaults_rewrite resolve base ?_ data
      rintro hmem
      exact hkeys (List.mem_singleton.mp hmem ▸ hfield)
    have hrewrite : rewrite (resolvedAt resolve base fields) []
          (rewrite (resolvedAt resolve base [keys]) [] data) =
        rewrite (resolvedAt resolve base (keys :: fields)) [] data := by
      rw [DataTree.rewrite_rewrite]
      refine DataTree.rewrite_congr fun s _ => ?_
      simp only [resolvedAt, List.map_cons, List.map_nil, List.mem_cons, List.not_mem_nil, or_false]
      by_cases hsite : s.1 = keyPath keys
      · have hout : s.1 ∉ fields.map keyPath := by
          rw [hsite, List.mem_map_of_injective keyPath_injective]
          exact hkeys
        simp only [if_pos hsite, if_neg hout, if_pos (Or.inl hsite)]
      · simp only [hsite, false_or, if_false]
    rw [List.foldlM_cons, resolveOne_firstFault, List.flatMap_cons]
    refine firstFault_bind ?_
    rw [ih hfields, hrest, hrewrite]

/-- **The resolution has the faults of the path fields**, field by field, and else resolves them
and nothing else. -/
theorem resolvePaths_eq (data : Toml) :
    resolvePaths resolve base data =
      firstFault (pathFields.flatMap (fieldFaults resolve base · data))
        (rewrite (resolvedAt resolve base pathFields) [] data) :=
  foldlM_resolveOne resolve base (by decide) data

/-- No path field is substitutable. -/
theorem not_marked_of_mem_pathFields {site : List Step} (h : site ∈ pathFields.map keyPath) :
    ¬Marked collectSubstitutablePaths site := by
  obtain ⟨keys, hkeys, rfl⟩ := List.mem_map.mp h
  rw [marked_keyPath, collectSubstitutablePaths_eq]
  revert keys
  decide

theorem substituted_of_mem_pathFields {environ : Environ} {site : List Step} {x : TomlScalar}
    (h : site ∈ pathFields.map keyPath) : substituted environ site x = x := by
  cases x with
  | str value => rw [substituted, if_neg (not_marked_of_mem_pathFields h)]
  | _ => rfl

/-- What the validation sees of a scalar. -/
def prepared (environ : Environ) (site : List Step) (x : TomlScalar) : TomlScalar :=
  if site ∈ pathFields.map keyPath then resolved resolve base x else substituted environ site x

theorem rewrite_prepared (environ : Environ) (data : Toml) :
    rewrite (resolvedAt resolve base pathFields) [] (rewrite (substituted environ) [] data) =
      rewrite (prepared resolve base environ) [] data := by
  rw [DataTree.rewrite_rewrite]
  refine DataTree.rewrite_congr fun s _ => ?_
  rw [resolvedAt, prepared]
  by_cases h : s.1 ∈ pathFields.map keyPath
  · rw [if_pos h, if_pos h, substituted_of_mem_pathFields h]
  · rw [if_neg h, if_neg h]

/-- The two passes in the other order. -/
theorem rewrite_prepared' (environ : Environ) (data : Toml) :
    rewrite (substituted environ) [] (rewrite (resolvedAt resolve base pathFields) [] data) =
      rewrite (prepared resolve base environ) [] data := by
  rw [DataTree.rewrite_rewrite]
  refine DataTree.rewrite_congr fun s _ => ?_
  rw [resolvedAt, prepared]
  by_cases h : s.1 ∈ pathFields.map keyPath
  · rw [if_pos h, if_pos h, substituted_of_mem_pathFields h]
  · rw [if_neg h, if_neg h]

/-- The substitution keeps the faults of the path fields. -/
theorem fieldFaults_substituted {environ : Environ} {keys : List String} (h : keys ∈ pathFields)
    (data : Toml) :
    fieldFaults resolve base keys (rewrite (substituted environ) [] data) =
      fieldFaults resolve base keys data := by
  rw [fieldFaults, fieldFaults, DataTree.sites_rewrite, List.flatMap_map]
  refine List.flatMap_congr fun s _ => ?_
  by_cases hsite : s.1 = keyPath keys
  · simp only [if_pos hsite,
      substituted_of_mem_pathFields (hsite ▸ List.mem_map_of_mem h : s.1 ∈ pathFields.map keyPath)]
  · simp only [if_neg hsite]

/-- The resolution after the substitution. -/
theorem resolvePaths_substituted (environ : Environ) (data : Toml) :
    resolvePaths resolve base (rewrite (substituted environ) [] data) =
      firstFault (pathFields.flatMap (fieldFaults resolve base · data))
        (rewrite (prepared resolve base environ) [] data) := by
  rw [resolvePaths_eq, rewrite_prepared,
    List.flatMap_congr fun keys hkeys => fieldFaults_substituted resolve base hkeys data]

/-- The resolution keeps the references. -/
theorem markedRefs_resolved (data : Toml) :
    markedRefs (rewrite (resolvedAt resolve base pathFields) [] data) = markedRefs data := by
  rw [markedRefs, markedRefs, DataTree.sites_rewrite, List.flatMap_map]
  refine List.flatMap_congr fun s _ => ?_
  obtain ⟨site, x⟩ := s
  by_cases h : site ∈ pathFields.map keyPath
  · have hmarked := not_marked_of_mem_pathFields h
    simp only [resolvedAt, if_pos h]
    cases x <;> simp only [siteRefs, resolved, if_neg hmarked]
  · simp only [resolvedAt, if_neg h]

/-- The substitution after the resolution. -/
theorem substituteEnvVars_resolved {environ : Environ}
    {entries resolvedEntries : List (String × Toml)}
    (h : rewrite (resolvedAt resolve base pathFields) [] (.mapping entries) =
      .mapping resolvedEntries) :
    substituteEnvVars environ resolvedEntries =
      firstFault ((markedRefs (.mapping entries)).flatMap (refFaults environ))
        (DataTree.rewriteEntries (prepared resolve base environ) [] entries) := by
  have hrefs := markedRefs_resolved resolve base (.mapping entries)
  have hboth := rewrite_prepared' resolve base environ (.mapping entries)
  rw [h] at hrefs hboth
  rw [rewrite, rewrite, DataTree.mapping.injEq] at hboth
  rw [substituteEnvVars_firstFault, hrefs, hboth]

/-- **The resolution of the path fields**, for every document, directory and file system.

* Where it returns, each path is absolute.
* A second resolution, against any directory of any file system, changes nothing.
* It does not matter whether the references are replaced before it or after it: a reference in a
  path is never replaced. The two orders return the same, and each of the two passes raises what it
  would raise without the other; so that only where both have something to raise, it is the first of
  them that raises it. -/
theorem path_resolution_exact (resolve' : Resolve) (base' : ParsedPath)
    (entries : List (String × Toml)) :
    (∀ out, resolvePaths resolve base (.mapping entries) = .ok out →
      ∀ s ∈ sites [] out, s.1 ∈ pathFields.map keyPath →
        ∀ path, s.2 = .str path → path.head? = some '/') ∧
    (resolvePaths resolve base (.mapping entries) >>= resolvePaths resolve' base') =
      resolvePaths resolve base (.mapping entries) ∧
    ∀ environ,
      (∀ out,
        (∃ substitutedEntries, substituteEnvVars environ entries = .ok substitutedEntries ∧
          resolvePaths resolve base (.mapping substitutedEntries) = .ok (.mapping out)) ↔
        ∃ resolvedEntries,
          resolvePaths resolve base (.mapping entries) = .ok (.mapping resolvedEntries) ∧
          substituteEnvVars environ resolvedEntries = .ok out) ∧
      (∀ substitutedEntries, substituteEnvVars environ entries = .ok substitutedEntries → ∀ e,
        resolvePaths resolve base (.mapping substitutedEntries) = .error e ↔
          resolvePaths resolve base (.mapping entries) = .error e) ∧
      ∀ resolvedEntries,
        resolvePaths resolve base (.mapping entries) = .ok (.mapping resolvedEntries) → ∀ e,
        substituteEnvVars environ resolvedEntries = .error e ↔
          substituteEnvVars environ entries = .error e := by
  have hfirst (environ : Environ) {substitutedEntries : List (String × Toml)}
      (h : substituteEnvVars environ entries = .ok substitutedEntries) :
      resolvePaths resolve base (.mapping substitutedEntries) =
        firstFault (pathFields.flatMap (fieldFaults resolve base · (.mapping entries)))
          (rewrite (prepared resolve base environ) [] (.mapping entries)) := by
    rw [substituteEnvVars_firstFault, firstFault_eq_ok_iff] at h
    obtain ⟨-, rfl⟩ := h
    exact resolvePaths_substituted resolve base environ (.mapping entries)
  have hother (environ : Environ) {resolvedEntries : List (String × Toml)}
      (h : resolvePaths resolve base (.mapping entries) = .ok (.mapping resolvedEntries)) :
      substituteEnvVars environ resolvedEntries =
        firstFault ((markedRefs (.mapping entries)).flatMap (refFaults environ))
          (DataTree.rewriteEntries (prepared resolve base environ) [] entries) := by
    rw [resolvePaths_eq, firstFault_eq_ok_iff] at h
    exact substituteEnvVars_resolved resolve base h.2
  refine ⟨fun out hout s hs hsite path hpath => ?_, ?_, fun environ =>
    ⟨fun out => ⟨?_, ?_⟩, fun substitutedEntries h e => ?_, fun resolvedEntries h e => ?_⟩⟩
  · rw [resolvePaths_eq, firstFault_eq_ok_iff] at hout
    obtain ⟨-, rfl⟩ := hout
    rw [DataTree.sites_rewrite] at hs
    obtain ⟨t, -, rfl⟩ := List.mem_map.mp hs
    simp only [resolvedAt, if_pos hsite] at hpath
    exact head?_of_resolved hpath
  · rw [resolvePaths_eq resolve base (.mapping entries)]
    have hagain : rewrite (resolvedAt resolve' base' pathFields) []
        (rewrite (resolvedAt resolve base pathFields) [] (.mapping entries)) =
          rewrite (resolvedAt resolve base pathFields) [] (.mapping entries) := by
      rw [DataTree.rewrite_rewrite]
      refine DataTree.rewrite_congr fun s _ => ?_
      rw [resolvedAt, resolvedAt]
      by_cases hsite : s.1 ∈ pathFields.map keyPath
      · rw [if_pos hsite, if_pos hsite, resolved_resolved]
      · rw [if_neg hsite, if_neg hsite]
    have hnone : resolvePaths resolve' base'
        (rewrite (resolvedAt resolve base pathFields) [] (.mapping entries)) =
        firstFault [] (rewrite (resolvedAt resolve base pathFields) [] (.mapping entries)) := by
      rw [resolvePaths_eq, hagain, List.flatMap_eq_nil_iff.mpr fun keys hkeys =>
        fieldFaults_resolved resolve base resolve' base' hkeys (.mapping entries)]
    rw [firstFault_bind hnone, List.append_nil]
  · rintro ⟨substitutedEntries, hsubstituted, hout⟩
    rw [hfirst environ hsubstituted, firstFault_eq_ok_iff, rewrite, DataTree.mapping.injEq] at hout
    rw [substituteEnvVars_firstFault, firstFault_eq_ok_iff] at hsubstituted
    have hresolved : resolvePaths resolve base (.mapping entries) =
        .ok (rewrite (resolvedAt resolve base pathFields) [] (.mapping entries)) := by
      rw [resolvePaths_eq, hout.1, firstFault_nil]
    refine ⟨_, hresolved, ?_⟩
    rw [hother environ hresolved, hsubstituted.1, firstFault_nil, hout.2]
  · rintro ⟨resolvedEntries, hresolved, hout⟩
    rw [hother environ hresolved, firstFault_eq_ok_iff] at hout
    rw [resolvePaths_eq, firstFault_eq_ok_iff] at hresolved
    have hsubstituted : substituteEnvVars environ entries =
        .ok (DataTree.rewriteEntries (substituted environ) [] entries) := by
      rw [substituteEnvVars_firstFault, hout.1, firstFault_nil]
    refine ⟨_, hsubstituted, ?_⟩
    rw [hfirst environ hsubstituted, hresolved.1, firstFault_nil, rewrite, hout.2]
  · rw [hfirst environ h, resolvePaths_eq, firstFault_eq_error_iff, firstFault_eq_error_iff]
  · rw [hother environ h, substituteEnvVars_firstFault, firstFault_eq_error_iff,
      firstFault_eq_error_iff]

end

/-! ## The file -/

section

variable {V C : Type} (decode : List UInt8 → Except (List Char) (List Char))
  (tomlLoads : List Char → Except (List Char) (List (String × Toml)))
  (validate : Toml → Except V C)

theorem flatMap_refFaults_eq_nil_iff {environ : Environ} {data : Toml} :
    (markedRefs data).flatMap (refFaults environ) = [] ↔
      ∀ r ∈ markedRefs data, (environ r.2).isSome := by
  rw [List.flatMap_eq_nil_iff]
  refine forall₂_congr fun r _ => ?_
  rw [refFaults, unset]
  cases environ r.2 <;> simp

/-- **What the validation sees**: the document of the file, in which the references of the
substitutable fields are replaced and the path fields resolved, and nothing else is changed. -/
theorem loadConfig_eq_ok_iff {machine : Machine} {configPath : List Char} {cfg : C} :
    loadConfig decode tomlLoads validate machine configPath = .ok cfg ↔
      configPath.contains (Char.ofNat 0) = false ∧
      ∃ path, machine.resolve (machine.cwd.join configPath) = .ok path ∧
      ∃ raw, readDocument (V := V) decode tomlLoads machine path = .ok raw ∧
        (∀ r ∈ markedRefs (.mapping raw), (machine.environ r.2).isSome) ∧
        (∀ keys ∈ pathFields, fieldFaults machine.resolve path.parent keys (.mapping raw) = []) ∧
        validate (rewrite (prepared machine.resolve path.parent machine.environ) []
          (.mapping raw)) = .ok cfg := by
  rw [loadConfig]
  cases configPath.contains (Char.ofNat 0) with
  | true => simp
  | false =>
    rw [if_neg Bool.false_ne_true]
    simp only [bind_eq_ok_iff, mapError_eq_ok_iff, true_and, substituteEnvVars_firstFault,
      firstFault_eq_ok_iff, flatMap_refFaults_eq_nil_iff]
    refine exists_congr fun path => and_congr_right fun _ =>
      exists_congr fun raw => and_congr_right fun _ => ?_
    have hresolve := resolvePaths_substituted machine.resolve path.parent machine.environ
      (.mapping raw)
    constructor
    · rintro ⟨_, ⟨hrefs, rfl⟩, out, hout, hvalid⟩
      obtain ⟨hnull, rfl⟩ := firstFault_eq_ok_iff.mp (hresolve.symm.trans hout)
      exact ⟨hrefs, List.flatMap_eq_nil_iff.mp hnull, hvalid⟩
    · rintro ⟨hrefs, hnull, hvalid⟩
      exact ⟨_, ⟨hrefs, rfl⟩, _, hresolve.trans
        (firstFault_eq_ok_iff.mpr ⟨List.flatMap_eq_nil_iff.mpr hnull, rfl⟩), hvalid⟩

/-- **The configuration depends on the variables that it refers to**, and on no others. -/
theorem loadConfig_congr {machine : Machine} {configPath : List Char} {environ : Environ}
    (h : ∀ path raw, machine.resolve (machine.cwd.join configPath) = .ok path →
      readDocument (V := V) decode tomlLoads machine path = .ok raw →
      ∀ r ∈ markedRefs (.mapping raw), machine.environ r.2 = environ r.2) :
    loadConfig decode tomlLoads validate { machine with environ := environ } configPath =
      loadConfig decode tomlLoads validate machine configPath := by
  unfold loadConfig
  split
  · rfl
  · have hread : readDocument (V := V) decode tomlLoads { machine with environ := environ } =
        readDocument decode tomlLoads machine := by
      funext path
      rfl
    rw [hread]
    dsimp only
    cases hpath : machine.resolve (machine.cwd.join configPath) with
    | error e => rfl
    | ok path =>
      simp only [Except.mapError, bind_ok]
      cases hraw : readDocument (V := V) decode tomlLoads machine path with
      | error e => rfl
      | ok raw =>
        simp only [bind_ok]
        rw [substituteEnvVars_congr (h path raw hpath hraw)]

/-- **The loading of a configuration**, for every file system, parser and validation.

* It returns what the validation makes of the document of the file, in which the references of the
  substitutable fields are replaced and the path fields resolved against the directory of the file;
  and it returns exactly where the path of the file resolves, the file can be read, the variables
  that are referred to are set, each relative path of the document resolves and the validation
  returns. A path with a null character does not resolve, nor one that leads into a loop of links.
* The variables that the document does not refer to do not matter, also where it raises. -/
theorem config_load_exact (machine : Machine) (configPath : List Char) :
    (∀ cfg, loadConfig decode tomlLoads validate machine configPath = .ok cfg ↔
      configPath.contains (Char.ofNat 0) = false ∧
      ∃ path, machine.resolve (machine.cwd.join configPath) = .ok path ∧
      ∃ raw, readDocument (V := V) decode tomlLoads machine path = .ok raw ∧
        (∀ r ∈ markedRefs (.mapping raw), (machine.environ r.2).isSome) ∧
        (∀ keys ∈ pathFields, fieldFaults machine.resolve path.parent keys (.mapping raw) = []) ∧
        validate (rewrite (prepared machine.resolve path.parent machine.environ) []
          (.mapping raw)) = .ok cfg) ∧
    ∀ environ, (∀ path raw, machine.resolve (machine.cwd.join configPath) = .ok path →
        readDocument (V := V) decode tomlLoads machine path = .ok raw →
        ∀ r ∈ markedRefs (.mapping raw), machine.environ r.2 = environ r.2) →
      loadConfig decode tomlLoads validate { machine with environ := environ } configPath =
        loadConfig decode tomlLoads validate machine configPath :=
  ⟨fun _ => loadConfig_eq_ok_iff decode tomlLoads validate,
    fun _ h => loadConfig_congr decode tomlLoads validate h⟩

end

end MessageService.Config
