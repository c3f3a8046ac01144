import MessageService.Infrastructure.MigrationFiles
import MessageService.Lib.SqlConnection
import MessageService.Lib.TransitionSystem

/-!
# Applying migrations

Model of `apply_migrations` of `infrastructure/persistence/migration_runner.py` and of a startup of
the service up to it (`bootstrap/service.py`): a connection is opened, the migrations that are not
in `_migrations` are applied one transaction each, and on any failure the connection is closed. What
the statements of a body do to the database is a parameter (`Engine`): DDL is transactional, and a
body is complete statements without `BEGIN` and `COMMIT`.

A database is any state that startups lead to, each with its own schedule of failures.

* `applied_of_reach`: **whatever has become of the startups, the first `k` migrations are applied**
  in full and nothing else.
* `migrations_resumable`: and what the next startup does with that. It asks that the bodies leave
  `_migrations` to the runner; `cleared_bookkeeping_repeats` is a body that does not.
-/

namespace MessageService.Infrastructure

open MessageService.Domain MessageService.Lib MessageService.Lib.Sql

/-- A row of `_migrations`. -/
structure MigrationRow where
  version : Nat
  name : String
  appliedAt : String
  deriving DecidableEq, Repr

/-- The database: the table `_migrations`, if it is there, and everything else. -/
structure MigratedDb (σ : Type) where
  content : σ
  migrations : Option (List MigrationRow) := none

/-- What the statements of an SQL text do, in order. Of a text that the engine cannot read, or the
driver will not pass on, a statement fails. -/
abbrev Engine (σ : Type) := String → List (Work (MigratedDb σ))

namespace MigratedDb

variable {σ : Type}

/-- `SELECT version FROM _migrations`, of a table that may not be there. -/
def versions (d : MigratedDb σ) : List Nat :=
  (d.migrations.getD []).map MigrationRow.version

/-- `CREATE TABLE IF NOT EXISTS _migrations`. -/
def ensureMigrationsTable (d : MigratedDb σ) : MigratedDb σ :=
  { d with migrations := some (d.migrations.getD []) }

/-- `INSERT INTO _migrations`. -/
def insertMigration (row : MigrationRow) : Work (MigratedDb σ) := fun d =>
  match d.migrations with
  | none => .error { exc := operationalError "no such table: _migrations" }
  | some rows =>
    if row.version ∈ rows.map MigrationRow.version then .error {
      exc := {
        className := "IntegrityError"
        bases := ["DatabaseError", "Error", "Exception", "BaseException", "object"]
        text := "UNIQUE constraint failed: _migrations.version" } }
    else .ok { d with migrations := some (rows ++ [row]) }

theorem ensure_of_some {d : MigratedDb σ} {rows : List MigrationRow}
    (h : d.migrations = some rows) : d.ensureMigrationsTable = d := by
  obtain ⟨content, migrations⟩ := d
  obtain rfl : migrations = some rows := h
  rfl

end MigratedDb

/-! ## The runner -/

section

variable {σ : Type} (engine : Engine σ)

/-- The work of a migration: its body and its row. -/
def MigrationFile.works (m : MigrationFile) (now : String) : List (Work (MigratedDb σ)) :=
  engine m.source ++
    [MigratedDb.insertMigration { version := m.version, name := m.name, appliedAt := now }]

/-- A call outside any `try`. -/
def unguarded {α : Type} (x : Driver (MigratedDb σ) PyException α) :
    Driver (MigratedDb σ) (Raised ServiceError) α :=
  x.rescue fun exc => .throw (.through exc)

/-- `_ensure_migrations_table`. -/
def ensureMigrationsTable : Driver (MigratedDb σ) PyException Unit := do
  Driver.call (Connection.execute (.work fun d => .ok d.ensureMigrationsTable))
  Driver.call Connection.commit

/-- `_fetch_applied_versions`. -/
def fetchAppliedVersions : Driver (MigratedDb σ) PyException (List Nat) :=
  Driver.call (Connection.select fun d =>
    match d.migrations with
    | none => .error { exc := operationalError "no such table: _migrations" }
    | some _ => .ok d.versions)

/-- `_apply_one`. -/
def applyOne (m : MigrationFile) (now : String) :
    Driver (MigratedDb σ) (Raised ServiceError) Unit :=
  (Driver.executescript (Driver.transaction (m.works engine now))).rescue fun exc =>
    if exc.isA "Exception" then do
      unguarded (Driver.call Connection.rollback)
      .throw (.own {
        errorClass := .persistenceError
        message := "failed to apply migration " ++ m.name ++ ": " ++ exc.text
        details := [("version", .int m.version), ("name", .str m.name),
          ("reason", .str exc.text)] })
    else .throw (.through exc)

/-- The loop of `apply_migrations`; `now` is the time at which a version is applied. -/
def applyPending (now : Nat → String) (appliedVersions : List Nat) :
    List MigrationFile → Driver (MigratedDb σ) (Raised ServiceError) (List MigrationFile)
  | [] => pure []
  | m :: ms =>
    if m.version ∈ appliedVersions then applyPending now appliedVersions ms
    else do
      applyOne engine m (now m.version)
      let newlyApplied ← applyPending now appliedVersions ms
      pure (m :: newlyApplied)

/-- `apply_migrations`. -/
def applyMigrations (decimal : Char → Option Nat) (source : MigrationSource) (now : Nat → String) :
    Driver (MigratedDb σ) (Raised ServiceError) (List MigrationFile) :=
  match discover decimal source with
  | .error e => .throw e
  | .ok migrations => do
    unguarded ensureMigrationsTable
    let appliedVersions ← unguarded fetchAppliedVersions
    applyPending engine now appliedVersions migrations

/-- What a startup meets with. -/
structure Startup where
  fates : List CallFate := []
  now : Nat → String

/-- A startup, up to its migrations: how they end, and the database once the connection is
closed. -/
def startup (decimal : Char → Option Nat) (source : MigrationSource) (l : Startup)
    (d : MigratedDb σ) : Ending (Raised ServiceError) (List MigrationFile) × MigratedDb σ :=
  let r := applyMigrations engine decimal source l.now (.opened d) l.fates
  (r.1, r.2.1.committed)

/-- Startups with the same files, on a database that no migration has seen. -/
def startups (decimal : Char → Option Nat) (source : MigrationSource) (content : σ) :
    System (MigratedDb σ) Startup where
  init d := d = { content }
  step d l d' := (startup engine decimal source l d).2 = d'

/-! ## What migrations are for -/

/-- One migration, in full. -/
def applyMigration (m : MigrationFile) (now : String) (d : MigratedDb σ) :
    Except Failure (MigratedDb σ) :=
  Driver.applyAll (m.works engine now) d

/-- Migrations in turn. -/
def applyEach (now : Nat → String) (ms : List MigrationFile) (d : MigratedDb σ) :
    Except Failure (MigratedDb σ) :=
  ms.foldlM (fun d m => applyMigration engine m (now m.version) d) d

/-- The first `k` migrations have been applied in full, each once and in order, to a database with
an empty `_migrations`. -/
inductive Built (ms : List MigrationFile) (content : σ) : Nat → MigratedDb σ → Prop
  | created : Built ms content 0 { content, migrations := some [] }
  | next {k : Nat} {d d' : MigratedDb σ} {m : MigrationFile} {now : String}
      (h : Built ms content k d) (hm : ms[k]? = some m)
      (hd : applyMigration engine m now d = .ok d') : Built ms content (k + 1) d'

/-- The same, or nothing has been done at all. -/
def Applied (ms : List MigrationFile) (content : σ) (k : Nat) (d : MigratedDb σ) : Prop :=
  Built engine ms content k d ∨ k = 0 ∧ d = { content }

/-- The bodies leave `_migrations` to the runner. -/
def LeaveBookkeeping (ms : List MigrationFile) : Prop :=
  ∀ m ∈ ms, ∀ f ∈ engine m.source, ∀ d d', f d = .ok d' → d'.migrations = d.migrations

end

variable {σ : Type} {engine : Engine σ} {decimal : Char → Option Nat} {source : MigrationSource}
  {ms : List MigrationFile} {content : σ} {d d' : MigratedDb σ}

theorem applyEach_cons (now : Nat → String) (m : MigrationFile) (ms : List MigrationFile)
    (d : MigratedDb σ) : applyEach engine now (m :: ms) d =
      applyMigration engine m (now m.version) d >>= applyEach engine now ms := rfl

/-! ## One call of the runner -/

theorem spec_unguarded {α : Type} {x : Driver (MigratedDb σ) PyException α}
    {c : Connection (MigratedDb σ)} {Q : α → Connection (MigratedDb σ) → Prop}
    {P : Connection (MigratedDb σ) → Prop} (h : x.Spec c Q P) : (unguarded x).Spec c Q P :=
  h.rescue fun _ _ => .throw

/-- **One migration is applied in full or not at all**, also when the rollback fails. -/
theorem spec_applyOne (m : MigrationFile) (now : String) (d : MigratedDb σ) :
    (applyOne engine m now).Spec (.opened d)
      (fun _ c => ∃ d', applyMigration engine m now d = .ok d' ∧ c = .opened d')
      (fun c => c.committed = d ∨
        ∃ d', applyMigration engine m now d = .ok d' ∧ c.committed = d') := by
  refine (Driver.spec_transaction (m.works engine now) d).rescue fun exc c hc => ?_
  split
  · refine .bind (Q := fun _ c' => c'.committed = c.committed)
      (spec_unguarded (.call hc (fun e => by simpa using hc) ?_)) fun _ c' h => .throw ?_
    · rintro _ c' ⟨⟩
      exact ⟨rfl, hc⟩
    · simpa only [h] using hc
  · exact .throw hc

/-- **The loop applies what is pending, in order**, and stops after some of it. -/
theorem spec_applyPending (now : Nat → String) (applied : List Nat) (ms : List MigrationFile)
    (d : MigratedDb σ) :
    (applyPending engine now applied ms).Spec (.opened d)
      (fun newly c => newly = ms.filter (fun m => m.version ∉ applied) ∧
        ∃ d', applyEach engine now newly d = .ok d' ∧ c = .opened d')
      (fun c => ∃ j d', applyEach engine now
          ((ms.filter fun m => m.version ∉ applied).take j) d = .ok d' ∧ c.committed = d') := by
  induction ms generalizing d with
  | nil => exact .pure ⟨rfl, d, rfl, rfl⟩
  | cons m ms ih =>
    unfold applyPending
    by_cases hm : m.version ∈ applied
    · simpa only [hm, if_true, not_true_eq_false, decide_false, Bool.false_eq_true,
        not_false_eq_true, List.filter_cons_of_neg] using ih d
    · simp only [hm, if_false, not_false_eq_true, decide_true, List.filter_cons_of_pos]
      refine .bind ((spec_applyOne m (now m.version) d).mono (fun _ _ h => h) ?_) ?_
      · rintro c (h | ⟨d', hd, h⟩)
        · exact ⟨0, d, rfl, h⟩
        · exact ⟨1, d', by rw [List.take_succ_cons, applyEach_cons, hd]; rfl, h⟩
      · rintro _ c ⟨d', hd, rfl⟩
        have hcons (l : List MigrationFile) :
            applyEach engine now (m :: l) d = applyEach engine now l d' := by
          rw [applyEach_cons, hd]
          rfl
        refine .bind ((ih d').mono (fun _ _ h => h) ?_) ?_
        · rintro c ⟨j, d'', h, hc⟩
          exact ⟨j + 1, d'', by rw [List.take_succ_cons, hcons, h], hc⟩
        · rintro newly c ⟨rfl, d'', h, rfl⟩
          exact .pure ⟨rfl, d'', by rw [hcons, h], rfl⟩

/-- The migrations that are not in `_migrations`. -/
def pending (ms : List MigrationFile) (d : MigratedDb σ) : List MigrationFile :=
  ms.filter fun m => m.version ∉ d.versions

/-- **A run of the runner.** -/
theorem spec_applyMigrations (h : discover decimal source = .ok ms) (now : Nat → String)
    (d : MigratedDb σ) :
    (applyMigrations engine decimal source now).Spec (.opened d)
      (fun newly c => newly = pending ms d ∧
        ∃ d', applyEach engine now newly d.ensureMigrationsTable = .ok d' ∧ c = .opened d')
      (fun c => c.committed = d ∨ ∃ j d', applyEach engine now ((pending ms d).take j)
        d.ensureMigrationsTable = .ok d' ∧ c.committed = d') := by
  unfold applyMigrations
  rw [h]
  have hensured : ∃ j d', applyEach engine now ((pending ms d).take j) d.ensureMigrationsTable =
      .ok d' ∧ d.ensureMigrationsTable = d' := ⟨0, _, rfl, rfl⟩
  refine .bind (Q := fun _ c => c = .opened d.ensureMigrationsTable)
    (spec_unguarded (.bind (Q := fun _ c => c = .opened d.ensureMigrationsTable)
      (.call (.inl rfl) (fun e => .inl (by simp)) ?_) ?_)) ?_
  · rintro _ c ⟨⟩
    exact ⟨rfl, .inr hensured⟩
  · rintro _ c rfl
    refine .call (.inr hensured) (fun e => .inr (by simpa using hensured)) ?_
    rintro _ c ⟨⟩
    exact ⟨rfl, .inr hensured⟩
  · rintro _ c rfl
    refine .bind (Q := fun applied c => applied = d.versions ∧
        c = .opened d.ensureMigrationsTable)
      (spec_unguarded (.call (.inr hensured) (fun e => .inr (by simpa using hensured)) ?_)) ?_
    · rintro applied c ⟨⟩
      exact ⟨⟨rfl, rfl⟩, .inr hensured⟩
    · rintro applied c ⟨rfl, rfl⟩
      exact (spec_applyPending now d.versions ms d.ensureMigrationsTable).mono
        (fun _ _ h => h) (fun _ h => .inr h)

/-! ## Nothing in the way -/

theorem applyOne_nil {m : MigrationFile} {now : String}
    (h : applyMigration engine m now d = .ok d') :
    applyOne engine m now (.opened d) [] = (.returned (), .opened d', []) := by
  unfold applyOne Driver.rescue
  rw [Driver.transaction_nil h]

theorem applyPending_nil {now : Nat → String} {applied : List Nat}
    (h : applyEach engine now (ms.filter fun m => m.version ∉ applied) d = .ok d') :
    applyPending engine now applied ms (.opened d) [] =
      (.returned (ms.filter fun m => m.version ∉ applied), .opened d', []) := by
  induction ms generalizing d with
  | nil =>
    cases h
    rfl
  | cons m ms ih =>
    unfold applyPending
    by_cases hm : m.version ∈ applied
    · simp only [hm, not_true_eq_false, decide_false, Bool.false_eq_true, not_false_eq_true,
        List.filter_cons_of_neg] at h
      simpa only [hm, if_true, not_true_eq_false, decide_false, Bool.false_eq_true,
        not_false_eq_true, List.filter_cons_of_neg] using ih h
    · simp only [hm, not_false_eq_true, decide_true, List.filter_cons_of_pos, applyEach_cons] at h
      obtain ⟨d₁, hm₁, h⟩ := bind_eq_ok_iff.mp h
      simp only [hm, if_false, not_false_eq_true, decide_true, List.filter_cons_of_pos]
      rw [Driver.bind_nil (applyOne_nil hm₁), Driver.bind_nil (ih h)]
      rfl

theorem applyMigrations_nil (hms : discover decimal source = .ok ms) {now : Nat → String}
    (h : applyEach engine now (pending ms d) d.ensureMigrationsTable = .ok d') :
    applyMigrations engine decimal source now (.opened d) [] =
      (.returned (pending ms d), .opened d', []) := by
  unfold applyMigrations
  rw [hms]
  exact applyPending_nil h

/-! ## The first `k` migrations -/

theorem migrations_of_insert {row : MigrationRow}
    (h : MigratedDb.insertMigration row d = .ok d') :
    ∃ rows, d.migrations = some rows ∧ d'.migrations = some (rows ++ [row]) := by
  unfold MigratedDb.insertMigration at h
  split at h
  · cases h
  · next rows hrows =>
    split at h
    · cases h
    · cases h
      exact ⟨rows, hrows, rfl⟩

/-- A migration adds its row, to a table that is there. -/
theorem migrations_of_applyMigration {m : MigrationFile} {now : String}
    (hm : ∀ f ∈ engine m.source, ∀ d d', f d = .ok d' → d'.migrations = d.migrations)
    (h : applyMigration engine m now d = .ok d') :
    ∃ rows, d.migrations = some rows ∧
      d'.migrations = some (rows ++ [⟨m.version, m.name, now⟩]) := by
  rw [applyMigration, MigrationFile.works, Driver.applyAll_append] at h
  obtain ⟨d₁, hbody, h⟩ := bind_eq_ok_iff.mp h
  rw [Driver.applyAll_cons] at h
  obtain ⟨d₂, hrow, h⟩ := bind_eq_ok_iff.mp h
  cases h
  obtain ⟨rows, hrows, hd⟩ := migrations_of_insert hrow
  exact ⟨rows, (Driver.applyAll_keeps hm hbody).symm.trans hrows, hd⟩

section

variable (hv : ms.map MigrationFile.version = List.range' 1 ms.length)
include hv

theorem version_of_getElem? {k : Nat} {m : MigrationFile} (h : ms[k]? = some m) :
    m.version = 1 + k := by
  have hk : k < ms.length := (List.getElem?_eq_some_iff.mp h).1
  have hversion : (ms.map MigrationFile.version)[k]? = some m.version := by
    rw [List.getElem?_map, h, Option.map_some]
  rw [hv, List.getElem?_range' hk, Option.some.injEq] at hversion
  omega

/-- The versions that `_migrations` has of them. -/
theorem Built.migrations (hl : LeaveBookkeeping engine ms) {k : Nat}
    (h : Built engine ms content k d) : k ≤ ms.length ∧
      ∃ rows, d.migrations = some rows ∧ rows.map MigrationRow.version = List.range' 1 k := by
  induction h with
  | created => exact ⟨Nat.zero_le _, [], rfl, rfl⟩
  | @next k d d' m now _ hm hd ih =>
    obtain ⟨-, rows, hrows, hversions⟩ := ih
    obtain ⟨rows', hrows', hd'⟩ :=
      migrations_of_applyMigration (hl m (List.mem_of_getElem? hm)) hd
    obtain rfl : rows = rows' := Option.some.inj (hrows.symm.trans hrows')
    refine ⟨(List.getElem?_eq_some_iff.mp hm).1, _, hd', ?_⟩
    rw [List.map_append, hversions, List.range'_1_concat]
    simp [version_of_getElem? hv hm]

theorem Applied.versions (hl : LeaveBookkeeping engine ms) {k : Nat}
    (h : Applied engine ms content k d) : k ≤ ms.length ∧ d.versions = List.range' 1 k := by
  rcases h with h | ⟨rfl, rfl⟩
  · obtain ⟨hk, rows, hrows, hversions⟩ := h.migrations hv hl
    exact ⟨hk, by simp [MigratedDb.versions, hrows, hversions]⟩
  · exact ⟨Nat.zero_le _, rfl⟩

/-- What is pending when the first `k` versions are in the table. -/
theorem pending_eq_drop {k : Nat} (h : d.versions = List.range' 1 k) :
    pending ms d = ms.drop k := by
  have htake : ∀ m ∈ ms.take k, m.version ∈ d.versions := by
    intro m hm
    obtain ⟨i, hi, him⟩ := List.mem_take_iff_getElem.mp hm
    have := version_of_getElem? hv (List.getElem?_eq_some_iff.mpr ⟨_, him⟩)
    rw [h, List.mem_range'_1]
    omega
  have hdrop : ∀ m ∈ ms.drop k, m.version ∉ d.versions := by
    intro m hm
    obtain ⟨i, hi, him⟩ := List.mem_drop_iff_getElem.mp hm
    have := version_of_getElem? hv (List.getElem?_eq_some_iff.mpr ⟨_, him⟩)
    rw [h, List.mem_range'_1]
    omega
  calc pending ms d = (ms.take k ++ ms.drop k).filter (fun m => m.version ∉ d.versions) := by
        rw [List.take_append_drop, pending]
    _ = [] ++ ms.drop k := by
        rw [List.filter_append, List.filter_eq_nil_iff.mpr (by simpa using htake),
          List.filter_eq_self.mpr (by simpa using hdrop)]
    _ = ms.drop k := rfl

end

/-- Applying the next migrations. -/
theorem Built.applyEach {now : Nat → String} {l : List MigrationFile} {k : Nat}
    (h : Built engine ms content k d) (hpre : l <+: ms.drop k)
    (hd : applyEach engine now l d = .ok d') : Built engine ms content (k + l.length) d' := by
  induction l generalizing k d with
  | nil =>
    cases hd
    exact h
  | cons m l ih =>
    obtain ⟨rest, hrest⟩ := hpre
    rw [applyEach_cons] at hd
    obtain ⟨d₁, hm, hd⟩ := bind_eq_ok_iff.mp hd
    have hk : ms[k]? = some m := by
      rw [← List.head?_drop, ← hrest]
      rfl
    have htail : l <+: ms.drop (k + 1) := by
      refine ⟨rest, ?_⟩
      rw [← List.tail_drop, ← hrest]
      rfl
    have := ih (h.next hk hm) htail hd
    rwa [List.length_cons, Nat.add_comm l.length, ← Nat.add_assoc]

theorem Applied.ensure {k : Nat} (hv : ms.map MigrationFile.version = List.range' 1 ms.length)
    (hl : LeaveBookkeeping engine ms) (h : Applied engine ms content k d) :
    Built engine ms content k d.ensureMigrationsTable := by
  rcases h with h | ⟨rfl, rfl⟩
  · obtain ⟨-, rows, hrows, -⟩ := h.migrations hv hl
    rwa [MigratedDb.ensure_of_some hrows]
  · exact .created

/-! ## Any number of startups -/

/-- What startups leave behind, and what the next one makes of it. -/
structure Resumable (engine : Engine σ) (decimal : Char → Option Nat) (source : MigrationSource)
    (ms : List MigrationFile) (content : σ) : Prop where
  /-- Whatever has become of them, the first `k` migrations are applied, and `_migrations` holds
  exactly `1..k`. -/
  atomic : ∀ d, (startups engine decimal source content).Reach d →
    ∃ k ≤ ms.length, Applied engine ms content k d ∧ d.versions = List.range' 1 k
  /-- One that returns has applied the others, and all of them are applied. -/
  returned : ∀ d k l newly, (startups engine decimal source content).Reach d →
    Applied engine ms content k d → (startup engine decimal source l d).1 = .returned newly →
      newly = ms.drop k ∧
        Applied engine ms content ms.length (startup engine decimal source l d).2 ∧
          (startup engine decimal source l d).2.versions = List.range' 1 ms.length
  /-- One that nothing gets in the way of returns, if the others can be applied at all. -/
  resumed : ∀ d k now d', (startups engine decimal source content).Reach d →
    Applied engine ms content k d →
      applyEach engine now (ms.drop k) d.ensureMigrationsTable = .ok d' →
        startup engine decimal source { now } d = (.returned (ms.drop k), d')
  /-- Where `_migrations` has them all, nothing changes. -/
  upToDate : ∀ d rows, d.migrations = some rows →
    (∀ m ∈ ms, m.version ∈ rows.map MigrationRow.version) → ∀ l,
      (startup engine decimal source l d).2 = d ∧
        (l.fates = [] → (startup engine decimal source l d).1 = .returned [])

section

variable (hms : discover decimal source = .ok ms) (hl : LeaveBookkeeping engine ms)
include hms

theorem versions_of_discover : ms.map MigrationFile.version = List.range' 1 ms.length := by
  obtain ⟨files, -, h⟩ := bind_eq_ok_iff.mp hms
  exact resolve_versions (mapError_eq_ok_iff.mp h)

variable (engine) in
theorem startup_cases (l : Startup) (d : MigratedDb σ) :
    (∃ newly, (startup engine decimal source l d).1 = .returned newly ∧ newly = pending ms d ∧
        applyEach engine l.now newly d.ensureMigrationsTable =
          .ok (startup engine decimal source l d).2) ∨
      (∀ newly, (startup engine decimal source l d).1 ≠ .returned newly) ∧
        ((startup engine decimal source l d).2 = d ∨
          ∃ j, applyEach engine l.now ((pending ms d).take j) d.ensureMigrationsTable =
            .ok (startup engine decimal source l d).2) := by
  rcases (spec_applyMigrations hms l.now d).cases l.fates with
    ⟨newly, hr, hnewly, d', hd, hc⟩ | ⟨hr, hc⟩
  · refine .inl ⟨newly, hr, hnewly, ?_⟩
    rw [hd]
    exact congrArg Except.ok (congrArg Connection.committed hc).symm
  · refine .inr ⟨hr, hc.imp_right ?_⟩
    rintro ⟨j, d', hd, hc⟩
    exact ⟨j, hd.trans (congrArg Except.ok hc.symm)⟩

include hl

/-- **A startup goes from `k` migrations to `k` or more.** -/
theorem applied_startup {k : Nat} (h : Applied engine ms content k d) (l : Startup) :
    ∃ k', Applied engine ms content k' (startup engine decimal source l d).2 := by
  have hv := versions_of_discover hms
  have hpending := pending_eq_drop hv (h.versions hv hl).2
  rcases startup_cases engine hms l d with ⟨newly, -, rfl, hd⟩ | ⟨-, hd | ⟨j, hd⟩⟩
  · rw [hpending] at hd
    exact ⟨_, .inl ((h.ensure hv hl).applyEach (List.prefix_refl _) hd)⟩
  · exact ⟨k, by rwa [hd]⟩
  · rw [hpending] at hd
    exact ⟨_, .inl ((h.ensure hv hl).applyEach (List.take_prefix _ _) hd)⟩

/-- **Whatever has become of the startups, the first `k` migrations are applied.** -/
theorem applied_of_reach (h : (startups engine decimal source content).Reach d) :
    ∃ k, Applied engine ms content k d := by
  refine System.inv_of_reach (I := fun d => ∃ k, Applied engine ms content k d) ⟨?_, ?_⟩ h
  · rintro d rfl
    exact ⟨0, .inr ⟨rfl, rfl⟩⟩
  · rintro d l d' ⟨k, hk⟩ rfl
    exact applied_startup hms hl hk l

theorem resumable : Resumable engine decimal source ms content := by
  have hv := versions_of_discover hms
  constructor
  case atomic =>
    intro d hd
    obtain ⟨k, hk⟩ := applied_of_reach hms hl hd
    obtain ⟨hle, hversions⟩ := hk.versions hv hl
    exact ⟨k, hle, hk, hversions⟩
  case returned =>
    intro d k l newly _ hk hr
    have hpending := pending_eq_drop hv (hk.versions hv hl).2
    rcases startup_cases engine hms l d with ⟨newly', hr', rfl, hd⟩ | ⟨hr', -⟩
    · have hnewly : newly = ms.drop k := by
        rw [hr] at hr'
        rw [← hpending]
        exact Ending.returned.inj hr'
      rw [hpending] at hd
      have hbuilt := (hk.ensure hv hl).applyEach (List.prefix_refl _) hd
      rw [List.length_drop, Nat.add_sub_cancel' (hk.versions hv hl).1] at hbuilt
      exact ⟨hnewly, .inl hbuilt, (Applied.versions hv hl (.inl hbuilt)).2⟩
    · exact absurd hr (hr' newly)
  case resumed =>
    intro d k now d' _ hk hd
    rw [← pending_eq_drop hv (hk.versions hv hl).2] at hd ⊢
    simp [startup, applyMigrations_nil hms hd]
  case upToDate =>
    intro d rows hrows hall l
    have hpending : pending ms d = [] := by
      rw [pending, List.filter_eq_nil_iff]
      simpa [MigratedDb.versions, hrows] using hall
    have hensured := MigratedDb.ensure_of_some hrows
    constructor
    · rcases startup_cases engine hms l d with ⟨newly, -, rfl, hd⟩ | ⟨-, hd | ⟨j, hd⟩⟩
      · rw [hpending, hensured] at hd
        exact (Except.ok.inj hd).symm
      · exact hd
      · rw [hpending, hensured, List.take_nil] at hd
        exact (Except.ok.inj hd).symm
    · intro hfates
      have hnil : applyEach engine l.now (pending ms d) d.ensureMigrationsTable = .ok d := by
        rw [hpending, hensured]
        rfl
      simp [startup, hfates, applyMigrations_nil hms hnil, hpending]

end

/-- A list of files that discovery refuses is refused before the first call. -/
theorem applyMigrations_of_refused {files : List (String × String)}
    (hload : source.load = .ok files) (h : Refused decimal files) :
    ∃ e, e.errorClass = .persistenceError ∧ ∀ now c fates,
      applyMigrations engine decimal source now c fates = (.raised (.own e), c, fates) := by
  obtain ⟨e, he, hclass⟩ := resolve_of_refused h
  refine ⟨e, hclass, fun now c fates => ?_⟩
  have hdiscover : discover decimal source = .error (.own e) := by
    simp [discover, hload, uncaught, he, Except.mapError, Bind.bind, Except.bind]
  unfold applyMigrations
  rw [hdiscover]
  rfl

/-- **Migrations are atomic and resumable**, if the bodies leave `_migrations` to the runner; and
what discovery refuses changes nothing. -/
theorem migrations_resumable (engine : Engine σ) (decimal : Char → Option Nat)
    (source : MigrationSource) (content : σ) :
    (∀ ms, discover decimal source = .ok ms → LeaveBookkeeping engine ms →
        Resumable engine decimal source ms content) ∧
      ∀ files, source.load = .ok files → Refused decimal files →
        ∃ e, e.errorClass = .persistenceError ∧ ∀ now c fates,
          applyMigrations engine decimal source now c fates = (.raised (.own e), c, fates) :=
  ⟨fun _ hms hl => resumable hms hl, fun _ hload h => applyMigrations_of_refused hload h⟩

/-! ## Two migrations, and a body that edits `_migrations` -/

/-- `CREATE TABLE name (x);`, in a database of table names. -/
def createTable (name : String) : Work (MigratedDb (List String)) := fun d =>
  if d.content.contains name then
    .error { exc := operationalError ("table " ++ name ++ " already exists") }
  else .ok { d with content := name :: d.content }

/-- The statements of three bodies. -/
def tableEngine : Engine (List String) := fun text =>
  if text = "CREATE TABLE t (x);" then [createTable "t"]
  else if text = "CREATE TABLE u (x); CREATE TABLE v (x);" then [createTable "u", createTable "v"]
  else if text = "DELETE FROM _migrations;" then
    [fun d => .ok { d with migrations := d.migrations.map fun _ => [] }]
  else []

/-- The digits of ASCII. -/
def asciiDecimal (c : Char) : Option Nat := if c.isDigit then some (c.toNat - 48) else none

def firstFile : DirEntry := { name := "001_first.sql", text := .ok "CREATE TABLE t (x);" }

def secondFile : DirEntry where
  name := "002_second.sql"
  text := .ok "CREATE TABLE u (x); CREATE TABLE v (x);"

def clearingFile : DirEntry := { name := "002_clear.sql", text := .ok "DELETE FROM _migrations;" }

def firstMigration : MigrationFile :=
  { version := 1, name := "001_first", source := "CREATE TABLE t (x);" }

def secondMigration : MigrationFile where
  version := 2
  name := "002_second"
  source := "CREATE TABLE u (x); CREATE TABLE v (x);"

def clearMigrations : MigrationFile :=
  { version := 2, name := "002_clear", source := "DELETE FROM _migrations;" }

theorem migrations_createTable {name : String} {d d' : MigratedDb (List String)}
    (h : createTable name d = .ok d') : d'.migrations = d.migrations := by
  unfold createTable at h
  split at h
  · cases h
  · cases h
    rfl

/-- The packaged files may come in any order. -/
theorem migrations_resumable_sample :
    Resumable tableEngine asciiDecimal (.packaged [secondFile, firstFile])
      [firstMigration, secondMigration] [] := by
  refine (migrations_resumable tableEngine asciiDecimal (.packaged [secondFile, firstFile]) []).1
    [firstMigration, secondMigration] rfl ?_
  have hfirst : tableEngine firstMigration.source = [createTable "t"] := rfl
  have hsecond : tableEngine secondMigration.source = [createTable "u", createTable "v"] := rfl
  intro m hm f hf d d' hd
  simp only [List.mem_cons, List.not_mem_nil, or_false] at hm
  rcases hm with rfl | rfl
  · rw [hfirst, List.mem_singleton] at hf
    subst hf
    exact migrations_createTable hd
  · rw [hsecond, List.mem_pair] at hf
    rcases hf with rfl | rfl <;> exact migrations_createTable hd

/-- **A body that clears `_migrations`**: both migrations are applied and only the second is in the
table, so that the next startup runs the first one again, into its own table. -/
theorem cleared_bookkeeping_repeats :
    discover asciiDecimal (.packaged [firstFile, clearingFile]) =
        .ok [firstMigration, clearMigrations] ∧
      ¬Resumable tableEngine asciiDecimal (.packaged [firstFile, clearingFile])
        [firstMigration, clearMigrations] [] := by
  refine ⟨rfl, fun h => ?_⟩
  obtain ⟨k, -, -, hk⟩ := h.atomic _ (.step (.init rfl) (l := { now := fun _ => "" }) rfl)
  have hversions : (startup tableEngine asciiDecimal (.packaged [firstFile, clearingFile])
      { now := fun _ => "" } { content := [] }).2.versions = [2] := by decide +kernel
  rw [hversions] at hk
  cases k with
  | zero => cases hk
  | succ k => simp [List.range'_succ] at hk

end MessageService.Infrastructure
