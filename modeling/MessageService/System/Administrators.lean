import MessageService.System.Dashboard

/-!
# Administrative access

`UpdateUserUseCase` refuses an administrator who takes their own access away, and nothing else: the
request was authorised in an earlier unit of work, and by the time it runs its administrator may
have lost the access it was authorised with. So two administrators can each take the other's away.

* `sheltered`: a request that takes access away runs while its administrator, or a third one, still
  has it.
* `hasAdmin_of_sheltered`: the theorem.
-/

namespace MessageService.System

open MessageService.Domain MessageService.Lib MessageService.Infrastructure
open MessageService.Application

/-- An administrator who is not disabled. -/
def User.hasAccess (user : User) : Bool := user.isAdmin && !user.disabled

/-- The user is one. -/
def enabledAdmin (a : Accounts) (userId : Nat) : Bool :=
  (a.users.get? userId).any User.hasAccess

/-- There is one. -/
def HasAdmin (w : Dashboard) : Prop := ∃ i, enabledAdmin w.accounts i = true

/-- A request that is about to take the access of another user away is one of a user who still has
it, or a third user has it. -/
def sheltered (w : Dashboard) : Action → Bool
  | .advance i input =>
    match w.requests[i]? with
    | some { adminId, call := .update target p, phase := .authorised } =>
      input.fate = .fails || !p.strips || adminId = target || enabledAdmin w.accounts adminId ||
        w.accounts.users.table.rows.any fun row => row.1 ≠ target && User.hasAccess row.2
    | _ => true
  | _ => true

/-- The step is `sheltered`. -/
def Sheltered (w : Dashboard) (l : Action) : Prop := sheltered w l = true

instance (w : Dashboard) (l : Action) : Decidable (Sheltered w l) :=
  inferInstanceAs (Decidable (_ = true))

theorem enabledAdmin_iff {a : Accounts} {i : Nat} :
    enabledAdmin a i = true ↔ ∃ user, a.users.get? i = some user ∧ User.hasAccess user = true := by
  simp [enabledAdmin, Option.any_eq_true]

theorem enabledAdmin_of_mem {a : Accounts} {i : Nat} {user : User}
    (h : (i, user) ∈ a.users.table.rows) (ha : User.hasAccess user = true) :
    enabledAdmin a i = true :=
  enabledAdmin_iff.mpr ⟨user, Serial.mem_iff_get?.mp h, ha⟩

/-! ## What an update does to access -/

theorem hasAccess_apply_of_not_strips {p : UserPatch} (h : p.strips = false) {user : User}
    (hu : User.hasAccess user = true) : User.hasAccess (p.toUpdate.apply user) = true := by
  obtain ⟨displayName, isAdmin, disabled⟩ := p
  simp only [UserPatch.strips, Bool.or_eq_false_iff, decide_eq_false_iff_not] at h
  simp only [User.hasAccess, Bool.and_eq_true, Bool.not_eq_true'] at hu ⊢
  obtain ⟨ha, hd⟩ := h
  constructor
  · match isAdmin with
    | none => exact hu.1
    | some true => rfl
    | some false => exact absurd rfl ha
  · match disabled with
    | none => exact hu.2
    | some false => rfl
    | some true => exact absurd rfl hd

theorem not_hasAccess_apply_of_strips {p : UserPatch} (h : p.strips = true) (user : User) :
    User.hasAccess (p.toUpdate.apply user) = false := by
  simp only [UserPatch.strips, Bool.or_eq_true, decide_eq_true_eq] at h
  simp only [User.hasAccess, UserUpdate.apply, UserPatch.toUpdate]
  rcases h with h | h <;> simp [h]

theorem enabledAdmin_update_ne {a a' : Accounts} {target i : Nat} {u : UserUpdate}
    (h : a'.users = a.users.update target u) (hi : i ≠ target) :
    enabledAdmin a' i = enabledAdmin a i := by
  unfold enabledAdmin
  rw [h, Users.get?_update, if_neg hi]

/-- An update that keeps the access of its target keeps everyone's. -/
theorem enabledAdmin_update {a a' : Accounts} {target i : Nat} {u : UserUpdate}
    (h : a'.users = a.users.update target u)
    (hu : ∀ user, User.hasAccess user = true → User.hasAccess (u.apply user) = true)
    (hi : enabledAdmin a i = true) : enabledAdmin a' i = true := by
  by_cases ht : i = target
  · obtain ⟨user, hget, haccess⟩ := enabledAdmin_iff.mp hi
    refine enabledAdmin_iff.mpr ⟨u.apply user, ?_, hu user haccess⟩
    rw [h, Users.get?_update, if_pos ht, hget]
    rfl
  · rw [enabledAdmin_update_ne h ht]
    exact hi

theorem enabledAdmin_insert {a a' : Accounts} {user : User} {i : Nat}
    (h : a.users.insert user = some a'.users) (hi : enabledAdmin a i = true) :
    enabledAdmin a' i = true := by
  obtain ⟨old, hget, haccess⟩ := enabledAdmin_iff.mp hi
  refine enabledAdmin_iff.mpr ⟨old, ?_, haccess⟩
  rw [Users.get?_insert h, if_neg (Nat.ne_of_lt (Serial.lt_next_of_get? hget))]
  exact hget

/-- An update of a user who exists goes through, unless it takes the requester's own access. -/
theorem updateUser_of_get? {adminId target : Nat} {p : UserPatch} {a : Accounts} (now : Instant)
    (hself : adminId = target → p.strips = false) (h : (a.users.get? target).isSome = true) :
    ∃ a', updateUser adminId target p now a = .ok ((), a') ∧
      a'.users = a.users.update target p.toUpdate := by
  have hok : ∃ a', updateUser adminId target p now a = .ok ((), a') := by
    have hupdated : ((a.users.update target p.toUpdate).get? target).isSome = true := by
      rw [Users.get?_update, if_pos rfl, Option.isSome_map]
      exact h
    unfold updateUser
    rw [Tx.require_of hself]
    by_cases hm : p.mutated = [] <;> by_cases hd : p.disabled = some true <;>
      simp [requireUser, recordEvent, SessionRepository.deleteByUserId, UserRepository.update,
        UserRepository.getById, bind, pure, Tx.require, Tx.write, Tx.read, Tx.when, hupdated, hm, hd]
  obtain ⟨a', ha⟩ := hok
  exact ⟨a', ha, (updateUser_ok ha).2.2.1⟩

/-! ## The theorem -/

variable {cfg : DashboardConfig} {w w' : Dashboard}

theorem hasAdmin_of_step {l : Action} (hw : HasAdmin w) (hstep : Dashboard.step cfg w l = some w')
    (hl : Sheltered w l) : HasAdmin w' := by
  obtain ⟨i, hi⟩ := hw
  cases accountsStep_of_step hstep with
  | kept users _ _ | minted _ _ _ users _ _ =>
    refine ⟨i, ?_⟩
    unfold enabledAdmin
    rw [users]
    exact hi
  | inserted users _ _ => exact ⟨i, enabledAdmin_insert users hi⟩
  | reset users _ _ => exact ⟨i, enabledAdmin_update users (fun _ h => h) hi⟩
  | reconciled users _ _ => exact ⟨i, enabledAdmin_update users (fun _ _ => rfl) hi⟩
  | @patched i' input r target p request phase call fate self users _ _ =>
    cases hs : p.strips with
    | false => exact ⟨i, enabledAdmin_update users (fun _ => hasAccess_apply_of_not_strips hs) hi⟩
    | true =>
      have hother : ∃ j, j ≠ target ∧ enabledAdmin w.accounts j = true := by
        have hne : r.adminId ≠ target := fun h => by
          rw [self h] at hs
          cases hs
        obtain ⟨adminId, call', phase'⟩ := r
        simp only at phase call hne
        subst phase call
        simp only [Sheltered, sheltered, request, fate, hs, hne, decide_false, Bool.not_true,
          Bool.false_or, Bool.or_eq_true, List.any_eq_true, Bool.and_eq_true,
          decide_eq_true_eq] at hl
        obtain h | ⟨row, hrow, hj, haccess⟩ := hl
        · exact ⟨adminId, hne, h⟩
        · exact ⟨row.1, hj, enabledAdmin_of_mem hrow haccess⟩
      obtain ⟨j, hj, hadmin⟩ := hother
      exact ⟨j, by rw [enabledAdmin_update_ne users hj]; exact hadmin⟩

/-- A request that is not `sheltered` takes the last access away. -/
theorem not_hasAdmin_of_step {l : Action} (hstep : Dashboard.step cfg w l = some w')
    (hl : ¬Sheltered w l) : ¬HasAdmin w' := by
  obtain ⟨i, input, rfl⟩ : ∃ i input, l = .advance i input := by
    cases l with
    | advance i input => exact ⟨i, input, rfl⟩
    | login _ _ _ _ _ | logout _ _ _ _ | middleware _ _ _ | request _ _ | reconcile _ _ _ _ =>
      exact absurd rfl hl
  simp only [Sheltered, sheltered] at hl
  split at hl
  · next adminId target p request =>
    simp only [Bool.or_eq_true, decide_eq_true_eq, Bool.not_eq_true', List.any_eq_true,
      Bool.and_eq_true, not_or, not_exists, not_and, Bool.not_eq_true, Bool.not_eq_false] at hl
    obtain ⟨⟨⟨⟨hfate, hstrips⟩, hself⟩, -⟩, hothers⟩ := hl
    simp only [Dashboard.step, request, Option.map_some, Option.some.injEq, adminStep] at hstep
    subst hstep
    have hself' : adminId = target → p.strips = false := fun h => absurd h hself
    have husers : (w.accounts.users.get? target).isSome = true →
        (answer (updateUser adminId target p input.now) input.fate w.accounts).2.users =
          w.accounts.users.update target p.toUpdate := by
      intro hsome
      obtain ⟨a', hok, ha'⟩ := updateUser_of_get? input.now hself' hsome
      rw [answer_of_ok hok, if_neg hfate, ha']
    rintro ⟨j, hj⟩
    have hsame : j ≠ target → enabledAdmin w.accounts j = true := by
      intro hne
      obtain hkept | ⟨a', hok, -, ha'⟩ :=
        answer_snd (updateUser adminId target p input.now) input.fate w.accounts
      · rw [hkept] at hj
        exact hj
      · rw [ha', enabledAdmin_update_ne (updateUser_ok hok).2.2.1 hne] at hj
        exact hj
    by_cases hne : j = target
    · subst hne
      obtain ⟨user, hget, haccess⟩ := enabledAdmin_iff.mp hj
      cases htarget : w.accounts.users.get? j with
      | some old =>
        rw [husers (by rw [htarget]; rfl), Users.get?_update, if_pos rfl, htarget] at hget
        obtain rfl := Option.some.inj hget
        rw [not_hasAccess_apply_of_strips hstrips] at haccess
        cases haccess
      | none =>
        obtain hkept | ⟨a', hok, -, -⟩ :=
          answer_snd (updateUser adminId j p input.now) input.fate w.accounts
        · rw [hkept, htarget] at hget
          cases hget
        · have := (updateUser_ok hok).2.1
          rw [htarget] at this
          cases this
    · obtain ⟨user, hget, haccess⟩ := enabledAdmin_iff.mp (hsame hne)
      have := hothers (j, user) (Serial.mem_iff_get?.mpr hget) hne
      rw [haccess] at this
      cases this
  · exact absurd rfl hl

/-- **Administrative access is not lost as long as no request takes the last of it.** From a state
with an enabled administrator, in every run whose requests are all `Sheltered` there is one in every
state reached. And after a request that is not there is none. -/
theorem hasAdmin_of_sheltered (cfg : DashboardConfig) :
    (∀ w, ((dashboard cfg HasAdmin).restrict Sheltered).Reach w → HasAdmin w) ∧
      ∀ w l w', (dashboard cfg HasAdmin).Reach w → Dashboard.step cfg w l = some w' →
        ¬Sheltered w l → ¬HasAdmin w' := by
  constructor
  · intro w h
    refine System.inv_of_reach ⟨fun _ h => h, ?_⟩ h
    rintro w l w' hw ⟨hstep, hl⟩
    exact hasAdmin_of_step hw hstep hl
  · intro w l w' _ hstep hl
    exact not_hasAdmin_of_step hstep hl

/-! ## Two administrators -/

/-- An administrator. -/
def sampleAdmin (email : String) (h : email ≠ "") : User where
  email := email
  displayName := email
  passwordHash := "$argon2id$v=19$m=65536,t=3,p=4$c2FsdA$aGFzaA"
  createdAt := 0
  isAdmin := true
  email_ne := h
  displayName_ne := h

/-- A dashboard with administrators 1 and 2. -/
def twoAdmins : Dashboard where
  accounts := {
    users := {
      table := (Serial.empty.insert (sampleAdmin "ada@example.org" (by decide))).insert
        (sampleAdmin "grace@example.org" (by decide))
      unique := by decide } }

/-- Argon2 on the password of the two, and SHA-256 on one token. -/
def sampleDashboard : DashboardConfig where
  hasher := {
    hash := fun _ _ => "$argon2id$v=19$m=65536,t=3,p=4$c2FsdA$aGFzaA"
    verify := fun password hash =>
      password = "correct horse" && hash = "$argon2id$v=19$m=65536,t=3,p=4$c2FsdA$aGFzaA" }
  digest := {
    digest := fun _ => "9f86d081884c7d659a2feaa0c55ad015a3bf4f1b2b0b822cd15d6c15b0f00a08"
    length_digest := fun _ => by decide }
  idleTimeout := seconds 3600

/-- A step of a request at which everything goes well. -/
def sampleAdminInput : AdminInput := ⟨seconds 1, "salt", .commits⟩

/-- An administrator disables a user. -/
def disabling (adminId target : Nat) : Action :=
  .request adminId (.update target { disabled := some true })

theorem hasAdmin_twoAdmins : HasAdmin twoAdmins := ⟨1, by decide⟩

/-- One disables the other. -/
theorem hasAdmin_of_sheltered_sample :
    ∃ w, ((dashboard sampleDashboard HasAdmin).restrict Sheltered).Reach w ∧
      enabledAdmin w.accounts 2 = false ∧ HasAdmin w := by
  have hinit : ((dashboard sampleDashboard HasAdmin).restrict Sheltered).Reach twoAdmins :=
    .init hasAdmin_twoAdmins
  obtain ⟨w, hw, hd⟩ := System.exists_reach_of_run_restrict
    [disabling 1 2, .advance 0 sampleAdminInput, .advance 0 sampleAdminInput] hinit
    (p := fun w => enabledAdmin w.accounts 2 = false) (by decide +kernel)
  exact ⟨w, hw, of_decide_eq_true hd, (hasAdmin_of_sheltered sampleDashboard).1 w hw⟩

/-- Each disables the other: both requests are authorised, then both run. -/
def mutualDisabling : List Action :=
  [disabling 1 2, disabling 2 1, .advance 0 sampleAdminInput, .advance 1 sampleAdminInput,
    .advance 0 sampleAdminInput, .advance 1 sampleAdminInput]

/-- **Two administrators lock everyone out.** -/
theorem mutual_disabling_locks_out : HasAdmin twoAdmins ∧
    ∃ w, System.run (Dashboard.step sampleDashboard) twoAdmins mutualDisabling = some w ∧
      ¬HasAdmin w := by
  refine ⟨hasAdmin_twoAdmins, ?_⟩
  obtain ⟨w, hw, hnone⟩ := (Option.any_eq_true
    (fun w : Dashboard => w.accounts.users.table.rows.all fun row => !User.hasAccess row.2) _).mp
    (show (System.run (Dashboard.step sampleDashboard) twoAdmins mutualDisabling).any _ = true by
      decide +kernel)
  refine ⟨w, hw, ?_⟩
  rintro ⟨i, hi⟩
  obtain ⟨user, hget, haccess⟩ := enabledAdmin_iff.mp hi
  have := List.all_eq_true.mp hnone _ (Serial.mem_iff_get?.mpr hget)
  rw [haccess] at this
  cases this

end MessageService.System
