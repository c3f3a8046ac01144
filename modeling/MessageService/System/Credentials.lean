import MessageService.System.Administrators

/-!
# Sessions and credentials

A login reads the hash, verifies the password and inserts the session in one unit of work, and every
unit of work that disables a user or changes a stored hash deletes the user's sessions with it. So
no interleaving leaves a session whose user is disabled, or whose password has been changed since
(`Credentialed`).

* `credentialed_of_step`: the step lemma, by cases on what a step does to users and sessions.
* `sessions_match_credentials`: the theorem.
-/

namespace MessageService.System

open MessageService.Domain MessageService.Lib MessageService.Infrastructure
open MessageService.Application

/-- The session under `tokenHash` is of a user who is not disabled, and the login that has created
it verified the submitted password against the hash stored for the user now. -/
def Credentialed (cfg : DashboardConfig) (w : Dashboard) (tokenHash : String) (s : Session) :
    Prop :=
  ∃ (userId : Nat) (user : User) (record : LoginRecord), s.userId = (userId : Int) ∧
    w.accounts.users.get? userId = some user ∧ user.disabled = false ∧
    w.logins.find? (fun r => r.tokenHash = tokenHash) = some record ∧ record.userId = userId ∧
    record.passwordHash = user.passwordHash ∧
    cfg.hasher.verify record.password user.passwordHash = true

/-- All sessions are. -/
def SessionsMatch (cfg : DashboardConfig) (w : Dashboard) : Prop :=
  ∀ tokenHash s, w.accounts.sessions.getByTokenHash tokenHash = some s →
    Credentialed cfg w tokenHash s

/-- Nobody is logged in. -/
def LoggedOut (w : Dashboard) : Prop := w.accounts.sessions = Table.empty

variable {cfg : DashboardConfig} {w w' : Dashboard}

/-- What the row of a session's user may become. -/
theorem Credentialed.mono {tokenHash : String} {s s' : Session}
    (h : Credentialed cfg w tokenHash s) (hs : s'.userId = s.userId)
    (hlogins : w'.logins = w.logins)
    (husers : ∀ (userId : Nat) (user : User), s.userId = (userId : Int) →
      w.accounts.users.get? userId = some user → user.disabled = false →
      ∃ user', w'.accounts.users.get? userId = some user' ∧ user'.disabled = false ∧
        user'.passwordHash = user.passwordHash) :
    Credentialed cfg w' tokenHash s' := by
  obtain ⟨userId, user, record, hid, hget, henabled, hrecord, hsame, hhash, hverify⟩ := h
  obtain ⟨user', hget', henabled', hhash'⟩ := husers userId user hid hget henabled
  refine ⟨userId, user', record, hs.trans hid, hget', henabled', ?_, hsame, ?_, ?_⟩
  · rw [hlogins]
    exact hrecord
  · rw [hhash', hhash]
  · rw [hhash']
    exact hverify

/-- **One step.** -/
theorem credentialed_of_step {l : Action} (hw : SessionsMatch cfg w)
    (hstep : Dashboard.step cfg w l = some w') : SessionsMatch cfg w' := by
  intro tokenHash s' hs'
  cases accountsStep_of_step hstep with
  | kept users sessions logins =>
    obtain ⟨s, hs, hid⟩ := sessions tokenHash s' hs'
    refine (hw tokenHash s hs).mono hid.symm logins fun userId user _ hget henabled => ?_
    exact ⟨user, by rw [users]; exact hget, henabled, rfl⟩
  | @minted email password token now fate userId user is enabled verified users sessions logins =>
    rw [Sessions.getByTokenHash_save sessions] at hs'
    by_cases hk : tokenHash = cfg.digest.digest token
    · rw [if_pos (show tokenHash = (cfg.digest.mint token userId now).tokenHash from hk)] at hs'
      obtain rfl := Option.some.inj hs'
      refine ⟨userId, user, {
        tokenHash := cfg.digest.digest token
        userId := userId
        password := password
        passwordHash := user.passwordHash }, rfl, by rw [users]; exact is, enabled, ?_, rfl, rfl,
        verified⟩
      rw [logins, hk, List.find?_cons_of_pos (by simp)]
    · rw [if_neg (show tokenHash ≠ (cfg.digest.mint token userId now).tokenHash from hk)] at hs'
      obtain ⟨i, user', record, hid, hget, henabled, hrecord, hrest⟩ := hw tokenHash s' hs'
      refine ⟨i, user', record, hid, by rw [users]; exact hget, henabled, ?_, hrest⟩
      rw [logins, List.find?_cons_of_neg (by simpa using Ne.symm hk)]
      exact hrecord
  | inserted users sessions logins =>
    rw [sessions] at hs'
    refine (hw tokenHash s' hs').mono rfl logins fun userId user _ hget henabled => ?_
    refine ⟨user, ?_, henabled, rfl⟩
    rw [Users.get?_insert users, if_neg (Nat.ne_of_lt (Serial.lt_next_of_get? hget))]
    exact hget
  | @patched i input r target p _ _ _ _ _ users sessions logins =>
    rw [sessions] at hs'
    -- a session that is still there is not one of a user the patch disables
    have hold : w.accounts.sessions.getByTokenHash tokenHash = some s' ∧
        (p.disabled = some true → s'.userId ≠ (target : Int)) := by
      by_cases hd : p.disabled = some true
      · rw [if_pos hd, Sessions.getByTokenHash_deleteByUserId] at hs'
        exact ⟨hs'.1, fun _ => hs'.2⟩
      · rw [if_neg hd] at hs'
        exact ⟨hs', fun h => absurd h hd⟩
    refine (hw tokenHash s' hold.1).mono rfl logins fun userId user hid hget henabled => ?_
    rw [users, Users.get?_update, hget]
    by_cases ht : userId = target
    · rw [if_pos ht]
      refine ⟨_, rfl, ?_, rfl⟩
      have hnot : p.disabled ≠ some true := fun h => hold.2 h (by rw [hid, ht])
      simp only [UserUpdate.apply, UserPatch.toUpdate]
      cases hp : p.disabled with
      | none => exact henabled
      | some disabled =>
        cases disabled with
        | false => rfl
        | true => exact absurd hp hnot
    · rw [if_neg ht]
      exact ⟨user, rfl, henabled, rfl⟩
  | @reset _ target passwordHash users sessions logins =>
    rw [sessions, Sessions.getByTokenHash_deleteByUserId] at hs'
    obtain ⟨hs, hne⟩ := hs'
    refine (hw tokenHash s' hs).mono rfl logins fun userId user hid hget henabled => ?_
    have ht : userId ≠ target := fun h => hne (by rw [hid, h])
    rw [users, Users.get?_update, if_neg ht]
    exact ⟨user, hget, henabled, rfl⟩
  | @reconciled _ target users sessions logins =>
    rw [sessions] at hs'
    refine (hw tokenHash s' hs').mono rfl logins fun userId user _ hget henabled => ?_
    rw [users, Users.get?_update, hget]
    by_cases ht : userId = target
    · rw [if_pos ht]
      exact ⟨_, rfl, rfl, rfl⟩
    · rw [if_neg ht]
      exact ⟨user, rfl, henabled, rfl⟩

/-- **Sessions match credentials.** In every state reachable from one in which nobody is logged in,
no session belongs to a disabled user, and each was created by a login that verified the submitted
password against the hash stored for its user now. -/
theorem sessions_match_credentials (cfg : DashboardConfig) (w : Dashboard)
    (h : (dashboard cfg LoggedOut).Reach w) : SessionsMatch cfg w := by
  refine System.inv_of_reach (I := SessionsMatch cfg) ⟨?_, ?_⟩ h
  · intro w hw tokenHash s hs
    rw [show w.accounts.sessions = Table.empty from hw] at hs
    cases hs
  · intro w l w' hw hstep
    exact credentialed_of_step hw hstep

/-- Administrator 2 logs in, and 1 resets 2's password before 2 logs in again. -/
def resetBetweenLogins : List Action :=
  [.login "grace@example.org" "correct horse" "token" (seconds 1) .commits,
    .request 1 (.resetPassword 2 "correct horse"), .advance 0 sampleAdminInput,
    .advance 0 sampleAdminInput, .advance 0 sampleAdminInput,
    .login "grace@example.org" "correct horse" "token" (seconds 2) .commits]

theorem sessions_match_credentials_sample : ∃ w, (dashboard sampleDashboard LoggedOut).Reach w ∧
    w.accounts.sessions.rows.map Session.createdAt = [seconds 2] ∧
    SessionsMatch sampleDashboard w := by
  have hinit : (dashboard sampleDashboard LoggedOut).Reach twoAdmins := .init rfl
  obtain ⟨w, hw, hs⟩ := System.exists_reach_of_run resetBetweenLogins hinit
    (p := fun w => w.accounts.sessions.rows.map Session.createdAt = [seconds 2])
    (by decide +kernel)
  exact ⟨w, hw, of_decide_eq_true hs, sessions_match_credentials sampleDashboard w hw⟩

end MessageService.System
