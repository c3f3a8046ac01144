import MessageService.Infrastructure.UserRepository

/-!
# Login and logout

Model of `application/use_cases/login.py` (`LoginUseCase.execute`) and `logout.py`
(`LogoutUseCase.execute`). A failed login commits its `LOGIN_FAILED` row and then raises, so its
unit of work ends with a result like any other (`Except AuthenticationError`). The verification
against a decoy hash, made for its duration only, is left out.

Argon2 and SHA-256 are parameters; of the second, its digest has 64 characters.
-/

namespace MessageService.Application

open MessageService.Domain MessageService.Lib MessageService.Infrastructure

/-- The `PasswordHasher` port; `hash` draws a salt. -/
structure PasswordHasher where
  hash : String → String → String
  verify : String → String → Bool

/-- The digest of a session token. -/
structure TokenDigest where
  digest : String → String
  length_digest : ∀ token, (digest token).length = 64

/-- `AuthenticationError`. -/
structure AuthenticationError where
  message : String
  deriving DecidableEq, Repr

/-- `LoginResult`. -/
structure LoginResult where
  plaintextToken : String
  userId : Nat
  deriving DecidableEq, Repr

/-- The resource and the actor of a user. -/
def userResource (userId : Nat) : String := "user:" ++ toString userId

/-- The `LOGIN_FAILED` audit event. -/
def loginFailedEvent (now : Instant) (email reason : String) (userId : Option Nat) :
    AuditEvent where
  timestamp := now
  action := .loginFailed
  actor := "username:" ++ email
  resource := (userId.map userResource).getD ("username:" ++ email)
  outcome := .failure
  details := [("email", .str email), ("reason", .str reason)]

/-- The `LOGIN` audit event. -/
def loginEvent (now : Instant) (email : String) (userId : Nat) : AuditEvent where
  timestamp := now
  action := .login
  actor := userResource userId
  resource := userResource userId
  outcome := .success
  details := [("email", .str email)]

/-- The `LOGOUT` audit event. -/
def logoutEvent (now : Instant) (userId : Nat) : AuditEvent where
  timestamp := now
  action := .logout
  actor := userResource userId
  resource := userResource userId
  outcome := .success
  details := [("user_id", .int userId)]

/-- A session that has just been created. -/
def TokenDigest.mint (d : TokenDigest) (token : String) (userId : Nat) (now : Instant) :
    Session where
  tokenHash := d.digest token
  userId := userId
  createdAt := now
  lastActivityAt := now
  hashLength := d.length_digest token
  activity := Int.le_refl now

/-- A failing branch of `execute`: `_audit_failure`, the commit, the exception. -/
def refuseLogin (now : Instant) (email reason : String) (userId : Option Nat) :
    AccountsTx (Except AuthenticationError LoginResult) := do
  recordEvent (loginFailedEvent now email reason userId)
  pure (.error ⟨"invalid credentials"⟩)

/-- `LoginUseCase.execute`, with the `token` it draws. -/
def login (hasher : PasswordHasher) (d : TokenDigest) (email password token : String)
    (now : Instant) : AccountsTx (Except AuthenticationError LoginResult) := do
  match ← UserRepository.getByEmail email with
  | none => refuseLogin now email "unknown_email" none
  | some (userId, user) =>
    if user.disabled then refuseLogin now email "account_disabled" (some userId)
    else if hasher.verify password user.passwordHash = false then
      refuseLogin now email "bad_password" (some userId)
    else do
      recordEvent (loginEvent now email userId)
      SessionRepository.save (d.mint token userId now)
      pure (.ok { plaintextToken := token, userId := userId })

/-- `LogoutUseCase.execute`. -/
def logout (d : TokenDigest) (plaintextToken : String) (userId : Nat) (now : Instant) :
    AccountsTx Unit := do
  recordEvent (logoutEvent now userId)
  SessionRepository.deleteByTokenHash (d.digest plaintextToken)

theorem refuseLogin_ok {now : Instant} {email reason : String} {userId : Option Nat}
    {r : Except AuthenticationError LoginResult} {a a' : Accounts}
    (h : refuseLogin now email reason userId a = .ok (r, a')) :
    r = .error ⟨"invalid credentials"⟩ ∧ a'.users = a.users ∧ a'.sessions = a.sessions := by
  simp only [refuseLogin, recordEvent, Tx.ok_bind, Tx.ok_write, Tx.ok_pure] at h
  obtain ⟨_, _, rfl, rfl, rfl⟩ := h
  exact ⟨rfl, rfl, rfl⟩

/-- **What a committed login has done**: with the password of an enabled user it has created a
session of that user, otherwise none. -/
theorem login_ok {hasher : PasswordHasher} {d : TokenDigest} {email password token : String}
    {now : Instant} {r : Except AuthenticationError LoginResult} {a a' : Accounts}
    (h : login hasher d email password token now a = .ok (r, a')) :
    (r = .error ⟨"invalid credentials"⟩ ∧ a'.users = a.users ∧ a'.sessions = a.sessions) ∨
      ∃ userId user, r = .ok { plaintextToken := token, userId := userId } ∧
        a.users.byEmail? email = some (userId, user) ∧ user.disabled = false ∧
        hasher.verify password user.passwordHash = true ∧ a'.users = a.users ∧
        a.sessions.save (d.mint token userId now) = some a'.sessions := by
  simp only [login, UserRepository.getByEmail, Tx.ok_bind, Tx.ok_read] at h
  obtain ⟨found, _, ⟨hfound, rfl⟩, h⟩ := h
  cases found with
  | none => exact .inl (refuseLogin_ok h)
  | some found =>
    obtain ⟨userId, user⟩ := found
    simp only [Tx.ok_ite, recordEvent, Tx.ok_bind, Tx.ok_write, Tx.ok_pure] at h
    obtain ⟨-, h⟩ | ⟨hdisabled, ⟨-, h⟩ | ⟨hverify, _, _, rfl, _, _, hsave, rfl, rfl⟩⟩ := h
    · exact .inl (refuseLogin_ok h)
    · exact .inl (refuseLogin_ok h)
    · obtain ⟨sessions, hs, rfl⟩ := SessionRepository.save_ok hsave
      exact .inr ⟨userId, user, rfl, hfound, by simpa using hdisabled, by simpa using hverify, rfl,
        hs⟩

theorem logout_ok {d : TokenDigest} {token : String} {userId : Nat} {now : Instant} {r : Unit}
    {a a' : Accounts} (h : logout d token userId now a = .ok (r, a')) :
    a'.users = a.users ∧ a'.sessions = a.sessions.deleteByTokenHash (d.digest token) := by
  simp only [logout, recordEvent, SessionRepository.deleteByTokenHash, Tx.ok_bind,
    Tx.ok_write] at h
  obtain ⟨_, _, rfl, rfl⟩ := h
  exact ⟨rfl, rfl⟩

end MessageService.Application
