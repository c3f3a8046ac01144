import MessageService.Application.Login

/-!
# Administration of users

Model of `application/use_cases/admin_users.py` (`CreateUserUseCase`, `UpdateUserUseCase`,
`ResetPasswordUseCase`), from the hash of a new password on, and of `_reconcile_admin_account`
(`bootstrap/service.py`). `createUser_ok`, `updateUser_ok`, `resetPassword_ok` and
`reconcileAdminAccount_ok` are what a successful call does to the tables.
-/

namespace MessageService.Application

open MessageService.Domain MessageService.Lib MessageService.Infrastructure

/-! ## CreateUser -/

/-- `[^\s@]+\.[^\s@]+`, on characters that are none of `\s@`: a dot that is neither first nor
last. -/
def hasInnerDot (domain : List Char) : Bool := (domain.drop 1).dropLast.contains '.'

/-- `_EMAIL_PATTERN.match`: `$` also matches before a final line feed. -/
def emailMatches (email : String) : Bool :=
  let cs := email.toList
  let cs := if cs.getLast? = some '\n' then cs.dropLast else cs
  let localPart := cs.takeWhile (· ≠ '@')
  let domain := cs.drop (localPart.length + 1)
  cs.contains '@' && !localPart.isEmpty && !domain.contains '@' && !cs.any isSpace &&
    hasInnerDot domain

/-- `_validate_email`. -/
def validateEmail (email : String) : Except ServiceError Unit :=
  if emailMatches email then .ok ()
  else .error {
    errorClass := .invalidEmailError
    message := "email is not a valid address: " ++ pyRepr email
    details := [("email", .str email)] }

/-- The arguments of `CreateUserUseCase.execute`. -/
structure CreateUserCommand where
  email : String
  displayName : String
  password : String
  isAdmin : Bool
  disabled : Bool
  email_ne : email ≠ ""
  displayName_ne : displayName ≠ ""

/-- The `CREATE_USER` audit event. -/
def createUserEvent (adminId userId : Nat) (email : String) (now : Instant) : AuditEvent where
  timestamp := now
  action := .createUser
  actor := userResource adminId
  resource := userResource userId
  outcome := .success
  details := [("target_user_id", .int userId), ("target_email", .str email)]

/-- The row of a new user. -/
def CreateUserCommand.user (cmd : CreateUserCommand) (passwordHash : String) (now : Instant) :
    User where
  email := cmd.email
  displayName := cmd.displayName
  passwordHash := passwordHash
  createdAt := now
  isAdmin := cmd.isAdmin
  disabled := cmd.disabled
  email_ne := cmd.email_ne
  displayName_ne := cmd.displayName_ne

/-- `save` under `except PersistenceError`: a taken address is a `DuplicateEmailError`. -/
def saveNewUser (user : User) : AccountsTx Nat := fun a =>
  match UserRepository.save user a with
  | .ok r => .ok r
  | .error e =>
    if e.errorClass = .persistenceError then
      .error {
        errorClass := .duplicateEmailError
        message := "email already in use: " ++ pyRepr user.email
        details := [("email", .str user.email)] }
    else .error e

/-- `CreateUserUseCase.execute`, from the hash on. -/
def createUser (adminId : Nat) (cmd : CreateUserCommand) (passwordHash : String) (now : Instant) :
    AccountsTx Unit := do
  let userId ← saveNewUser (cmd.user passwordHash now)
  recordEvent (createUserEvent adminId userId cmd.email now)

theorem createUser_ok {adminId : Nat} {cmd : CreateUserCommand} {passwordHash : String}
    {now : Instant} {r : Unit} {a a' : Accounts}
    (h : createUser adminId cmd passwordHash now a = .ok (r, a')) :
    a.users.insert (cmd.user passwordHash now) = some a'.users ∧ a'.sessions = a.sessions := by
  simp only [createUser, recordEvent, Tx.ok_bind, Tx.ok_write] at h
  obtain ⟨userId, b, hsave, rfl⟩ := h
  unfold saveNewUser at hsave
  split at hsave
  · next r hr =>
    cases hsave
    obtain ⟨users, hinsert, -, rfl⟩ := UserRepository.save_ok hr
    exact ⟨hinsert, rfl⟩
  · split at hsave <;> cases hsave

/-! ## UpdateUser -/

/-- The `UPDATE_USER` audit event. -/
def updateUserEvent (adminId targetUserId : Nat) (mutated : List String) (now : Instant) :
    AuditEvent where
  timestamp := now
  action := .updateUser
  actor := userResource adminId
  resource := userResource targetUserId
  outcome := .success
  details := [("target_user_id", .int targetUserId), ("mutated_fields", .arr (mutated.map .str))]

/-- `UserNotFoundError`. -/
def userNotFound (userId : Nat) : ServiceError where
  errorClass := .userNotFoundError
  message := "user not found: " ++ toString userId
  details := [("user_id", .int userId)]

/-- The arguments of `UpdateUserUseCase.execute` that say what to change. -/
structure UserPatch where
  displayName : Option { s : String // s ≠ "" } := none
  isAdmin : Option Bool := none
  disabled : Option Bool := none

/-- The fields of the row it sets. -/
def UserPatch.toUpdate (p : UserPatch) : UserUpdate where
  displayName := p.displayName
  isAdmin := p.isAdmin
  disabled := p.disabled

/-- `mutated`, sorted. -/
def UserPatch.mutated (p : UserPatch) : List String :=
  (if p.disabled.isSome then ["disabled"] else []) ++
    (if p.displayName.isSome then ["display_name"] else []) ++
    if p.isAdmin.isSome then ["is_admin"] else []

/-- The patch takes the access of an administrator away. -/
def UserPatch.strips (p : UserPatch) : Bool := p.isAdmin = some false || p.disabled = some true

/-- The `attempted_field` of a patch that does. -/
def UserPatch.attempted (p : UserPatch) : String :=
  if p.isAdmin = some false then "is_admin" else "disabled"

/-- `SelfProtectionError`. -/
def selfProtection (adminId targetUserId : Nat) (attempted : String) : ServiceError where
  errorClass := .selfProtectionError
  message := "administrators cannot remove their own admin privilege or disable their own account"
  details := [("admin_id", .int adminId), ("target_user_id", .int targetUserId),
    ("attempted_field", .str attempted)]

/-- The updated row, if there is one. -/
def requireUser (userId : Nat) (updated : Option User) : AccountsTx Unit :=
  Tx.require (updated.isSome = true) (userNotFound userId)

/-- `UpdateUserUseCase.execute`. -/
def updateUser (adminId targetUserId : Nat) (p : UserPatch) (now : Instant) : AccountsTx Unit := do
  Tx.require (adminId = targetUserId → p.strips = false)
    (selfProtection adminId targetUserId p.attempted)
  let updated ← UserRepository.update targetUserId p.toUpdate
  requireUser targetUserId updated
  Tx.when (p.mutated ≠ []) (recordEvent (updateUserEvent adminId targetUserId p.mutated now))
  Tx.when (p.disabled = some true) (SessionRepository.deleteByUserId targetUserId)

/-- **What a successful UpdateUser does**: it changes the target, and deletes its sessions if it
disables it. -/
theorem updateUser_ok {adminId targetUserId : Nat} {p : UserPatch} {now : Instant} {r : Unit}
    {a a' : Accounts} (h : updateUser adminId targetUserId p now a = .ok (r, a')) :
    (adminId = targetUserId → p.strips = false) ∧ (a.users.get? targetUserId).isSome = true ∧
      a'.users = a.users.update targetUserId p.toUpdate ∧
      a'.sessions = if p.disabled = some true then a.sessions.deleteByUserId targetUserId
        else a.sessions := by
  simp only [updateUser, requireUser, recordEvent, SessionRepository.deleteByUserId, Tx.ok_bind,
    Tx.ok_require, Tx.ok_when, Tx.ok_write] at h
  obtain ⟨_, _, ⟨hself, rfl⟩, updated, _, hupdate, _, _, ⟨hsome, rfl⟩, _, b, hlog, hpurge⟩ := h
  obtain ⟨rfl, rfl⟩ := UserRepository.update_ok hupdate
  have hb : b.users = a.users.update targetUserId p.toUpdate ∧ b.sessions = a.sessions := by
    obtain ⟨-, rfl⟩ | ⟨-, rfl⟩ := hlog <;> exact ⟨rfl, rfl⟩
  refine ⟨hself, by simpa using hsome, ?_⟩
  obtain ⟨hd, rfl⟩ | ⟨hd, rfl⟩ := hpurge
  · rw [if_pos hd]
    exact ⟨hb.1, by rw [hb.2]⟩
  · rw [if_neg hd]
    exact hb

/-! ## ResetPassword -/

/-- `ResetPasswordUseCase.execute`, from the hash on. -/
def resetPassword (adminId targetUserId : Nat) (passwordHash : String) (now : Instant) :
    AccountsTx Unit := do
  let updated ← UserRepository.update targetUserId { passwordHash := some passwordHash }
  requireUser targetUserId updated
  recordEvent (updateUserEvent adminId targetUserId ["password_hash"] now)
  SessionRepository.deleteByUserId targetUserId

theorem resetPassword_ok {adminId targetUserId : Nat} {passwordHash : String} {now : Instant}
    {r : Unit} {a a' : Accounts}
    (h : resetPassword adminId targetUserId passwordHash now a = .ok (r, a')) :
    a'.users = a.users.update targetUserId { passwordHash := some passwordHash } ∧
      a'.sessions = a.sessions.deleteByUserId targetUserId := by
  simp only [resetPassword, requireUser, recordEvent, SessionRepository.deleteByUserId,
    Tx.ok_bind, Tx.ok_require, Tx.ok_write] at h
  obtain ⟨updated, _, hupdate, _, _, ⟨-, rfl⟩, _, _, rfl, rfl⟩ := h
  obtain ⟨-, rfl⟩ := UserRepository.update_ok hupdate
  exact ⟨rfl, rfl⟩

/-! ## The configured administrator -/

/-- `AdminAccountConfig`. -/
structure AdminAccountConfig where
  email : String
  password : String
  email_ne : email ≠ ""

/-- The row of the configured administrator. -/
def AdminAccountConfig.user (admin : AdminAccountConfig) (passwordHash : String) (now : Instant) :
    User where
  email := admin.email
  displayName := admin.email
  passwordHash := passwordHash
  createdAt := now
  isAdmin := true
  email_ne := admin.email_ne
  displayName_ne := admin.email_ne

/-- `_reconcile_admin_account`. -/
def reconcileAdminAccount (hasher : PasswordHasher) (admin : AdminAccountConfig) (salt : String)
    (now : Instant) : AccountsTx Unit := do
  match ← UserRepository.getByEmail admin.email with
  | none =>
    let _ ← UserRepository.save (admin.user (hasher.hash admin.password salt) now)
    pure ()
  | some (userId, _) =>
    let _ ← UserRepository.update userId { isAdmin := some true, disabled := some false }
    pure ()

theorem reconcileAdminAccount_ok {hasher : PasswordHasher} {admin : AdminAccountConfig}
    {salt : String} {now : Instant} {r : Unit} {a a' : Accounts}
    (h : reconcileAdminAccount hasher admin salt now a = .ok (r, a')) :
    a'.sessions = a.sessions ∧
      (a.users.insert (admin.user (hasher.hash admin.password salt) now) = some a'.users ∨
        ∃ userId, a'.users =
          a.users.update userId { isAdmin := some true, disabled := some false }) := by
  simp only [reconcileAdminAccount, UserRepository.getByEmail, Tx.ok_bind, Tx.ok_read] at h
  obtain ⟨found, _, ⟨-, rfl⟩, h⟩ := h
  cases found with
  | none =>
    simp only [Tx.ok_bind, Tx.ok_pure] at h
    obtain ⟨_, _, hsave, -, rfl⟩ := h
    obtain ⟨users, hinsert, -, rfl⟩ := UserRepository.save_ok hsave
    exact ⟨rfl, .inl hinsert⟩
  | some found =>
    simp only [Tx.ok_bind, Tx.ok_pure] at h
    obtain ⟨_, _, hupdate, -, rfl⟩ := h
    obtain ⟨-, rfl⟩ := UserRepository.update_ok hupdate
    exact ⟨rfl, .inr ⟨found.1, rfl⟩⟩

end MessageService.Application
