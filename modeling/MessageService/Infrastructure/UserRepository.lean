import MessageService.Domain.Aggregates
import MessageService.Infrastructure.SessionRepository
import MessageService.Lib.Tx

/-!
# Accounts

Model of `domain/aggregates/user.py`, `infrastructure/persistence/user_repository.py`, and the
`users`, `sessions` and `audit_log` tables of the schema as the account use cases see them
(`Accounts`). The `UNIQUE` constraint on `users.email` is a field of the table.
-/

namespace MessageService.Infrastructure

open MessageService.Domain MessageService.Lib

/-- `User`; the `user_id` is the row's id. -/
structure User where
  email : String
  displayName : String
  passwordHash : String
  createdAt : Instant
  isAdmin : Bool := false
  disabled : Bool := false
  email_ne : email ≠ ""
  displayName_ne : displayName ≠ ""

/-- The fields `update` is given. -/
structure UserUpdate where
  displayName : Option { s : String // s ≠ "" } := none
  isAdmin : Option Bool := none
  disabled : Option Bool := none
  passwordHash : Option String := none

/-- The row after the `UPDATE`. -/
def UserUpdate.apply (u : UserUpdate) (user : User) : User where
  email := user.email
  displayName := (u.displayName.getD ⟨user.displayName, user.displayName_ne⟩).1
  passwordHash := u.passwordHash.getD user.passwordHash
  createdAt := user.createdAt
  isAdmin := u.isAdmin.getD user.isAdmin
  disabled := u.disabled.getD user.disabled
  email_ne := user.email_ne
  displayName_ne := (u.displayName.getD ⟨user.displayName, user.displayName_ne⟩).2

/-! ## The table -/

/-- The `users` table. -/
structure Users where
  table : Serial User
  /-- `UNIQUE` on `email`. -/
  unique : (table.rows.map fun r => r.2.email).Nodup

namespace Users

/-- The empty table. -/
def empty : Users := ⟨Serial.empty, List.nodup_nil⟩

/-- The row with id `userId`. -/
def get? (t : Users) (userId : Nat) : Option User := t.table.get? userId

/-- The row with the e-mail address, and its id. -/
def byEmail? (t : Users) (email : String) : Option (Nat × User) :=
  t.table.rows.find? fun r => r.2.email = email

/-- `INSERT`, refused by `UNIQUE`. -/
def insert (t : Users) (user : User) : Option Users :=
  if h : ∀ r ∈ t.table.rows, r.2.email ≠ user.email then
    some {
      table := t.table.insert user
      unique := by
        rw [Serial.rows_insert, List.map_append, List.nodup_append]
        refine ⟨t.unique, List.nodup_singleton _, ?_⟩
        intro a ha b hb
        obtain ⟨r, hr, rfl⟩ := List.mem_map.mp ha
        rw [List.map_singleton, List.mem_singleton] at hb
        rw [hb]
        exact h r hr }
  else none

/-- `UPDATE .. WHERE user_id = ?`; it changes no row if there is none. -/
def update (t : Users) (userId : Nat) (u : UserUpdate) : Users where
  table := t.table.mapRows fun i user => if i = userId then u.apply user else user
  unique := by
    have : ((t.table.mapRows fun i user => if i = userId then u.apply user else user).rows.map
        fun r => r.2.email) = t.table.rows.map fun r => r.2.email := by
      simp only [Serial.mapRows, List.map_map, List.map_inj_left, Function.comp]
      intro r _
      split <;> rfl
    rw [this]
    exact t.unique

theorem get?_of_byEmail? {t : Users} {email : String} {userId : Nat} {user : User}
    (h : t.byEmail? email = some (userId, user)) : t.get? userId = some user ∧ user.email = email :=
  ⟨Serial.mem_iff_get?.mp (List.mem_of_find?_eq_some h), by simpa using List.find?_some h⟩

theorem get?_insert {t t' : Users} {user : User} (h : t.insert user = some t') (i : Nat) :
    t'.get? i = if i = t.table.next then some user else t.get? i := by
  unfold insert at h
  split at h
  · obtain rfl := Option.some.inj h
    exact Serial.get?_insert _ _ _
  · cases h

theorem get?_update (t : Users) (userId : Nat) (u : UserUpdate) (i : Nat) :
    (t.update userId u).get? i = if i = userId then (t.get? i).map u.apply else t.get? i := by
  simp only [get?, update, Serial.get?_mapRows]
  split
  · rfl
  · exact Option.map_id'

end Users

/-! ## The repositories -/

/-- The tables the account use cases read and write. -/
structure Accounts where
  users : Users := Users.empty
  sessions : Sessions := Table.empty
  auditLog : Serial AuditEvent := Serial.empty

/-- A transaction over them. -/
abbrev AccountsTx := Tx Accounts ServiceError

/-- `AuditLog.record`. -/
def recordEvent (event : AuditEvent) : AccountsTx Unit :=
  Tx.write fun a => { a with auditLog := a.auditLog.insert event }

namespace UserRepository

/-- `save`, which returns the new id. -/
def save (user : User) : AccountsTx Nat := do
  let saved ← Tx.attempt fun a =>
    match a.users.insert user with
    | some users => .ok (a.users.table.next, users)
    | none => .error {
        errorClass := .persistenceError
        message := "failed to insert user " ++ pyRepr user.email ++
          ": UNIQUE constraint failed: users.email"
        details := [("email", .str user.email),
          ("reason", .str "UNIQUE constraint failed: users.email")] }
  Tx.write fun a => { a with users := saved.2 }
  pure saved.1

/-- `get_by_email`. -/
def getByEmail (email : String) : AccountsTx (Option (Nat × User)) :=
  Tx.read fun a => a.users.byEmail? email

/-- `get_by_id`. -/
def getById (userId : Nat) : AccountsTx (Option User) := Tx.read fun a => a.users.get? userId

/-- `update`. Without a field to set the source skips the `UPDATE`, which would set none. -/
def update (userId : Nat) (u : UserUpdate) : AccountsTx (Option User) := do
  Tx.write fun a => { a with users := a.users.update userId u }
  getById userId

theorem save_ok {user : User} {userId : Nat} {a a' : Accounts}
    (h : save user a = .ok (userId, a')) :
    ∃ users, a.users.insert user = some users ∧ userId = a.users.table.next ∧
      a' = { a with users := users } := by
  simp only [save, Tx.ok_bind, Tx.ok_attempt, Tx.ok_write, Tx.ok_pure] at h
  obtain ⟨saved, _, ⟨hs, rfl⟩, _, _, rfl, rfl, rfl⟩ := h
  split at hs
  · next users hu =>
    cases hs
    exact ⟨users, hu, rfl, rfl⟩
  · cases hs

theorem update_ok {userId : Nat} {u : UserUpdate} {r : Option User} {a a' : Accounts}
    (h : update userId u a = .ok (r, a')) :
    r = (a.users.get? userId).map u.apply ∧
      a' = { a with users := a.users.update userId u } := by
  simp only [update, getById, Tx.ok_bind, Tx.ok_write, Tx.ok_read] at h
  obtain ⟨_, _, rfl, rfl, rfl⟩ := h
  refine ⟨?_, rfl⟩
  rw [Users.get?_update, if_pos rfl]

end UserRepository

namespace SessionRepository

/-- `save`, of a session whose user has been read in the same transaction. -/
def save (session : Session) : AccountsTx Unit := do
  let sessions ← Tx.attempt fun a =>
    match a.sessions.save session with
    | some sessions => .ok sessions
    | none => .error {
        errorClass := .persistenceError
        message := "failed to insert session for user " ++ toString session.userId ++
          ": UNIQUE constraint failed: sessions.token_hash"
        details := [("user_id", .int session.userId),
          ("reason", .str "UNIQUE constraint failed: sessions.token_hash")] }
  Tx.write fun a => { a with sessions := sessions }

/-- `delete_by_token_hash`. -/
def deleteByTokenHash (tokenHash : String) : AccountsTx Unit :=
  Tx.write fun a => { a with sessions := a.sessions.deleteByTokenHash tokenHash }

/-- `delete_by_user_id`. -/
def deleteByUserId (userId : Nat) : AccountsTx Unit :=
  Tx.write fun a => { a with sessions := a.sessions.deleteByUserId userId }

theorem save_ok {session : Session} {r : Unit} {a a' : Accounts}
    (h : save session a = .ok (r, a')) :
    ∃ sessions, a.sessions.save session = some sessions ∧ a' = { a with sessions := sessions } := by
  simp only [save, Tx.ok_bind, Tx.ok_attempt, Tx.ok_write] at h
  obtain ⟨sessions, _, ⟨hs, rfl⟩, rfl⟩ := h
  split at hs
  · next ht =>
    cases hs
    exact ⟨_, ht, rfl⟩
  · cases hs

end SessionRepository

end MessageService.Infrastructure
