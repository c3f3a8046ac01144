import MessageService.Application.AdminUsers
import MessageService.Interfaces.SessionAuth
import MessageService.Lib.Pool
import MessageService.Lib.TransitionSystem

/-!
# The dashboard as a transition system

The accounts of the service under every interleaving of logins, logouts, the session middleware,
the administrators' requests and the reconciliation of the configured administrator (`dashboard`).
A step is one unit of work, or the hash of a new password, which is made outside of any.

A request to `/admin/users` (`AdminRequest`) is authorised by `require_admin` in one unit of work
and runs its use case in another. `logins` is a ghost: the logins that have created a session, the
last one first.

* `accountsStep_of_step`: what a step does to the tables `users` and `sessions`.
-/

namespace MessageService.System

open MessageService.Domain MessageService.Lib MessageService.Infrastructure
open MessageService.Application MessageService.Interfaces

/-- The configuration of the dashboard. -/
structure DashboardConfig where
  hasher : PasswordHasher
  digest : TokenDigest
  idleTimeout : Duration

/-- What a request to `/admin/users` asks for. -/
inductive AdminCall where
  | create (cmd : CreateUserCommand)
  | update (targetUserId : Nat) (patch : UserPatch)
  | resetPassword (targetUserId : Nat) (newPassword : String)

/-- How a request is answered. -/
inductive Response where
  | succeeded
  /-- 401. -/
  | unauthenticated
  /-- 403. -/
  | forbidden
  | raised (e : ServiceError)
  /-- A database failure or a cancellation. -/
  | broken

/-- How far a request is. -/
inductive AdminPhase where
  | received
  | authorised
  | hashed (passwordHash : String)
  | ended (response : Response)

/-- A request to `/admin/users`, of the user of its session. -/
structure AdminRequest where
  adminId : Nat
  call : AdminCall
  phase : AdminPhase := .received

/-- What a step of a request takes from outside. -/
structure AdminInput where
  now : Instant
  salt : String
  fate : Tx.Fate

/-- How a unit of work that does not return answers the request. -/
def Response.ofOutcome : Tx.Outcome ServiceError Unit → Response
  | .returned _ => .succeeded
  | .raised e => .raised e
  | .broken => .broken

/-- `_require_admin`. -/
def requireAdmin (userId : Nat) : AccountsTx AdminPhase := do
  let user ← UserRepository.getById userId
  pure <| match user with
    | none => .ended .unauthenticated
    | some user =>
      if user.disabled then .ended .unauthenticated
      else if user.isAdmin then .authorised
      else .ended .forbidden

/-- Run a use case as the last unit of work of a request. -/
def answer (x : AccountsTx Unit) (fate : Tx.Fate) (a : Accounts) : AdminPhase × Accounts :=
  x.resume fate (fun _ => .ended .succeeded) (fun o => .ended (.ofOutcome o)) a

/-- One step of a request. -/
def adminStep (hasher : PasswordHasher) (r : AdminRequest) (input : AdminInput) (a : Accounts) :
    AdminPhase × Accounts :=
  match r.phase, r.call with
  | .received, _ =>
    (requireAdmin r.adminId).resume input.fate id (fun o => .ended (.ofOutcome o)) a
  | .authorised, .create cmd =>
    match validateEmail cmd.email with
    | .ok _ => (.hashed (hasher.hash cmd.password input.salt), a)
    | .error e => (.ended (.raised e), a)
  | .authorised, .update target patch =>
    answer (updateUser r.adminId target patch input.now) input.fate a
  | .authorised, .resetPassword _ newPassword => (.hashed (hasher.hash newPassword input.salt), a)
  | .hashed passwordHash, .create cmd =>
    answer (createUser r.adminId cmd passwordHash input.now) input.fate a
  | .hashed passwordHash, .resetPassword target _ =>
    answer (resetPassword r.adminId target passwordHash input.now) input.fate a
  | phase, _ => (phase, a)

/-- A login that has created a session. -/
structure LoginRecord where
  tokenHash : String
  userId : Nat
  /-- The submitted password. -/
  password : String
  /-- The hash it was verified against. -/
  passwordHash : String

/-- The state of the dashboard. -/
structure Dashboard where
  accounts : Accounts := {}
  requests : List AdminRequest := []
  logins : List LoginRecord := []

/-- A step. -/
inductive Action where
  | login (email password token : String) (now : Instant) (fate : Tx.Fate)
  | logout (plaintextToken : String) (userId : Nat) (now : Instant) (fate : Tx.Fate)
  /-- `SessionAuthMiddleware.dispatch` on any request. -/
  | middleware (cookie : Option String) (now : Instant) (awaits : Awaits)
  /-- A request to `/admin/users` arrives. -/
  | request (adminId : Nat) (call : AdminCall)
  /-- A request takes its next step. -/
  | advance (i : Nat) (input : AdminInput)
  | reconcile (admin : AdminAccountConfig) (salt : String) (now : Instant) (fate : Tx.Fate)

variable (cfg : DashboardConfig)

/-- The record of a login that has created a session. -/
def newLogins (email password token : String) (now : Instant) (fate : Tx.Fate) (a : Accounts) :
    List LoginRecord :=
  match login cfg.hasher cfg.digest email password token now a, a.users.byEmail? email with
  | .ok (.ok result, _), some (_, user) =>
    if fate = .fails then []
    else [{
      tokenHash := cfg.digest.digest token
      userId := result.userId
      password := password
      passwordHash := user.passwordHash }]
  | _, _ => []

/-- The step function. -/
def Dashboard.step (w : Dashboard) : Action → Option Dashboard
  | .login email password token now fate =>
    some { w with
      accounts :=
        ((login cfg.hasher cfg.digest email password token now).commit fate w.accounts).2
      logins := newLogins cfg email password token now fate w.accounts ++ w.logins }
  | .logout plaintextToken userId now fate =>
    some { w with
      accounts := ((logout cfg.digest plaintextToken userId now).commit fate w.accounts).2 }
  | .middleware cookie now awaits =>
    some { w with
      accounts := { w.accounts with
        sessions := (dispatch cfg.digest.digest cfg.idleTimeout cookie now w.accounts.sessions
          awaits).sessions } }
  | .request adminId call => some { w with requests := w.requests ++ [{ adminId, call }] }
  | .advance i input =>
    w.requests[i]?.map fun r =>
      let s := adminStep cfg.hasher r input w.accounts
      { w with
        accounts := s.2
        requests := w.requests.set i { r with phase := s.1 } }
  | .reconcile admin salt now fate =>
    some { w with
      accounts := ((reconcileAdminAccount cfg.hasher admin salt now).commit fate w.accounts).2 }

/-- The dashboard from the states that meet `init`, over every interleaving of its steps. -/
def dashboard (init : Dashboard → Prop) : System Dashboard Action :=
  System.ofFun init (Dashboard.step cfg)

/-! ## What a step does to users and sessions -/

/-- Every session of `t'` was there, of the same user. -/
def Survivors (t t' : Sessions) : Prop :=
  ∀ k s', t'.getByTokenHash k = some s' → ∃ s, t.getByTokenHash k = some s ∧ s.userId = s'.userId

theorem Survivors.refl (t : Sessions) : Survivors t t := fun _ s h => ⟨s, h, rfl⟩

theorem Survivors.deleteByTokenHash (t : Sessions) (tokenHash : String) :
    Survivors t (t.deleteByTokenHash tokenHash) := by
  intro k s h
  rw [Sessions.getByTokenHash_delete] at h
  split at h
  · cases h
  · exact ⟨s, h, rfl⟩

theorem Survivors.touch {t t' : Sessions} {tokenHash : String} {now : Instant}
    (h : t.touch tokenHash now = some t') : Survivors t t' := by
  intro k s' hs
  rw [Sessions.getByTokenHash_touch h] at hs
  split at hs
  · obtain ⟨s, hget, rfl⟩ := Option.map_eq_some_iff.mp hs
    refine ⟨s, hget, ?_⟩
    unfold Session.touched
    split <;> rfl
  · exact ⟨s', hs, rfl⟩

theorem Survivors.ite {c : Prop} [Decidable c] {t t' : Sessions} (h : Survivors t t') :
    Survivors t (if c then t' else t) := by
  by_cases hc : c
  · rw [if_pos hc]
    exact h
  · rw [if_neg hc]
    exact .refl t

theorem survivors_dispatchInBlock (idleTimeout : Duration) (token tokenHash : String)
    (now : Instant) (t : Sessions) (awaits : Awaits) (entered : List Infrastructure.Event) :
    Survivors t (dispatchInBlock idleTimeout token tokenHash now t awaits entered).sessions := by
  unfold dispatchInBlock
  by_cases hselect : awaits.select = .returned
  · simp only [hselect, ne_eq, not_true_eq_false, if_false]
    cases t.getByTokenHash tokenHash with
    | none => exact .refl t
    | some session =>
      by_cases hidle : idleTimeout ≤ now - session.lastActivityAt
      · by_cases hdelete : awaits.delete = .returned
        · simp only [hidle, hdelete, not_true_eq_false, if_true, if_false]
          exact (Survivors.deleteByTokenHash t tokenHash).ite
        · simp only [hidle, hdelete, not_false_eq_true, if_true]
          exact .refl t
      · simp only [hidle, if_false]
        split
        · next touched _ htouch => split_ifs <;> first | exact Survivors.touch htouch | exact .refl t
        · exact .refl t
  · simp only [hselect, ne_eq, not_false_eq_true, if_true]
    exact .refl t

/-- The middleware creates no session. -/
theorem survivors_dispatch (hashToken : String → String) (idleTimeout : Duration)
    (cookie : Option String) (now : Instant) (t : Sessions) (awaits : Awaits) :
    Survivors t (dispatch hashToken idleTimeout cookie now t awaits).sessions := by
  unfold dispatch
  cases cookie with
  | none => exact .refl t
  | some token =>
    cases awaits.acquire with
    | cancelled => exact .refl t
    | result =>
      by_cases hbegins : awaits.begins = (.ok, .result)
      · simp only [hbegins, if_true]
        exact survivors_dispatchInBlock _ _ _ _ _ _ _
      · simp only [hbegins, if_false]
        exact .refl t

/-- What a step does to users and sessions. -/
inductive AccountsStep (w w' : Dashboard) : Action → Prop
  | kept {l : Action} (users : w'.accounts.users = w.accounts.users)
      (sessions : Survivors w.accounts.sessions w'.accounts.sessions)
      (logins : w'.logins = w.logins) : AccountsStep w w' l
  | minted {email password token : String} {now : Instant} {fate : Tx.Fate} {userId : Nat}
      {user : User} (is : w.accounts.users.get? userId = some user)
      (enabled : user.disabled = false)
      (verified : cfg.hasher.verify password user.passwordHash = true)
      (users : w'.accounts.users = w.accounts.users)
      (sessions : w.accounts.sessions.save (cfg.digest.mint token userId now) =
        some w'.accounts.sessions)
      (logins : w'.logins = {
        tokenHash := cfg.digest.digest token
        userId := userId
        password := password
        passwordHash := user.passwordHash } :: w.logins) :
      AccountsStep w w' (.login email password token now fate)
  | inserted {l : Action} {user : User}
      (users : w.accounts.users.insert user = some w'.accounts.users)
      (sessions : w'.accounts.sessions = w.accounts.sessions) (logins : w'.logins = w.logins) :
      AccountsStep w w' l
  | patched {i : Nat} {input : AdminInput} {r : AdminRequest} {target : Nat} {p : UserPatch}
      (request : w.requests[i]? = some r) (phase : r.phase = .authorised)
      (call : r.call = .update target p) (fate : input.fate ≠ .fails)
      (self : r.adminId = target → p.strips = false)
      (users : w'.accounts.users = w.accounts.users.update target p.toUpdate)
      (sessions : w'.accounts.sessions = if p.disabled = some true then
        w.accounts.sessions.deleteByUserId target else w.accounts.sessions)
      (logins : w'.logins = w.logins) : AccountsStep w w' (.advance i input)
  | reset {l : Action} {target : Nat} {passwordHash : String}
      (users : w'.accounts.users =
        w.accounts.users.update target { passwordHash := some passwordHash })
      (sessions : w'.accounts.sessions = w.accounts.sessions.deleteByUserId target)
      (logins : w'.logins = w.logins) : AccountsStep w w' l
  | reconciled {l : Action} {userId : Nat}
      (users : w'.accounts.users =
        w.accounts.users.update userId { isAdmin := some true, disabled := some false })
      (sessions : w'.accounts.sessions = w.accounts.sessions) (logins : w'.logins = w.logins) :
      AccountsStep w w' l

variable {cfg} {w w' : Dashboard}

/-- Nothing happens to users and sessions. -/
theorem AccountsStep.same {l : Action} (accounts : w'.accounts = w.accounts)
    (logins : w'.logins = w.logins) : AccountsStep cfg w w' l :=
  .kept (by rw [accounts]) (by rw [accounts]; exact .refl _) logins

theorem accountsStep_login {email password token : String} {now : Instant} {fate : Tx.Fate}
    (h : Dashboard.step cfg w (.login email password token now fate) = some w') :
    AccountsStep cfg w w' (.login email password token now fate) := by
  obtain rfl := Option.some.inj h
  cases hx : login cfg.hasher cfg.digest email password token now w.accounts with
  | error e => exact .same (Tx.commit_snd_of_error hx) (by simp [newLogins, hx])
  | ok result =>
    obtain ⟨result, a⟩ := result
    by_cases hfate : fate = .fails
    · subst hfate
      refine .same (Tx.commit_snd_of_ok hx) ?_
      simp only [newLogins, hx]
      split <;> simp_all
    · have ha : ((login cfg.hasher cfg.digest email password token now).commit fate
          w.accounts).2 = a :=
        (Tx.commit_snd_of_ok hx).trans (if_neg hfate)
      obtain ⟨rfl, husers, hsessions⟩ | ⟨userId, user, rfl, hfound, henabled, hverify, husers, hsave⟩
        := login_ok hx
      · refine .kept (by rw [ha, husers]) ?_ (by simp [newLogins, hx])
        rw [ha, hsessions]
        exact .refl _
      · refine .minted (Users.get?_of_byEmail? hfound).1 henabled hverify (by rw [ha, husers])
          (by rw [ha, hsave]) ?_
        simp [newLogins, hx, hfound, hfate]

theorem answer_of_ok {x : AccountsTx Unit} {fate : Tx.Fate} {a a' : Accounts}
    (hx : x a = .ok ((), a')) : (answer x fate a).2 = if fate = .fails then a else a' := by
  unfold answer
  rw [Tx.resume_snd, Tx.commit_snd_of_ok hx]

/-- What answering a request leaves: nothing, or what its use case does. -/
theorem answer_snd (x : AccountsTx Unit) (fate : Tx.Fate) (a : Accounts) :
    (answer x fate a).2 = a ∨
      ∃ a', x a = .ok ((), a') ∧ fate ≠ .fails ∧ (answer x fate a).2 = a' := by
  cases hx : x a with
  | error e => exact .inl ((Tx.resume_snd _ _ _ _ _).trans (Tx.commit_snd_of_error hx))
  | ok r =>
    obtain ⟨u, a'⟩ := r
    rw [answer_of_ok hx]
    by_cases hfate : fate = .fails
    · exact .inl (if_pos hfate)
    · exact .inr ⟨a', rfl, hfate, if_neg hfate⟩

theorem requireAdmin_ok {userId : Nat} {phase : AdminPhase} {a a' : Accounts}
    (h : requireAdmin userId a = .ok (phase, a')) :
    a' = a ∧ (phase = .authorised → ∃ user, a.users.get? userId = some user ∧
      user.isAdmin = true ∧ user.disabled = false) := by
  simp only [requireAdmin, UserRepository.getById, Tx.ok_bind, Tx.ok_read, Tx.ok_pure] at h
  obtain ⟨user, _, ⟨huser, rfl⟩, rfl, rfl⟩ := h
  refine ⟨rfl, fun hp => ?_⟩
  cases user with
  | none => cases hp
  | some user =>
    refine ⟨user, huser, ?_⟩
    simp only at hp
    split_ifs at hp with hd ha
    exact ⟨ha, by simpa using hd⟩

theorem accountsStep_advance {i : Nat} {input : AdminInput}
    (h : Dashboard.step cfg w (.advance i input) = some w') :
    AccountsStep cfg w w' (.advance i input) := by
  simp only [Dashboard.step, Option.map_eq_some_iff] at h
  obtain ⟨r, hr, rfl⟩ := h
  cases hphase : r.phase with
  | received =>
    refine .same ?_ rfl
    simp only [adminStep, hphase]
    exact Tx.resume_snd_eq fun _ _ hok => (requireAdmin_ok hok).1
  | authorised =>
    cases hcall : r.call with
    | create cmd =>
      refine .same ?_ rfl
      simp only [adminStep, hphase, hcall]
      split <;> rfl
    | resetPassword target newPassword =>
      exact .same (by simp only [adminStep, hphase, hcall]) rfl
    | update target p =>
      obtain hsame | ⟨a', hok, hfate, ha⟩ :=
        answer_snd (updateUser r.adminId target p input.now) input.fate w.accounts
      · exact .same (by simpa only [adminStep, hphase, hcall] using hsame) rfl
      · obtain ⟨hself, -, husers, hsessions⟩ := updateUser_ok hok
        have hstep : (adminStep cfg.hasher r input w.accounts).2 = a' := by
          simpa only [adminStep, hphase, hcall] using ha
        exact .patched hr hphase hcall hfate hself (hstep ▸ husers) (hstep ▸ hsessions) rfl
  | hashed passwordHash =>
    cases hcall : r.call with
    | create cmd =>
      obtain hsame | ⟨a', hok, -, ha⟩ :=
        answer_snd (createUser r.adminId cmd passwordHash input.now) input.fate w.accounts
      · exact .same (by simpa only [adminStep, hphase, hcall] using hsame) rfl
      · obtain ⟨husers, hsessions⟩ := createUser_ok hok
        have hstep : (adminStep cfg.hasher r input w.accounts).2 = a' := by
          simpa only [adminStep, hphase, hcall] using ha
        exact .inserted (hstep ▸ husers) (hstep ▸ hsessions) rfl
    | resetPassword target newPassword =>
      obtain hsame | ⟨a', hok, -, ha⟩ :=
        answer_snd (resetPassword r.adminId target passwordHash input.now) input.fate w.accounts
      · exact .same (by simpa only [adminStep, hphase, hcall] using hsame) rfl
      · obtain ⟨husers, hsessions⟩ := resetPassword_ok hok
        have hstep : (adminStep cfg.hasher r input w.accounts).2 = a' := by
          simpa only [adminStep, hphase, hcall] using ha
        exact .reset (hstep ▸ husers) (hstep ▸ hsessions) rfl
    | update target p => exact .same (by simp only [adminStep, hphase, hcall]) rfl
  | ended response => exact .same (by simp only [adminStep, hphase]) rfl

/-- **What a step does to users and sessions.** -/
theorem accountsStep_of_step {l : Action} (h : Dashboard.step cfg w l = some w') :
    AccountsStep cfg w w' l := by
  cases l with
  | login email password token now fate => exact accountsStep_login h
  | logout token userId now fate =>
    obtain rfl := Option.some.inj h
    obtain ⟨ha, -⟩ | ⟨r, a', hok, ha, -⟩ :=
      Tx.commit_spec (logout cfg.digest token userId now) fate w.accounts
    · exact .same ha rfl
    · obtain ⟨husers, hsessions⟩ := logout_ok hok
      refine .kept (by rw [ha, husers]) ?_ rfl
      rw [ha, hsessions]
      exact .deleteByTokenHash _ _
  | middleware cookie now awaits =>
    obtain rfl := Option.some.inj h
    exact .kept rfl (survivors_dispatch _ _ _ _ _ _) rfl
  | request adminId call =>
    obtain rfl := Option.some.inj h
    exact .same rfl rfl
  | advance i input => exact accountsStep_advance h
  | reconcile admin salt now fate =>
    obtain rfl := Option.some.inj h
    obtain ⟨ha, -⟩ | ⟨r, a', hok, ha, -⟩ :=
      Tx.commit_spec (reconcileAdminAccount cfg.hasher admin salt now) fate w.accounts
    · exact .same ha rfl
    · obtain ⟨hsessions, hinsert | ⟨userId, hupdate⟩⟩ := reconcileAdminAccount_ok hok
      · exact .inserted (by rw [ha, hinsert]) (by rw [ha, hsessions]) rfl
      · exact .reconciled (by rw [ha, hupdate]) (by rw [ha, hsessions]) rfl

end MessageService.System
