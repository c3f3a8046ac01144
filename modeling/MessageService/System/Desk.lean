import MessageService.Interfaces.SubscriptionRoutes
import MessageService.Lib.TxMoves
import MessageService.System.Administrators
import Mathlib.Data.List.Chain
import Mathlib.Data.List.Pairwise

/-!
# The subscription desk as a transition system

The subscriptions of all users under every interleaving of the users' own requests, the requests of
administrators, and the steps of the dashboard (`desk`). A request of an administrator is authorised
in one unit of work and runs its use case in another.

* `deskEffect_of_step`: a step changes one subscription and records one audit row that tells of it,
  or it changes none and records none.
* `subscription_diary`: the audit log of a subscription is a diary of it.
* `subscription_changes`: who changes a subscription.
-/

namespace MessageService.System

open MessageService.Domain MessageService.Lib MessageService.Infrastructure
open MessageService.Application MessageService.Interfaces
open MessageService.Infrastructure.SqliteSubscriptionRepository

/-! ## The system -/

/-- The configuration of the desk. -/
structure DeskConfig where
  dashboard : DashboardConfig
  ports : SubscriptionPorts

/-- What a request asks for. -/
inductive DeskCall where
  | create (granularity : SubscriptionGranularity) (targetValue : Option String)
  | delete (subscriptionId : Nat)

/-- How far the request of an administrator is. -/
inductive DeskPhase where
  | received
  | authorised
  | ended
  deriving DecidableEq

/-- A request to `/admin/users/{user_id}/subscriptions`. -/
structure DeskRequest where
  adminId : Nat
  targetUserId : Nat
  call : DeskCall
  phase : DeskPhase := .received

/-- What a step takes from outside. -/
structure DeskInput where
  created : Instant
  audited : Instant
  fate : Tx.Fate

/-- The state of the desk. -/
structure Desk where
  dashboard : Dashboard := {}
  subscriptions : Subscriptions := .empty
  requests : List DeskRequest := []

/-- A step. -/
inductive DeskAction where
  | account (l : Action)
  /-- A request to `/subscriptions`, of the user of its session. -/
  | own (userId : Nat) (call : DeskCall) (input : DeskInput)
  /-- A request of an administrator arrives. -/
  | request (adminId targetUserId : Nat) (call : DeskCall)
  /-- It takes its next step. -/
  | advance (i : Nat) (input : DeskInput)

namespace Desk

/-- The tables. -/
def directory (d : Desk) : Directory := ⟨d.dashboard.accounts, d.subscriptions⟩

/-- The desk with other tables. -/
def store (d : Desk) (s : Directory) : Desk :=
  { d with
    dashboard := { d.dashboard with accounts := s.accounts }
    subscriptions := s.subscriptions }

end Desk

/-- The use case of a user's own request. -/
def ownCall (ports : SubscriptionPorts) (userId : Nat) (input : DeskInput) : DeskCall → DeskTx Unit
  | .create g target => do
    let _ ← subscribe ports userId g target input.created input.audited
    pure ()
  | .delete subscriptionId => unsubscribe subscriptionId userId input.audited

/-- The use case of an administrator's request. -/
def adminCall (ports : SubscriptionPorts) (adminId targetUserId : Nat) (input : DeskInput) :
    DeskCall → DeskTx Unit
  | .create g target => do
    let _ ← adminSubscribe ports adminId targetUserId g target input.created input.audited
    pure ()
  | .delete subscriptionId => adminUnsubscribe adminId targetUserId subscriptionId input.audited

/-- `require_admin` of a request. -/
def authorise (adminId : Nat) (fate : Tx.Fate) (s : Directory) : DeskPhase × Directory :=
  let r := (requireAdmin adminId).resume fate id (fun o => .ended (.ofOutcome o)) s.accounts
  (match r.1 with
    | .authorised => .authorised
    | _ => .ended, { s with accounts := r.2 })

/-- One step of an administrator's request. -/
def deskStep (ports : SubscriptionPorts) (r : DeskRequest) (input : DeskInput) (s : Directory) :
    DeskPhase × Directory :=
  match r.phase with
  | .received => authorise r.adminId input.fate s
  | .authorised =>
    (.ended, ((adminCall ports r.adminId r.targetUserId input r.call).commit input.fate s).2)
  | .ended => (.ended, s)

variable (cfg : DeskConfig)

/-- The step function. -/
def Desk.step (d : Desk) : DeskAction → Option Desk
  | .account l =>
    (d.dashboard.step cfg.dashboard l).map fun dashboard => { d with dashboard := dashboard }
  | .own userId call input =>
    some (d.store ((ownCall cfg.ports userId input call).commit input.fate d.directory).2)
  | .request adminId targetUserId call =>
    some { d with requests := d.requests ++ [{ adminId, targetUserId, call }] }
  | .advance i input =>
    d.requests[i]?.map fun r =>
      let s := deskStep cfg.ports r input d.directory
      { d.store s.2 with requests := d.requests.set i { r with phase := s.1 } }

/-- An audit event of the desk. -/
def isChange (e : AuditEvent) : Bool := e.action = .subscribe || e.action = .unsubscribe

/-- Nobody has subscribed yet. -/
def Unsubscribed (d : Desk) : Prop :=
  d.subscriptions = .empty ∧ d.requests = [] ∧
    ∀ r ∈ d.dashboard.accounts.auditLog.rows, isChange r.2 = false

/-- The desk, over every interleaving of its steps. -/
def desk : System Desk DeskAction := System.ofFun Unsubscribed (Desk.step cfg)

/-! ## What the dashboard records -/

/-- The audit log has grown by rows that are none of the desk's. -/
def Quiet (a a' : Accounts) : Prop :=
  ∃ events, a'.auditLog = a.auditLog.insertAll events ∧ ∀ e ∈ events, isChange e = false

theorem quiet_of_eq {a a' : Accounts} (h : a'.auditLog = a.auditLog) : Quiet a a' :=
  ⟨[], h, by simp⟩

instance : Std.Refl Quiet := ⟨fun _ => quiet_of_eq rfl⟩

instance : IsTrans Accounts Quiet := by
  refine ⟨fun a b c hab hbc => ?_⟩
  obtain ⟨events, hb, hevents⟩ := hab
  obtain ⟨events', hc, hevents'⟩ := hbc
  refine ⟨events ++ events', ?_, ?_⟩
  · rw [hc, hb, Serial.insertAll, Serial.insertAll, Serial.insertAll, List.foldl_append]
  · intro e he
    rcases List.mem_append.mp he with he | he
    · exact hevents e he
    · exact hevents' e he

theorem moves_record {event : AuditEvent} (h : isChange event = false) :
    Tx.Moves Quiet (recordEvent event) :=
  .write fun _ => ⟨[event], rfl, by simpa using h⟩

theorem moves_save (user : User) : Tx.Moves Quiet (UserRepository.save user) := by
  intro a userId a' h
  obtain ⟨users, -, -, rfl⟩ := UserRepository.save_ok h
  exact quiet_of_eq rfl

theorem moves_update (userId : Nat) (u : UserUpdate) :
    Tx.Moves Quiet (UserRepository.update userId u) := by
  intro a r a' h
  obtain ⟨-, rfl⟩ := UserRepository.update_ok h
  exact quiet_of_eq rfl

theorem moves_saveSession (session : Session) :
    Tx.Moves Quiet (SessionRepository.save session) := by
  intro a r a' h
  obtain ⟨sessions, -, rfl⟩ := SessionRepository.save_ok h
  exact quiet_of_eq rfl

theorem moves_deleteByUserId (userId : Nat) :
    Tx.Moves Quiet (SessionRepository.deleteByUserId userId) :=
  .write fun _ => quiet_of_eq rfl

theorem moves_refuseLogin (now : Instant) (email reason : String) (userId : Option Nat) :
    Tx.Moves Quiet (refuseLogin now email reason userId) :=
  .bind (moves_record rfl) fun _ => .pure _

theorem moves_login (hasher : PasswordHasher) (digest : TokenDigest)
    (email password token : String) (now : Instant) :
    Tx.Moves Quiet (login hasher digest email password token now) := by
  refine .bind (.read _) fun found => ?_
  cases found with
  | none => exact moves_refuseLogin _ _ _ _
  | some found =>
    refine .ite (moves_refuseLogin _ _ _ _) (.ite (moves_refuseLogin _ _ _ _) ?_)
    exact .bind (moves_record rfl) fun _ => .bind (moves_saveSession _) fun _ => .pure _

theorem moves_logout (digest : TokenDigest) (token : String) (userId : Nat) (now : Instant) :
    Tx.Moves Quiet (logout digest token userId now) :=
  .bind (moves_record rfl) fun _ => .write fun _ => quiet_of_eq rfl

theorem moves_saveNewUser (user : User) : Tx.Moves Quiet (saveNewUser user) := by
  intro a userId a' h
  unfold saveNewUser at h
  split at h
  · next r hr =>
    cases h
    exact moves_save user a userId a' hr
  · split at h <;> cases h

theorem moves_createUser (adminId : Nat) (cmd : CreateUserCommand) (passwordHash : String)
    (now : Instant) : Tx.Moves Quiet (createUser adminId cmd passwordHash now) :=
  .bind (moves_saveNewUser _) fun _ => moves_record rfl

theorem moves_updateUser (adminId targetUserId : Nat) (p : UserPatch) (now : Instant) :
    Tx.Moves Quiet (updateUser adminId targetUserId p now) :=
  .bind (.require _ _) fun _ => .bind (moves_update _ _) fun _ => .bind (.require _ _) fun _ =>
    .bind (.when _ (moves_record rfl)) fun _ => .when _ (moves_deleteByUserId _)

theorem moves_resetPassword (adminId targetUserId : Nat) (passwordHash : String) (now : Instant) :
    Tx.Moves Quiet (resetPassword adminId targetUserId passwordHash now) :=
  .bind (moves_update _ _) fun _ => .bind (.require _ _) fun _ =>
    .bind (moves_record rfl) fun _ => moves_deleteByUserId _

theorem moves_reconcile (hasher : PasswordHasher) (admin : AdminAccountConfig) (salt : String)
    (now : Instant) : Tx.Moves Quiet (reconcileAdminAccount hasher admin salt now) := by
  refine .bind (.read _) fun found => ?_
  cases found with
  | none => exact .bind (moves_save _) fun _ => .pure _
  | some found => exact .bind (moves_update _ _) fun _ => .pure _

theorem moves_requireAdmin (userId : Nat) : Tx.Moves Quiet (requireAdmin userId) :=
  .bind (.read _) fun _ => .pure _

theorem quiet_adminStep (hasher : PasswordHasher) (r : AdminRequest) (input : AdminInput)
    (a : Accounts) : Quiet a (adminStep hasher r input a).2 := by
  obtain ⟨adminId, call, phase⟩ := r
  cases phase with
  | received => exact (moves_requireAdmin adminId).resume a
  | authorised =>
    cases call with
    | create cmd =>
      simp only [adminStep]
      split <;> exact quiet_of_eq rfl
    | update target p => exact (moves_updateUser adminId target p input.now).resume a
    | resetPassword target newPassword => exact quiet_of_eq rfl
  | hashed passwordHash =>
    cases call with
    | create cmd => exact (moves_createUser adminId cmd passwordHash input.now).resume a
    | update target p => exact quiet_of_eq rfl
    | resetPassword target newPassword =>
      exact (moves_resetPassword adminId target passwordHash input.now).resume a
  | ended response => cases call <;> exact quiet_of_eq rfl

/-- The dashboard records none of the desk's events. -/
theorem quiet_of_step {cfg : DashboardConfig} {w w' : Dashboard} {l : Action}
    (h : Dashboard.step cfg w l = some w') : Quiet w.accounts w'.accounts := by
  cases l with
  | login email password token now fate =>
    obtain rfl := Option.some.inj h
    exact (moves_login _ _ _ _ _ _).commit fate _
  | logout token userId now fate =>
    obtain rfl := Option.some.inj h
    exact (moves_logout _ _ _ _).commit fate _
  | middleware cookie now awaits =>
    obtain rfl := Option.some.inj h
    exact quiet_of_eq rfl
  | request adminId call =>
    obtain rfl := Option.some.inj h
    exact quiet_of_eq rfl
  | advance i input =>
    obtain ⟨r, -, rfl⟩ := Option.map_eq_some_iff.mp h
    exact quiet_adminStep _ _ _ _
  | reconcile admin salt now fate =>
    obtain rfl := Option.some.inj h
    exact (moves_reconcile _ _ _ _).commit fate _

/-- No user has been removed. -/
def Remain (a a' : Accounts) : Prop :=
  ∀ i, (a.users.get? i).isSome = true → (a'.users.get? i).isSome = true

theorem remain_of_update {a a' : Accounts} {userId : Nat} {u : UserUpdate}
    (h : a'.users = a.users.update userId u) : Remain a a' := by
  intro i hi
  rw [h, Users.get?_update]
  split
  · rw [Option.isSome_map]
    exact hi
  · exact hi

theorem remain_of_step {cfg : DashboardConfig} {w w' : Dashboard} {l : Action}
    (h : Dashboard.step cfg w l = some w') : Remain w.accounts w'.accounts := by
  cases accountsStep_of_step h with
  | kept users _ _ | minted _ _ _ users _ _ =>
    intro i hi
    rw [users]
    exact hi
  | inserted users _ _ =>
    intro i hi
    rw [Users.get?_insert users]
    split
    · rfl
    · exact hi
  | patched _ _ _ _ _ users _ _ => exact remain_of_update users
  | reset users _ _ => exact remain_of_update users
  | reconciled users _ _ => exact remain_of_update users

/-! ## What an audit row of the desk tells -/

/-- What a subscription is to: a user has at most one to each. -/
structure Topic where
  userId : Nat
  granularity : SubscriptionGranularity
  targetValue : Option String
  deriving DecidableEq

/-- The topic of a subscription. -/
def topic (s : Subscription) : Topic := ⟨s.userId, s.granularity, s.targetValue⟩

/-- The user an event is about: its resource where an administrator has acted. -/
def subjectOf (e : AuditEvent) : String :=
  if (e.details.get? "target_user_id").isSome then e.resource else e.actor

/-- A text in the details of an event, or `None`. -/
def textOrNullAt (details : Dict Json) (key : String) : Option (Option String) :=
  match details.get? key with
  | some (.str s) => some (some s)
  | some .null => some none
  | _ => none

/-- The event is about the topic. -/
def tellsOf (k : Topic) (e : AuditEvent) : Bool :=
  isChange e && subjectOf e = userResource k.userId &&
    textOrNullAt e.details "granularity" = some (some k.granularity.value) &&
    textOrNullAt e.details "target_value" = some k.targetValue

theorem userResource_inj {i j : Nat} : userResource i = userResource j ↔ i = j := by
  refine ⟨fun h => ?_, fun h => h ▸ rfl⟩
  have hdigits : Nat.toDigits 10 i = Nat.toDigits 10 j := by
    have := congrArg String.toList h
    simpa only [userResource, String.toList_append, List.append_cancel_left_eq, Nat.toString_eq_repr,
      Nat.toList_repr] using this
  rw [← Nat.ofDigitChars_ten_toDigits (n := i), hdigits, Nat.ofDigitChars_ten_toDigits]

/-- The event tells of a change of one subscription, which `author` has made. -/
structure Reports (e : AuditEvent) (action : AuditAction) (author : Nat) (k : Topic) : Prop where
  is : e.action = action
  about : ∀ k', tellsOf k' e = true ↔ k' = k
  actor : e.actor = userResource author

theorem textOrNullAt_target (target : Option String) :
    (match some (targetJson target) with
      | some (.str s) => some (some s)
      | some .null => some none
      | _ => none) = some target := by
  cases target <;> rfl

theorem tells_of_details {e : AuditEvent} {author : Nat} {k : Topic} (hchange : isChange e = true)
    (hactor : e.actor = userResource author) (hsubject : subjectOf e = userResource k.userId)
    (hg : e.details.get? "granularity" = some (.str k.granularity.value))
    (ht : e.details.get? "target_value" = some (targetJson k.targetValue)) :
    Reports e e.action author k := by
  refine ⟨rfl, fun k' => ?_, hactor⟩
  have hgranularity : textOrNullAt e.details "granularity" = some (some k.granularity.value) := by
    simp only [textOrNullAt, hg]
  have htarget : textOrNullAt e.details "target_value" = some k.targetValue := by
    simp only [textOrNullAt, ht]
    exact textOrNullAt_target _
  obtain ⟨userId, granularity, targetValue⟩ := k
  obtain ⟨userId', granularity', targetValue'⟩ := k'
  simp only [tellsOf, hchange, hsubject, hgranularity, htarget, Bool.true_and, Bool.and_eq_true,
    decide_eq_true_eq, userResource_inj, Option.some.injEq, value_injective, Topic.mk.injEq]
  grind

theorem tells_ownEvent {action : AuditAction} (h : action = .subscribe ∨ action = .unsubscribe)
    {s : Subscription} {userId subscriptionId : Nat} (huser : s.userId = userId) (now : Instant) :
    Reports (ownEvent action userId subscriptionId s.granularity s.targetValue now) action userId
      (topic s) := by
  refine tells_of_details ?_ rfl ?_ rfl rfl
  · rcases h with rfl | rfl <;> rfl
  · rw [topic, huser]
    rfl

theorem tells_adminSubscribe {s : Subscription} {adminId targetUserId : Nat}
    (huser : s.userId = targetUserId) (now : Instant) :
    Reports (adminEvent .subscribe adminId targetUserId [] s.granularity s.targetValue now)
      .subscribe adminId (topic s) := by
  refine tells_of_details rfl rfl ?_ rfl rfl
  rw [topic, huser]
  rfl

theorem tells_adminUnsubscribe {s : Subscription} {adminId targetUserId subscriptionId : Nat}
    (huser : s.userId = targetUserId) (now : Instant) :
    Reports (adminEvent .unsubscribe adminId targetUserId [("subscription_id", .int subscriptionId)]
      s.granularity s.targetValue now) .unsubscribe adminId (topic s) := by
  refine tells_of_details rfl rfl ?_ rfl rfl
  rw [topic, huser]
  rfl

/-! ## What a step does -/

/-- What a step does to the tables, where `May author userId` are those who may change the
subscriptions of a user. -/
inductive DeskEffect (May : Nat → Nat → Prop) (s s' : Directory) : Prop
  | kept (subscriptions : s'.subscriptions = s.subscriptions) (log : Quiet s.accounts s'.accounts)
      (users : Remain s.accounts s'.accounts)
  | opened {sub : Subscription} {event : AuditEvent} {author : Nat}
      (does : Opened s s' sub event) (reports : Reports event .subscribe author (topic sub))
      (may : May author sub.userId)
  | closed {subscriptionId : Nat} {sub : Subscription} {event : AuditEvent} {author : Nat}
      (does : Closed s s' subscriptionId sub event)
      (reports : Reports event .unsubscribe author (topic sub)) (may : May author sub.userId)

variable {cfg} {May : Nat → Nat → Prop}

theorem deskEffect_ownCall {ports : SubscriptionPorts} {userId : Nat} {input : DeskInput}
    {call : DeskCall} {r : Unit} {s s' : Directory} (hmay : May userId userId)
    (h : ownCall ports userId input call s = .ok (r, s')) : DeskEffect May s s' := by
  cases call with
  | create g target =>
    simp only [ownCall, Tx.ok_bind, Tx.ok_pure] at h
    obtain ⟨subscriptionId, _, h, -, rfl⟩ := h
    obtain ⟨-, sub, huser, rfl, rfl, hopened⟩ := subscribe_ok h
    exact .opened hopened (tells_ownEvent (.inl rfl) huser _) (huser.symm ▸ hmay)
  | delete subscriptionId =>
    obtain ⟨sub, huser, hclosed⟩ := unsubscribe_ok h
    exact .closed hclosed (tells_ownEvent (.inr rfl) huser _) (huser.symm ▸ hmay)

theorem deskEffect_adminCall {ports : SubscriptionPorts} {adminId targetUserId : Nat}
    {input : DeskInput} {call : DeskCall} {r : Unit} {s s' : Directory}
    (hmay : May adminId targetUserId)
    (h : adminCall ports adminId targetUserId input call s = .ok (r, s')) : DeskEffect May s s' := by
  cases call with
  | create g target =>
    simp only [adminCall, Tx.ok_bind, Tx.ok_pure] at h
    obtain ⟨subscriptionId, _, h, -, rfl⟩ := h
    obtain ⟨-, sub, huser, rfl, rfl, hopened⟩ := adminSubscribe_ok h
    exact .opened hopened (tells_adminSubscribe huser _) (huser.symm ▸ hmay)
  | delete subscriptionId =>
    obtain ⟨sub, huser, hclosed⟩ := adminUnsubscribe_ok h
    exact .closed hclosed (tells_adminUnsubscribe huser _) (huser.symm ▸ hmay)

theorem DeskEffect.same {s : Directory} : DeskEffect May s s :=
  .kept rfl (quiet_of_eq rfl) fun _ h => h

theorem DeskEffect.commit {x : DeskTx Unit} {s : Directory}
    (hx : ∀ r s', x s = .ok (r, s') → DeskEffect May s s') (fate : Tx.Fate) :
    DeskEffect May s (x.commit fate s).2 :=
  Tx.commit_induct .same hx

/-- The directory that the authorisation of a request leaves. -/
theorem authorise_spec (adminId : Nat) (fate : Tx.Fate) (s : Directory) :
    (authorise adminId fate s).2 = s ∧ ((authorise adminId fate s).1 = .authorised →
      enabledAdmin s.accounts adminId = true) := by
  unfold authorise
  generalize hresume : (requireAdmin adminId).resume fate id
    (fun o => AdminPhase.ended (.ofOutcome o)) s.accounts = r
  have hr : r.1 = .authorised → enabledAdmin r.2 adminId = true := by
    rw [← hresume]
    refine Tx.resume_rule (P := fun phase accounts => phase = AdminPhase.authorised →
      enabledAdmin accounts adminId = true) (fun _ _ h => nomatch h) fun phase accounts h hp => ?_
    obtain ⟨rfl, hadmin⟩ := requireAdmin_ok h
    obtain ⟨user, hget, hisAdmin, henabled⟩ := hadmin hp
    exact enabledAdmin_iff.mpr ⟨user, hget, by simp [User.hasAccess, hisAdmin, henabled]⟩
  have hsame : r.2 = s.accounts := by
    rw [← hresume]
    exact Tx.resume_snd_eq fun _ _ h => (requireAdmin_ok h).1
  obtain ⟨phase, accounts⟩ := r
  simp only at hsame hr ⊢
  subst hsame
  refine ⟨rfl, fun h => hr ?_⟩
  cases phase <;> first | rfl | cases h

/-- The `i`-th request was let in by a step of the run: its administrator was one, and enabled, in
the state in which that step judged it. -/
def LetIn (cfg : DeskConfig) (d : Desk) (i : Nat) (r : DeskRequest) : Prop :=
  ∃ d₀ input d₁, (desk cfg).Reach d₀ ∧ d₀.requests[i]? = some { r with phase := .received } ∧
    Desk.step cfg d₀ (.advance i input) = some d₁ ∧
    d₁.requests[i]? = some { r with phase := .authorised } ∧ (desk cfg).Leads d₁ d ∧
    enabledAdmin d₀.dashboard.accounts r.adminId = true

theorem LetIn.step {d d' : Desk} {l : DeskAction} {i : Nat} {r : DeskRequest}
    (h : LetIn cfg d i r) (hstep : Desk.step cfg d l = some d') : LetIn cfg d' i r := by
  obtain ⟨d₀, input, d₁, hreach, hreceived, hjudged, hauthorised, hleads, hadmin⟩ := h
  exact ⟨d₀, input, d₁, hreach, hreceived, hjudged, hauthorised, hleads.tail ⟨l, hstep⟩, hadmin⟩

/-- Every authorised request was let in. -/
def Authorised (cfg : DeskConfig) (d : Desk) : Prop :=
  ∀ i r, d.requests[i]? = some r → r.phase = .authorised → LetIn cfg d i r

theorem authorised_of_step {d d' : Desk} {l : DeskAction} (hd : (desk cfg).Reach d)
    (hauthorised : Authorised cfg d) (hstep : Desk.step cfg d l = some d') :
    Authorised cfg d' := by
  have hkept : ∀ i r, d.requests[i]? = some r → r.phase = .authorised → LetIn cfg d' i r :=
    fun i r hr hphase => (hauthorised i r hr hphase).step hstep
  cases l with
  | account l =>
    obtain ⟨w, -, rfl⟩ := Option.map_eq_some_iff.mp hstep
    exact hkept
  | own userId call input =>
    obtain rfl := Option.some.inj hstep
    exact hkept
  | request adminId targetUserId call =>
    obtain rfl := Option.some.inj hstep
    intro i r hr hphase
    rw [List.getElem?_append] at hr
    split at hr
    · exact hkept i r hr hphase
    · obtain rfl := List.mem_singleton.mp (List.mem_of_getElem? hr)
      cases hphase
  | advance i input =>
    obtain ⟨r, hr, hd'⟩ := Option.map_eq_some_iff.mp hstep
    have hrequests : d'.requests =
        d.requests.set i { r with phase := (deskStep cfg.ports r input d.directory).1 } := by
      rw [← hd']
    intro j r' hr' hphase
    rw [hrequests, List.getElem?_set] at hr'
    split at hr'
    · next hj =>
      subst hj
      split at hr'
      · -- a request that is authorised now was received, and its administrator is one
        obtain rfl := Option.some.inj hr'
        simp only [deskStep] at hphase
        cases hwas : r.phase with
        | received =>
          rw [hwas] at hphase
          refine ⟨d, input, d', hd, ?_, hstep, ?_, .refl, (authorise_spec _ _ _).2 hphase⟩
          · rw [hr, ← hwas]
          · rw [hrequests, List.getElem?_set_self (List.getElem?_eq_some_iff.mp hr).1, deskStep,
              hwas]
            simp only [hphase]
        | authorised =>
          rw [hwas] at hphase
          cases hphase
        | ended =>
          rw [hwas] at hphase
          cases hphase
      · cases hr'
    · exact hkept j r' hr' hphase

theorem authorised_of_reach {d : Desk} (h : (desk cfg).Reach d) : Authorised cfg d := by
  refine System.inv_of_reach_and (I := Authorised cfg) ?_ ?_ h
  · rintro d ⟨-, hrequests, -⟩ i r hr
    rw [hrequests] at hr
    cases hr
  · intro d l d' hd hauthorised hstep
    exact authorised_of_step hd hauthorised hstep

/-- Who may change the subscriptions of a user in a step: the user whose request it is, and the
administrator whose request it is and which was let in. -/
inductive MayChange (cfg : DeskConfig) (d : Desk) : DeskAction → Nat → Nat → Prop
  | own (userId : Nat) (call : DeskCall) (input : DeskInput) :
    MayChange cfg d (.own userId call input) userId userId
  | admin {i : Nat} {input : DeskInput} {r : DeskRequest} (request : d.requests[i]? = some r)
      (authorised : r.phase = .authorised) (letIn : LetIn cfg d i r) :
    MayChange cfg d (.advance i input) r.adminId r.targetUserId

/-- **What a step does.** -/
theorem deskEffect_of_step {d d' : Desk} {l : DeskAction} (hd : (desk cfg).Reach d)
    (hstep : Desk.step cfg d l = some d') :
    DeskEffect (MayChange cfg d l) d.directory d'.directory := by
  cases l with
  | account l =>
    obtain ⟨w, hw, rfl⟩ := Option.map_eq_some_iff.mp hstep
    exact .kept rfl (quiet_of_step hw) (remain_of_step hw)
  | own userId call input =>
    obtain rfl := Option.some.inj hstep
    exact .commit (fun _ _ h => deskEffect_ownCall (.own userId call input) h) input.fate
  | request adminId targetUserId call =>
    obtain rfl := Option.some.inj hstep
    exact .same
  | advance i input =>
    obtain ⟨r, hr, rfl⟩ := Option.map_eq_some_iff.mp hstep
    change DeskEffect _ d.directory (deskStep cfg.ports r input d.directory).2
    rw [deskStep]
    cases hphase : r.phase with
    | received =>
      simp only [(authorise_spec r.adminId input.fate d.directory).1]
      exact .same
    | authorised =>
      have hmay : MayChange cfg d (.advance i input) r.adminId r.targetUserId :=
        .admin hr hphase (authorised_of_reach hd i r hr hphase)
      exact .commit (fun _ _ h => deskEffect_adminCall hmay h) input.fate
    | ended => exact .same

/-! ## The diary of a subscription -/

/-- There is a subscription to the topic. -/
def Subscribed (d : Desk) (k : Topic) : Prop :=
  ∃ i s, d.subscriptions.table.get? i = some s ∧ topic s = k

/-- What the audit log says of the topic. -/
def diary (d : Desk) (k : Topic) : List AuditAction :=
  ((d.dashboard.accounts.auditLog.rows.map Prod.snd).filter (tellsOf k)).map AuditEvent.action

/-- Two rows of an index under one key are one row. -/
theorem id_of_indexEntries {ρ κ : Type} {key : ρ → Option κ} {t : Serial ρ} {i j : Nat} {r r' : ρ}
    {k : κ} (hn : (indexEntries key t).Nodup) (hi : t.get? i = some r) (hj : t.get? j = some r')
    (hk : key r = some k) (hk' : key r' = some k) : i = j := by
  have hpairs := List.pairwise_filterMap.mp hn
  have : Std.Symm fun a b : Nat × ρ =>
      ∀ x, key a.2 = some x → ∀ y, key b.2 = some y → x ≠ y :=
    ⟨fun _ _ h x hx y hy e => h y hy x hx e.symm⟩
  by_contra hne
  exact hpairs.forall (Serial.mem_iff_get?.mpr hi) (Serial.mem_iff_get?.mpr hj)
    (fun e => hne (congrArg Prod.fst e)) k hk k hk' rfl

/-- **A user has one subscription to a topic.** -/
theorem id_of_topic {t : Subscriptions} {i j : Nat} {s s' : Subscription}
    (hi : t.table.get? i = some s) (hj : t.table.get? j = some s') (h : topic s = topic s') :
    i = j := by
  simp only [topic, Topic.mk.injEq] at h
  obtain ⟨huser, hg, ht⟩ := h
  cases htarget : s.targetValue with
  | none =>
    have hglobal := (targetValue_eq_none_iff s).mp htarget
    refine id_of_indexEntries (k := s.userId) t.uniqueGlobal hi hj ?_ ?_
    · simp [Subscription.globalKey, hglobal]
    · simp [Subscription.globalKey, ← hg, hglobal, huser]
  | some target =>
    refine id_of_indexEntries (k := (s.userId, s.granularity, target)) t.uniqueNonglobal hi hj ?_ ?_
    · simp [Subscription.nonglobalKey, htarget]
    · simp [Subscription.nonglobalKey, ← ht, htarget, huser, hg]

/-- What is known of a topic: its diary alternates from `SUBSCRIBE` on, and ends with it exactly
while there is a subscription. -/
structure Diary (d : Desk) (k : Topic) : Prop where
  alternates : (diary d k).IsChain (· ≠ ·)
  first : ∀ a ∈ (diary d k).head?, a = .subscribe
  last : (diary d k).getLast? = some .subscribe ↔ Subscribed d k

theorem diary_append {d d' : Desk} {events : List AuditEvent}
    (h : d'.dashboard.accounts.auditLog = d.dashboard.accounts.auditLog.insertAll events)
    (k : Topic) : diary d' k = diary d k ++ (events.filter (tellsOf k)).map AuditEvent.action := by
  have hrows : (d.dashboard.accounts.auditLog.insertAll events).rows.map Prod.snd =
      d.dashboard.accounts.auditLog.rows.map Prod.snd ++ events := by
    rw [Serial.rows_insertAll, List.map_append, List.map_map]
    congr 1
    exact List.zipIdx_map_fst _ _
  rw [diary, h, hrows, List.filter_append, List.map_append]
  rfl

theorem diary_of_quiet {d d' : Desk} (h : Quiet d.dashboard.accounts d'.dashboard.accounts)
    (k : Topic) : diary d' k = diary d k := by
  obtain ⟨events, hlog, hevents⟩ := h
  have hnone : events.filter (tellsOf k) = [] := by
    refine List.filter_eq_nil_iff.mpr fun e he hreports => ?_
    simp [tellsOf, hevents e he] at hreports
  rw [diary_append hlog, hnone, List.map_nil, List.append_nil]

theorem diary_of_tells (d d' : Desk) {e : AuditEvent} {action : AuditAction} {author : Nat}
    {k₀ : Topic} (hlog : d'.dashboard.accounts =
      { d.dashboard.accounts with auditLog := d.dashboard.accounts.auditLog.insert e })
    (hreports : Reports e action author k₀) (k : Topic) :
    diary d' k = if k = k₀ then diary d k ++ [action] else diary d k := by
  have hall : d'.dashboard.accounts.auditLog = d.dashboard.accounts.auditLog.insertAll [e] := by
    rw [hlog]
    rfl
  rw [diary_append hall]
  by_cases hk : k = k₀
  · rw [if_pos hk, List.filter_cons_of_pos ((hreports.about k).mpr hk), List.filter_nil,
      List.map_singleton, hreports.is]
  · rw [if_neg hk, List.filter_cons_of_neg fun h => hk ((hreports.about k).mp h), List.filter_nil,
      List.map_nil, List.append_nil]

/-- What a step does to the subscriptions to a topic. -/
theorem not_subscribed_of_opened {d d' : Desk} {s : Subscription} {e : AuditEvent}
    (h : Opened d.directory d'.directory s e) : ¬Subscribed d (topic s) := by
  rintro ⟨i, s', hs', htopic⟩
  have hnew : d'.subscriptions.table.get? d.subscriptions.table.next = some s := by
    rw [show d'.subscriptions.table = d.subscriptions.table.insert s from h.table,
      Serial.get?_insert, if_pos rfl]
  have hold : d'.subscriptions.table.get? i = some s' := by
    rw [show d'.subscriptions.table = d.subscriptions.table.insert s from h.table,
      Serial.get?_insert, if_neg (Nat.ne_of_lt (Serial.lt_next_of_get? hs'))]
    exact hs'
  exact absurd (id_of_topic hold hnew htopic) (Nat.ne_of_lt (Serial.lt_next_of_get? hs'))

theorem subscribed_of_opened {d d' : Desk} {s : Subscription} {e : AuditEvent}
    (h : Opened d.directory d'.directory s e) (k : Topic) :
    Subscribed d' k ↔ k = topic s ∨ Subscribed d k := by
  simp only [Subscribed, show d'.subscriptions.table = d.subscriptions.table.insert s from h.table,
    Serial.get?_insert]
  constructor
  · rintro ⟨i, s', hs', rfl⟩
    split at hs'
    · obtain rfl := Option.some.inj hs'
      exact .inl rfl
    · exact .inr ⟨i, s', hs', rfl⟩
  · rintro (rfl | ⟨i, s', hs', rfl⟩)
    · exact ⟨_, s, if_pos rfl, rfl⟩
    · exact ⟨i, s', by rw [if_neg (Nat.ne_of_lt (Serial.lt_next_of_get? hs'))]; exact hs', rfl⟩

theorem subscribed_of_closed {d d' : Desk} {subscriptionId : Nat} {s : Subscription}
    {e : AuditEvent} (h : Closed d.directory d'.directory subscriptionId s e) (k : Topic) :
    Subscribed d' k ↔ k ≠ topic s ∧ Subscribed d k := by
  have hsub : d'.subscriptions = d.subscriptions.delete subscriptionId := h.subscriptions
  simp only [Subscribed, hsub, Subscriptions.get?_delete, Option.ite_none_left_eq_some]
  constructor
  · rintro ⟨i, s', ⟨hi, hs'⟩, rfl⟩
    exact ⟨fun htopic => hi (id_of_topic hs' h.was htopic), i, s', hs', rfl⟩
  · rintro ⟨hk, i, s', hs', rfl⟩
    refine ⟨i, s', ⟨fun hi => hk ?_, hs'⟩, rfl⟩
    subst hi
    rw [Option.some.inj (hs'.symm.trans h.was)]

/-- The diary of a topic to which nothing has happened. -/
theorem Diary.unchanged {d d' : Desk} {k : Topic} (hd : Diary d k) (hdiary : diary d' k = diary d k)
    (hsub : Subscribed d' k ↔ Subscribed d k) : Diary d' k :=
  ⟨hdiary ▸ hd.alternates, hdiary ▸ hd.first, by rw [hdiary, hsub]; exact hd.last⟩

/-- The diary of a topic is continued by what has not been its last entry. -/
theorem Diary.continued {d d' : Desk} {k : Topic} {a : AuditAction} (hd : Diary d k)
    (hdiary : diary d' k = diary d k ++ [a]) (hne : ∀ b ∈ (diary d k).getLast?, b ≠ a)
    (hfirst : diary d k = [] → a = .subscribe) (hsub : Subscribed d' k ↔ a = .subscribe) :
    Diary d' k := by
  refine ⟨?_, ?_, ?_⟩
  · rw [hdiary, List.isChain_append]
    refine ⟨hd.alternates, List.isChain_singleton _, fun b hb c hc => ?_⟩
    obtain rfl : a = c := by simpa using hc
    exact hne b hb
  · rw [hdiary]
    cases hcase : diary d k with
    | nil => simp [hfirst hcase]
    | cons b bs =>
      intro c hc
      exact hd.first c (by rw [hcase]; exact hc)
  · rw [hdiary, List.getLast?_concat, Option.some.injEq, hsub]

theorem diary_of_effect {d d' : Desk} {k : Topic} (hd : Diary d k)
    (h : DeskEffect May d.directory d'.directory) : Diary d' k := by
  cases h with
  | kept subscriptions log users =>
    refine hd.unchanged (diary_of_quiet log k) ?_
    rw [Subscribed, Subscribed, show d'.subscriptions = d.subscriptions from subscriptions]
  | @opened s e author does tells may =>
    have hdiary := diary_of_tells d d' does.accounts tells k
    have hsub := subscribed_of_opened does k
    by_cases hk : k = topic s
    · have hnone : ¬Subscribed d k := hk ▸ not_subscribed_of_opened does
      refine hd.continued (hdiary.trans (if_pos hk)) ?_ (fun _ => rfl) (by rw [hsub]; simp [hk])
      rintro b hb rfl
      exact hnone (hd.last.mp hb)
    · exact hd.unchanged (hdiary.trans (if_neg hk)) (by simp [hsub, hk])
  | @closed subscriptionId s e author does tells may =>
    have hdiary := diary_of_tells d d' does.accounts tells k
    have hsub := subscribed_of_closed does k
    by_cases hk : k = topic s
    · have hlast := hd.last.mpr ⟨subscriptionId, s, does.was, hk.symm⟩
      refine hd.continued (hdiary.trans (if_pos hk)) ?_ ?_ (by rw [hsub]; simp [hk])
      · intro b hb
        rw [hlast] at hb
        obtain rfl := Option.some.inj hb
        decide
      · intro hnil
        rw [hnil] at hlast
        cases hlast
    · exact hd.unchanged (hdiary.trans (if_neg hk)) (by simp [hsub, hk])

theorem diary_of_unsubscribed {d : Desk} (h : Unsubscribed d) (k : Topic) : Diary d k := by
  obtain ⟨hempty, -, hquiet⟩ := h
  have hnil : diary d k = [] := by
    rw [diary, List.map_eq_nil_iff, List.filter_eq_nil_iff]
    rintro e he hreports
    obtain ⟨r, hr, rfl⟩ := List.mem_map.mp he
    simp [tellsOf, hquiet r hr] at hreports
  refine ⟨?_, ?_, ?_⟩
  · rw [hnil]
    exact .nil
  · simp [hnil]
  · rw [hnil, Subscribed, hempty]
    simp [Subscriptions.empty, Serial.empty, Serial.get?]

theorem diary_of_reach {d : Desk} (h : (desk cfg).Reach d) (k : Topic) : Diary d k := by
  refine System.inv_of_reach_and (I := fun d => Diary d k) ?_ ?_ h
  · intro d hd
    exact diary_of_unsubscribed hd k
  · intro d l d' hd hdiary hstep
    exact diary_of_effect hdiary (deskEffect_of_step hd hstep)

/-- Every subscription is one of a user who exists. -/
def Peopled (d : Desk) : Prop :=
  ∀ i s, d.subscriptions.table.get? i = some s →
    (d.dashboard.accounts.users.get? s.userId).isSome = true

theorem peopled_of_effect {d d' : Desk} (hd : Peopled d)
    (h : DeskEffect May d.directory d'.directory) : Peopled d' := by
  intro i s hs
  cases h with
  | kept subscriptions log users =>
    rw [show d'.subscriptions = d.subscriptions from subscriptions] at hs
    exact users s.userId (hd i s hs)
  | @opened sub e author does tells may =>
    have husers : d'.directory.accounts.users = d.directory.accounts.users := by rw [does.accounts]
    change (d'.directory.accounts.users.get? s.userId).isSome = true
    rw [husers]
    rw [show d'.subscriptions.table = d.subscriptions.table.insert sub from does.table,
      Serial.get?_insert] at hs
    split at hs
    · obtain rfl := Option.some.inj hs
      exact does.subscriber
    · exact hd i s hs
  | @closed subscriptionId sub e author does tells may =>
    have husers : d'.directory.accounts.users = d.directory.accounts.users := by rw [does.accounts]
    change (d'.directory.accounts.users.get? s.userId).isSome = true
    rw [husers]
    rw [show d'.subscriptions = d.subscriptions.delete subscriptionId from does.subscriptions,
      Subscriptions.get?_delete, Option.ite_none_left_eq_some] at hs
    exact hd i s hs.2

theorem peopled_of_reach {d : Desk} (h : (desk cfg).Reach d) : Peopled d := by
  refine System.inv_of_reach_and (I := Peopled) ?_ ?_ h
  · rintro d ⟨hempty, -⟩ i s hs
    rw [hempty] at hs
    cases hs
  · intro d l d' hd hpeopled hstep
    exact peopled_of_effect hpeopled (deskEffect_of_step hd hstep)

/-- **The audit log is a diary of the subscriptions.** In every state the desk reaches, whatever the
interleaving, the `SUBSCRIBE` and `UNSUBSCRIBE` rows about a user and a target alternate, the first
is a `SUBSCRIBE`, and the last is one exactly while the user has the subscription. No user has a
subscription twice, and none is left without its user. -/
theorem subscription_diary (cfg : DeskConfig) (d : Desk) (h : (desk cfg).Reach d) :
    (∀ k, Diary d k) ∧ Peopled d ∧
      ∀ i j s s', d.subscriptions.table.get? i = some s → d.subscriptions.table.get? j = some s' →
        topic s = topic s' → i = j :=
  ⟨diary_of_reach h, peopled_of_reach h, fun _ _ _ _ hi hj hk => id_of_topic hi hj hk⟩

/-- The two administrators at the desk, with one pipeline. -/
def sampleDesk : DeskConfig := ⟨sampleDashboard, samplePorts⟩

/-- A step at which everything goes well. -/
def sampleDeskInput : DeskInput := ⟨seconds 1, seconds 2, .commits⟩

/-- User 2 subscribes, and administrator 1 ends it. -/
def subscribedAndEnded : List DeskAction :=
  [.own 2 (.create .pipeline (some "daily")) sampleDeskInput, .request 1 2 (.delete 1),
    .advance 0 sampleDeskInput, .advance 0 sampleDeskInput]

theorem subscription_diary_sample : ∃ d, (desk sampleDesk).Reach d ∧
    diary d ⟨2, .pipeline, some "daily"⟩ = [.subscribe, .unsubscribe] ∧
    Diary d ⟨2, .pipeline, some "daily"⟩ := by
  have hinit : (desk sampleDesk).Reach { dashboard := twoAdmins } := .init ⟨rfl, rfl, nofun⟩
  obtain ⟨d, hd, hs⟩ := System.exists_reach_of_run subscribedAndEnded hinit
    (p := fun d => diary d ⟨2, .pipeline, some "daily"⟩ = [.subscribe, .unsubscribe])
    (by decide +kernel)
  exact ⟨d, hd, of_decide_eq_true hs, (subscription_diary sampleDesk d hd).1 _⟩

/-- **Who changes a subscription.** In every run, a step that changes the subscriptions adds or
removes one, and records one row that tells of it and names its author: the user whose own request
the step is, or the administrator whose request it is, who was one, and enabled, in the state in
which that request was let in. A step that changes none records no such row. -/
theorem subscription_changes (cfg : DeskConfig) :
    (desk cfg).Always fun d l d' => DeskEffect (MayChange cfg d l) d.directory d'.directory :=
  fun _ _ _ hd hstep => deskEffect_of_step hd hstep

/-- User 2 subscribes, a request of administrator 1 to end that is let in, and administrator 2 takes
administrator 1 their role. -/
def demotedMeanwhile : List DeskAction :=
  [.own 2 (.create .pipeline (some "daily")) sampleDeskInput, .request 1 2 (.delete 1),
    .advance 0 sampleDeskInput, .account (.request 2 (.update 1 { isAdmin := some false })),
    .account (.advance 0 ⟨seconds 3, "", .commits⟩), .account (.advance 0 ⟨seconds 4, "", .commits⟩)]

/-- The request that was let in before still ends the subscription. -/
theorem subscription_changes_sample : ∃ d d', (desk sampleDesk).Reach d ∧
    enabledAdmin d.dashboard.accounts 1 = false ∧ d.subscriptions.table.rows.length = 1 ∧
    Desk.step sampleDesk d (.advance 0 sampleDeskInput) = some d' ∧
    d'.subscriptions.table.rows.length = 0 ∧
    DeskEffect (MayChange sampleDesk d (.advance 0 sampleDeskInput)) d.directory d'.directory := by
  have hinit : (desk sampleDesk).Reach { dashboard := twoAdmins } := .init ⟨rfl, rfl, nofun⟩
  obtain ⟨d, hd, hs⟩ := System.exists_reach_of_run demotedMeanwhile hinit
    (p := fun d => !enabledAdmin d.dashboard.accounts 1 && d.subscriptions.table.rows.length = 1 &&
      (Desk.step sampleDesk d (.advance 0 sampleDeskInput)).any fun d' =>
        d'.subscriptions.table.rows.length = 0)
    (by decide +kernel)
  simp only [Bool.and_eq_true, Bool.not_eq_true', decide_eq_true_eq] at hs
  obtain ⟨⟨hdemoted, hone⟩, hends⟩ := hs
  obtain ⟨d', hd', hnone⟩ := (Option.any_eq_true _ _).mp hends
  exact ⟨d, d', hd, hdemoted, hone, hd', of_decide_eq_true hnone,
    subscription_changes sampleDesk d _ d' hd hd'⟩

end MessageService.System
