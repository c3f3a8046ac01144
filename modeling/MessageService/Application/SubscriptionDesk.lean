import MessageService.Application.Recipients

/-!
# The subscription desk

Model of `application/use_cases/subscribe.py`, `unsubscribe.py` and `admin_subscriptions.py`, with
`get_by_id` and `list_for_user` of the repository, and of the routes that call them
(`interfaces/rest/routes/subscriptions.py`, and those on subscriptions of `admin_users.py`) with the
status each exception is answered with. A use case reads the clock twice, once for the row and once
for its audit event.

* `subscribe_ok`, `unsubscribe_ok`, `adminSubscribe_ok`, `adminUnsubscribe_ok`: what a successful call
  does, as an `Opened` or `Closed` subscription.
* `adminDelete_confined`: the administrator's path tells nothing about other users' subscriptions.
* `subscribe_unsubscribe`: to subscribe and to unsubscribe again leaves the recipients of every run
  as they were.
-/

namespace MessageService.Application

open MessageService.Domain MessageService.Lib MessageService.Infrastructure
open MessageService.Infrastructure.SqliteSubscriptionRepository

/-! ## The use cases -/

/-- What a use case of the desk raises. -/
inductive SubscriptionError where
  | service (e : ServiceError)
  /-- `SubscriptionNotFoundError`. -/
  | notFound (message : String) (details : Dict Json)
  /-- `SubscriptionForbiddenError`. -/
  | forbidden (message : String) (details : Dict Json)

/-- A transaction of the desk. -/
abbrev DeskTx := Tx Directory SubscriptionError

/-- A call that raises a `ServiceError`. -/
def raising {α : Type} (x : DirectoryTx α) : DeskTx α := fun d => (x d).mapError .service

theorem ok_raising {α : Type} {x : DirectoryTx α} {a : α} {d d' : Directory} :
    raising x d = .ok (a, d') ↔ x d = .ok (a, d') := by
  unfold raising
  cases x d <;> simp [Except.mapError]

theorem ok_onAccounts_record {event : AuditEvent} {r : Unit} {d d' : Directory} :
    onAccounts (recordEvent event) d = .ok (r, d') ↔ { d with accounts := { d.accounts with
      auditLog := d.accounts.auditLog.insert event } } = d' := by
  simp [onAccounts, recordEvent, Tx.write]

/-- The registries that a target is checked against. -/
structure SubscriptionPorts where
  registeredPipelines : SortedSet String
  tagVocabulary : String → Bool

/-- The check of the target, before any unit of work. -/
def checkTarget (ports : SubscriptionPorts) (granularity : SubscriptionGranularity)
    (targetValue : Option String) : Except ServiceError Unit :=
  match granularity, targetValue with
  | .pipeline, target =>
    if target.any (· ∈ ports.registeredPipelines) then .ok ()
    else .error {
      errorClass := .unknownPipelineTypeError
      message := "unknown pipeline_type " ++ (target.map pyRepr).getD "None"
      details := [("target_value", targetJson target),
        ("registered_pipelines", .arr (ports.registeredPipelines.elems.map .str))] }
  | .tag, some target =>
    if ports.tagVocabulary target then .ok ()
    else .error {
      errorClass := .unknownTagError
      message := "unknown tag " ++ pyRepr target
      details := [("target_value", .str target)] }
  | .tag, none => .ok ()
  | .global, _ => .ok ()

/-- The resource of a subscription. -/
def subscriptionResource (subscriptionId : Nat) : String :=
  "subscription:" ++ toString subscriptionId

/-- The details that say which subscription it is. -/
def targetDetails (granularity : SubscriptionGranularity) (targetValue : Option String) :
    Dict Json :=
  [("granularity", .str granularity.value), ("target_value", targetJson targetValue)]

/-- The audit event of a user's own change. -/
def ownEvent (action : AuditAction) (userId subscriptionId : Nat)
    (granularity : SubscriptionGranularity) (targetValue : Option String) (now : Instant) :
    AuditEvent where
  timestamp := now
  action := action
  actor := userResource userId
  resource := subscriptionResource subscriptionId
  outcome := .success
  details := targetDetails granularity targetValue

/-- `SubscribeUseCase.execute`. -/
def subscribe (ports : SubscriptionPorts) (userId : Nat) (granularity : SubscriptionGranularity)
    (targetValue : Option String) (created audited : Instant) : DeskTx Nat := do
  raising (Tx.attempt fun _ => checkTarget ports granularity targetValue)
  let saved ← raising (add userId granularity targetValue created)
  raising (onAccounts (recordEvent
    (ownEvent .subscribe userId saved granularity targetValue audited)))
  pure saved

/-- `SubscriptionNotFoundError` of `unsubscribe.py`. -/
def noSubscription (subscriptionId : Nat) : SubscriptionError :=
  .notFound ("subscription " ++ toString subscriptionId ++ " does not exist")
    [("subscription_id", .int subscriptionId)]

/-- `SubscriptionForbiddenError`. -/
def foreignSubscription (subscriptionId : Nat) : SubscriptionError :=
  .forbidden ("subscription " ++ toString subscriptionId ++ " belongs to another user")
    [("subscription_id", .int subscriptionId)]

/-- The subscription, if it is one of the user. -/
def findOwned (subscriptionId userId : Nat) (d : Directory) :
    Except SubscriptionError Subscription :=
  match getById subscriptionId d with
  | none => .error (noSubscription subscriptionId)
  | some s => if s.userId = userId then .ok s else .error (foreignSubscription subscriptionId)

/-- `UnsubscribeUseCase.execute`. -/
def unsubscribe (subscriptionId userId : Nat) (now : Instant) : DeskTx Unit := do
  let existing ← Tx.attempt fun d => findOwned subscriptionId userId d
  raising (onAccounts (recordEvent (ownEvent .unsubscribe userId subscriptionId
    existing.granularity existing.targetValue now)))
  raising (remove subscriptionId)

/-- `UserNotFoundError` of `admin_subscriptions.py`. -/
def noTargetUser (targetUserId : Nat) : ServiceError where
  errorClass := .userNotFoundError
  message := "user " ++ toString targetUserId ++ " does not exist"
  details := [("target_user_id", .int targetUserId)]

/-- The audit event of an administrator's change; `extra` stands between the user and the target. -/
def adminEvent (action : AuditAction) (adminId targetUserId : Nat) (extra : Dict Json)
    (granularity : SubscriptionGranularity) (targetValue : Option String) (now : Instant) :
    AuditEvent where
  timestamp := now
  action := action
  actor := userResource adminId
  resource := userResource targetUserId
  outcome := .success
  details := ("target_user_id", .int targetUserId) :: extra ++ targetDetails granularity targetValue

/-- `AdminSubscribeUseCase.execute`. -/
def adminSubscribe (ports : SubscriptionPorts) (adminId targetUserId : Nat)
    (granularity : SubscriptionGranularity) (targetValue : Option String)
    (created audited : Instant) : DeskTx Nat := do
  raising (Tx.attempt fun _ => checkTarget ports granularity targetValue)
  let target ← Tx.read fun d => d.accounts.users.get? targetUserId
  Tx.require (target.isSome = true) (.service (noTargetUser targetUserId))
  let saved ← raising (add targetUserId granularity targetValue created)
  raising (onAccounts (recordEvent
    (adminEvent .subscribe adminId targetUserId [] granularity targetValue audited)))
  pure saved

/-- `SubscriptionNotFoundError` of `admin_subscriptions.py`. -/
def notOwned (subscriptionId targetUserId : Nat) : SubscriptionError :=
  .notFound ("subscription " ++ toString subscriptionId ++ " is not owned by user " ++
    toString targetUserId)
    [("subscription_id", .int subscriptionId), ("target_user_id", .int targetUserId)]

/-- The subscription of the target; one of another user counts as missing. -/
def findOfTarget (subscriptionId targetUserId : Nat) (d : Directory) :
    Except SubscriptionError Subscription :=
  match (getById subscriptionId d).filter fun s => s.userId = targetUserId with
  | none => .error (notOwned subscriptionId targetUserId)
  | some s => .ok s

/-- `AdminUnsubscribeUseCase.execute`. -/
def adminUnsubscribe (adminId targetUserId subscriptionId : Nat) (now : Instant) :
    DeskTx Unit := do
  let existing ← Tx.attempt fun d => findOfTarget subscriptionId targetUserId d
  raising (onAccounts (recordEvent (adminEvent .unsubscribe adminId targetUserId
    [("subscription_id", .int subscriptionId)] existing.granularity existing.targetValue now)))
  raising (remove subscriptionId)

/-! ## What a successful call does -/

/-- A subscription has been added, and an event recorded. -/
structure Opened (d d' : Directory) (s : Subscription) (event : AuditEvent) : Prop where
  table : d'.subscriptions.table = d.subscriptions.table.insert s
  accounts : d'.accounts = { d.accounts with auditLog := d.accounts.auditLog.insert event }
  subscriber : (d.accounts.users.get? s.userId).isSome = true

/-- A subscription has been removed, and an event recorded. -/
structure Closed (d d' : Directory) (subscriptionId : Nat) (s : Subscription)
    (event : AuditEvent) : Prop where
  was : d.subscriptions.table.get? subscriptionId = some s
  subscriptions : d'.subscriptions = d.subscriptions.delete subscriptionId
  accounts : d'.accounts = { d.accounts with auditLog := d.accounts.auditLog.insert event }

variable {ports : SubscriptionPorts} {d d' : Directory} {g : SubscriptionGranularity}
  {target : Option String} {created audited now : Instant}
  {userId adminId targetUserId subscriptionId r : Nat}

theorem subscribe_ok (h : subscribe ports userId g target created audited d = .ok (r, d')) :
    checkTarget ports g target = .ok () ∧ ∃ s : Subscription, s.userId = userId ∧
      s.granularity = g ∧ s.targetValue = target ∧
      Opened d d' s (ownEvent .subscribe userId r g target audited) := by
  simp only [subscribe, Tx.ok_bind, Tx.ok_pure, Tx.ok_attempt, ok_raising,
    ok_onAccounts_record] at h
  obtain ⟨_, _, ⟨hcheck, rfl⟩, saved, b, hadd, _, _, rfl, rfl, rfl⟩ := h
  obtain ⟨s, huser, hg, ht, hsome, haccounts, htable⟩ := add_ok hadd
  refine ⟨hcheck, s, huser, hg, ht, ⟨htable, ?_, huser ▸ hsome⟩⟩
  simp only [haccounts]

theorem adminSubscribe_ok
    (h : adminSubscribe ports adminId targetUserId g target created audited d = .ok (r, d')) :
    checkTarget ports g target = .ok () ∧ ∃ s : Subscription, s.userId = targetUserId ∧
      s.granularity = g ∧ s.targetValue = target ∧
      Opened d d' s (adminEvent .subscribe adminId targetUserId [] g target audited) := by
  simp only [adminSubscribe, Tx.ok_bind, Tx.ok_pure, Tx.ok_attempt, Tx.ok_read, Tx.ok_require,
    ok_raising, ok_onAccounts_record] at h
  obtain ⟨_, _, ⟨hcheck, rfl⟩, _, _, ⟨-, rfl⟩, _, _, ⟨-, rfl⟩, saved, b, hadd, _, _, rfl, rfl,
    rfl⟩ := h
  obtain ⟨s, huser, hg, ht, hsome, haccounts, htable⟩ := add_ok hadd
  refine ⟨hcheck, s, huser, hg, ht, ⟨htable, ?_, huser ▸ hsome⟩⟩
  simp only [haccounts]

theorem findOwned_ok {s : Subscription} : findOwned subscriptionId userId d = .ok s ↔
    d.subscriptions.table.get? subscriptionId = some s ∧ s.userId = userId := by
  unfold findOwned getById
  cases d.subscriptions.table.get? subscriptionId with
  | none => simp
  | some s' =>
    by_cases hs : s'.userId = userId
    · simp only [hs, if_true, Except.ok.injEq, Option.some.injEq]
      exact ⟨fun h => ⟨h, h ▸ hs⟩, And.left⟩
    · simp only [hs, if_false, Option.some.injEq, reduceCtorEq, false_iff]
      rintro ⟨rfl, h⟩
      exact hs h

theorem findOfTarget_ok {s : Subscription} : findOfTarget subscriptionId targetUserId d = .ok s ↔
    d.subscriptions.table.get? subscriptionId = some s ∧ s.userId = targetUserId := by
  have hfilter : ((d.subscriptions.table.get? subscriptionId).filter
      fun s => s.userId = targetUserId) = some s ↔
        d.subscriptions.table.get? subscriptionId = some s ∧ s.userId = targetUserId := by
    rw [Option.filter_eq_some_iff, decide_eq_true_iff]
  rw [← hfilter]
  unfold findOfTarget getById
  cases (d.subscriptions.table.get? subscriptionId).filter fun s => s.userId = targetUserId <;>
    simp

theorem unsubscribe_ok {r : Unit} (h : unsubscribe subscriptionId userId now d = .ok (r, d')) :
    ∃ s : Subscription, s.userId = userId ∧ Closed d d' subscriptionId s
      (ownEvent .unsubscribe userId subscriptionId s.granularity s.targetValue now) := by
  simp only [unsubscribe, remove, Tx.ok_bind, Tx.ok_attempt, Tx.ok_write, ok_raising,
    ok_onAccounts_record, findOwned_ok] at h
  obtain ⟨s, _, ⟨⟨hs, huser⟩, rfl⟩, _, _, rfl, rfl⟩ := h
  exact ⟨s, huser, ⟨hs, rfl, rfl⟩⟩

theorem adminUnsubscribe_ok {r : Unit}
    (h : adminUnsubscribe adminId targetUserId subscriptionId now d = .ok (r, d')) :
    ∃ s : Subscription, s.userId = targetUserId ∧ Closed d d' subscriptionId s
      (adminEvent .unsubscribe adminId targetUserId [("subscription_id", .int subscriptionId)]
        s.granularity s.targetValue now) := by
  simp only [adminUnsubscribe, remove, Tx.ok_bind, Tx.ok_attempt, Tx.ok_write, ok_raising,
    ok_onAccounts_record, findOfTarget_ok] at h
  obtain ⟨s, _, ⟨⟨hs, huser⟩, rfl⟩, _, _, rfl, rfl⟩ := h
  exact ⟨s, huser, ⟨hs, rfl, rfl⟩⟩

/-! ## What is confined to a user -/

/-- The rows of the user are the same in both. -/
def SameFor (userId : Nat) (d₁ d₂ : Directory) : Prop :=
  ∀ subscriptionId, (getById subscriptionId d₁).filter (fun s => s.userId = userId) =
    (getById subscriptionId d₂).filter fun s => s.userId = userId

theorem findOfTarget_congr {d₁ d₂ : Directory} (h : SameFor targetUserId d₁ d₂) :
    findOfTarget subscriptionId targetUserId d₁ = findOfTarget subscriptionId targetUserId d₂ := by
  rw [findOfTarget, findOfTarget, h]

/-- The directory after an administrator's delete of a subscription. -/
def closedBy (adminId targetUserId subscriptionId : Nat) (now : Instant) (s : Subscription)
    (d : Directory) : Directory where
  accounts := { d.accounts with
    auditLog := d.accounts.auditLog.insert (adminEvent .unsubscribe adminId targetUserId
      [("subscription_id", .int subscriptionId)] s.granularity s.targetValue now) }
  subscriptions := d.subscriptions.delete subscriptionId

/-- What the administrator is answered hangs on `findOfTarget` alone. -/
theorem adminUnsubscribe_eq (adminId targetUserId subscriptionId : Nat) (now : Instant)
    (d : Directory) : adminUnsubscribe adminId targetUserId subscriptionId now d =
      (findOfTarget subscriptionId targetUserId d).map fun s =>
        ((), closedBy adminId targetUserId subscriptionId now s d) := by
  cases hfind : findOfTarget subscriptionId targetUserId d with
  | error e => simp [adminUnsubscribe, bind, Tx.attempt, hfind, Except.map]
  | ok s =>
    simp only [adminUnsubscribe, remove, Tx.ok_bind, Tx.ok_attempt, Tx.ok_write, ok_raising,
      ok_onAccounts_record, Except.map]
    exact ⟨s, d, ⟨hfind, rfl⟩, (), _, rfl, rfl⟩

/-- **The administrator's path tells nothing about other users.** On two directories with the same
subscriptions of the target, a delete is answered the same and leaves the target's subscriptions the
same. It changes those of no other user. -/
theorem adminDelete_confined (adminId targetUserId subscriptionId : Nat) (now : Instant)
    (d₁ d₂ : Directory) (hsame : SameFor targetUserId d₁ d₂) :
    (adminUnsubscribe adminId targetUserId subscriptionId now d₁).map Prod.fst =
        (adminUnsubscribe adminId targetUserId subscriptionId now d₂).map Prod.fst ∧
      ∀ d₁' d₂', adminUnsubscribe adminId targetUserId subscriptionId now d₁ = .ok ((), d₁') →
        adminUnsubscribe adminId targetUserId subscriptionId now d₂ = .ok ((), d₂') →
        SameFor targetUserId d₁' d₂' ∧ ∀ userId, userId ≠ targetUserId → SameFor userId d₁ d₁' := by
  have hanswer : ∀ d, (adminUnsubscribe adminId targetUserId subscriptionId now d).map Prod.fst =
      (findOfTarget subscriptionId targetUserId d).map fun _ => () := by
    intro d
    rw [adminUnsubscribe_eq]
    cases findOfTarget subscriptionId targetUserId d <;> rfl
  refine ⟨by rw [hanswer, hanswer, findOfTarget_congr hsame], fun d₁' d₂' h₁ h₂ => ⟨?_, ?_⟩⟩
  · obtain ⟨s₁, -, -, h₁, -⟩ := adminUnsubscribe_ok h₁
    obtain ⟨s₂, -, -, h₂, -⟩ := adminUnsubscribe_ok h₂
    intro i
    have hi := hsame i
    rw [getById, getById, h₁, h₂, Subscriptions.get?_delete, Subscriptions.get?_delete]
    split
    · rfl
    · exact hi
  · intro userId hne i
    obtain ⟨s, huser, hwas, h₁, -⟩ := adminUnsubscribe_ok h₁
    rw [getById, getById, h₁, Subscriptions.get?_delete]
    split
    · next hi => simp [hi, hwas, huser, Ne.symm hne]
    · rfl

/-- A directory with one subscription, of the user and to everything. -/
def subscribedDirectory (userId : Nat) : Directory where
  subscriptions := {
    table := Serial.empty.insert ⟨userId, .global, none, 0, rfl⟩
    uniqueNonglobal := by simp [indexEntries, Subscription.nonglobalKey, Serial.empty]
    uniqueGlobal := by simp [indexEntries, Subscription.globalKey, Serial.empty] }

theorem adminDelete_confined_sample :
    (adminUnsubscribe 9 3 1 0 (subscribedDirectory 1)).map Prod.fst =
      (adminUnsubscribe 9 3 1 0 {}).map Prod.fst := by
  refine (adminDelete_confined 9 3 1 0 (subscribedDirectory 1) {} fun i => ?_).1
  rw [getById, subscribedDirectory, Serial.get?_insert]
  split <;> rfl

/-! ## Subscribing and unsubscribing -/

/-- **Removing a subscription** takes out the users for whom no other one matches. -/
theorem isRecipient_closed {s : Subscription} {event : AuditEvent}
    (h : Closed d d' subscriptionId s event) (pipelineType : String) (tags : SortedSet String)
    (email : String) : d'.IsRecipient pipelineType tags email ↔
      ∃ userId user, d.accounts.users.get? userId = some user ∧ user.email = email ∧
        user.disabled = false ∧ ∃ i s', i ≠ subscriptionId ∧ getById i d = some s' ∧
          s'.userId = userId ∧ s'.Matches pipelineType tags := by
  simp only [Directory.IsRecipient, h.accounts, h.subscriptions, Subscriptions.get?_delete, getById,
    Option.ite_none_left_eq_some, and_assoc]

theorem subscribe_id (h : subscribe ports userId g target created audited d = .ok (r, d')) :
    r = d.subscriptions.table.next := by
  simp only [subscribe, Tx.ok_bind, Tx.ok_pure, Tx.ok_attempt, ok_raising,
    ok_onAccounts_record] at h
  obtain ⟨_, _, ⟨-, rfl⟩, saved, b, hadd, _, _, rfl, rfl, rfl⟩ := h
  unfold add at hadd
  split at hadd
  · simp only at hadd
    split at hadd
    · cases hadd
      rfl
    · cases hadd
  · cases hadd

/-- What the owner is answered hangs on `findOwned` alone. -/
theorem unsubscribe_of_findOwned {s : Subscription} (now : Instant)
    (h : findOwned subscriptionId userId d = .ok s) :
    ∃ d', unsubscribe subscriptionId userId now d = .ok ((), d') := by
  simp only [unsubscribe, remove, Tx.ok_bind, Tx.ok_attempt, Tx.ok_write, ok_raising,
    ok_onAccounts_record]
  exact ⟨_, s, d, ⟨h, rfl⟩, (), _, rfl, rfl⟩

/-- **To subscribe and to unsubscribe again** changes the recipients of no run: the subscription is
the user's to remove, and once it is gone every run resolves as before. -/
theorem subscribe_unsubscribe (ports : SubscriptionPorts) (userId : Nat)
    (g : SubscriptionGranularity) (target : Option String) (created audited now : Instant)
    (d d' : Directory) (r : Nat)
    (h : subscribe ports userId g target created audited d = .ok (r, d')) :
    ∃ d'', unsubscribe r userId now d' = .ok ((), d'') ∧ d''.accounts.users = d.accounts.users ∧
      ∀ pipelineType tags, listRecipientsForRun pipelineType tags d'' =
        listRecipientsForRun pipelineType tags d := by
  have hid := subscribe_id h
  obtain ⟨-, s, huser, -, -, hopened⟩ := subscribe_ok h
  have hget : ∀ i, d'.subscriptions.table.get? i =
      if i = r then some s else d.subscriptions.table.get? i := by
    intro i
    rw [hopened.table, Serial.get?_insert, hid]
  have howned : findOwned r userId d' = .ok s :=
    findOwned_ok.mpr ⟨(hget r).trans (if_pos rfl), huser⟩
  obtain ⟨d'', hd''⟩ := unsubscribe_of_findOwned now howned
  obtain ⟨s', -, hclosed⟩ := unsubscribe_ok hd''
  have husers' : d'.accounts.users = d.accounts.users := by rw [hopened.accounts]
  refine ⟨d'', hd'', by rw [hclosed.accounts, husers'], fun pipelineType tags => ?_⟩
  obtain ⟨emails, hemails, hmem⟩ := exists_listRecipientsForRun d pipelineType tags
  obtain ⟨emails', hemails', hmem'⟩ := exists_listRecipientsForRun d'' pipelineType tags
  rw [hemails, hemails']
  refine congrArg Except.ok (SortedSet.ext_of_mem fun email => ?_)
  rw [hmem, hmem', isRecipient_closed hclosed, husers', Directory.IsRecipient]
  -- the rows besides the new one are those that were there before
  have hrows : ∀ i s', (i ≠ r ∧ d'.subscriptions.table.get? i = some s') ↔
      d.subscriptions.table.get? i = some s' := by
    intro i s'
    rw [hget]
    by_cases hi : i = r
    · have hold : d.subscriptions.table.get? i ≠ some s' := fun hold =>
        absurd (hi.trans hid) (Nat.ne_of_lt (Serial.lt_next_of_get? hold))
      simp [hi, hi ▸ hold]
    · simp [hi]
  simp only [← and_assoc, getById, hrows]

/-- A registry of one pipeline, and no tag. -/
def samplePorts : SubscriptionPorts := ⟨.ofList ["daily"], fun _ => false⟩

/-- A directory with one user, and no subscription. -/
def sampleDirectory : Directory where
  accounts := {
    users := {
      table := Serial.empty.insert {
        email := "mary@example.org"
        displayName := "Ada"
        passwordHash := ""
        createdAt := 0
        email_ne := by decide
        displayName_ne := by decide }
      unique := by decide } }

theorem subscribe_unsubscribe_sample : ∃ d', subscribe samplePorts 1 .pipeline
    (some "daily") 0 0 sampleDirectory = .ok (1, d') ∧
      ∃ d'', unsubscribe 1 1 0 d' = .ok ((), d'') ∧
        d''.accounts.users = sampleDirectory.accounts.users := by
  obtain ⟨d', hd'⟩ : ∃ d', subscribe samplePorts 1 .pipeline (some "daily") 0 0
      sampleDirectory = .ok (1, d') := ⟨_, rfl⟩
  obtain ⟨d'', hd'', husers, -⟩ := subscribe_unsubscribe _ _ _ _ _ _ 0 _ _ _ hd'
  exact ⟨d', hd', d'', hd'', husers⟩

end MessageService.Application
