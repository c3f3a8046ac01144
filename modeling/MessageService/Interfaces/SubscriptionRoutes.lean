import MessageService.Application.SubscriptionDesk
import Mathlib.Data.List.Infix

/-!
# The answers of the subscription routes

The routes on subscriptions of `interfaces/rest/routes/subscriptions.py` and `admin_users.py`: which
status an exception of the use case is answered with. An exception that no `except` names is
answered with 500.

* `insert_spec`: the unique indexes refuse a subscription exactly when its user has an identical
  one.
* `add_spec`: what becomes of adding a subscription, in three cases.
* `subscription_answers`: what each of the four routes answers.
-/

namespace MessageService.Interfaces

open MessageService.Domain MessageService.Lib MessageService.Infrastructure
open MessageService.Application MessageService.Infrastructure.SqliteSubscriptionRepository

/-- The answer to a request. -/
inductive Answer where
  /-- 201. -/
  | created (subscriptionId : Nat)
  /-- 204. -/
  | noContent
  /-- An `HTTPException`. -/
  | refused (status : Nat) (detail : String)
  /-- 500. -/
  | failed
  deriving DecidableEq, Repr

/-- `"UNIQUE" in str(exc.details.get("reason", ""))`. -/
def isDuplicate (e : ServiceError) : Bool :=
  match e.details.get? "reason" with
  | some (.str reason) => "UNIQUE".toList <:+: reason.toList
  | _ => false

/-- The `except` clauses on a `PersistenceError` and on an unknown target. -/
def answerCreate (duplicate : String) : SubscriptionError → Answer
  | .service e =>
    if e.errorClass = .unknownPipelineTypeError ∨ e.errorClass = .unknownTagError then
      .refused 422 e.message
    else if e.errorClass = .persistenceError ∧ isDuplicate e then .refused 409 duplicate
    else .failed
  | _ => .failed

/-- `CreateSubscriptionRequest`, as its validators let it through. -/
structure CreateSubscriptionRequest where
  granularity : SubscriptionGranularity
  targetValue : Option String
  max_length : ∀ t ∈ targetValue, t.length ≤ 255
  /-- `_check_target_pairing`. -/
  pairing : granularity = .global ↔ targetValue = none

/-- `AdminCreateSubscriptionRequest`, which has no such validator. -/
structure AdminCreateSubscriptionRequest where
  granularity : SubscriptionGranularity
  targetValue : Option String
  max_length : ∀ t ∈ targetValue, t.length ≤ 255

/-- What a use case that is not cut short answers. -/
def respond {α : Type} (returned : α → Answer) (raised : SubscriptionError → Answer)
    (x : DeskTx α) (d : Directory) : Answer :=
  match x d with
  | .ok (a, _) => returned a
  | .error e => raised e

/-- `POST /subscriptions`. -/
def postSubscription (ports : SubscriptionPorts) (userId : Nat) (body : CreateSubscriptionRequest)
    (created audited : Instant) : Directory → Answer :=
  respond .created (answerCreate "you already have this subscription")
    (subscribe ports userId body.granularity body.targetValue created audited)

/-- `DELETE /subscriptions/{subscription_id}`. -/
def deleteSubscription (subscriptionId userId : Nat) (now : Instant) : Directory → Answer :=
  respond (fun _ => .noContent)
    (fun
      | .notFound message _ => .refused 404 message
      | .forbidden _ _ => .refused 403 "subscription belongs to another user"
      | .service _ => .failed)
    (unsubscribe subscriptionId userId now)

/-- `POST /admin/users/{user_id}/subscriptions`. -/
def postUserSubscription (ports : SubscriptionPorts) (adminId targetUserId : Nat)
    (body : AdminCreateSubscriptionRequest) (created audited : Instant) : Directory → Answer :=
  respond .created
    (fun
      | .service e =>
        if e.errorClass = .userNotFoundError then .refused 404 "user not found"
        else answerCreate "recipient already has this subscription" (.service e)
      | e => answerCreate "recipient already has this subscription" e)
    (adminSubscribe ports adminId targetUserId body.granularity body.targetValue created audited)

/-- `DELETE /admin/users/{user_id}/subscriptions/{subscription_id}`. -/
def deleteUserSubscription (adminId targetUserId subscriptionId : Nat) (now : Instant) :
    Directory → Answer :=
  respond (fun _ => .noContent)
    (fun
      | .notFound _ _ => .refused 404 "subscription not found"
      | _ => .failed)
    (adminUnsubscribe adminId targetUserId subscriptionId now)

/-! ## Duplicates -/

/-- The user has this subscription. -/
def Has (d : Directory) (userId : Nat) (granularity : SubscriptionGranularity)
    (targetValue : Option String) : Prop :=
  ∃ i s, d.subscriptions.table.get? i = some s ∧ s.userId = userId ∧
    s.granularity = granularity ∧ s.targetValue = targetValue

theorem mem_indexEntries {ρ κ : Type} {key : ρ → Option κ} {t : Serial ρ} {k : κ} :
    k ∈ indexEntries key t ↔ ∃ i r, t.get? i = some r ∧ key r = some k := by
  simp only [indexEntries, List.mem_filterMap, Prod.exists, Serial.mem_iff_get?]

/-- A subscription without a target is one to everything. -/
theorem targetValue_eq_none_iff (s : Subscription) :
    s.targetValue = none ↔ s.granularity = .global := by
  have allowed := s.allowed
  cases hg : s.granularity <;> cases ht : s.targetValue <;>
    simp [hg, ht, SubscriptionGranularity.allows] at allowed ⊢

/-- The index entries that an `INSERT` would repeat are those of an identical subscription. -/
theorem index_mem_iff (t : Subscriptions) (s : Subscription) :
    ((∃ k ∈ s.nonglobalKey, k ∈ indexEntries Subscription.nonglobalKey t.table) ∨
      ∃ k ∈ s.globalKey, k ∈ indexEntries Subscription.globalKey t.table) ↔
        ∃ i s', t.table.get? i = some s' ∧ s'.userId = s.userId ∧
          s'.granularity = s.granularity ∧ s'.targetValue = s.targetValue := by
  simp only [mem_indexEntries]
  constructor
  · rintro (⟨k, hk, i, s', hs', hkey⟩ | ⟨k, hk, i, s', hs', hkey⟩)
    · obtain ⟨target, ht, rfl⟩ := Option.map_eq_some_iff.mp hk
      obtain ⟨target', ht', hkey⟩ := Option.map_eq_some_iff.mp hkey
      simp only [Prod.mk.injEq] at hkey
      exact ⟨i, s', hs', hkey.1, hkey.2.1, by rw [ht, ht', hkey.2.2]⟩
    · simp only [Subscription.globalKey, Option.mem_def, Option.ite_none_right_eq_some,
        Option.some.injEq] at hk hkey
      refine ⟨i, s', hs', hkey.2.trans hk.2.symm, hkey.1.trans hk.1.symm, ?_⟩
      rw [(targetValue_eq_none_iff s').mpr hkey.1, (targetValue_eq_none_iff s).mpr hk.1]
  · rintro ⟨i, s', hs', huser, hg, ht⟩
    cases htarget : s.targetValue with
    | none =>
      have hglobal := (targetValue_eq_none_iff s).mp htarget
      refine .inr ⟨s.userId, by simp [Subscription.globalKey, hglobal], i, s', hs', ?_⟩
      simp [Subscription.globalKey, hg, hglobal, huser]
    | some target =>
      refine .inl ⟨(s.userId, s.granularity, target), ?_, i, s', hs', ?_⟩
      · simp [Subscription.nonglobalKey, htarget]
      · simp [Subscription.nonglobalKey, ht, htarget, huser, hg]

/-- **The unique indexes refuse duplicates and nothing else.** -/
theorem insert_spec (t : Subscriptions) (s : Subscription) :
    (∃ t', t.insert s = .ok t') ∧ (¬∃ i s', t.table.get? i = some s' ∧ s'.userId = s.userId ∧
        s'.granularity = s.granularity ∧ s'.targetValue = s.targetValue) ∨
      (∃ reason, t.insert s = .error reason ∧ "UNIQUE".toList <:+: reason.toList) ∧
        ∃ i s', t.table.get? i = some s' ∧ s'.userId = s.userId ∧
          s'.granularity = s.granularity ∧ s'.targetValue = s.targetValue := by
  rw [← index_mem_iff]
  unfold Subscriptions.insert
  by_cases hn : ∀ k ∈ s.nonglobalKey, k ∉ indexEntries Subscription.nonglobalKey t.table
  · by_cases hg : ∀ k ∈ s.globalKey, k ∉ indexEntries Subscription.globalKey t.table
    · refine .inl ⟨by simp only [dif_pos hn, dif_pos hg]; exact ⟨_, rfl⟩, ?_⟩
      rintro (⟨k, hk, h⟩ | ⟨k, hk, h⟩)
      · exact hn k hk h
      · exact hg k hk h
    · simp only [dif_pos hn, dif_neg hg]
      refine .inr ⟨⟨_, rfl, by decide⟩, .inr ?_⟩
      push Not at hg
      exact hg
  · simp only [dif_neg hn]
    refine .inr ⟨⟨_, rfl, by decide⟩, .inl ?_⟩
    push Not at hn
    exact hn

/-- **What adding a subscription comes to**, for a user who exists. -/
theorem add_spec {d : Directory} {userId : Nat} (huser : (d.accounts.users.get? userId).isSome = true)
    (g : SubscriptionGranularity) (target : Option String) (now : Instant) :
    (∃ d', add userId g target now d = .ok (d.subscriptions.table.next, d')) ∧
        g.allows target = true ∧ ¬Has d userId g target ∨
      (∃ e, add userId g target now d = .error e ∧ e.errorClass = .persistenceError ∧
        isDuplicate e = true) ∧ g.allows target = true ∧ Has d userId g target ∨
      (∃ e, add userId g target now d = .error e ∧ e.errorClass = .persistenceError ∧
        isDuplicate e = false) ∧ g.allows target = false := by
  by_cases allowed : g.allows target = true
  · let s : Subscription := ⟨userId, g, target, now, allowed⟩
    obtain ⟨⟨t', ht'⟩, hnone⟩ | ⟨⟨reason, hreason, hunique⟩, hsome⟩ := insert_spec d.subscriptions s
    · refine .inl ⟨⟨{ d with subscriptions := t' }, ?_⟩, allowed, hnone⟩
      have hrow : insertRow d s = .ok t' := by
        simp only [insertRow, ht', bind_ok, if_pos huser, s]
        rfl
      simp only [add, dif_pos allowed]
      rw [hrow]
    · refine .inr (.inl ⟨⟨insertError s reason, ?_, rfl, ?_⟩, allowed, hsome⟩)
      · have hrow : insertRow d s = .error reason := by
          simp only [insertRow, hreason]
          rfl
        simp only [add, dif_pos allowed]
        rw [hrow]
      · exact decide_eq_true hunique
  · refine .inr (.inr ⟨⟨targetError g target, by simp only [add, dif_neg allowed], rfl, rfl⟩, ?_⟩)
    simpa using allowed

/-- What a request to create a subscription is answered, case by case. -/
structure CreateAnswers (ports : SubscriptionPorts) (d : Directory) (userId : Nat)
    (g : SubscriptionGranularity) (target : Option String) (duplicate : String) (answer : Answer) :
    Prop where
  unknown : ∀ e, checkTarget ports g target = .error e → answer = .refused 422 e.message
  /-- No validator has caught the target, and the repository does. -/
  malformed : checkTarget ports g target = .ok () → g.allows target = false → answer = .failed
  duplicate : checkTarget ports g target = .ok () → g.allows target = true →
    Has d userId g target → answer = .refused 409 duplicate
  created : checkTarget ports g target = .ok () → g.allows target = true →
    ¬Has d userId g target → answer = .created d.subscriptions.table.next

/-- The exceptions of `checkTarget`. -/
theorem errorClass_checkTarget {ports : SubscriptionPorts} {g : SubscriptionGranularity}
    {target : Option String} {e : ServiceError} (h : checkTarget ports g target = .error e) :
    e.errorClass = .unknownPipelineTypeError ∨ e.errorClass = .unknownTagError := by
  unfold checkTarget at h
  split at h
  · split at h
    · cases h
    · cases h
      exact .inl rfl
  · split at h
    · cases h
    · cases h
      exact .inr rfl
  · cases h
  · cases h

theorem answerCreate_unknown {e : ServiceError} (duplicate : String)
    (h : e.errorClass = .unknownPipelineTypeError ∨ e.errorClass = .unknownTagError) :
    answerCreate duplicate (.service e) = .refused 422 e.message := by
  simp only [answerCreate, if_pos h]

theorem answerCreate_persistence {e : ServiceError} (duplicate : String)
    (h : e.errorClass = .persistenceError) : answerCreate duplicate (.service e) =
      if isDuplicate e then .refused 409 duplicate else .failed := by
  simp [answerCreate, h]

/-- What a use case whose body runs `add` after the check is answered. -/
theorem createAnswers_of_add {ports : SubscriptionPorts} {d : Directory} {userId : Nat}
    {g : SubscriptionGranularity} {target : Option String} {duplicate : String} {answer : Answer}
    (now : Instant) (huser : (d.accounts.users.get? userId).isSome = true)
    (hunknown : ∀ e, checkTarget ports g target = .error e →
      answer = answerCreate duplicate (.service e))
    (herror : checkTarget ports g target = .ok () → ∀ e, add userId g target now d = .error e →
      e.errorClass = .persistenceError → answer = answerCreate duplicate (.service e))
    (hok : checkTarget ports g target = .ok () → ∀ r d', add userId g target now d = .ok (r, d') →
      answer = .created r) : CreateAnswers ports d userId g target duplicate answer := by
  have hadd := add_spec huser g target now
  refine ⟨fun e he => ?_, fun hcheck hallows => ?_, fun hcheck hallows hhas => ?_,
    fun hcheck hallows hhas => ?_⟩
  · exact (hunknown e he).trans (answerCreate_unknown duplicate (errorClass_checkTarget he))
  · obtain ⟨-, h, -⟩ | ⟨-, h, -⟩ | ⟨⟨e, he, hclass, hdup⟩, -⟩ := hadd
    · rw [hallows] at h
      cases h
    · rw [hallows] at h
      cases h
    · rw [herror hcheck e he hclass, answerCreate_persistence duplicate hclass, hdup]
      rfl
  · obtain ⟨-, -, h⟩ | ⟨⟨e, he, hclass, hdup⟩, -⟩ | ⟨-, h⟩ := hadd
    · exact absurd hhas h
    · rw [herror hcheck e he hclass, answerCreate_persistence duplicate hclass, hdup]
      rfl
    · rw [hallows] at h
      cases h
  · obtain ⟨⟨d', hd'⟩, -⟩ | ⟨-, -, h⟩ | ⟨-, h⟩ := hadd
    · exact hok hcheck _ d' hd'
    · exact absurd h hhas
    · rw [hallows] at h
      cases h

section

variable {ports : SubscriptionPorts} {d d' : Directory} {g : SubscriptionGranularity}
  {target : Option String} {created audited now : Instant}
  {userId adminId targetUserId subscriptionId r : Nat}

theorem subscribe_of_unknown {e : ServiceError} (h : checkTarget ports g target = .error e) :
    subscribe ports userId g target created audited d = .error (.service e) := by
  simp [subscribe, bind, raising, Tx.attempt, h, Except.mapError]

theorem subscribe_of_error {e : ServiceError} (hcheck : checkTarget ports g target = .ok ())
    (h : add userId g target created d = .error e) :
    subscribe ports userId g target created audited d = .error (.service e) := by
  simp [subscribe, bind, raising, Tx.attempt, hcheck, h, Except.mapError]

theorem subscribe_of_add (hcheck : checkTarget ports g target = .ok ())
    (h : add userId g target created d = .ok (r, d')) :
    ∃ d'', subscribe ports userId g target created audited d = .ok (r, d'') := by
  simp only [subscribe, Tx.ok_bind, Tx.ok_pure, Tx.ok_attempt, ok_raising, ok_onAccounts_record]
  exact ⟨_, (), d, ⟨hcheck, rfl⟩, r, d', h, (), _, rfl, rfl, rfl⟩

theorem adminSubscribe_of_unknown {e : ServiceError} (h : checkTarget ports g target = .error e) :
    adminSubscribe ports adminId targetUserId g target created audited d =
      .error (.service e) := by
  simp [adminSubscribe, bind, raising, Tx.attempt, h, Except.mapError]

theorem adminSubscribe_of_error {e : ServiceError} (hcheck : checkTarget ports g target = .ok ())
    (huser : (d.accounts.users.get? targetUserId).isSome = true)
    (h : add targetUserId g target created d = .error e) :
    adminSubscribe ports adminId targetUserId g target created audited d =
      .error (.service e) := by
  simp [adminSubscribe, bind, raising, Tx.attempt, Tx.read, Tx.require, hcheck, huser, h,
    Except.mapError]

theorem adminSubscribe_of_add (hcheck : checkTarget ports g target = .ok ())
    (huser : (d.accounts.users.get? targetUserId).isSome = true)
    (h : add targetUserId g target created d = .ok (r, d')) :
    ∃ d'', adminSubscribe ports adminId targetUserId g target created audited d =
      .ok (r, d'') := by
  simp only [adminSubscribe, Tx.ok_bind, Tx.ok_pure, Tx.ok_attempt, Tx.ok_read, Tx.ok_require,
    ok_raising, ok_onAccounts_record]
  exact ⟨_, (), d, ⟨hcheck, rfl⟩, _, d, ⟨rfl, rfl⟩, (), d, ⟨huser, rfl⟩, r, d', h, (), _, rfl, rfl,
    rfl⟩

end

/-- The answers of the two routes that delete a subscription. -/
structure DeleteAnswers (d : Directory) (subscriptionId userId : Nat) (own admin : Answer) :
    Prop where
  missing : d.subscriptions.table.get? subscriptionId = none →
    own = .refused 404 ("subscription " ++ toString subscriptionId ++ " does not exist") ∧
      admin = .refused 404 "subscription not found"
  foreign : ∀ s, d.subscriptions.table.get? subscriptionId = some s → s.userId ≠ userId →
    own = .refused 403 "subscription belongs to another user" ∧
      admin = .refused 404 "subscription not found"
  owned : ∀ s, d.subscriptions.table.get? subscriptionId = some s → s.userId = userId →
    own = .noContent ∧ admin = .noContent

theorem deleteAnswers (d : Directory) (subscriptionId userId adminId : Nat) (now : Instant) :
    DeleteAnswers d subscriptionId userId (deleteSubscription subscriptionId userId now d)
      (deleteUserSubscription adminId userId subscriptionId now d) := by
  have hadmin : ∀ e, findOfTarget subscriptionId userId d = .error e →
      adminUnsubscribe adminId userId subscriptionId now d = .error e := by
    intro e he
    rw [adminUnsubscribe_eq, he]
    rfl
  have hown : ∀ e, findOwned subscriptionId userId d = .error e →
      unsubscribe subscriptionId userId now d = .error e := by
    intro e he
    simp [unsubscribe, bind, Tx.attempt, he]
  refine ⟨fun hnone => ?_, fun s hs hne => ?_, fun s hs huser => ?_⟩
  · have hfind : findOwned subscriptionId userId d = .error (noSubscription subscriptionId) := by
      simp [findOwned, getById, hnone]
    have hfind' : findOfTarget subscriptionId userId d =
        .error (notOwned subscriptionId userId) := by
      simp [findOfTarget, getById, hnone]
    simp only [deleteSubscription, deleteUserSubscription, respond, hown _ hfind, hadmin _ hfind']
    exact ⟨rfl, rfl⟩
  · have hfind : findOwned subscriptionId userId d =
        .error (foreignSubscription subscriptionId) := by
      simp [findOwned, getById, hs, hne]
    have hfind' : findOfTarget subscriptionId userId d =
        .error (notOwned subscriptionId userId) := by
      simp [findOfTarget, getById, hs, Option.filter, hne]
    simp only [deleteSubscription, deleteUserSubscription, respond, hown _ hfind, hadmin _ hfind']
    exact ⟨rfl, rfl⟩
  · obtain ⟨d', hd'⟩ := unsubscribe_of_findOwned now (findOwned_ok.mpr ⟨hs, huser⟩)
    have hfind : findOfTarget subscriptionId userId d = .ok s := findOfTarget_ok.mpr ⟨hs, huser⟩
    exact ⟨by simp only [deleteSubscription, respond, hd'],
      by simp only [deleteUserSubscription, respond, adminUnsubscribe_eq, hfind, Except.map]⟩

/-- **What the subscription routes answer**, to a user who exists. Creating: 422 to an unknown
target, 409 exactly if the user has this very subscription, else 201 with the next id. The
administrator's route answers 500 to a target that its granularity does not go with; the user's own
route checks that first, and answers 500 only to an empty name that is registered. Deleting: the
user is told 403 of another user's subscription, the administrator 404. -/
theorem subscription_answers (ports : SubscriptionPorts) (d : Directory) (userId adminId : Nat)
    (huser : (d.accounts.users.get? userId).isSome = true) (created audited now : Instant) :
    (∀ body, CreateAnswers ports d userId body.granularity body.targetValue
        "you already have this subscription"
        (postSubscription ports userId body created audited d)) ∧
      (∀ body : CreateSubscriptionRequest,
        postSubscription ports userId body created audited d = .failed →
          body.targetValue = some "" ∧ checkTarget ports body.granularity (some "") = .ok ()) ∧
      (∀ body, CreateAnswers ports d userId body.granularity body.targetValue
        "recipient already has this subscription"
        (postUserSubscription ports adminId userId body created audited d)) ∧
      ∀ subscriptionId, DeleteAnswers d subscriptionId userId
        (deleteSubscription subscriptionId userId now d)
        (deleteUserSubscription adminId userId subscriptionId now d) := by
  have hpost : ∀ body : CreateSubscriptionRequest, CreateAnswers ports d userId body.granularity
      body.targetValue "you already have this subscription"
      (postSubscription ports userId body created audited d) := by
    intro body
    refine createAnswers_of_add created huser ?_ ?_ ?_
    · intro e he
      simp only [postSubscription, respond, subscribe_of_unknown he]
    · intro hcheck e he _
      simp only [postSubscription, respond, subscribe_of_error hcheck he]
    · intro hcheck r d' hadd
      obtain ⟨d'', hd''⟩ : ∃ d'', subscribe ports userId body.granularity body.targetValue created
        audited d = .ok (r, d'') := subscribe_of_add hcheck hadd
      simp only [postSubscription, respond, hd'']
  refine ⟨hpost, ?_, ?_, fun subscriptionId => deleteAnswers d subscriptionId userId adminId now⟩
  · intro body hfailed
    have h := hpost body
    rw [hfailed] at h
    cases hcheck : checkTarget ports body.granularity body.targetValue with
    | error e => cases h.unknown e hcheck
    | ok =>
      cases hallows : body.granularity.allows body.targetValue with
      | true =>
        by_cases hhas : Has d userId body.granularity body.targetValue
        · cases h.duplicate hcheck hallows hhas
        · cases h.created hcheck hallows hhas
      | false =>
        -- the validator has seen to the pairing, so the target is there and empty
        have hpairing := body.pairing
        cases htarget : body.targetValue with
        | none =>
          have hg := hpairing.mpr htarget
          simp [hg, htarget, SubscriptionGranularity.allows] at hallows
        | some target =>
          have hg : body.granularity ≠ .global := fun hg => by
            rw [hpairing.mp hg] at htarget
            cases htarget
          have hempty : target = "" := by
            cases hgran : body.granularity <;>
              simp_all [SubscriptionGranularity.allows]
          rw [htarget, hempty] at hcheck
          exact ⟨by rw [hempty], hcheck⟩
  · intro body
    refine createAnswers_of_add created huser ?_ ?_ ?_
    · intro e he
      have hclass := errorClass_checkTarget he
      simp only [postUserSubscription, respond, adminSubscribe_of_unknown he]
      rw [if_neg]
      rcases hclass with h | h <;> rw [h] <;> decide
    · intro hcheck e he hclass
      simp only [postUserSubscription, respond, adminSubscribe_of_error hcheck huser he]
      rw [if_neg (by rw [hclass]; decide)]
    · intro hcheck r d' hadd
      obtain ⟨d'', hd''⟩ : ∃ d'', adminSubscribe ports adminId userId body.granularity
        body.targetValue created audited d = .ok (r, d'') := adminSubscribe_of_add hcheck huser hadd
      simp only [postUserSubscription, respond, hd'']

/-- An administrator who asks for everything, by name: no validator refuses it. -/
theorem subscription_answers_sample :
    postUserSubscription samplePorts 1 1 ⟨.global, some "daily", by decide⟩ 0 0 sampleDirectory =
      .failed :=
  ((subscription_answers samplePorts sampleDirectory 1 1 rfl 0 0 0).2.2.1
    ⟨.global, some "daily", by decide⟩).malformed rfl rfl

end MessageService.Interfaces
