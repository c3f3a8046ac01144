import MessageService.Application.AdminUsers
import MessageService.Infrastructure.Subscriptions
import MessageService.Lib.TransitionSystem

/-!
# The recipients of a run

`list_recipients_for_run` against its reference, and how the calls that write the directory change
what it returns: `add` adds recipients only, and an UpdateUser that disables a user takes out that
user's address and no other. Each call is a transaction on `Directory`, whose fields are the unique
constraints, so what any sequence of calls leads to is again a `Directory`.

* `resolution_correct` puts the three together.
* `subscriber_of_reach`: no sequence of calls leaves a subscription without its user.
-/

namespace MessageService.Application

open MessageService.Domain MessageService.Lib MessageService.Infrastructure
open MessageService.Infrastructure.SqliteSubscriptionRepository

variable {pipelineType : String} {tags : SortedSet String} {d d' : Directory} {email : String}

theorem onAccounts_ok {α : Type} {x : AccountsTx α} {a : α} (h : onAccounts x d = .ok (a, d')) :
    ∃ accounts, x d.accounts = .ok (a, accounts) ∧ d' = { d with accounts := accounts } := by
  unfold onAccounts at h
  split at h
  · next hx =>
    cases h
    exact ⟨_, hx, rfl⟩
  · cases h

/-- **A new subscription takes no recipient away.** -/
theorem isRecipient_add {userId : Nat} {granularity : SubscriptionGranularity}
    {targetValue : Option String} {now : Instant} {r : Nat}
    (h : add userId granularity targetValue now d = .ok (r, d'))
    (hd : d.IsRecipient pipelineType tags email) : d'.IsRecipient pipelineType tags email := by
  obtain ⟨s, -, -, -, -, haccounts, htable⟩ := add_ok h
  obtain ⟨id, user, hu, hemail, hdisabled, subscriptionId, s', hs', huser, hmatch⟩ := hd
  refine ⟨id, user, haccounts ▸ hu, hemail, hdisabled, subscriptionId, s', ?_, huser, hmatch⟩
  have hlt := Serial.lt_next_of_get? hs'
  rw [htable, Serial.get?_insert, if_neg (by omega)]
  exact hs'

/-- Users with one address are one user. -/
theorem user_unique {users : Users} {i j : Nat} {user user' : User}
    (hi : users.get? i = some user) (hj : users.get? j = some user')
    (h : user.email = user'.email) : i = j ∧ user = user' := by
  have hrow := List.inj_on_of_nodup_map users.unique (Serial.mem_iff_get?.mpr hi)
    (Serial.mem_iff_get?.mpr hj) h
  exact ⟨congrArg Prod.fst hrow, congrArg Prod.snd hrow⟩

/-- **Disabling a user** takes out that user's address and no other. -/
theorem isRecipient_disable {adminId userId : Nat} {patch : UserPatch} {now : Instant} {r : Unit}
    (hdisables : patch.disabled = some true)
    (h : onAccounts (updateUser adminId userId patch now) d = .ok (r, d')) :
    ∃ user, d.accounts.users.get? userId = some user ∧
      ∀ pipelineType tags email, d'.IsRecipient pipelineType tags email ↔
        d.IsRecipient pipelineType tags email ∧ email ≠ user.email := by
  obtain ⟨accounts, hupdate, rfl⟩ := onAccounts_ok h
  obtain ⟨-, hsome, husers, -⟩ := updateUser_ok hupdate
  obtain ⟨user, huser⟩ := Option.isSome_iff_exists.mp hsome
  refine ⟨user, huser, fun pipelineType tags email => ⟨?_, ?_⟩⟩
  · rintro ⟨id, user', hu, rfl, hdisabled, hs⟩
    rw [husers, Users.get?_update] at hu
    split at hu
    · obtain ⟨old, -, rfl⟩ := Option.map_eq_some_iff.mp hu
      -- the row of the target is disabled
      simp [UserUpdate.apply, UserPatch.toUpdate, hdisables] at hdisabled
    · next hne =>
      exact ⟨⟨id, user', hu, rfl, hdisabled, hs⟩, fun he => hne (user_unique hu huser he).1⟩
  · rintro ⟨⟨id, user', hu, rfl, hdisabled, hs⟩, hne⟩
    refine ⟨id, user', ?_, rfl, hdisabled, hs⟩
    rw [husers, Users.get?_update, if_neg]
    · exact hu
    · rintro rfl
      rw [huser] at hu
      exact hne (congrArg User.email (Option.some.inj hu)).symm

/-- **Recipient resolution equals its reference**, a subscription only adds to it, and a user who is
disabled is all that disabling takes from it. -/
theorem resolution_correct (d : Directory) (pipelineType : String) (tags : SortedSet String) :
    ∃ emails, listRecipientsForRun pipelineType tags d = .ok emails ∧
      (∀ email, email ∈ emails ↔ d.IsRecipient pipelineType tags email) ∧
      (∀ userId granularity targetValue now r d',
        add userId granularity targetValue now d = .ok (r, d') →
          ∃ emails', listRecipientsForRun pipelineType tags d' = .ok emails' ∧
            ∀ email ∈ emails, email ∈ emails') ∧
      (∀ adminId userId patch now r d', patch.disabled = some true →
        onAccounts (updateUser adminId userId patch now) d = .ok (r, d') →
          ∃ user emails', d.accounts.users.get? userId = some user ∧
            listRecipientsForRun pipelineType tags d' = .ok emails' ∧
              ∀ email, email ∈ emails' ↔ email ∈ emails ∧ email ≠ user.email) := by
  obtain ⟨emails, hemails, hmem⟩ := exists_listRecipientsForRun d pipelineType tags
  refine ⟨emails, hemails, hmem, ?_, ?_⟩
  · intro userId granularity targetValue now r d' hadd
    obtain ⟨emails', hemails', hmem'⟩ := exists_listRecipientsForRun d' pipelineType tags
    exact ⟨emails', hemails', fun email he =>
      (hmem' email).mpr (isRecipient_add hadd ((hmem email).mp he))⟩
  · intro adminId userId patch now r d' hdisables hupdate
    obtain ⟨emails', hemails', hmem'⟩ := exists_listRecipientsForRun d' pipelineType tags
    obtain ⟨user, huser, hiff⟩ := isRecipient_disable hdisables hupdate
    refine ⟨user, emails', huser, hemails', fun email => ?_⟩
    rw [hmem', hmem, hiff]

/-! ## Sequences of calls -/

/-- The calls that write the two tables. -/
inductive DirectoryCall where
  | add (userId : Nat) (granularity : SubscriptionGranularity) (targetValue : Option String)
      (now : Instant)
  | remove (subscriptionId : Nat)
  | createUser (adminId : Nat) (cmd : CreateUserCommand) (passwordHash : String) (now : Instant)
  | updateUser (adminId userId : Nat) (patch : UserPatch) (now : Instant)

/-- A call as one transaction. -/
def DirectoryCall.run : DirectoryCall → DirectoryTx Unit
  | add userId granularity targetValue now => do
    let _ ← SqliteSubscriptionRepository.add userId granularity targetValue now
  | remove subscriptionId => SqliteSubscriptionRepository.remove subscriptionId
  | createUser adminId cmd passwordHash now =>
    onAccounts (Application.createUser adminId cmd passwordHash now)
  | updateUser adminId userId patch now =>
    onAccounts (Application.updateUser adminId userId patch now)

/-- The directory under sequences of calls, those that raise left out. -/
def directorySystem : System Directory DirectoryCall where
  init d := d = {}
  step d call d' := call.run d = .ok ((), d')

/-- Every subscription has its user. -/
def HasSubscribers (d : Directory) : Prop :=
  ∀ subscriptionId s, d.subscriptions.table.get? subscriptionId = some s →
    (d.accounts.users.get? s.userId).isSome = true

/-- Rows of `users` are never deleted. -/
theorem hasSubscribers_of_users (hd : HasSubscribers d)
    (hs : ∀ i s, d'.subscriptions.table.get? i = some s → d.subscriptions.table.get? i = some s ∨
      (d.accounts.users.get? s.userId).isSome = true)
    (hu : ∀ i, (d.accounts.users.get? i).isSome = true →
      (d'.accounts.users.get? i).isSome = true) : HasSubscribers d' := by
  intro i s h
  rcases hs i s h with h | h
  · exact hu _ (hd i s h)
  · exact hu _ h

/-- A step keeps the users, and with them the subscribers. -/
theorem hasSubscribers_step {call : DirectoryCall} (hd : HasSubscribers d)
    (h : call.run d = .ok ((), d')) : HasSubscribers d' := by
  cases call with
  | add userId granularity targetValue now =>
    simp only [DirectoryCall.run, Tx.ok_bind, Tx.ok_pure] at h
    obtain ⟨_, _, hadd, -, rfl⟩ := h
    obtain ⟨s, rfl, -, -, huser, haccounts, htable⟩ := add_ok hadd
    refine hasSubscribers_of_users hd (fun i s' hs => ?_) fun i hi => haccounts ▸ hi
    rw [htable, Serial.get?_insert] at hs
    split at hs
    · cases hs
      exact .inr huser
    · exact .inl hs
  | remove subscriptionId =>
    simp only [DirectoryCall.run, remove, Tx.ok_write] at h
    obtain rfl := h
    refine hasSubscribers_of_users hd (fun i s hs => .inl ?_) fun i hi => hi
    simp only [Subscriptions.delete, Serial.get?_filter, Option.filter_eq_some_iff] at hs
    exact hs.1
  | createUser adminId cmd passwordHash now =>
    obtain ⟨accounts, hcreate, rfl⟩ := onAccounts_ok h
    have hinsert := (createUser_ok hcreate).1
    refine hasSubscribers_of_users hd (fun i s hs => .inl hs) fun i hi => ?_
    rw [Users.get?_insert hinsert]
    split
    · rfl
    · exact hi
  | updateUser adminId userId patch now =>
    obtain ⟨accounts, hupdate, rfl⟩ := onAccounts_ok h
    have husers := (updateUser_ok hupdate).2.2.1
    refine hasSubscribers_of_users hd (fun i s hs => .inl hs) fun i hi => ?_
    rw [husers, Users.get?_update]
    split
    · rw [Option.isSome_map]
      exact hi
    · exact hi

/-- **No subscription is left without its user**, whatever the calls. -/
theorem subscriber_of_reach (h : directorySystem.Reach d) : HasSubscribers d := by
  refine System.inv_of_reach (I := HasSubscribers) ⟨?_, ?_⟩ h
  · rintro _ rfl
    exact nofun
  · intro s call t hs hstep
    exact hasSubscribers_step hs hstep

end MessageService.Application
