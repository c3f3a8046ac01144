import MessageService.Infrastructure.Store
import MessageService.Infrastructure.UserRepository
import MessageService.Lib.Python
import MessageService.Lib.Sql

/-!
# Subscriptions

Model of `domain/aggregates/subscription.py`, of the `subscriptions` table with its constraints, and
of `infrastructure/persistence/subscription_repository.py` with its SQL: `list_recipients_for_run`
builds its `WHERE` clause from the tags, and SQLite evaluates it on the join of the two tables. The
engine's own limits (the number of parameters, the length of a statement) are left out.

* `whereOr_holds`: the clause holds of a row of the join when its subscription matches the run.
* `exists_listRecipientsForRun`: the query takes as many parameters as it is given, and returns the
  addresses of the recipients (`Directory.IsRecipient`).
* `listRecipientsForRun_toDb`: it is the query of the deliveries.
-/

namespace MessageService.Infrastructure

open MessageService.Domain MessageService.Lib

/-! ## The aggregate and its table -/

/-- The stored value of a granularity. -/
def SubscriptionGranularity.value : SubscriptionGranularity → String
  | global => "GLOBAL"
  | pipeline => "PIPELINE"
  | tag => "TAG"

/-- `GLOBAL` goes without a target, the others with one that is not empty. -/
def SubscriptionGranularity.allows : SubscriptionGranularity → Option String → Bool
  | global, target => target = none
  | _, target => target.any fun t => t ≠ ""

/-- `Subscription`; the `subscription_id` is the row's id. -/
structure Subscription where
  userId : Nat
  granularity : SubscriptionGranularity
  targetValue : Option String
  createdAt : Instant
  allowed : granularity.allows targetValue = true

namespace Subscription

/-- Its entry in `idx_subscriptions_unique_nonglobal`. -/
def nonglobalKey (s : Subscription) : Option (Nat × SubscriptionGranularity × String) :=
  s.targetValue.map fun target => (s.userId, s.granularity, target)

/-- Its entry in `idx_subscriptions_unique_global`. -/
def globalKey (s : Subscription) : Option Nat :=
  if s.granularity = .global then some s.userId else none

/-- It is about the runs of this pipeline with these tags. -/
def Matches (s : Subscription) (pipelineType : String) (tags : SortedSet String) : Prop :=
  s.granularity = .global ∨
    (s.granularity = .pipeline ∧ s.targetValue = some pipelineType) ∨
    (s.granularity = .tag ∧ ∃ tag ∈ tags, s.targetValue = some tag)

end Subscription

/-- The entries of a partial index. -/
def indexEntries {ρ κ : Type} (key : ρ → Option κ) (t : Serial ρ) : List κ :=
  t.rows.filterMap fun r => key r.2

theorem nodup_indexEntries_insert {ρ κ : Type} {key : ρ → Option κ} {t : Serial ρ} {r : ρ}
    (ht : (indexEntries key t).Nodup) (hr : ∀ k ∈ key r, k ∉ indexEntries key t) :
    (indexEntries key (t.insert r)).Nodup := by
  unfold indexEntries at *
  rw [Serial.rows_insert, List.filterMap_append, List.nodup_append]
  refine ⟨ht, ?_, ?_⟩
  · cases hk : key r <;> simp [hk]
  · intro a ha b hb
    rintro rfl
    obtain ⟨x, hx, hk⟩ := List.mem_filterMap.mp hb
    obtain rfl := List.mem_singleton.mp hx
    exact hr a hk ha

theorem nodup_indexEntries_filter {ρ κ : Type} {key : ρ → Option κ} {t : Serial ρ}
    (p : Nat × ρ → Bool) (ht : (indexEntries key t).Nodup) :
    (indexEntries key (t.filter p)).Nodup :=
  ht.sublist (List.filter_sublist.filterMap _)

/-- The `subscriptions` table. -/
structure Subscriptions where
  table : Serial Subscription
  uniqueNonglobal : (indexEntries Subscription.nonglobalKey table).Nodup
  uniqueGlobal : (indexEntries Subscription.globalKey table).Nodup

namespace Subscriptions

/-- The empty table. -/
def empty : Subscriptions := ⟨Serial.empty, List.nodup_nil, List.nodup_nil⟩

/-- `INSERT`, refused by a unique index. -/
def insert (t : Subscriptions) (s : Subscription) : Except String Subscriptions :=
  if hn : ∀ k ∈ s.nonglobalKey, k ∉ indexEntries Subscription.nonglobalKey t.table then
    if hg : ∀ k ∈ s.globalKey, k ∉ indexEntries Subscription.globalKey t.table then
      .ok {
        table := t.table.insert s
        uniqueNonglobal := nodup_indexEntries_insert t.uniqueNonglobal hn
        uniqueGlobal := nodup_indexEntries_insert t.uniqueGlobal hg }
    else .error "UNIQUE constraint failed: subscriptions.user_id"
  else .error ("UNIQUE constraint failed: subscriptions.user_id, subscriptions.granularity, " ++
    "subscriptions.target_value")

/-- `DELETE .. WHERE subscription_id = ?`. -/
def delete (t : Subscriptions) (subscriptionId : Nat) : Subscriptions where
  table := t.table.filter fun r => r.1 ≠ subscriptionId
  uniqueNonglobal := nodup_indexEntries_filter _ t.uniqueNonglobal
  uniqueGlobal := nodup_indexEntries_filter _ t.uniqueGlobal

theorem get?_delete (t : Subscriptions) (subscriptionId i : Nat) :
    (t.delete subscriptionId).table.get? i =
      if i = subscriptionId then none else t.table.get? i := by
  rw [delete, Serial.get?_filter]
  by_cases hi : i = subscriptionId
  · simp [hi]
  · cases t.table.get? i <;> simp [hi]

theorem table_insert {t t' : Subscriptions} {s : Subscription} (h : t.insert s = .ok t') :
    t'.table = t.table.insert s := by
  unfold insert at h
  split at h
  · split at h
    · cases h
      rfl
    · cases h
  · cases h

end Subscriptions

/-! ## The repository -/

/-- The tables of the accounts and of their subscriptions. -/
structure Directory where
  accounts : Accounts := {}
  subscriptions : Subscriptions := Subscriptions.empty

/-- A transaction over them. -/
abbrev DirectoryTx := Tx Directory ServiceError

/-- A transaction of the accounts alone. -/
def onAccounts {α : Type} (x : AccountsTx α) : DirectoryTx α := fun d =>
  match x d.accounts with
  | .ok (a, accounts) => .ok (a, { d with accounts := accounts })
  | .error e => .error e

namespace SqliteSubscriptionRepository

/-- The target in the details of an error. -/
def targetJson (target : Option String) : Json := (target.map Json.str).getD .null

/-- The error of a target that the granularity does not allow. -/
def targetError (granularity : SubscriptionGranularity) (target : Option String) :
    ServiceError where
  errorClass := .persistenceError
  message :=
    if granularity = .global then "GLOBAL subscription cannot have a target_value"
    else granularity.value ++ " subscription requires non-empty target_value"
  details := [("granularity", .str granularity.value), ("target_value", targetJson target)]

/-- The error of a refused `INSERT`. -/
def insertError (s : Subscription) (reason : String) : ServiceError where
  errorClass := .persistenceError
  message := "duplicate subscription for user " ++ toString s.userId ++ " (" ++
    s.granularity.value ++ ", " ++ (s.targetValue.map pyRepr).getD "None" ++ ")"
  details := [("user_id", .int s.userId), ("granularity", .str s.granularity.value),
    ("target_value", targetJson s.targetValue), ("reason", .str reason)]

/-- The `INSERT` with its foreign key, which SQLite checks last. -/
def insertRow (d : Directory) (s : Subscription) : Except String Subscriptions := do
  let subscriptions ← d.subscriptions.insert s
  if (d.accounts.users.get? s.userId).isSome then pure subscriptions
  else throw "FOREIGN KEY constraint failed"

/-- `add`, which returns the new id. -/
def add (userId : Nat) (granularity : SubscriptionGranularity) (targetValue : Option String)
    (now : Instant) : DirectoryTx Nat := fun d =>
  if allowed : granularity.allows targetValue = true then
    let s : Subscription := ⟨userId, granularity, targetValue, now, allowed⟩
    match insertRow d s with
    | .ok subscriptions =>
      .ok (d.subscriptions.table.next, { d with subscriptions := subscriptions })
    | .error reason => .error (insertError s reason)
  else .error (targetError granularity targetValue)

/-- `remove`. -/
def remove (subscriptionId : Nat) : DirectoryTx Unit :=
  Tx.write fun d => { d with subscriptions := d.subscriptions.delete subscriptionId }

/-- `get_by_id`. -/
def getById (subscriptionId : Nat) (d : Directory) : Option Subscription :=
  d.subscriptions.table.get? subscriptionId

/-- **What `add` does**: it appends the subscription. -/
theorem add_ok {userId : Nat} {granularity : SubscriptionGranularity} {targetValue : Option String}
    {now : Instant} {r : Nat} {d d' : Directory}
    (h : add userId granularity targetValue now d = .ok (r, d')) :
    ∃ s : Subscription, s.userId = userId ∧ s.granularity = granularity ∧
      s.targetValue = targetValue ∧ (d.accounts.users.get? userId).isSome = true ∧
      d'.accounts = d.accounts ∧ d'.subscriptions.table = d.subscriptions.table.insert s := by
  unfold add at h
  split at h
  · next allowed =>
    simp only at h
    split at h
    · next subscriptions hrow =>
      cases h
      obtain ⟨t, ht, hrow⟩ := bind_eq_ok_iff.mp hrow
      split at hrow
      · next huser =>
        cases hrow
        exact ⟨_, rfl, rfl, rfl, huser, rfl, Subscriptions.table_insert ht⟩
      · cases hrow
    · cases h
  · cases h

/-! ## Recipients -/

/-- The columns of `users u JOIN subscriptions s`. -/
inductive Column where
  | userId
  | email
  | disabled
  | subscriber
  | granularity
  | targetValue

/-- A row of the join. -/
def columns (r : (Nat × User) × (Nat × Subscription)) : Column → Sql.Value
  | .userId => .integer r.1.1
  | .email => .text r.1.2.email
  | .disabled => .integer (if r.1.2.disabled then 1 else 0)
  | .subscriber => .integer r.2.2.userId
  | .granularity => .text r.2.2.granularity.value
  | .targetValue => .ofOption r.2.2.targetValue

/-- `s.granularity = '..'`. -/
def ofGranularity (g : SubscriptionGranularity) : Sql.Condition Column :=
  .equal (.column .granularity) (.literal (.text g.value))

/-- `where_or`: the branches joined with `OR`, the last only if there are tags. -/
def whereOr (tags : SortedSet String) : Sql.Condition Column :=
  let branches : List (Sql.Condition Column) :=
    [.and (ofGranularity .pipeline) (.equal (.column .targetValue) .param)] ++
      if tags.elems = [] then []
      else [.and (ofGranularity .tag)
        (.isIn (.column .targetValue) (List.replicate tags.card .param))]
  branches.foldl .or (ofGranularity .global)

/-- The statement. -/
def recipientsQuery (tags : SortedSet String) : Sql.SelectDistinct Column where
  column := .email
  on := .equal (.column .subscriber) (.column .userId)
  cond := .and (.equal (.column .disabled) (.literal (.integer 0))) (whereOr tags)

/-- Its parameters. -/
def recipientsParams (pipelineType : String) (tags : SortedSet String) : List Sql.Value :=
  .text pipelineType :: tags.elems.map .text

/-- The string that a text column reads as. -/
def textOf : Sql.Value → Option String
  | .text s => some s
  | _ => none

/-- `list_recipients_for_run`. -/
def listRecipientsForRun (pipelineType : String) (tags : SortedSet String) (d : Directory) :
    Except PyException (SortedSet String) :=
  let params := recipientsParams pipelineType tags
  if (recipientsQuery tags).Binds params then
    .ok (.ofList (((recipientsQuery tags).rows columns d.accounts.users.table.rows
      d.subscriptions.table.rows params).filterMap textOf))
  else .error {
    className := "ProgrammingError"
    bases := ["DatabaseError", "Error", "Exception", "BaseException"]
    text := "Incorrect number of bindings supplied. The current statement uses " ++
      toString (recipientsQuery tags).params ++ ", and there are " ++ toString params.length ++
      " supplied." }

end SqliteSubscriptionRepository

/-- A user who is to get the e-mail of a run: enabled, with a subscription that matches. -/
def Directory.IsRecipient (d : Directory) (pipelineType : String) (tags : SortedSet String)
    (email : String) : Prop :=
  ∃ userId user, d.accounts.users.get? userId = some user ∧ user.email = email ∧
    user.disabled = false ∧ ∃ subscriptionId s,
      d.subscriptions.table.get? subscriptionId = some s ∧ s.userId = userId ∧
        s.Matches pipelineType tags

namespace SqliteSubscriptionRepository

variable {pipelineType : String} {tags : SortedSet String} {d : Directory}

theorem value_injective {g g' : SubscriptionGranularity} : g.value = g'.value ↔ g = g' := by
  cases g <;> cases g' <;> simp [SubscriptionGranularity.value]

theorem ofOption_eq_text {o : Option String} {s : String} :
    Sql.Value.ofOption o = .text s ↔ o = some s := by
  cases o <;> simp [Sql.Value.ofOption]

@[simp] theorem holds_ofGranularity {r : (Nat × User) × (Nat × Subscription)}
    {g : SubscriptionGranularity} {ps : List Sql.Value} :
    (ofGranularity g).Holds (columns r) ps ↔ r.2.2.granularity = g := by
  simp [ofGranularity, Sql.Operand.eval, columns, value_injective]

theorem evalList_tags (row : Column → Sql.Value) (tags : SortedSet String) :
    Sql.Operand.evalList row (List.replicate tags.card .param) (tags.elems.map .text) =
      tags.elems.map .text := by
  have h := Sql.Operand.evalList_replicate_param row (tags.elems.map Sql.Value.text) []
  rwa [List.append_nil, List.length_map] at h

/-- **The clause holds** of a row of the join when its subscription matches the run. -/
theorem whereOr_holds {r : (Nat × User) × (Nat × Subscription)} :
    (whereOr tags).Holds (columns r) (recipientsParams pipelineType tags) ↔
      r.2.2.Matches pipelineType tags := by
  have hpipeline : (Sql.Condition.equal (.column .targetValue) .param).Holds (columns r)
      (recipientsParams pipelineType tags) ↔ r.2.2.targetValue = some pipelineType := by
    simp [Sql.Operand.eval, Sql.Operand.params, columns, recipientsParams, ofOption_eq_text]
  have htag : (Sql.Condition.isIn (.column .targetValue) (List.replicate tags.card .param)).Holds
      (columns r) (tags.elems.map .text) ↔ ∃ tag ∈ tags, r.2.2.targetValue = some tag := by
    simp only [Sql.Condition.holds_isIn, Sql.Operand.params, List.drop_zero, evalList_tags,
      Sql.Operand.eval, columns, List.mem_map]
    constructor
    · rintro ⟨⟨tag, htag, h⟩, -⟩
      exact ⟨tag, htag, ofOption_eq_text.mp h.symm⟩
    · rintro ⟨tag, htag, h⟩
      rw [h]
      exact ⟨⟨tag, htag, rfl⟩, by simp [Sql.Value.ofOption]⟩
  unfold whereOr Subscription.Matches
  by_cases htags : tags.elems = []
  · have hnone : ¬∃ tag ∈ tags, r.2.2.targetValue = some tag := by
      rintro ⟨tag, hmem, -⟩
      exact SortedSet.not_mem_of_elems_eq_nil htags tag hmem
    simp only [htags, if_true, List.append_nil, List.foldl_cons, List.foldl_nil,
      Sql.Condition.holds_or, Sql.Condition.holds_and, holds_ofGranularity, hnone, and_false,
      or_false]
    exact or_congr_right (and_congr_right fun _ => hpipeline)
  · simp only [htags, if_false, List.singleton_append, List.foldl_cons, List.foldl_nil,
      Sql.Condition.holds_or, Sql.Condition.holds_and, holds_ofGranularity, or_assoc]
    exact or_congr_right (or_congr (and_congr_right fun _ => hpipeline)
      (and_congr_right fun _ => htag))

/-- **The statement takes the parameters it is given.** -/
theorem binds_recipientsQuery :
    (recipientsQuery tags).Binds (recipientsParams pipelineType tags) := by
  have htag : (List.map Sql.Operand.params
      (List.replicate tags.card (.param : Sql.Operand Column))).sum = tags.elems.length := by
    simp [Sql.Operand.params, SortedSet.card]
  unfold Sql.SelectDistinct.Binds Sql.SelectDistinct.params recipientsQuery whereOr recipientsParams
  by_cases htags : tags.elems = []
  · simp [htags, Sql.Condition.params, Sql.Operand.params, ofGranularity]
  · simp only [htags, if_false, List.singleton_append, List.foldl_cons, List.foldl_nil,
      Sql.Condition.params, Sql.Operand.params, ofGranularity, htag, List.length_cons,
      List.length_map]
    omega

section

variable {r : (Nat × User) × (Nat × Subscription)} {ps : List Sql.Value}

theorem holds_disabled : (Sql.Condition.equal (.column Column.disabled)
    (.literal (.integer 0))).Holds (columns r) ps ↔ r.1.2.disabled = false := by
  cases h : r.1.2.disabled <;> simp [Sql.Operand.eval, columns, h]

theorem holds_on : (Sql.Condition.equal (.column Column.subscriber)
    (.column .userId)).Holds (columns r) ps ↔ r.2.2.userId = r.1.1 := by
  rw [Sql.Condition.holds_equal, Sql.Operand.eval, Sql.Operand.eval, columns, columns,
    Sql.Value.integer.injEq, Int.natCast_inj]
  exact and_iff_left Sql.Value.noConfusion

/-- The rows of the join that the statement selects. -/
theorem selects_iff : ((recipientsQuery tags).on.Holds (columns r)
      (recipientsParams pipelineType tags) ∧
    (recipientsQuery tags).cond.Holds (columns r)
      ((recipientsParams pipelineType tags).drop (recipientsQuery tags).on.params)) ↔
    r.2.2.userId = r.1.1 ∧ r.1.2.disabled = false ∧ r.2.2.Matches pipelineType tags := by
  rw [← whereOr_holds]
  exact and_congr holds_on (Sql.Condition.holds_and.trans (and_congr_left fun _ => holds_disabled))

end

/-- **Recipient resolution.** The query returns the addresses of the recipients. -/
theorem exists_listRecipientsForRun (d : Directory) (pipelineType : String)
    (tags : SortedSet String) :
    ∃ emails, listRecipientsForRun pipelineType tags d = .ok emails ∧
      ∀ email, email ∈ emails ↔ d.IsRecipient pipelineType tags email := by
  refine ⟨_, if_pos binds_recipientsQuery, fun email => ?_⟩
  simp only [SortedSet.mem_ofList, List.mem_filterMap, Sql.mem_selectDistinct]
  constructor
  · rintro ⟨v, ⟨u, hu, s, hs, hon, hcond, rfl⟩, hv⟩
    obtain ⟨huser, hdisabled, hmatch⟩ := selects_iff.mp ⟨hon, hcond⟩
    exact ⟨u.1, u.2, Serial.mem_iff_get?.mp hu, Option.some.inj hv, hdisabled, s.1, s.2,
      Serial.mem_iff_get?.mp hs, huser, hmatch⟩
  · rintro ⟨userId, user, hu, rfl, hdisabled, id, s, hs, huser, hmatch⟩
    obtain ⟨hon, hcond⟩ := (selects_iff (r := ((userId, user), (id, s)))).mpr
      ⟨huser, hdisabled, hmatch⟩
    exact ⟨.text user.email, ⟨(userId, user), Serial.mem_iff_get?.mpr hu, (id, s),
      Serial.mem_iff_get?.mpr hs, hon, hcond, rfl⟩, rfl⟩

/-! ## The query of the deliveries -/

end SqliteSubscriptionRepository

/-- The two tables as the deliveries see them. -/
def Directory.toDb (d : Directory) : Db where
  users := d.accounts.users.table.map fun user => ⟨user.email, user.disabled⟩
  subscriptions := d.subscriptions.table.map fun s => ⟨s.userId, s.granularity, s.targetValue⟩

namespace SqliteSubscriptionRepository

theorem isMatch_iff {s : Subscription} : SubscriptionRepository.isMatch pipelineType tags
    ⟨s.userId, s.granularity, s.targetValue⟩ = true ↔ s.Matches pipelineType tags := by
  unfold SubscriptionRepository.isMatch Subscription.Matches
  cases s.granularity with
  | global => simp
  | pipeline => cases s.targetValue <;> simp
  | tag => cases s.targetValue <;> simp [eq_comm]

/-- **It is the query of the deliveries.** -/
theorem listRecipientsForRun_toDb (d : Directory) (pipelineType : String)
    (tags : SortedSet String) : listRecipientsForRun pipelineType tags d =
      .ok (SubscriptionRepository.recipients d.toDb pipelineType tags) := by
  obtain ⟨emails, hemails, hmem⟩ := exists_listRecipientsForRun d pipelineType tags
  rw [hemails]
  refine congrArg Except.ok (SortedSet.ext_of_mem fun email => ?_)
  simp only [hmem, SubscriptionRepository.recipients, SortedSet.mem_ofList, List.mem_filterMap,
    Directory.toDb, Serial.map, List.mem_map, List.any_map, Option.ite_none_right_eq_some,
    Bool.and_eq_true, Bool.not_eq_true', List.any_eq_true, Function.comp, decide_eq_true_eq,
    Option.some.injEq]
  constructor
  · rintro ⟨userId, user, hu, rfl, hdisabled, id, s, hs, huser, hmatch⟩
    exact ⟨_, ⟨(userId, user), Serial.mem_iff_get?.mpr hu, rfl⟩,
      ⟨hdisabled, (id, s), Serial.mem_iff_get?.mpr hs, huser, isMatch_iff.mpr hmatch⟩, rfl⟩
  · rintro ⟨_, ⟨u, hu, rfl⟩, ⟨hdisabled, s, hs, huser, hmatch⟩, rfl⟩
    exact ⟨u.1, u.2, Serial.mem_iff_get?.mp hu, rfl, hdisabled, s.1, s.2,
      Serial.mem_iff_get?.mp hs, huser, isMatch_iff.mp hmatch⟩

end SqliteSubscriptionRepository

end MessageService.Infrastructure
