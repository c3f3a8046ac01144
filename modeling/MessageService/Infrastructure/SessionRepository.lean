import MessageService.Domain.Clock
import MessageService.Lib.Table

/-!
# Sessions

Model of `domain/aggregates/session.py` and `infrastructure/persistence/session_repository.py`:
the `sessions` table, keyed by the hash of the session token, with its `CHECK`s as fields of the
row.

A row is looked up by a hash this service computed, so the check of `Session.__post_init__` that
the column is hexadecimal cannot fail on the row it finds.
-/

namespace MessageService.Infrastructure

open MessageService.Domain MessageService.Lib

/-- A row of `sessions` (`Session`). -/
structure Session where
  tokenHash : String
  userId : Int
  createdAt : Instant
  lastActivityAt : Instant
  /-- `CHECK (length(token_hash) = 64)`. -/
  hashLength : tokenHash.length = 64
  /-- `CHECK (last_activity_at >= created_at)`. -/
  activity : createdAt ≤ lastActivityAt
  deriving DecidableEq

/-- The row with its `last_activity_at` set to `now`, where its `CHECK` allows that. -/
def Session.touched (r : Session) (now : Instant) : Session :=
  if h : r.createdAt ≤ now then { r with lastActivityAt := now, activity := h } else r

theorem Session.tokenHash_touched (r : Session) (now : Instant) :
    (r.touched now).tokenHash = r.tokenHash := by
  unfold touched
  split <;> rfl

/-- The `sessions` table. -/
abbrev Sessions := Table Session.tokenHash

namespace Sessions

/-- `save`, refused by the primary key when the hash is taken. -/
def save (t : Sessions) (session : Session) : Option Sessions :=
  if h : t.get? session.tokenHash = none then some (t.append session h) else none

/-- `delete_by_user_id`. -/
def deleteByUserId (t : Sessions) (userId : Int) : Sessions := t.filter fun r => r.userId ≠ userId

/-- `get_by_token_hash`. -/
def getByTokenHash (t : Sessions) (tokenHash : String) : Option Session := t.get? tokenHash

/-- `touch`, refused by the `CHECK` when the clock has stepped back behind `created_at`. -/
def touch (t : Sessions) (tokenHash : String) (now : Instant) : Option Sessions :=
  if (t.get? tokenHash).all fun r => r.createdAt ≤ now then
    some (t.modify tokenHash (·.touched now) fun r hr => by rw [r.tokenHash_touched, hr])
  else none

/-- `delete_by_token_hash`. -/
def deleteByTokenHash (t : Sessions) (tokenHash : String) : Sessions :=
  t.filter fun r => r.tokenHash ≠ tokenHash

theorem getByTokenHash_delete (t : Sessions) (tokenHash k : String) :
    (t.deleteByTokenHash tokenHash).getByTokenHash k =
      if k = tokenHash then none else t.getByTokenHash k := by
  simp only [getByTokenHash, deleteByTokenHash, Table.get?_filter]
  cases h : t.get? k with
  | none => simp
  | some r =>
    have hk : r.tokenHash = k := Table.key_of_get? h
    by_cases e : k = tokenHash <;> simp [Option.filter_some, hk, e]

theorem getByTokenHash_touch {t t' : Sessions} {tokenHash : String} {now : Instant}
    (h : t.touch tokenHash now = some t') (k : String) :
    t'.getByTokenHash k =
      if k = tokenHash then (t.getByTokenHash k).map (·.touched now) else t.getByTokenHash k := by
  simp only [touch, Option.ite_none_right_eq_some, Option.some.injEq] at h
  obtain ⟨-, rfl⟩ := h
  exact Table.get?_modify _ _ _ _ _

theorem getByTokenHash_save {t t' : Sessions} {session : Session} (h : t.save session = some t')
    (k : String) :
    t'.getByTokenHash k =
      if k = session.tokenHash then some session else t.getByTokenHash k := by
  unfold save at h
  split at h
  · next hnew =>
    obtain rfl := Option.some.inj h
    exact Table.get?_append t session hnew k
  · cases h

theorem getByTokenHash_deleteByUserId {t : Sessions} {userId : Int} {k : String} {r : Session} :
    (t.deleteByUserId userId).getByTokenHash k = some r ↔
      t.getByTokenHash k = some r ∧ r.userId ≠ userId := by
  simp only [getByTokenHash, deleteByUserId, Table.get?_filter, Option.filter_eq_some_iff,
    decide_eq_true_eq]

end Sessions

end MessageService.Infrastructure
