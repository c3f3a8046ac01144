import MessageService.Application.Acceptance
import MessageService.Interfaces.Servicer
import MessageService.System.Handoff
import MessageService.System.Pinning
import MessageService.System.RunDetails

/-!
# What the RPCs answer

The RPCs of `MessageServiceServicer`, from the request to the answer, over the database of the
service. An answer is a response, or a status code with the error code of the exception.

* `serviceable_of_reach`: in a reachable state of a service whose clock does not put a run before its
  creation, no use case of a pipeline meets a row that it cannot work with.
* `rpc_status`: so what an RPC answers is read off a table where its unit of work commits, and
  `INTERNAL` is answered only where the unit of work fails, for a `Struct` that cannot be read and
  while the service shuts down.
* `begun_run_answers`: what the answers for a run are from its `BeginRun` on.
-/

namespace MessageService.System

open MessageService.Domain MessageService.Lib MessageService.Infrastructure
open MessageService.Application MessageService.Interfaces

/-! ## The rows the use cases work with -/

/-- Every stage is in a state that takes submissions. -/
def Submittable (db : Db) : Prop :=
  ∀ k stage, db.stages.get? k = some stage → stage.state ∈ stageSubmissionSources

theorem nextStageState_mem (s : StageState) : nextStageState s ∈ stageSubmissionSources := by
  unfold nextStageState
  split <;> decide

theorem submittable_of_reach {cfg : Config} {w : World} (h : (service cfg).Reach w) :
    Submittable w.db := by
  refine System.inv_of_reach_and (I := fun w => Submittable w.db) ?_ ?_ h
  · rintro w ⟨users, subscriptions, rfl⟩ k stage hstage
    cases hstage
  · intro w l w' hreach hs hstep k stage hstage
    obtain hsame | ⟨-, -, -, is⟩ | ⟨-, -, -, is⟩ := stage_of_step (owned_of_reach hreach) hstep k
    · exact hs k stage (hsame.symm.trans hstage)
    · obtain rfl := Option.some.inj (is.symm.trans hstage)
      simp [initialStage, stageSubmissionSources]
    · obtain rfl := Option.some.inj (is.symm.trans hstage)
      exact nextStageState_mem _

/-- **The use cases of a pipeline find the rows they need.** -/
theorem serviceable_of_reach {cfg : Config} {w : World}
    (h : ((service cfg).restrict OnTime).Reach w) : Serviceable w.db where
  decodes := decodes_of_reach h
  staffed k row hrow stageId hdeclared := by
    have hreach := System.reach_of_restrict h
    obtain ⟨current, hcurrent⟩ := Option.ne_none_iff_exists'.mp
      ((staffed_of_reach hreach k row hrow stageId).mpr hdeclared)
    exact ⟨current, hcurrent, submittable_of_reach hreach _ current hcurrent⟩

/-! ## The RPCs -/

/-- What a unit of work that fails raises. -/
inductive UnitFailure where
  /-- The `PersistenceError` of `__aenter__`, where `BEGIN` fails, or of `__aexit__`, where the
  commit does. -/
  | persistence (message : String) (details : Dict Json)
  /-- What a statement of a repository raises, or a cancellation: as it is. -/
  | through (exc : PyException)

/-- The exception. -/
def UnitFailure.raised : UnitFailure → Raised ServiceError
  | persistence message details => .own {
      errorClass := .persistenceError
      message := message
      details := details }
  | through exc => .through exc

/-- What becomes of the unit of work of a call. -/
inductive CallFate where
  | commits
  | fails (failure : UnitFailure)
  /-- The process dies before the commit. -/
  | dies
  /-- The commit succeeds and the call is cancelled, or the process dies, right there. -/
  | lost

/-- What becomes of the database. -/
def CallFate.tx : CallFate → Tx.Fate
  | commits => .commits
  | fails _ | dies => .fails
  | lost => .lost

/-- How a call of an RPC ends. -/
inductive RpcEnds (ρ : Type) where
  | response (r : ρ)
  | aborted (a : RpcAbort)
  /-- Cancelled, or the process dies: without an answer. -/
  | broken

/-- `pb.BeginRunResponse`. -/
structure BeginRunResponse where
  runId : RunId
  initiatedAt : Instant

/-- `pb.SubmitStageReportResponse`. -/
structure SubmitStageReportResponse where
  acceptedAt : Instant
  wasRetry : Bool

/-- `pb.FinalizeRunResponse`. -/
structure FinalizeRunResponse where
  finalizedAt : Instant

/-- What is outside of the RPCs: the generated module, `MessageToDict` and the call's context. -/
structure Wire (Struct : Type) where
  pb : PbModule
  reader : StructReader Struct
  ctx : RpcContext

section

variable {Struct : Type} (wire : Wire Struct)

/-- The end of an RPC whose body raises. -/
def exceptEnd {ρ : Type} (e : Raised ServiceError) : RpcEnds ρ :=
  match translateToGrpcStatus wire.ctx e with
  | some a => .aborted a
  | none => .broken

/-- The end of an RPC whose unit of work does not commit. -/
def brokenEnd {ρ : Type} : CallFate → RpcEnds ρ
  | .fails failure => exceptEnd wire failure.raised
  | .commits | .dies | .lost => .broken

/-- The end of an RPC whose use case does not return. -/
def raisedEnd {ρ : Type} (fate : CallFate) : Tx.Outcome ServiceError Unit → RpcEnds ρ
  | .raised e => exceptEnd wire (.own e)
  | .returned _ | .broken => brokenEnd wire fate

/-- `BeginRun`; `answeredAt` is read after the unit of work. -/
def beginRunRpc (ports : BeginRunPorts) (req : BeginRunRequest wire.pb) (runId : RunId)
    (now answeredAt : Instant) (fate : CallFate) (db : Db) : RpcEnds BeginRunResponse × Db :=
  match beginRunCommand wire.pb req with
  | .error e => (exceptEnd wire (.own e), db)
  | .ok cmd =>
    (beginRun ports cmd runId now).resume fate.tx (fun runId => .response ⟨runId, answeredAt⟩)
      (raisedEnd wire fate) db

/-- `SubmitStageReport`. -/
def submitStageReportRpc (req : SubmitStageReportRequest Struct) (now answeredAt : Instant)
    (fate : CallFate) (db : Db) : RpcEnds SubmitStageReportResponse × Db :=
  match submitCommand wire.pb wire.reader req with
  | .error e => (exceptEnd wire e, db)
  | .ok cmd =>
    (submitStageReport cmd now).resume fate.tx
      (fun result => .response ⟨answeredAt, result.wasRetry⟩) (raisedEnd wire fate) db

/-- The end of `FinalizeRun`. -/
def CallOutcome.rpcEnd (answeredAt : Instant) (fate : CallFate) :
    CallOutcome → RpcEnds FinalizeRunResponse
  | .returned _ => .response ⟨answeredAt⟩
  | .raised e => exceptEnd wire (.own e)
  | .broken => brokenEnd wire fate
  | .refused _ => .aborted (translateUnexpected wire.ctx)

/-- `FinalizeRun`. -/
def finalizeRunRpc (req : FinalizeRunRequest) (now answeredAt : Instant) (fate : CallFate)
    (scheduler : AsyncioBackgroundTaskScheduler Delivery) (db : Db) :
    RpcEnds FinalizeRunResponse × Db :=
  match finalizeCommand req with
  | .error e => (exceptEnd wire (.own e), db)
  | .ok cmd =>
    let r := executeFinalizeRun cmd now fate.tx scheduler db
    (r.1.1.rpcEnd wire answeredAt fate, r.2)

end

/-! ## Answers -/

/-- The status code, with the error code where it is not `OK`. -/
inductive Status where
  | ok
  | error (code : Nat) (errorCode : String)
  deriving DecidableEq

/-- The status of an unexpected exception. -/
def Status.internal : Status := .error 13 "ERROR_CODE_INTERNAL"

/-- The status of an exception of the service. -/
def Status.ofClass (c : ErrorClass) : Status :=
  match wireError c with
  | some (category, errorCode) => .error category.statusCode errorCode
  | none => .internal

/-- The status of a use case that rejects its command for `v`, if for anything. -/
def Status.ofRejection (v : Option ErrorClass) : Status := v.elim .ok .ofClass

/-- The status that a call ends with, if it has an answer. -/
def RpcEnds.status {ρ : Type} : RpcEnds ρ → Option Status
  | .response _ => some .ok
  | .aborted a => some (.error a.code a.errorCode)
  | .broken => none

/-- The status of an RPC whose unit of work fails. -/
def UnitFailure.status : UnitFailure → Option Status
  | persistence _ _ => some .internal
  | through exc => if exc.isA "Exception" then some .internal else none

section

variable {Struct : Type} (wire : Wire Struct)

/-- What `BeginRun` answers. -/
def beginStatus (ports : BeginRunPorts) (req : BeginRunRequest wire.pb) : Status :=
  match beginRunCommand wire.pb req with
  | .error _ => .ofClass .malformedRequestError
  | .ok cmd => .ofRejection (beginRejection ports cmd)

/-- What `SubmitStageReport` answers. -/
def submitStatus (db : Db) (req : SubmitStageReportRequest Struct) : Option Status :=
  match submitCommand wire.pb wire.reader req with
  | .error (.own _) => some (.ofClass .malformedRequestError)
  | .error (.through exc) => if exc.isA "Exception" then some .internal else none
  | .ok cmd => some (.ofRejection (submitRejection db cmd))

/-- What `FinalizeRun` answers. -/
def finalizeStatus (db : Db) (shuttingDown : Bool) (req : FinalizeRunRequest) : Status :=
  match finalizeCommand req with
  | .error _ => .ofClass .malformedRequestError
  | .ok cmd =>
    match finalizeRejection db cmd with
    | some c => .ofClass c
    | none => if shuttingDown then .internal else .ok

variable {wire}

theorem status_translateService {ρ : Type} (e : ServiceError) :
    (RpcEnds.aborted (translateService wire.ctx e) : RpcEnds ρ).status =
      some (.ofClass e.errorClass) := by
  unfold translateService Status.ofClass
  cases wireError e.errorClass <;> rfl

theorem status_exceptEnd_through {ρ : Type} (exc : PyException) :
    (exceptEnd wire (.through exc) : RpcEnds ρ).status =
      if exc.isA "Exception" then some .internal else none := by
  simp only [exceptEnd, translateToGrpcStatus]
  by_cases h : exc.isA "Exception" = true
  · rw [if_pos h, if_pos h]
    rfl
  · rw [if_neg h, if_neg h]
    rfl

/-- The status of a request that the service rejects itself. -/
theorem status_exceptEnd_malformed {ρ : Type} {e : ServiceError} (he : IsMalformed e) :
    (exceptEnd wire (.own e) : RpcEnds ρ).status = some (.ofClass .malformedRequestError) :=
  (status_translateService e).trans (by rw [he])

theorem status_brokenEnd_fails {ρ : Type} (failure : UnitFailure) :
    (brokenEnd wire (.fails failure) : RpcEnds ρ).status = failure.status := by
  cases failure with
  | persistence message details => exact status_translateService _
  | through exc => exact status_exceptEnd_through exc

section

variable {α ρ : Type} {x : Transaction α} {next : α → RpcEnds ρ} {db : Db}

/-- The status of an RPC whose unit of work commits. -/
theorem status_resume (hnext : ∀ a, (next a).status = some .ok) :
    (x.resume .commits next (raisedEnd wire .commits) db).1.status =
      some (.ofRejection (rejects x db)) := by
  cases hx : x db with
  | ok r =>
    obtain ⟨a, db'⟩ := r
    rw [Tx.resume_of_ok hx, hnext, rejects, Tx.rejection_of_ok hx]
    rfl
  | error e =>
    rw [Tx.resume_of_error hx, rejects, Tx.rejection_of_error hx]
    exact status_translateService e

/-- The status of an RPC whose unit of work fails. -/
theorem status_resume_fails (failure : UnitFailure) :
    (x.resume .fails next (raisedEnd wire (.fails failure)) db).1.status = failure.status := by
  have hbroken : (x.resume .fails next (raisedEnd wire (.fails failure)) db).1 =
      brokenEnd wire (.fails failure) := by
    cases hx : x db <;> simp only [Tx.resume, Tx.commit, hx] <;> rfl
  rw [hbroken]
  exact status_brokenEnd_fails failure

/-- Where an RPC is answered `INTERNAL`. -/
theorem internal_of_resume {fate : CallFate} (hnext : ∀ a, (next a).status = some .ok)
    (hrejects : Status.ofRejection (rejects x db) ≠ .internal)
    (h : (x.resume fate.tx next (raisedEnd wire fate) db).1.status = some .internal) :
    ∃ failure, fate = .fails failure := by
  cases fate with
  | commits =>
    rw [CallFate.tx, status_resume hnext] at h
    exact absurd (Option.some.inj h) hrejects
  | fails failure => exact ⟨failure, rfl⟩
  | dies => cases hx : x db <;> simp only [Tx.resume, Tx.commit, CallFate.tx, hx] at h <;> cases h
  | lost =>
    cases hx : x db with
    | ok r =>
      simp only [Tx.resume, Tx.commit, CallFate.tx, hx] at h
      cases h
    | error e =>
      simp only [Tx.resume, Tx.commit, CallFate.tx, hx] at h
      rw [rejects, Tx.rejection_of_error hx] at hrejects
      exact absurd (Option.some.inj ((status_translateService e).symm.trans h)) hrejects

/-- A call that is aborted leaves the database as it was. -/
theorem db_of_aborted_resume {fate : CallFate} (hnext : ∀ a, ∃ r, next a = .response r)
    {a : RpcAbort} (h : (x.resume fate.tx next (raisedEnd wire fate) db).1 = .aborted a) :
    (x.resume fate.tx next (raisedEnd wire fate) db).2 = db := by
  rw [Tx.resume_snd]
  cases hx : x db with
  | error e => exact Tx.commit_snd_of_error hx
  | ok r =>
    rw [Tx.commit_snd_of_ok hx]
    cases fate with
    | fails failure => rfl
    | dies => rfl
    | commits =>
      obtain ⟨response, hresponse⟩ := hnext r.1
      rw [CallFate.tx, Tx.resume_of_ok hx, hresponse] at h
      cases h
    | lost =>
      simp only [Tx.resume, Tx.commit, CallFate.tx, hx] at h
      cases h

end

/-! ## The three RPCs -/

/-- `InMemoryTemplateRepository` raises what the port documents. -/
theorem documented_toRepository {V : Type} [Preorder V] [DecidableLT V] {parse : String → Option V}
    {entries : Manifest} {ports : BeginRunPorts}
    (h : ports.templateRepo = entries.toRepository parse) : ports.Documented := by
  intro name e he
  rw [h] at he
  change entries.resolveLatest parse name = .error e at he
  unfold Manifest.resolveLatest at he
  split at he
  · cases he
  · rw [← Except.error.inj he]

theorem status_beginRunRpc {ports : BeginRunPorts} (hports : ports.Documented)
    (req : BeginRunRequest wire.pb) (runId : RunId) (now answeredAt : Instant) (db : Db) :
    (beginRunRpc wire ports req runId now answeredAt .commits db).1.status =
      some (beginStatus wire ports req) := by
  unfold beginRunRpc beginStatus
  cases hreq : beginRunCommand wire.pb req with
  | error e => exact status_exceptEnd_malformed (isMalformed_of_beginRunCommand hreq)
  | ok cmd =>
    simp only [← rejection_beginRun hports cmd runId now db]
    exact status_resume fun _ => rfl

theorem status_submitStageReportRpc {db : Db} (hdb : Serviceable db)
    (req : SubmitStageReportRequest Struct) (now answeredAt : Instant) :
    (submitStageReportRpc wire req now answeredAt .commits db).1.status =
      submitStatus wire db req := by
  unfold submitStageReportRpc submitStatus
  cases hreq : submitCommand wire.pb wire.reader req with
  | error raised =>
    cases raised with
    | own e => exact status_exceptEnd_malformed (ownErrors_submitCommand _ _ e hreq)
    | through exc => exact status_exceptEnd_through exc
  | ok cmd =>
    simp only [← rejection_submitStageReport hdb cmd now]
    exact status_resume fun _ => rfl

/-- The status of `FinalizeRun` once its request is read. -/
theorem status_executeFinalizeRun {db : Db} (hdb : Serviceable db) (cmd : FinalizeRunCommand)
    (now answeredAt : Instant) (s : AsyncioBackgroundTaskScheduler Delivery) :
    ((executeFinalizeRun cmd now .commits s db).1.1.rpcEnd wire answeredAt .commits).status =
      some (match finalizeRejection db cmd with
        | some c => .ofClass c
        | none => if s.shuttingDown then .internal else .ok) := by
  have hrejects := rejection_finalizeRun hdb cmd now
  cases hx : finalizeRun cmd now db with
  | ok r =>
    obtain ⟨result, db'⟩ := r
    rw [rejects, Tx.rejection_of_ok hx] at hrejects
    rw [← hrejects, executeFinalizeRun, Tx.resume_of_ok hx]
    cases hs : s.shuttingDown with
    | false => rw [AsyncioBackgroundTaskScheduler.schedule_ok _ hs]; rfl
    | true => rw [AsyncioBackgroundTaskScheduler.schedule_error _ hs]; rfl
  | error e =>
    rw [rejects, Tx.rejection_of_error hx] at hrejects
    rw [← hrejects, executeFinalizeRun, Tx.resume_of_error hx]
    exact status_translateService e

theorem status_finalizeRunRpc {db : Db} (hdb : Serviceable db) (req : FinalizeRunRequest)
    (now answeredAt : Instant) (s : AsyncioBackgroundTaskScheduler Delivery) :
    (finalizeRunRpc wire req now answeredAt .commits s db).1.status =
      some (finalizeStatus db s.shuttingDown req) := by
  unfold finalizeRunRpc finalizeStatus
  cases hreq : finalizeCommand req with
  | error e => exact status_exceptEnd_malformed (isMalformed_of_finalizeCommand hreq)
  | ok cmd => exact status_executeFinalizeRun hdb cmd now answeredAt s

/-- The end of `FinalizeRun` where its unit of work is rolled back. -/
theorem rpcEnd_of_fails {cmd : FinalizeRunCommand} {now answeredAt : Instant} {fate : CallFate}
    {s : AsyncioBackgroundTaskScheduler Delivery} {db : Db} :
    (executeFinalizeRun cmd now .fails s db).1.1.rpcEnd wire answeredAt fate =
      brokenEnd wire fate := by
  cases hx : finalizeRun cmd now db <;>
    simp only [executeFinalizeRun, Tx.resume, Tx.commit, hx, CallOutcome.rpcEnd]

/-- Where `FinalizeRun` is answered `INTERNAL`. -/
theorem internal_of_executeFinalizeRun {db : Db} (hdb : Serviceable db) {cmd : FinalizeRunCommand}
    {now answeredAt : Instant} {fate : CallFate} {s : AsyncioBackgroundTaskScheduler Delivery}
    (hrejects : ∀ c, finalizeRejection db cmd = some c → Status.ofClass c ≠ .internal)
    (h : ((executeFinalizeRun cmd now fate.tx s db).1.1.rpcEnd wire answeredAt fate).status =
      some .internal) : (∃ failure, fate = .fails failure) ∨ s.shuttingDown = true := by
  cases fate with
  | fails failure => exact .inl ⟨failure, rfl⟩
  | dies =>
    rw [CallFate.tx, rpcEnd_of_fails] at h
    cases h
  | commits =>
    rw [CallFate.tx, status_executeFinalizeRun hdb] at h
    split at h
    · next c hc => exact absurd (Option.some.inj h) (hrejects c hc)
    · split_ifs at h with hs
      · exact .inr hs
      · cases h
  | lost =>
    have hrejection := rejection_finalizeRun hdb cmd now
    cases hx : finalizeRun cmd now db with
    | ok r =>
      simp only [executeFinalizeRun, Tx.resume, Tx.commit, CallFate.tx, hx] at h
      cases h
    | error e =>
      rw [rejects, Tx.rejection_of_error hx] at hrejection
      simp only [executeFinalizeRun, Tx.resume, Tx.commit, CallFate.tx, hx] at h
      exact absurd (Option.some.inj ((status_translateService e).symm.trans h))
        (hrejects _ hrejection.symm)

/-- A `FinalizeRun` that is aborted leaves the database as it was, unless it is the shutdown that
aborts it. -/
theorem db_of_aborted_finalizeRun {cmd : FinalizeRunCommand} {now answeredAt : Instant}
    {fate : CallFate} {s : AsyncioBackgroundTaskScheduler Delivery} {db : Db} {a : RpcAbort}
    (h : (executeFinalizeRun cmd now fate.tx s db).1.1.rpcEnd wire answeredAt fate = .aborted a) :
    (executeFinalizeRun cmd now fate.tx s db).2 = db ∨
      s.shuttingDown = true ∧ a = translateUnexpected wire.ctx := by
  have hdb : (executeFinalizeRun cmd now fate.tx s db).2 =
      ((finalizeRun cmd now).commit fate.tx db).2 := Tx.resume_snd ..
  rw [hdb]
  cases hx : finalizeRun cmd now db with
  | error e => exact .inl (Tx.commit_snd_of_error hx)
  | ok r =>
    rw [Tx.commit_snd_of_ok hx]
    cases fate with
    | fails failure => exact .inl rfl
    | dies => exact .inl rfl
    | lost =>
      simp only [executeFinalizeRun, Tx.resume, Tx.commit, CallFate.tx, hx] at h
      cases h
    | commits =>
      right
      rw [executeFinalizeRun, CallFate.tx, Tx.resume_of_ok hx] at h
      cases hs : s.shuttingDown with
      | false =>
        rw [AsyncioBackgroundTaskScheduler.schedule_ok _ hs] at h
        cases h
      | true =>
        rw [AsyncioBackgroundTaskScheduler.schedule_error _ hs] at h
        exact ⟨rfl, (RpcEnds.aborted.inj h).symm⟩

/-! ## What is never answered -/

/-- What the use cases of a pipeline reject a command for. -/
def pipelineErrors : List ErrorClass :=
  [.unknownPipelineTypeError, .unknownTagError, .duplicateStageIdError,
    .missingAggregationTemplateError, .unknownTemplateError, .malformedRequestError,
    .runNotFoundError, .invalidRunStateError, .unknownStageError]

theorem ofClass_ne_internal {c : ErrorClass} (h : c ∈ pipelineErrors) :
    Status.ofClass c ≠ .internal := by
  cases c <;> first | exact absurd h (by decide) | (intro h; cases h)

/-- A request that the service rejects itself is not answered `INTERNAL`. -/
theorem malformed_ne_internal {ρ : Type} {e : ServiceError} (he : IsMalformed e) :
    (exceptEnd wire (.own e) : RpcEnds ρ).status ≠ some .internal := by
  rw [status_exceptEnd_malformed he]
  exact fun h => ofClass_ne_internal (by decide) (Option.some.inj h)

theorem ofClass_ne_ok (c : ErrorClass) : Status.ofClass c ≠ .ok := by
  unfold Status.ofClass
  split <;> simp [Status.internal]

theorem ofRejection_ne_internal {v : Option ErrorClass} (h : ∀ c, v = some c → c ∈ pipelineErrors) :
    Status.ofRejection v ≠ .internal := by
  cases v with
  | none => simp [Status.ofRejection, Status.internal]
  | some c => exact ofClass_ne_internal (h c rfl)

theorem beginRejection_mem {ports : BeginRunPorts} {cmd : BeginRunCommand} {c : ErrorClass}
    (h : beginRejection ports cmd = some c) : c ∈ pipelineErrors := by
  unfold beginRejection at h
  split_ifs at h <;> rw [← Option.some.inj h] <;> decide

theorem submitRejection_mem {db : Db} {cmd : SubmitStageReportCommand} {c : ErrorClass}
    (h : submitRejection db cmd = some c) : c ∈ pipelineErrors := by
  unfold submitRejection at h
  split_ifs at h
  · rw [← Option.some.inj h]
    decide
  · split at h
    · rw [← Option.some.inj h]
      decide
    · split_ifs at h <;> rw [← Option.some.inj h] <;> decide

theorem finalizeRejection_mem {db : Db} {cmd : FinalizeRunCommand} {c : ErrorClass}
    (h : finalizeRejection db cmd = some c) : c ∈ pipelineErrors := by
  unfold finalizeRejection at h
  split_ifs at h
  · rw [← Option.some.inj h]
    decide
  · split at h
    · rw [← Option.some.inj h]
      decide
    · split_ifs at h
      rw [← Option.some.inj h]
      decide

/-! ## The theorem -/

/-- What the RPCs answer over a database. -/
structure Answers {Struct : Type} (wire : Wire Struct) (ports : BeginRunPorts) (db : Db) : Prop where
  beginRun : ∀ req runId now answeredAt,
    (beginRunRpc wire ports req runId now answeredAt .commits db).1.status =
      some (beginStatus wire ports req)
  submitStageReport : ∀ req now answeredAt,
    (submitStageReportRpc wire req now answeredAt .commits db).1.status =
      submitStatus wire db req
  finalizeRun : ∀ req now answeredAt s,
    (finalizeRunRpc wire req now answeredAt .commits s db).1.status =
      some (finalizeStatus db s.shuttingDown req)
  /-- Where a unit of work fails, the answer is what it raises. -/
  beginRun_fails : ∀ req cmd runId now answeredAt failure, beginRunCommand wire.pb req = .ok cmd →
    (beginRunRpc wire ports req runId now answeredAt (.fails failure) db).1.status = failure.status
  submitStageReport_fails : ∀ req cmd now answeredAt failure,
    submitCommand wire.pb wire.reader req = .ok cmd →
    (submitStageReportRpc wire req now answeredAt (.fails failure) db).1.status = failure.status
  finalizeRun_fails : ∀ req cmd now answeredAt failure s, finalizeCommand req = .ok cmd →
    (finalizeRunRpc wire req now answeredAt (.fails failure) s db).1.status = failure.status
  /-- `INTERNAL` is the fault of neither the pipeline nor the rows. -/
  beginRun_internal : ∀ req runId now answeredAt fate,
    (beginRunRpc wire ports req runId now answeredAt fate db).1.status = some .internal →
      ∃ failure, fate = .fails failure
  submitStageReport_internal : ∀ req now answeredAt fate,
    (submitStageReportRpc wire req now answeredAt fate db).1.status = some .internal →
      (∃ failure, fate = .fails failure) ∨
        ∃ exc, submitCommand wire.pb wire.reader req = .error (.through exc)
  finalizeRun_internal : ∀ req now answeredAt fate s,
    (finalizeRunRpc wire req now answeredAt fate s db).1.status = some .internal →
      (∃ failure, fate = .fails failure) ∨ s.shuttingDown = true
  /-- What is aborted changes nothing, whatever becomes of the unit of work. -/
  beginRun_aborted : ∀ req runId now answeredAt fate a,
    (beginRunRpc wire ports req runId now answeredAt fate db).1 = .aborted a →
      (beginRunRpc wire ports req runId now answeredAt fate db).2 = db
  submitStageReport_aborted : ∀ req now answeredAt fate a,
    (submitStageReportRpc wire req now answeredAt fate db).1 = .aborted a →
      (submitStageReportRpc wire req now answeredAt fate db).2 = db
  finalizeRun_aborted : ∀ req now answeredAt fate s a,
    (finalizeRunRpc wire req now answeredAt fate s db).1 = .aborted a →
      (finalizeRunRpc wire req now answeredAt fate s db).2 = db ∨
        s.shuttingDown = true ∧ a = translateUnexpected wire.ctx

/-- **What the RPCs answer.** In every state that a service reaches whose clock puts no run before
its creation, what an RPC whose unit of work commits answers is read off the tables; one whose unit
of work fails is answered `INTERNAL`, and else only one whose `Struct` cannot be read and one that
the shutdown refuses; and what is aborted changes nothing, that refusal apart. -/
theorem rpc_status {Struct V : Type} [Preorder V] [DecidableLT V] {parse : String → Option V}
    {entries : Manifest} (wire : Wire Struct) {cfg : Config}
    (hports : cfg.beginRun.templateRepo = entries.toRepository parse) {w : World}
    (h : ((service cfg).restrict OnTime).Reach w) : Answers wire cfg.beginRun w.db := by
  have hdb := serviceable_of_reach h
  have hdocumented := documented_toRepository hports
  refine {
    beginRun := fun req runId now answeredAt =>
      status_beginRunRpc hdocumented req runId now answeredAt w.db
    submitStageReport := status_submitStageReportRpc hdb
    finalizeRun := status_finalizeRunRpc hdb
    beginRun_fails := fun req cmd runId now answeredAt failure hreq => ?_
    submitStageReport_fails := fun req cmd now answeredAt failure hreq => ?_
    finalizeRun_fails := fun req cmd now answeredAt failure s hreq => ?_
    beginRun_internal := fun req runId now answeredAt fate ha => ?_
    submitStageReport_internal := fun req now answeredAt fate ha => ?_
    finalizeRun_internal := fun req now answeredAt fate s ha => ?_
    beginRun_aborted := fun req runId now answeredAt fate a ha => ?_
    submitStageReport_aborted := fun req now answeredAt fate a ha => ?_
    finalizeRun_aborted := fun req now answeredAt fate s a ha => ?_ }
  · simp only [beginRunRpc, hreq]
    exact status_resume_fails failure
  · simp only [submitStageReportRpc, hreq]
    exact status_resume_fails failure
  · simp only [finalizeRunRpc, hreq, CallFate.tx, rpcEnd_of_fails]
    exact status_brokenEnd_fails failure
  · unfold beginRunRpc at ha
    cases hreq : beginRunCommand wire.pb req with
    | error e =>
      rw [hreq] at ha
      exact absurd ha (malformed_ne_internal (isMalformed_of_beginRunCommand hreq))
    | ok cmd =>
      rw [hreq] at ha
      refine internal_of_resume (fun _ => rfl) ?_ ha
      rw [rejection_beginRun hdocumented]
      exact ofRejection_ne_internal fun _ => beginRejection_mem
  · unfold submitStageReportRpc at ha
    cases hreq : submitCommand wire.pb wire.reader req with
    | error e =>
      cases e with
      | through exc => exact .inr ⟨exc, rfl⟩
      | own e =>
        rw [hreq] at ha
        exact absurd ha (malformed_ne_internal (ownErrors_submitCommand _ _ e hreq))
    | ok cmd =>
      rw [hreq] at ha
      refine .inl (internal_of_resume (fun _ => rfl) ?_ ha)
      rw [rejection_submitStageReport hdb]
      exact ofRejection_ne_internal fun _ => submitRejection_mem
  · unfold finalizeRunRpc at ha
    cases hreq : finalizeCommand req with
    | error e =>
      rw [hreq] at ha
      exact absurd ha (malformed_ne_internal (isMalformed_of_finalizeCommand hreq))
    | ok cmd =>
      rw [hreq] at ha
      exact internal_of_executeFinalizeRun hdb
        (fun _ hc => ofClass_ne_internal (finalizeRejection_mem hc)) ha
  · unfold beginRunRpc at ha ⊢
    cases hreq : beginRunCommand wire.pb req with
    | error e => rfl
    | ok cmd =>
      rw [hreq] at ha
      exact db_of_aborted_resume (fun _ => ⟨_, rfl⟩) ha
  · unfold submitStageReportRpc at ha ⊢
    cases hreq : submitCommand wire.pb wire.reader req with
    | error e => rfl
    | ok cmd =>
      rw [hreq] at ha
      exact db_of_aborted_resume (fun _ => ⟨_, rfl⟩) ha
  · unfold finalizeRunRpc at ha ⊢
    cases hreq : finalizeCommand req with
    | error e => exact .inl rfl
    | ok cmd =>
      rw [hreq] at ha
      exact db_of_aborted_finalizeRun ha

end

/-- The numbers of an enumeration with three enumerators. -/
theorem sampleNumbers_nodup : [(0 : Int), 1, 2].Nodup := by decide

/-- The wire, with the empty message as the only `Struct`. -/
def sampleWire : Wire Unit where
  pb := {
    attachmentModeUnspecified := 0
    attachmentModeSingleAggregated := 1
    attachmentModePerStage := 2
    emailBodyPositionUnspecified := 0
    emailBodyPositionBeforeStagesSummary := 1
    emailBodyPositionAfterStagesSummary := 2
    stageOrderMin := -2 ^ 31
    stageOrderMax := 2 ^ 31 - 1
    attachmentModes := sampleNumbers_nodup
    emailBodyPositions := sampleNumbers_nodup }
  reader := {
    messageToDict := fun _ => .ok []
    repr := fun _ => "0.0" }
  ctx := {
    serializeToString := RpcStatus.encode
    correlationId := "5f0c" }

/-- A service that pins the latest version of its templates. -/
def pinnedConfig : Config where
  beginRun := {
    pipelineRegistry := .ofList ["daily"]
    tagVocabulary := fun _ => true
    templateRepo := sampleManifest.toRepository sampleParse }
  delivery := sampleConfig.delivery
  sweeper := sampleConfig.sweeper
  dispatcher := sampleConfig.dispatcher

/-- The answers over a run that has been begun and submitted to. -/
theorem rpc_status_sample : ∃ w, ((service pinnedConfig).restrict OnTime).Reach w ∧
    stateOf w.db sampleRun = some .aggregating ∧ Answers sampleWire pinnedConfig.beginRun w.db := by
  have hinit : ((service pinnedConfig).restrict OnTime).Reach {} :=
    .init ⟨Serial.empty, Serial.empty, rfl⟩
  obtain ⟨w, hw, hstate⟩ := System.exists_reach_of_run_restrict
    [.beginRun sampleLatest sampleRun (seconds 0) .commits,
      .submitStageReport sampleSubmit (seconds 1) .commits] hinit
    (p := fun w => stateOf w.db sampleRun = some .aggregating) (by decide +kernel)
  exact ⟨w, hw, of_decide_eq_true hstate, rpc_status sampleWire rfl hw⟩

section

variable {Struct : Type} {wire : Wire Struct}

/-! ## From BeginRun on -/

/-- The run is there, with the stages it was begun with. -/
def Declares (runId : RunId) (ids : List StageId) (w : World) : Prop :=
  ∃ row, w.db.runs.get? runId = some row ∧ row.declaredStageIds = ids

theorem Declares.step {cfg : Config} {runId : RunId} {ids : List StageId} {w w' : World} {l : Label}
    (hw : Declares runId ids w) (h : MessageService.System.step cfg w l = some w') :
    Declares runId ids w' := by
  obtain ⟨row, hrow, hids⟩ := hw
  obtain hsame | ⟨s, now, -, hmoved⟩ := run_of_step h hrow
  · exact ⟨row, hsame, hids⟩
  · exact ⟨_, hmoved, hids⟩

/-- The stages of a run are those of the request. -/
theorem declares_of_begun {ports : BeginRunPorts} {req : BeginRunRequest wire.pb}
    {cmd : BeginRunCommand} {runId r : RunId} {now : Instant} {w w' : World} (hreq : beginRunCommand wire.pb req = .ok cmd)
    (fresh : w.db.runs.get? runId = none)
    (ok : beginRun ports cmd runId now w.db = .ok (r, w'.db)) :
    Declares runId (req.declaredStages.map PbDeclaredStage.stageId) w' := by
  obtain ⟨run, declared, ref, hrun, -, hdeclared, -, -, -, hruns, -⟩ := beginRun_stages ok
  have hid : (RunRepository.runToRow run).runId = runId := congrArg RunRow.runId hrun
  refine ⟨RunRepository.runToRow run, ?_, ?_⟩
  · rw [hruns, Table.get?_upsert, hid, if_pos rfl, fresh]
    rfl
  · have hrow : run.declaredStages = declared := congrArg RunRow.declaredStages hrun
    have hreads := (Yields.eq_ok (yields_beginRunCommand req) hreq).2.declaredStages
    have hcmd : req.declaredStages.map PbDeclaredStage.stageId =
        cmd.declaredStages.map DeclaredStageInput.stageId :=
      map_eq_of_forall₂ hreads fun _ _ h => h.stageId.symm
    have hstages : cmd.declaredStages.map DeclaredStageInput.stageId =
        declared.map DeclaredStage.stageId := by
      refine map_eq_of_forall₂ (mapM_eq_ok hdeclared) fun ds d hd => ?_
      unfold resolveStage at hd
      cases hr : maybeResolveLatest ports ds.reportTemplateRef "report_template"
          (some ds.stageId) with
      | ok ref =>
        rw [hr] at hd
        rw [← Except.ok.inj hd]
      | error e =>
        rw [hr] at hd
        cases hd
    rw [RunRow.declaredStageIds, RunRepository.runToRow, hrow, hcmd, hstages]

/-- **The answers for a run from its `BeginRun` on.** In every later state, whatever the service has
done in between, they depend on the state of the run alone and, for a submission, on whether its
stage is one of the request's. -/
theorem begun_run_answers {Struct V : Type} [Preorder V] [DecidableLT V] {parse : String → Option V}
    {entries : Manifest} (wire : Wire Struct) {cfg : Config}
    (hports : cfg.beginRun.templateRepo = entries.toRepository parse) {w₀ w₁ w : World}
    (h₀ : ((service cfg).restrict OnTime).Reach w₀) {req : BeginRunRequest wire.pb}
    {cmd : BeginRunCommand} {runId : RunId} {now : Instant}
    (hid : isCanonicalUuid runId.toList = true)
    (hreq : beginRunCommand wire.pb req = .ok cmd)
    (hbegin : beginStatus wire cfg.beginRun req = .ok)
    (hstep : step cfg w₀ (.beginRun cmd runId now .commits) = some w₁)
    (hleads : ((service cfg).restrict OnTime).Leads w₁ w) :
    ∃ state, stateOf w.db runId = some state ∧
      (∀ sub c now answeredAt, submitCommand wire.pb wire.reader sub = .ok c → sub.runId = runId →
        (submitStageReportRpc wire sub now answeredAt .commits w.db).1.status = some (
          if state ∉ runSubmissionSources then .ofClass .invalidRunStateError
          else if sub.stageId ∉ req.declaredStages.map PbDeclaredStage.stageId then
            .ofClass .unknownStageError
          else .ok)) ∧
      ∀ now answeredAt s,
        (finalizeRunRpc wire ⟨runId⟩ now answeredAt .commits s w.db).1.status = some (
          if state ≠ .aggregating then .ofClass .invalidRunStateError
          else if s.shuttingDown then .internal
          else .ok) := by
  have hontime : OnTime w₀ (.beginRun cmd runId now .commits) := by
    rintro _ _ _ _ ⟨⟩
  have h₁ : ((service cfg).restrict OnTime).Reach w₁ := .step h₀ ⟨hstep, hontime⟩
  have hdb := serviceable_of_reach (h₁.leads hleads)
  simp only [step, Option.isNone_iff_eq_none, Option.ite_none_right_eq_some,
    Option.some.injEq] at hstep
  obtain ⟨fresh, rfl⟩ := hstep
  have hok : ∃ r, beginRun cfg.beginRun cmd runId now w₀.db = .ok r := by
    have hrejects := rejection_beginRun (documented_toRepository hports) cmd runId now w₀.db
    cases hx : beginRun cfg.beginRun cmd runId now w₀.db with
    | ok r => exact ⟨r, rfl⟩
    | error e =>
      rw [rejects, Tx.rejection_of_error hx] at hrejects
      rw [beginStatus, hreq] at hbegin
      simp only [← hrejects] at hbegin
      exact absurd hbegin (ofClass_ne_ok _)
  obtain ⟨⟨r, db'⟩, hx⟩ := hok
  rw [Tx.commit_of_ok hx] at hleads h₁
  have hdeclares : Declares runId (req.declaredStages.map PbDeclaredStage.stageId) w :=
    hleads.stable (fun s l t _ hs hst => hs.step hst.1) h₁ (declares_of_begun hreq fresh hx)
  obtain ⟨row, hrow, hids⟩ := hdeclares
  have hmatches : matchesRunIdPattern runId = true := by
    rw [matchesRunIdPattern, hid, Bool.true_or]
  have hne : runId ≠ "" := by
    rintro rfl
    cases hid
  refine ⟨row.state, by rw [stateOf, hrow]; rfl, ?_, ?_⟩
  · intro sub c now' answeredAt hsub hsubId
    obtain ⟨hrun, hstage⟩ := key_of_submitCommand hsub
    rw [status_submitStageReportRpc hdb, submitStatus, hsub]
    simp only [submitRejection, hrun, hstage, hsubId, hmatches, hrow, hids, Bool.not_true,
      Bool.false_eq_true, if_false]
    split_ifs <;> rfl
  · intro now' answeredAt s
    rw [status_finalizeRunRpc hdb, finalizeStatus, finalizeCommand_of_ne hne]
    simp only [finalizeRejection, hmatches, hrow, Bool.not_true, Bool.false_eq_true, if_false]
    by_cases hstate : row.state = .aggregating
    · rw [if_neg (not_not_intro hstate), if_neg (not_not_intro hstate)]
    · rw [if_pos hstate, if_pos hstate]

end

/-- The stage is submitted; the run can be finalized. -/
theorem begun_run_answers_sample : ∃ w : World, stateOf w.db sampleRun = some .aggregating ∧
    (finalizeRunRpc sampleWire ⟨sampleRun⟩ (seconds 2) (seconds 3) .commits {} w.db).1.status =
      some .ok := by
  let submit : Label := .submitStageReport sampleSubmit (seconds 1) .commits
  have htest : ((step pinnedConfig {} (.beginRun sampleLatest sampleRun (seconds 0) .commits)).any
      fun w₁ => decide (OnTime w₁ submit) && (step pinnedConfig w₁ submit).any fun w =>
        stateOf w.db sampleRun = some .aggregating) = true := by
    decide +kernel
  obtain ⟨w₁, hw₁, htest⟩ := (Option.any_eq_true _ _).mp htest
  obtain ⟨hontime, htest⟩ := Bool.and_eq_true_iff.mp htest
  obtain ⟨w, hw, hstate⟩ := (Option.any_eq_true _ _).mp htest
  have hstate := of_decide_eq_true hstate
  obtain ⟨state, hstate', -, hfinalize⟩ := begun_run_answers sampleWire rfl
    (.init ⟨Serial.empty, Serial.empty, rfl⟩) (by decide)
    (@beginRunCommand_beginRunRequest sampleWire.pb sampleLatest (by decide)) (by decide +kernel) hw₁
    (.tail .refl ⟨submit, hw, of_decide_eq_true hontime⟩)
  obtain rfl := Option.some.inj (hstate'.symm.trans hstate)
  exact ⟨w, hstate, hfinalize _ _ _⟩

end MessageService.System
