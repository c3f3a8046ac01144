import MessageService.Domain.Errors

/-!
# The state machines of runs and stages

Model of `domain/state_machines/run_states.py` and `stage_states.py`: the states, the transition
tables with their injected failure edges, and the guarded `transition`.

`RunState.Edge` is the transition relation of the table. A terminal state has no outgoing edge
(`not_edge_of_terminal`), every other state has one to each of `FAILED` and `ORPHANED`
(`edge_orphaned_iff`).
-/

namespace MessageService.Domain

open MessageService.Lib

/-! ## Runs -/

/-- `RunState`. -/
inductive RunState where
  | initiated
  | aggregating
  | ready
  | sending
  | sent
  | failed
  | orphaned
  deriving DecidableEq, Repr

namespace RunState

/-- The stored value of a state. -/
def value : RunState → String
  | initiated => "INITIATED"
  | aggregating => "AGGREGATING"
  | ready => "READY"
  | sending => "SENDING"
  | sent => "SENT"
  | failed => "FAILED"
  | orphaned => "ORPHANED"

/-- `RunState(value)`. -/
def ofValue? (s : String) : Option RunState :=
  [initiated, aggregating, ready, sending, sent, failed, orphaned].find? fun r => r.value = s

@[simp] theorem ofValue?_value (r : RunState) : ofValue? r.value = some r := by
  cases r <;> decide

/-- `TERMINAL_STATES`. -/
def terminal : RunState → Bool
  | sent | failed | orphaned => true
  | _ => false

/-- `TERMINAL_STATES`. -/
def terminalStates : List RunState := [sent, failed, orphaned]

theorem mem_terminalStates {r : RunState} : r ∈ terminalStates ↔ r.terminal = true := by
  cases r <;> decide

/-- `NON_TERMINAL_STATES`. -/
def nonTerminalStates : List RunState := [initiated, aggregating, ready, sending]

theorem mem_nonTerminalStates {r : RunState} : r ∈ nonTerminalStates ↔ r.terminal = false := by
  cases r <;> decide

/-- `_EXPLICIT_TRANSITIONS`, before the failure edges are injected. -/
def explicitTransitions : RunState → List RunState
  | initiated => [aggregating]
  | aggregating => [ready]
  | ready => [sending]
  | sending => [sent]
  | _ => []

/-- `TRANSITIONS`. -/
def transitions (r : RunState) : List RunState :=
  explicitTransitions r ++ if r.terminal then [] else [failed, orphaned]

/-- `can_transition`. -/
def canTransition (fromState toState : RunState) : Bool := toState ∈ transitions fromState

/-- An edge of the table. -/
def Edge (fromState toState : RunState) : Prop := toState ∈ transitions fromState

instance (r s : RunState) : Decidable (Edge r s) := inferInstanceAs (Decidable (_ ∈ _))

theorem canTransition_iff {r s : RunState} : canTransition r s = true ↔ Edge r s := by
  simp [canTransition, Edge]

theorem not_edge_of_terminal {r s : RunState} (h : r.terminal = true) : ¬Edge r s := by
  cases r <;> cases s <;> first | decide | cases h

theorem edge_orphaned_iff {r : RunState} : Edge r orphaned ↔ r.terminal = false := by
  cases r <;> decide

theorem edge_failed_iff {r : RunState} : Edge r failed ↔ r.terminal = false := by
  cases r <;> decide

theorem edge_aggregating_iff {r : RunState} : Edge r aggregating ↔ r = initiated := by
  cases r <;> decide

theorem edge_ready_iff {r : RunState} : Edge r ready ↔ r = aggregating := by
  cases r <;> decide

theorem edge_sending_iff {r : RunState} : Edge r sending ↔ r = ready := by
  cases r <;> decide

theorem edge_sent_iff {r : RunState} : Edge r sent ↔ r = sending := by
  cases r <;> decide

/-- `transition`. -/
def transition (fromState toState : RunState) (runId : String) : Except ServiceError RunState :=
  if canTransition fromState toState then .ok toState
  else .error {
    errorClass := .invalidStateTransitionError
    message := "illegal run transition " ++ fromState.value ++ " -> " ++ toState.value
    details := [("from_state", .str fromState.value), ("to_state", .str toState.value),
      ("run_id", .str runId)] }

theorem transition_ok {r s t : RunState} {runId : String} :
    transition r s runId = .ok t ↔ t = s ∧ Edge r s := by
  unfold transition
  by_cases h : canTransition r s = true
  · simp [h, canTransition_iff.mp h, eq_comm]
  · have : ¬Edge r s := fun e => h (canTransition_iff.mpr e)
    simp [h, this]

end RunState

/-! ## Stages -/

/-- `StageState`; `IN_PROGRESS` is reserved and entered by no transition. -/
inductive StageState where
  | pending
  | inProgress
  | submitted
  | accepted
  | retried
  | timeout
  | failed
  deriving DecidableEq, Repr

namespace StageState

/-- The stored value of a state. -/
def value : StageState → String
  | pending => "PENDING"
  | inProgress => "IN_PROGRESS"
  | submitted => "SUBMITTED"
  | accepted => "ACCEPTED"
  | retried => "RETRIED"
  | timeout => "TIMEOUT"
  | failed => "FAILED"

/-- `StageState(value)`. -/
def ofValue? (s : String) : Option StageState :=
  [pending, inProgress, submitted, accepted, retried, timeout, failed].find? fun r => r.value = s

@[simp] theorem ofValue?_value (r : StageState) : ofValue? r.value = some r := by
  cases r <;> decide

/-- `TERMINAL_STATES`. -/
def terminal : StageState → Bool
  | accepted | timeout | failed => true
  | _ => false

/-- `_EXPLICIT_TRANSITIONS`, before the failure edges are injected. -/
def explicitTransitions : StageState → List StageState
  | pending => [submitted]
  | submitted => [retried, accepted]
  | retried => [retried, accepted]
  | _ => []

/-- `TRANSITIONS`. -/
def transitions (r : StageState) : List StageState :=
  explicitTransitions r ++ if r.terminal || r = inProgress then [] else [timeout, failed]

/-- `can_transition`. -/
def canTransition (fromState toState : StageState) : Bool := toState ∈ transitions fromState

/-- `transition`. -/
def transition (fromState toState : StageState) (runId stageId : String) :
    Except ServiceError StageState :=
  if canTransition fromState toState then .ok toState
  else .error {
    errorClass := .invalidStateTransitionError
    message := "illegal stage transition " ++ fromState.value ++ " -> " ++ toState.value
    details := [("from_state", .str fromState.value), ("to_state", .str toState.value),
      ("run_id", .str runId), ("stage_id", .str stageId)] }

end StageState

end MessageService.Domain
