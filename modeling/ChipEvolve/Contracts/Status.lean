import Mathlib.Tactic.Common

/-!
# Run status and attempt lifecycle

The two status vocabularies and the tables of legal moves
(`contracts/runtime.py`).
-/

namespace ChipEvolve

inductive RuntimeStatus where
  | queued
  | preparing
  | running
  | retryWait
  | cancelRequested
  | succeeded
  | failed
  | cancelled
  | timedOut
  | lost
  deriving DecidableEq, Repr

inductive AttemptStatus where
  | pending
  | running
  | succeeded
  | failed
  | lost
  deriving DecidableEq, Repr

namespace RuntimeStatus

def value : RuntimeStatus → String
  | queued => "queued"
  | preparing => "preparing"
  | running => "running"
  | retryWait => "retry_wait"
  | cancelRequested => "cancel_requested"
  | succeeded => "succeeded"
  | failed => "failed"
  | cancelled => "cancelled"
  | timedOut => "timed_out"
  | lost => "lost"

/-- `TERMINAL_RUNTIME_STATUSES` -/
def terminalStatuses : List RuntimeStatus := [succeeded, failed, cancelled, timedOut, lost]

def isTerminal (status : RuntimeStatus) : Bool := status ∈ terminalStatuses

/-- `RUN_TRANSITIONS`; a status without an entry has no successors. -/
def transitions : RuntimeStatus → List RuntimeStatus
  | queued => [preparing, cancelRequested, cancelled, failed]
  | preparing => [running, cancelRequested, failed, lost]
  | running => [retryWait, cancelRequested, succeeded, failed, timedOut, lost]
  | retryWait => [queued, cancelRequested, failed, lost]
  | cancelRequested => [cancelled, failed, lost]
  | _ => []

/-- The stage statuses a worker may claim. -/
def claimable (status : RuntimeStatus) : Bool := status = queued || status = retryWait

/-- The run statuses that `start_attempt` moves to `running`, and from which a
run can fail before any attempt: `queued`, `preparing` and `retry_wait`. -/
def waiting (status : RuntimeStatus) : Bool :=
  status = queued || status = preparing || status = retryWait

end RuntimeStatus

open RuntimeStatus in
def runTransitionAllowed (current target : RuntimeStatus) : Bool :=
  if current.isTerminal then false else target ∈ current.transitions

namespace AttemptStatus

def value : AttemptStatus → String
  | pending => "pending"
  | running => "running"
  | succeeded => "succeeded"
  | failed => "failed"
  | lost => "lost"

/-- `ATTEMPT_TRANSITIONS` -/
def transitions : AttemptStatus → List AttemptStatus
  | pending => [running, lost]
  | running => [succeeded, failed, lost]
  | succeeded => []
  | failed => []
  | lost => []

end AttemptStatus

def attemptTransitionAllowed (current target : AttemptStatus) : Bool :=
  target ∈ current.transitions

/-! ## What the tables say -/

theorem runTransitionAllowed_iff {current target : RuntimeStatus} :
    runTransitionAllowed current target = true ↔ target ∈ current.transitions := by
  cases current <;>
    simp [runTransitionAllowed, RuntimeStatus.isTerminal, RuntimeStatus.terminalStatuses,
      RuntimeStatus.transitions]

theorem not_terminal_of_transition {current target : RuntimeStatus}
    (h : runTransitionAllowed current target = true) : current.isTerminal = false := by
  cases current <;> first | rfl | exact absurd h (by cases target <;> decide)

theorem not_allowed_self (status : RuntimeStatus) : ¬runTransitionAllowed status status = true := by
  cases status <;> decide

/-- Only a running run may be sent back to wait for a retry. -/
theorem retryWait_allowed_iff {current : RuntimeStatus} :
    runTransitionAllowed current .retryWait = true ↔ current = .running := by
  cases current <;> decide

theorem terminal_not_waiting {status : RuntimeStatus} (h : status.isTerminal = true) :
    status.waiting = false := by
  cases status <;> first | rfl | exact absurd h (by decide)

theorem waiting_of_claimable {status : RuntimeStatus} (h : status.claimable = true) :
    status.waiting = true := by
  cases status <;> first | rfl | exact absurd h (by decide)

/-- An attempt leaves `running` for good. -/
theorem attempt_transition_from_running {current target : AttemptStatus}
    (hne : current ≠ .pending) (h : attemptTransitionAllowed current target = true) :
    current = .running ∧ target ≠ .running ∧ target ≠ .pending := by
  cases current <;> cases target <;> first | exact absurd h (by decide) | simp_all

end ChipEvolve
