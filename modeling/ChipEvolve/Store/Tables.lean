import ChipEvolve.Table
import ChipEvolve.Contracts.Status
import ChipEvolve.Contracts.Task
import Mathlib.Algebra.Ring.Int.Defs

/-!
# The tables of the runtime store

Rows of `runtime_runs`, `runtime_stage_runs`, `runtime_attempts`,
`runtime_resource_reservations` and `runtime_events`, and the reads the store
makes of them (`store.py`); rows of `runtime_artifacts`, `runtime_metrics` and
`runtime_uploaded_inputs`.  The JSON columns hold the decoded value, and a
timestamp is the number of microseconds it denotes.
-/

namespace ChipEvolve

abbrev RunId := String
abbrev StageRunId := String
abbrev AttemptId := String
abbrev WorkerId := String
abbrev Timestamp := Int

/-- `timedelta(seconds=…)` -/
def seconds (n : Int) : Timestamp := n * 1000000

structure RunRow where
  runId : RunId
  taskId : String
  idempotencyKey : Option String
  status : RuntimeStatus
  taskSpec : TaskSpec
  createdAt : Timestamp
  startedAt : Option Timestamp := none
  endedAt : Option Timestamp := none
  terminalReason : Option String := none

structure StageRow where
  stageRunId : StageRunId
  runId : RunId
  stageKey : String
  ordinal : Nat
  pluginId : String
  pluginVersion : String
  status : RuntimeStatus
  createdAt : Timestamp
  startedAt : Option Timestamp := none
  resumable : Bool := false

structure AttemptRow where
  attemptId : AttemptId
  stageRunId : StageRunId
  attemptNumber : Nat
  status : AttemptStatus
  workspace : String
  workerId : WorkerId
  leaseExpiresAt : Option Timestamp
  heartbeatAt : Option Timestamp
  processId : Option Int := none
  processGroupId : Option Int := none
  processStartTicks : Option Int := none
  startedAt : Timestamp
  endedAt : Option Timestamp := none
  exitCode : Option Int := none
  failure : Option JsonObject := none
  cpuSeconds : Option Rat := none
  peakMemoryBytes : Option Int := none
  peakProcesses : Option Int := none

structure ReservationRow where
  attemptId : AttemptId
  cpuCores : Int
  memoryBytes : Int

structure EventRow where
  eventId : String
  runId : RunId
  stageRunId : Option StageRunId := none
  attemptId : Option AttemptId := none
  eventType : String
  producer : String
  payload : JsonObject
  occurredAt : Timestamp

/-! ## Evidence -/

abbrev Bytes := List UInt8

inductive Storage where
  | workspace
  | object
  deriving DecidableEq

/-- A row of `runtime_artifacts`. -/
structure ArtifactRow where
  artifactId : String
  attemptId : AttemptId
  kind : String
  storeKey : String
  sizeBytes : Nat
  sha256 : String
  metadata : JsonObject
  storage : Storage

/-- The primary key and `UNIQUE(attempt_id, store_key)`. -/
def ArtifactRow.clashes (r r' : ArtifactRow) : Bool :=
  r.artifactId = r'.artifactId || (r.attemptId = r'.attemptId && r.storeKey = r'.storeKey)

/-- A row of `runtime_uploaded_inputs`. -/
structure UploadedRow where
  inputId : String
  storeKey : String
  sizeBytes : Nat
  sha256 : String

/-- A row of `runtime_metrics`. -/
structure MetricRow where
  attemptId : AttemptId
  name : String
  value : Json
  unit : Option String
  sourceArtifactId : Option String
  parserId : Option String
  parserVersion : Option String
  context : JsonObject

/-! ## The lifecycle tables -/

structure Tables where
  runs : List RunRow := []
  stages : List StageRow := []
  attempts : List AttemptRow := []
  reservations : List ReservationRow := []
  events : List EventRow := []

namespace Tables

def run? (t : Tables) (runId : RunId) : Option RunRow := Table.get? RunRow.runId runId t.runs

def stage? (t : Tables) (stageRunId : StageRunId) : Option StageRow :=
  Table.get? StageRow.stageRunId stageRunId t.stages

/-- The stage of a run; `submit_run` creates exactly one. -/
def stageOf? (t : Tables) (runId : RunId) : Option StageRow :=
  Table.get? StageRow.runId runId t.stages

def runStatus? (t : Tables) (runId : RunId) : Option RuntimeStatus :=
  (t.run? runId).map RunRow.status

def stageStatus? (t : Tables) (stageRunId : StageRunId) : Option RuntimeStatus :=
  (t.stage? stageRunId).map StageRow.status

def attempt? (t : Tables) (attemptId : AttemptId) : Option AttemptRow :=
  Table.get? AttemptRow.attemptId attemptId t.attempts

def attemptsOf (t : Tables) (stageRunId : StageRunId) : List AttemptRow :=
  t.attempts.filter fun a ↦ a.stageRunId = stageRunId

/-- `COALESCE(MAX(attempt_number), 0)` -/
def maxAttemptNumber (t : Tables) (stageRunId : StageRunId) : Nat :=
  ((t.attemptsOf stageRunId).map AttemptRow.attemptNumber).foldr max 0

/-- `ORDER BY attempt_number DESC LIMIT 1` -/
def latestAttempt? (t : Tables) (stageRunId : StageRunId) : Option AttemptRow :=
  (t.attemptsOf stageRunId).find? fun a ↦ a.attemptNumber = t.maxAttemptNumber stageRunId

def reservedCpu (t : Tables) : Int := (t.reservations.map ReservationRow.cpuCores).sum

def reservedMemory (t : Tables) : Int := (t.reservations.map ReservationRow.memoryBytes).sum

end Tables

/-- A stage status that `transition_run` and `fail_queued_run` leave alone. -/
def StageRow.settled (s : StageRow) : Bool := s.status.isTerminal

end ChipEvolve
