import ChipEvolve.FloatingPoint
import ChipEvolve.Sql
import ChipEvolve.Store.Tables
import Mathlib.Data.List.Sort

/-!
# The methods of the runtime store

Each method of `RuntimeStore` that reads or writes the lifecycle tables, as a
program on one connection, statement by statement (`store.py`).  Generated ids
and clock readings are arguments.  The methods that commit several times,
`request_cancel`, `heartbeat`, `abandoned_cancellations` and
`reclaim_expired_attempts`, are given here by their separate statements; the
programs that string them together are in `Store.Clients`.
-/

namespace ChipEvolve

inductive StoreError where
  | runtimeStore (message : String)
  | invalidTransition (message : String)
  | contract (message : String)
  | integrity (message : String)
  | operational (message : String)
  | index (message : String)
  /-- An exception of any other type. -/
  | other (type message : String)
  deriving DecidableEq, Repr

namespace StoreError

/-- `f"{type(exc).__name__}: {exc}"` -/
def describe : StoreError → String
  | runtimeStore m => "RuntimeStoreError: " ++ m
  | invalidTransition m => "InvalidTransition: " ++ m
  | contract m => "ContractError: " ++ m
  | integrity m => "IntegrityError: " ++ m
  | operational m => "OperationalError: " ++ m
  | index m => "IndexError: " ++ m
  | other type m => type ++ ": " ++ m

def isInvalidTransition : StoreError → Bool
  | invalidTransition _ => true
  | _ => false

end StoreError

instance : SqlError StoreError := ⟨.operational⟩

abbrev StoreM := Sql Tables StoreError

open Sql

def unknownRun (runId : RunId) : StoreError := .runtimeStore ("unknown run " ++ quoted runId)

def unknownStage (stageRunId : StageRunId) : StoreError :=
  .runtimeStore ("unknown stage " ++ quoted stageRunId)

def unknownAttempt (attemptId : AttemptId) : StoreError :=
  .runtimeStore ("unknown attempt " ++ quoted attemptId)

def runMoveRefused (current target : RuntimeStatus) : StoreError :=
  .invalidTransition ("invalid run transition " ++ current.value ++ " -> " ++ target.value)

/-- Raise the `ContractError` of a failed validation. -/
def checked : Validated → StoreM Unit
  | .ok _ => pure ()
  | .error message => raise (.contract message)

/-! ## Submission -/

/-- The digests `submit_run` looks up when it compares two tasks: those of the
uploaded inputs and of the registered artifacts. -/
structure Custody where
  uploadedSha256 : String → Option String
  artifactSha256 : String → Option String

/-- A generated id replaced by the digest it stands for; an absent or empty id
stays. -/
def digestOf (sha256 : String → Option String) (unknown : String) :
    Option String → Except StoreError (Option String)
  | none => .ok none
  | some id =>
      if id = "" then .ok (some id)
      else
        match sha256 id with
        | some digest => .ok (some digest)
        | none => .error (.runtimeStore (unknown ++ quoted id))

def byDigest (custody : Custody) (i : InputFile) : Except StoreError InputFile := do
  let inputId ← digestOf custody.uploadedSha256 "unknown uploaded input: " i.inputId
  let artifactId ← digestOf custody.artifactSha256 "no such artifact: " i.artifactId
  return { i with inputId := inputId, artifactId := artifactId }

def isPlatformLabel (key : String) : Bool :=
  "__platform_host_source_".toList.isPrefixOf key.toList

/-- A task with its generated parts replaced by what they stand for. -/
def comparable (custody : Custody) (task : TaskSpec) : Except StoreError TaskSpec := do
  let staged ← task.stagedInputs.mapM (byDigest custody)
  return { task with
    labels := task.labels.filter fun m ↦ !isPlatformLabel m.1
    stagedInputs := staged }

def InputFile.pyEq (a b : InputFile) : Bool :=
  a.destination = b.destination && a.source = b.source && a.artifactId = b.artifactId &&
    a.inputId = b.inputId && a.required = b.required

def ResourceRequest.pyEq (a b : ResourceRequest) : Bool :=
  a.cpuSeconds = b.cpuSeconds && a.cpuCores = b.cpuCores && a.memoryBytes = b.memoryBytes &&
    a.processes = b.processes

/-- `left == right` on the dictionaries of two tasks. -/
def TaskSpec.pyEq (a b : TaskSpec) : Bool :=
  a.taskId = b.taskId && a.projectId = b.projectId && a.designId = b.designId &&
    a.designRevisionId = b.designRevisionId && a.experimentId = b.experimentId &&
    a.inputManifestSha256 = b.inputManifestSha256 && a.pluginId = b.pluginId &&
    a.pluginVersion = b.pluginVersion && a.inputs.pyEq b.inputs &&
    a.parameters.pyEq b.parameters &&
    (a.stagedInputs.length = b.stagedInputs.length &&
      (a.stagedInputs.zip b.stagedInputs).all fun p ↦ p.1.pyEq p.2) &&
    (match a.resources, b.resources with
      | some r, some r' => r.pyEq r'
      | none, none => true
      | _, _ => false) &&
    a.timeoutSeconds = b.timeoutSeconds && a.maxAttempts = b.maxAttempts &&
    a.expectedArtifacts = b.expectedArtifacts && a.labels.pyEq b.labels &&
    a.schemaVersion = b.schemaVersion

def equivalentTaskSpecs (custody : Custody) (first second : TaskSpec) :
    Except StoreError Bool := do
  let left ← comparable custody first
  let right ← comparable custody second
  return left.pyEq right

namespace Tables

def runByKey? (t : Tables) (key : String) : Option RunRow :=
  t.runs.find? fun r ↦ r.idempotencyKey = some key

/-- `ORDER BY created_at LIMIT 1` among the runs of a task. -/
def findRunByTaskId (t : Tables) (taskId : String) : Option RunRow :=
  ((t.runs.filter fun r ↦ r.taskId = taskId).insertionSort
    fun a b ↦ a.createdAt ≤ b.createdAt).head?

def listStages (t : Tables) (runId : RunId) : List StageRow :=
  (t.stages.filter fun s ↦ s.runId = runId).insertionSort fun a b ↦ a.ordinal ≤ b.ordinal

/-- `PRIMARY KEY(run_id)` and the unique index on the idempotency key. -/
def refusesRun (t : Tables) (row : RunRow) : Bool :=
  t.runs.any fun r ↦ r.runId = row.runId ||
    (r.idempotencyKey.isSome && r.idempotencyKey = row.idempotencyKey)

/-- `PRIMARY KEY(stage_run_id)`, the reference to the run, and the two unique
constraints within a run. -/
def refusesStage (t : Tables) (row : StageRow) : Bool :=
  (t.stages.any fun s ↦ s.stageRunId = row.stageRunId ||
    (s.runId = row.runId && (s.stageKey = row.stageKey || s.ordinal = row.ordinal))) ||
    (t.run? row.runId).isNone

def insertRun (row : RunRow) (t : Tables) : Tables := { t with runs := t.runs ++ [row] }

def insertStage (row : StageRow) (t : Tables) : Tables := { t with stages := t.stages ++ [row] }

def insertEvent (row : EventRow) (t : Tables) : Tables := { t with events := t.events ++ [row] }

def refusesEvent (t : Tables) (row : EventRow) : Bool :=
  t.events.any fun e ↦ e.eventId = row.eventId

end Tables

/-- The arguments of `submit_run`, with the ids it generates and its clock. -/
structure Submission where
  task : TaskSpec
  stageKey : String
  pluginVersion : String
  idempotent : Bool := false
  idempotencyKey : Option String := none
  resumable : Bool := false
  runId : RunId
  stageRunId : StageRunId
  now : Timestamp

namespace Submission

def runRow (a : Submission) : RunRow :=
  { runId := a.runId
    taskId := a.task.taskId
    idempotencyKey := a.idempotencyKey
    status := .queued
    taskSpec := a.task
    createdAt := a.now }

def stageRow (a : Submission) (pluginId : String) : StageRow :=
  { stageRunId := a.stageRunId
    runId := a.runId
    stageKey := a.stageKey
    ordinal := 0
    pluginId := pluginId
    pluginVersion := a.pluginVersion
    status := .queued
    createdAt := a.now
    resumable := a.resumable }

/-- The run an idempotent submission may already have. -/
def existing? (a : Submission) (t : Tables) : Option RunRow :=
  match a.idempotencyKey with
  | some key => t.runByKey? key
  | none => if a.idempotent then t.findRunByTaskId a.task.taskId else none

end Submission

/-- The existing run, if it is a run of the same task and plugin version. -/
def reuseRun (custody : Custody) (a : Submission) (run : RunRow) : StoreM RunRow :=
  match equivalentTaskSpecs custody run.taskSpec a.task with
  | .error e => raise e
  | .ok false =>
      raise (.runtimeStore ("task_id " ++ quoted a.task.taskId ++
        " already exists with a different immutable TaskSpec"))
  | .ok true => do
      match ← query fun t ↦ t.listStages run.runId with
      | [] => raise (.index "list index out of range")
      | stage :: _ =>
          if stage.pluginVersion ≠ a.pluginVersion then
            raise (.runtimeStore ("task_id " ++ quoted a.task.taskId ++
              " already exists at plugin version " ++ quoted stage.pluginVersion))
          else do
            commit
            return run

def createRun (a : Submission) (pluginId : String) : StoreM RunRow := do
  executeChecked (·.refusesRun a.runRow) (.integrity "UNIQUE constraint failed: runtime_runs")
    (Tables.insertRun a.runRow)
  executeChecked (·.refusesStage (a.stageRow pluginId))
    (.integrity "UNIQUE constraint failed: runtime_stage_runs")
    (Tables.insertStage (a.stageRow pluginId))
  commit
  return a.runRow

def submitRun (custody : Custody) (a : Submission) : StoreM RunRow := do
  checked a.task.validate
  match a.task.pluginId with
  | none => raise (.runtimeStore "a run stage requires a plugin_id")
  | some pluginId =>
      if a.idempotencyKey = some "" then
        raise (.runtimeStore "idempotency_key must not be empty")
      else
        immediate do
          match ← query a.existing? with
          | some run => reuseRun custody a run
          | none => createRun a pluginId

def getRun (runId : RunId) : StoreM RunRow := do
  match ← query (·.run? runId) with
  | none => raise (unknownRun runId)
  | some row => return row

/-! ## The run's status -/

/-- The columns `transition_run` sets on the run. -/
def RunRow.moved (target : RuntimeStatus) (reason : Option String) (now : Timestamp)
    (r : RunRow) : RunRow :=
  { r with
    status := target
    startedAt := if target = .running then some (r.startedAt.getD now) else r.startedAt
    endedAt := if target.isTerminal then some now else r.endedAt
    terminalReason := reason.or r.terminalReason }

def StageRow.moved (target : RuntimeStatus) (s : StageRow) : StageRow := { s with status := target }

namespace Tables

def updateRun (runId : RunId) (f : RunRow → RunRow) (t : Tables) : Tables :=
  { t with runs := Table.update (fun r ↦ r.runId = runId) f t.runs }

def updateStage (stageRunId : StageRunId) (f : StageRow → StageRow) (t : Tables) : Tables :=
  { t with stages := Table.update (fun s ↦ s.stageRunId = stageRunId) f t.stages }

/-- `WHERE run_id = ? AND status NOT IN ('succeeded', …)` -/
def updateOpenStages (runId : RunId) (f : StageRow → StageRow) (t : Tables) : Tables :=
  { t with stages := Table.update (fun s ↦ s.runId = runId && !s.settled) f t.stages }

end Tables

def transitionRun (runId : RunId) (target : RuntimeStatus) (reason : Option String)
    (now : Timestamp) : StoreM Unit :=
  immediate do
    match ← query (·.run? runId) with
    | none => raise (unknownRun runId)
    | some row =>
        if row.status = target then commit
        else if !runTransitionAllowed row.status target then
          raise (runMoveRefused row.status target)
        else do
          execute (Tables.updateRun runId (RunRow.moved target reason now))
          execute (Tables.updateOpenStages runId (StageRow.moved target))
          commit

/-- Whether `request_cancel` goes on to `transition_run`. -/
def wantsCancel (runId : RunId) : StoreM Bool := do
  let run ← getRun runId
  return !(run.status.isTerminal || run.status = .cancelRequested)

def cancelReason : String := "cancellation requested"

def RunRow.failedEarly (category : String) (now : Timestamp) (r : RunRow) : RunRow :=
  { r with status := .failed, endedAt := some now, terminalReason := some category }

def preflightEvent (runId : RunId) (category message eventId : String) (now : Timestamp) :
    EventRow :=
  { eventId := eventId
    runId := runId
    eventType := "run.preflight_failed"
    producer := "runtime"
    payload := [("category", .str category), ("message", .str message)]
    occurredAt := now }

def failQueuedRun (runId : RunId) (category message eventId : String) (now : Timestamp) :
    StoreM Bool :=
  if category = "" || message = "" then
    raise (.runtimeStore "preflight failure needs a category and message")
  else
    immediate do
      match ← query (·.run? runId) with
      | none => raise (unknownRun runId)
      | some row =>
          if !row.status.waiting then do
            commit
            return false
          else do
            execute (Tables.updateRun runId (RunRow.failedEarly category now))
            execute (Tables.updateOpenStages runId (StageRow.moved .failed))
            executeChecked (·.refusesEvent (preflightEvent runId category message eventId now))
              (.integrity "UNIQUE constraint failed: runtime_events")
              (Tables.insertEvent (preflightEvent runId category message eventId now))
            commit
            return true

/-! ## Claiming an attempt -/

/-- `platform_fraction`: a `float`, or a number that Python multiplies exactly (an `int` or a
`Fraction`). -/
inductive PlatformFraction where
  | float (x : FloatingPoint.Finite FloatingPoint.binary64)
  | exact (q : Rat)
  deriving DecidableEq

namespace PlatformFraction

def value : PlatformFraction → Rat
  | float x => x.value
  | exact q => q

def overflow (message : String) : StoreError := .other "OverflowError" message

/-- `capacity * platform_fraction`, as `int` and `math.ceil` read it: of a `float` the capacity
is converted and the product rounded. -/
def share (capacity : Int) : PlatformFraction → Except StoreError Rat
  | exact q => .ok (capacity * q)
  | float x =>
      match FloatingPoint.round? FloatingPoint.binary64 capacity with
      | none => .error (overflow "int too large to convert to float")
      | some c =>
          match FloatingPoint.round? FloatingPoint.binary64 (c.value * x.value) with
          | none => .error (overflow "cannot convert float infinity to integer")
          | some product => .ok product.value

/-- `0.60` -/
def standard : PlatformFraction :=
  .float ⟨5404319552844595 / 9007199254740992, by decide +kernel, by decide +kernel⟩

end PlatformFraction

/-- The keyword arguments of `start_attempt`. -/
structure Claim where
  workerId : WorkerId
  workspace : String
  leaseSeconds : Int
  resources : Option ResourceRequest := none
  capacityCpuCores : Option Int := none
  capacityMemoryBytes : Option Int := none
  platformFraction : PlatformFraction := .standard

/-- `max(1, math.ceil(capacity * platform_fraction))` -/
def budget (capacity : Int) (fraction : PlatformFraction) : Except StoreError Int :=
  (fraction.share capacity).map fun product ↦ max 1 (Rat.ceil product)

/-- What a claim reserves: cores and bytes, each against its budget. -/
structure Wanted where
  cpu : Int
  memory : Int
  cpuBudget : Except StoreError Int
  memoryBudget : Except StoreError Int

namespace Claim

/-- `None` when the claim declares no resources or names no capacity. -/
def wanted (c : Claim) : Option Wanted :=
  match c.resources, c.capacityCpuCores, c.capacityMemoryBytes with
  | some r, some cpuCapacity, some memoryCapacity =>
      if r.declared then
        some
          { cpu := match r.cpuCores with
              | some n => if n = 0 then 1 else n
              | none => 1
            memory := r.memoryBytes.getD 0
            cpuBudget := budget cpuCapacity c.platformFraction
            memoryBudget := budget memoryCapacity c.platformFraction }
      else none
  | _, _, _ => none

def attemptRow (c : Claim) (stageRunId : StageRunId) (number : Nat) (attemptId : AttemptId)
    (now : Timestamp) : AttemptRow :=
  { attemptId := attemptId
    stageRunId := stageRunId
    attemptNumber := number
    status := .running
    workspace := c.workspace
    workerId := c.workerId
    leaseExpiresAt := some (now + seconds c.leaseSeconds)
    heartbeatAt := some now
    startedAt := now }

end Claim

def Wanted.row (w : Wanted) (attemptId : AttemptId) : ReservationRow :=
  { attemptId := attemptId, cpuCores := w.cpu, memoryBytes := w.memory }

namespace Tables

/-- `PRIMARY KEY(attempt_id)` and `UNIQUE(stage_run_id, attempt_number)` -/
def refusesAttempt (t : Tables) (row : AttemptRow) : Bool :=
  t.attempts.any fun a ↦ a.attemptId = row.attemptId ||
    (a.stageRunId = row.stageRunId && a.attemptNumber = row.attemptNumber)

/-- `PRIMARY KEY(attempt_id)` and the two positivity checks. -/
def refusesReservation (t : Tables) (row : ReservationRow) : Bool :=
  (t.reservations.any fun r ↦ r.attemptId = row.attemptId) ||
    row.cpuCores ≤ 0 || row.memoryBytes ≤ 0

def insertAttempt (row : AttemptRow) (t : Tables) : Tables :=
  { t with attempts := t.attempts ++ [row] }

def insertReservation (row : ReservationRow) (t : Tables) : Tables :=
  { t with reservations := t.reservations ++ [row] }

def overbooked (t : Tables) (w : Wanted) : Except StoreError Bool := do
  let cpuBudget ← w.cpuBudget
  let memoryBudget ← w.memoryBudget
  return cpuBudget < t.reservedCpu + w.cpu || memoryBudget < t.reservedMemory + w.memory

/-- `WHERE run_id = ? AND status IN ('queued','preparing','retry_wait')` -/
def updateWaitingRun (runId : RunId) (f : RunRow → RunRow) (t : Tables) : Tables :=
  { t with runs := Table.update (fun r ↦ r.runId = runId && r.status.waiting) f t.runs }

end Tables

def StageRow.started (now : Timestamp) (s : StageRow) : StageRow :=
  { s with status := .running, startedAt := some (s.startedAt.getD now) }

def RunRow.started (now : Timestamp) (r : RunRow) : RunRow :=
  { r with status := .running, startedAt := some (r.startedAt.getD now) }

/-- Move the stage and its run to `running` and commit the claim. -/
def commitClaim (stage : StageRow) (row : AttemptRow) (now : Timestamp) :
    StoreM (Option AttemptRow) := do
  execute (Tables.updateStage stage.stageRunId (StageRow.started now))
  execute (Tables.updateWaitingRun stage.runId (RunRow.started now))
  commit
  return some row

/-- Reserve what the claim wants, if it wants anything, and commit. -/
def reserveClaim (c : Claim) (stage : StageRow) (row : AttemptRow) (now : Timestamp) :
    StoreM (Option AttemptRow) :=
  match c.wanted with
  | none => commitClaim stage row now
  | some w =>
      if w.memory ≤ 0 then
        raise (.runtimeStore "memory_bytes is required for resource reservation")
      else do
        if ← reading (·.overbooked w) then do
          rollback
          return none
        else do
          executeChecked (·.refusesReservation (w.row row.attemptId))
            (.integrity "CHECK constraint failed: runtime_resource_reservations")
            (Tables.insertReservation (w.row row.attemptId))
          commitClaim stage row now

def startAttempt (stageRunId : StageRunId) (c : Claim) (attemptId : AttemptId)
    (now : Timestamp) : StoreM (Option AttemptRow) :=
  if c.leaseSeconds ≤ 0 then raise (.runtimeStore "lease_seconds must be positive")
  else
    immediate do
      match ← query (·.stage? stageRunId) with
      | none => raise (unknownStage stageRunId)
      | some stage =>
          if !stage.status.claimable then
            raise (.invalidTransition
              ("invalid stage transition " ++ stage.status.value ++ " -> running"))
          else do
            let number ← query fun t ↦ t.maxAttemptNumber stageRunId + 1
            let row := c.attemptRow stageRunId number attemptId now
            -- the row goes in first: the capacity test undoes it with a ROLLBACK
            executeChecked (·.refusesAttempt row)
              (.integrity "UNIQUE constraint failed: runtime_attempts")
              (Tables.insertAttempt row)
            reserveClaim c stage row now

/-! ## Keeping and ending an attempt -/

def AttemptRow.leasedBy (a : AttemptRow) (attemptId : AttemptId) (workerId : WorkerId) : Bool :=
  a.attemptId = attemptId && a.workerId = workerId && a.status = .running

/-- An `UPDATE` of the attempts that satisfy `p`, with its row count. -/
def updateAttempts (p : AttemptRow → Bool) (f : AttemptRow → AttemptRow) : StoreM Nat :=
  executeReturning fun t ↦ (t.attempts.countP p, { t with attempts := Table.update p f t.attempts })

/-- The checks `heartbeat` makes before its `UPDATE`. -/
def heartbeatCheck (attemptId : AttemptId) (workerId : WorkerId) : StoreM Unit := do
  match ← query (·.attempt? attemptId) with
  | none => raise (unknownAttempt attemptId)
  | some row =>
      if row.workerId ≠ workerId then
        raise (.runtimeStore ("attempt " ++ quoted attemptId ++ " is leased by " ++
          quoted row.workerId))
      else if row.status ≠ .running then
        raise (.invalidTransition ("cannot heartbeat a " ++ row.status.value ++ " attempt"))
      else return ()

def AttemptRow.beaten (leaseSeconds : Int) (now : Timestamp) (a : AttemptRow) : AttemptRow :=
  { a with heartbeatAt := some now, leaseExpiresAt := some (now + seconds leaseSeconds) }

def heartbeatUpdate (attemptId : AttemptId) (workerId : WorkerId) (leaseSeconds : Int)
    (now : Timestamp) : StoreM Unit := do
  let count ← updateAttempts (·.leasedBy attemptId workerId) (AttemptRow.beaten leaseSeconds now)
  if count ≠ 1 then
    raise (.invalidTransition ("attempt " ++ quoted attemptId ++ " was fenced while heartbeating"))
  else return ()

/-- The process identity `attach_process` records. -/
structure ProcessIdentity where
  processId : Int
  processGroupId : Int
  processStartTicks : Option Int

def AttemptRow.attached (p : ProcessIdentity) (a : AttemptRow) : AttemptRow :=
  { a with
    processId := some p.processId
    processGroupId := some p.processGroupId
    processStartTicks := p.processStartTicks }

def attachProcess (attemptId : AttemptId) (workerId : WorkerId) (p : ProcessIdentity) :
    StoreM Unit :=
  if p.processId ≤ 0 || p.processGroupId ≤ 0 then
    raise (.runtimeStore "process identifiers must be positive")
  else do
    let count ← updateAttempts (·.leasedBy attemptId workerId) (AttemptRow.attached p)
    if count ≠ 1 then
      raise (.invalidTransition ("attempt " ++ quoted attemptId ++ " is no longer owned by " ++
        quoted workerId))
    else return ()

/-- The keyword arguments of `finish_attempt`. -/
structure Ending where
  exitCode : Option Int := none
  failure : Option JsonObject := none
  cpuSeconds : Option Rat := none
  peakMemoryBytes : Option Int := none
  peakProcesses : Option Int := none

/-- `json.dumps(dict(failure)) if failure else None` -/
def Ending.recorded (e : Ending) : Option JsonObject := e.failure.filter (!·.isEmpty)

def AttemptRow.finished (status : AttemptStatus) (e : Ending) (now : Timestamp)
    (a : AttemptRow) : AttemptRow :=
  { a with
    status := status
    endedAt := some now
    exitCode := e.exitCode
    failure := e.recorded
    cpuSeconds := e.cpuSeconds
    peakMemoryBytes := e.peakMemoryBytes
    peakProcesses := e.peakProcesses
    leaseExpiresAt := none }

namespace Tables

def updateAttempt (attemptId : AttemptId) (f : AttemptRow → AttemptRow) (t : Tables) : Tables :=
  { t with attempts := Table.update (fun a ↦ a.attemptId = attemptId) f t.attempts }

def deleteReservation (attemptId : AttemptId) (t : Tables) : Tables :=
  { t with reservations := Table.delete (fun r ↦ r.attemptId = attemptId) t.reservations }

end Tables

def finishAttempt (attemptId : AttemptId) (status : AttemptStatus) (e : Ending)
    (now : Timestamp) : StoreM Unit :=
  immediate do
    match ← query (·.attempt? attemptId) with
    | none => raise (unknownAttempt attemptId)
    | some row =>
        if !attemptTransitionAllowed row.status status then
          raise (.invalidTransition
            ("invalid attempt transition " ++ row.status.value ++ " -> " ++ status.value))
        else do
          execute (Tables.updateAttempt attemptId (AttemptRow.finished status e now))
          execute (Tables.deleteReservation attemptId)
          commit

def releaseResources (attemptId : AttemptId) : StoreM Unit :=
  execute (Tables.deleteReservation attemptId)

/-! ## Another attempt -/

def RunRow.retried (reason : String) (r : RunRow) : RunRow :=
  { r with status := .retryWait, terminalReason := some reason }

def scheduleRetry (runId : RunId) (stageRunId : StageRunId) (reason : String) : StoreM Unit :=
  immediate do
    match ← query (·.stage? stageRunId) with
    | none => raise (unknownStage stageRunId)
    | some stage =>
        if stage.status ≠ .running then
          raise (.invalidTransition
            ("only a running stage can be retried, not " ++ stage.status.value))
        else do
          match ← query (·.run? runId) with
          | none => raise (unknownRun runId)
          | some run =>
              if !runTransitionAllowed run.status .retryWait then
                raise (runMoveRefused run.status .retryWait)
              else do
                execute (Tables.updateStage stageRunId (StageRow.moved .retryWait))
                execute (Tables.updateRun runId (RunRow.retried reason))
                commit

/-- `str.isspace` -/
def isSpace (c : Char) : Bool :=
  (9 ≤ c.toNat && c.toNat ≤ 13) || (28 ≤ c.toNat && c.toNat ≤ 32) || c.toNat = 133 ||
    c.toNat = 160 || c.toNat = 5760 || (8192 ≤ c.toNat && c.toNat ≤ 8202) || c.toNat = 8232 ||
    c.toNat = 8233 || c.toNat = 8239 || c.toNat = 8287 || c.toNat = 12288

def isBlank (s : String) : Bool := s.toList.all isSpace

/-- `failure.get("retryable")`, taken as a truth value. -/
def retryable (failure : JsonObject) : Bool :=
  match failure.get? "retryable" with
  | some v => v.truthy
  | none => false

/-- Whether the latest attempt of a stage lets its run be retried: it recorded a
retryable failure. -/
def AttemptRow.mayRetry (a : AttemptRow) : Bool :=
  match a.failure with
  | some f => !f.isEmpty && retryable f
  | none => false

def retryEvent (runId : RunId) (stage : StageRow) (attempt : AttemptRow)
    (requester reason eventId : String) (now : Timestamp) : EventRow :=
  { eventId := eventId
    runId := runId
    stageRunId := some stage.stageRunId
    attemptId := some attempt.attemptId
    eventType := "run.retry_requested"
    producer := requester
    payload := [("reason", .str reason)]
    occurredAt := now }

def retryReason (requester reason : String) : String :=
  "retry requested by " ++ requester ++ ": " ++ reason

def requestRetry (runId : RunId) (requester reason eventId : String) (now : Timestamp) :
    StoreM Unit :=
  if isBlank reason || isBlank requester then
    raise (.runtimeStore "retry reason and requester are required")
  else
    immediate do
      match ← query (·.run? runId) with
      | none => raise (unknownRun runId)
      | some run => do
          let stage ← query (·.stageOf? runId)
          let attempt ← query fun t ↦ stage.bind fun s ↦ t.latestAttempt? s.stageRunId
          if run.status ≠ .failed then
            raise (.invalidTransition "only failed runs may be retried")
          else
            match stage, attempt with
            | some stage, some attempt =>
                if !attempt.mayRetry then
                  raise (.runtimeStore "the latest failure is not retryable")
                else if run.taskSpec.maxAttempts ≤ attempt.attemptNumber then
                  raise (.runtimeStore "retry budget exhausted")
                else do
                  execute (Tables.updateRun runId
                    (RunRow.retried (retryReason requester reason)))
                  execute (Tables.updateStage stage.stageRunId (StageRow.moved .retryWait))
                  executeChecked
                    (·.refusesEvent (retryEvent runId stage attempt requester reason eventId now))
                    (.integrity "UNIQUE constraint failed: runtime_events")
                    (Tables.insertEvent
                      (retryEvent runId stage attempt requester reason eventId now))
                  commit
            | _, _ => raise (.runtimeStore "the latest failure is not retryable")

/-! ## Queries of the worker loop -/

namespace Tables

/-- `s.status IN ('queued','retry_wait')` for a stage of the run, and
`r.status IN ('queued','preparing','running','retry_wait')`. -/
def isRunnable (t : Tables) (r : RunRow) : Bool :=
  (r.status.waiting || r.status = .running) &&
    t.stages.any fun s ↦ s.runId = r.runId && s.status.claimable

def runnable (t : Tables) : List RunRow :=
  (t.runs.filter t.isRunnable).insertionSort fun a b ↦ a.createdAt ≤ b.createdAt

/-- `status = 'cancel_requested' ORDER BY created_at LIMIT ?` -/
def cancelRequestedRuns (t : Tables) (limit : Nat) : List RunId :=
  ((((t.runs.filter fun r ↦ r.status = .cancelRequested).insertionSort
    fun a b ↦ a.createdAt ≤ b.createdAt)).take limit).map RunRow.runId

def hasRunningAttempt (t : Tables) (runId : RunId) : Bool :=
  t.attempts.any fun a ↦ a.status = .running &&
    t.stages.any fun s ↦ s.stageRunId = a.stageRunId && s.runId = runId

end Tables

def runnableRuns (limit offset : Int) : StoreM (List RunId) :=
  if !(1 ≤ limit && limit ≤ 1000) || offset < 0 then
    raise (.runtimeStore "limit must be between 1 and 1000")
  else query fun t ↦ ((t.runnable.drop offset.toNat).take limit.toNat).map RunRow.runId

/-! ## Statements of `reclaim_expired_attempts` -/

/-- A row of the query for expired attempts. -/
structure ExpiredAttempt where
  attemptId : AttemptId
  processId : Option Int
  processGroupId : Option Int
  processStartTicks : Option Int
  runId : RunId

def AttemptRow.expired (a : AttemptRow) (reference : Timestamp) : Bool :=
  a.status = .running &&
    match a.leaseExpiresAt with
    | some lease => lease < reference
    | none => false

def Tables.expiredAttempts (t : Tables) (reference : Timestamp) : List ExpiredAttempt :=
  (t.attempts.filter (·.expired reference)).filterMap fun a ↦
    (t.stage? a.stageRunId).map fun s ↦
      { attemptId := a.attemptId
        processId := a.processId
        processGroupId := a.processGroupId
        processStartTicks := a.processStartTicks
        runId := s.runId }

def leaseFailure : JsonObject :=
  [("category", .str "lease_expired"),
    ("message", .str "worker stopped heartbeating; process fenced"),
    ("retryable", .bool true)]

def AttemptRow.markedLost (reference : Timestamp) (a : AttemptRow) : AttemptRow :=
  { a with
    status := .lost
    endedAt := some reference
    failure := some leaseFailure
    leaseExpiresAt := none }

/-- The guarded `UPDATE`, and whether it met its row. -/
def markLost (attemptId : AttemptId) (reference : Timestamp) : StoreM Bool := do
  let count ← updateAttempts (fun a ↦ a.attemptId = attemptId && a.expired reference)
    (AttemptRow.markedLost reference)
  return count = 1

/-- The query of `_may_resume`: the stage to put back, when its capability can
resume and the budget has room. -/
def Tables.resumable? (t : Tables) (runId : RunId) : Option StageRunId :=
  match t.run? runId, t.stageOf? runId with
  | some run, some stage =>
      if stage.resumable &&
          ((t.attemptsOf stage.stageRunId).length : Int) < run.taskSpec.maxAttempts then
        some stage.stageRunId
      else none
  | _, _ => none

def resumeReason : String := "worker lost its lease; resuming in the same workspace"

end ChipEvolve
