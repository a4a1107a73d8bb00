import ChipEvolve.Runtime.Attempt
import ChipEvolve.Runtime.Staging
import ChipEvolve.Store.Methods

/-!
# Where the methods of the runtime store may raise

The methods of `RuntimeStore` that write in one transaction (`store.py`), with every
place where an exception may leave them: rows that cannot be read back into their record
types, parameters that cannot be serialised or bound, refused transitions and violated
constraints.  The tables are those of `Store.Tables` with what cannot be read in them,
and the tables of recorded evidence.
-/

namespace ChipEvolve

open Sql
open Except (Returns)

/-! ## The tables as they are stored -/

/-- A row, and what making a record of it raises. -/
structure Stored (α : Type) where
  row : α
  unreadable : Option StoreError := none

/-- `None`, or the exception. -/
def raised : Option StoreError → Except StoreError Unit
  | some e => .error e
  | none => .ok ()

namespace Stored

variable {α : Type}

def read (s : Stored α) : Except StoreError α := do
  raised s.unreadable
  return s.row

end Stored

/-- A row of `runtime_metrics` with its key. -/
structure MetricRecord where
  metricId : String
  metric : MetricRow

/-- A row of `runtime_inputs`. -/
structure InputRecord where
  attemptId : AttemptId
  input : StagedInput

/-- The tables of the store.  A status or a task that cannot be read is in the four columns with
what reading it raises; the typed value is then not looked at. -/
structure Ledger where
  tables : Tables := {}
  artifacts : List (Stored ArtifactRow) := []
  metrics : List (Stored MetricRecord) := []
  inputs : List (Stored InputRecord) := []
  runStatus : RunId → Option StoreError := fun _ ↦ none
  taskSpec : RunId → Option StoreError := fun _ ↦ none
  stageStatus : StageRunId → Option StoreError := fun _ ↦ none
  attemptStatus : AttemptId → Option StoreError := fun _ ↦ none

namespace Ledger

variable (l : Ledger)

/-! ### Reading -/

/-- `_run_from_row` -/
def readRun (row : RunRow) : Except StoreError RunRow := do
  raised (l.runStatus row.runId)
  raised (l.taskSpec row.runId)
  return row

def readStage (row : StageRow) : Except StoreError StageRow := do
  raised (l.stageStatus row.stageRunId)
  return row

def readAttempt (row : AttemptRow) : Except StoreError AttemptRow := do
  raised (l.attemptStatus row.attemptId)
  return row

def getRun (runId : RunId) : Except StoreError RunRow :=
  match l.tables.run? runId with
  | none => .error (unknownRun runId)
  | some row => l.readRun row

def listStages (runId : RunId) : Except StoreError (List StageRow) :=
  (l.tables.listStages runId).mapM l.readStage

/-- `ORDER BY attempt_number` -/
def listAttempts (stageRunId : StageRunId) : Except StoreError (List AttemptRow) :=
  ((l.tables.attemptsOf stageRunId).insertionSort
    fun a b ↦ a.attemptNumber ≤ b.attemptNumber).mapM l.readAttempt

/-- What `describe_run` tells of an attempt. -/
structure AttemptDescription where
  attempt : AttemptRow
  inputs : List InputRecord
  artifacts : List ArtifactRow
  metrics : List MetricRecord

/-- `ORDER BY destination` -/
def listInputs (attemptId : AttemptId) : Except StoreError (List InputRecord) :=
  ((l.inputs.filter fun s ↦ s.row.attemptId = attemptId).insertionSort
    fun a b ↦ a.row.input.destination ≤ b.row.input.destination).mapM Stored.read

def describeAttempt (attempt : AttemptRow) : Except StoreError AttemptDescription := do
  let inputs ← l.listInputs attempt.attemptId
  let artifacts ← (l.artifacts.filter fun s ↦ s.row.attemptId = attempt.attemptId).mapM Stored.read
  let metrics ← (l.metrics.filter fun s ↦
    s.row.metric.attemptId = attempt.attemptId).mapM Stored.read
  return { attempt := attempt, inputs := inputs, artifacts := artifacts, metrics := metrics }

def describeStage (stage : StageRow) :
    Except StoreError (StageRow × List AttemptDescription) := do
  let attempts ← l.listAttempts stage.stageRunId
  let described ← attempts.mapM l.describeAttempt
  return (stage, described)

/-- `describe_run` -/
def describeRun (runId : RunId) :
    Except StoreError (RunRow × List (StageRow × List AttemptDescription)) := do
  let run ← l.getRun runId
  let stages ← l.listStages runId
  let described ← stages.mapM l.describeStage
  return (run, described)

/-- `row["status"]` is one of the texts of the waiting statuses. -/
def waits (row : RunRow) : Bool := row.status.waiting && (l.runStatus row.runId).isNone

def hasFailed (row : RunRow) : Bool := row.status = .failed && (l.runStatus row.runId).isNone

/-- `status NOT IN ('succeeded', …)`, which a text that is no status meets too. -/
def isOpen (s : StageRow) : Bool := !s.settled || (l.stageStatus s.stageRunId).isSome

/-! ### Writing -/

def insertRun (row : RunRow) : Ledger :=
  { l with tables := l.tables.insertRun row
           runStatus := Function.update l.runStatus row.runId none
           taskSpec := Function.update l.taskSpec row.runId none }

def insertStage (row : StageRow) : Ledger :=
  { l with tables := l.tables.insertStage row
           stageStatus := Function.update l.stageStatus row.stageRunId none }

def insertEvent (row : EventRow) : Ledger := { l with tables := l.tables.insertEvent row }

/-- An `UPDATE` that sets the status of a run. -/
def updateRun (runId : RunId) (f : RunRow → RunRow) : Ledger :=
  { l with tables := l.tables.updateRun runId f
           runStatus := Function.update l.runStatus runId none }

def updateStage (stageRunId : StageRunId) (f : StageRow → StageRow) : Ledger :=
  { l with tables := l.tables.updateStage stageRunId f
           stageStatus := Function.update l.stageStatus stageRunId none }

def updateOpenStages (runId : RunId) (f : StageRow → StageRow) : Ledger :=
  let met := fun s : StageRow ↦ decide (s.runId = runId) && l.isOpen s
  { l with tables := { l.tables with stages := Table.update met f l.tables.stages }
           stageStatus := fun id ↦
             if l.tables.stages.any fun s ↦ s.stageRunId = id && met s then none
             else l.stageStatus id }

def updateAttempt (attemptId : AttemptId) (f : AttemptRow → AttemptRow) : Ledger :=
  { l with tables := l.tables.updateAttempt attemptId f
           attemptStatus := Function.update l.attemptStatus attemptId none }

def deleteReservation (attemptId : AttemptId) : Ledger :=
  { l with tables := l.tables.deleteReservation attemptId }

/-- `PRIMARY KEY(metric_id)` and the reference to the attempt. -/
def refusesMetric (row : MetricRecord) : Bool :=
  (l.metrics.any fun s ↦ s.row.metricId = row.metricId) ||
    (l.tables.attempt? row.metric.attemptId).isNone

def insertMetric (row : MetricRecord) : Ledger :=
  { l with metrics := l.metrics ++ [{ row := row }] }

/-- `INSERT OR REPLACE`, by `PRIMARY KEY(attempt_id, destination)` -/
def replaceInput (row : InputRecord) : Ledger :=
  { l with inputs := (l.inputs.filter fun s ↦
      !(s.row.attemptId = row.attemptId && s.row.input.destination = row.input.destination)) ++
        [{ row := row }] }

end Ledger

/-! ## The driver -/

inductive Statement where
  | selectRun
  | selectStage
  | selectAttempt
  | insertRun
  | insertStage
  | insertEvent
  | insertMetric (metricId : String)
  | insertInput (destination : String)
  | updateRun
  | updateStage
  | updateAttempt
  | deleteReservation
  deriving DecidableEq

/-- What a statement raises instead of running: its parameters cannot be serialised or bound, or
a constraint that is not modelled is violated. -/
structure Driver where
  refuses : Statement → Option StoreError := fun _ ↦ none

abbrev LedgerM := Sql Ledger StoreError

namespace Driver

variable (D : Driver)

def allow (what : Statement) : LedgerM Unit := reading fun _ ↦ raised (D.refuses what)

def select {α : Type} (what : Statement) (f : Ledger → α) : LedgerM α := do
  D.allow what
  query f

def run (what : Statement) (f : Ledger → Ledger) : LedgerM Unit := do
  D.allow what
  execute f

def runChecked (what : Statement) (violated : Ledger → Bool) (e : StoreError)
    (f : Ledger → Ledger) : LedgerM Unit := do
  D.allow what
  executeChecked violated e f

/-! ## The methods -/

/-- The existing run, if it is a run of the same task and plugin version. -/
def reuseRun (custody : Custody) (a : Submission) (run : RunRow) : LedgerM (Option RunRow) := do
  if !(← reading fun _ ↦ equivalentTaskSpecs custody run.taskSpec a.task) then
    raise (.runtimeStore ("task_id " ++ quoted a.task.taskId ++
      " already exists with a different immutable TaskSpec"))
  else do
    match ← reading (·.listStages run.runId) with
    | [] => raise (.index "list index out of range")
    | stage :: _ =>
        if stage.pluginVersion ≠ a.pluginVersion then
          raise (.runtimeStore ("task_id " ++ quoted a.task.taskId ++
            " already exists at plugin version " ++ quoted stage.pluginVersion))
        else do
          commit
          return some run

def createRun (a : Submission) (pluginId : String) : LedgerM Unit := do
  D.runChecked .insertRun (·.tables.refusesRun a.runRow)
    (.integrity "UNIQUE constraint failed: runtime_runs") (·.insertRun a.runRow)
  D.runChecked .insertStage (·.tables.refusesStage (a.stageRow pluginId))
    (.integrity "UNIQUE constraint failed: runtime_stage_runs")
    (·.insertStage (a.stageRow pluginId))

/-- The transaction of `submit_run`: the run there is already, or none. -/
def submission (custody : Custody) (a : Submission) (pluginId : String) :
    LedgerM (Option RunRow) := do
  match ← D.select .selectRun fun l ↦ a.existing? l.tables with
  | some row => do
      let run ← reading (·.readRun row)
      reuseRun custody a run
  | none => do
      D.createRun a pluginId
      commit
      return none

def submitRun (custody : Custody) (a : Submission) : LedgerM RunRow := do
  reading fun _ ↦ a.task.validate.mapError .contract
  match a.task.pluginId with
  | none => raise (.runtimeStore "a run stage requires a plugin_id")
  | some pluginId =>
      if a.idempotencyKey = some "" then
        raise (.runtimeStore "idempotency_key must not be empty")
      else do
        match ← immediate (D.submission custody a pluginId) with
        | some run => return run
        | none => reading (·.getRun a.runId)

def transitionRun (runId : RunId) (target : RuntimeStatus) (reason : Option String)
    (now : Timestamp) : LedgerM Unit :=
  immediate do
    match ← D.select .selectRun (·.tables.run? runId) with
    | none => raise (unknownRun runId)
    | some row => do
        reading fun l ↦ raised (l.runStatus row.runId)
        if row.status = target then commit
        else if !runTransitionAllowed row.status target then
          raise (runMoveRefused row.status target)
        else do
          D.run .updateRun (·.updateRun runId (RunRow.moved target reason now))
          D.run .updateStage (·.updateOpenStages runId (StageRow.moved target))
          commit

def failQueuedRun (runId : RunId) (category message eventId : String) (now : Timestamp) :
    LedgerM Bool :=
  if category = "" || message = "" then
    raise (.runtimeStore "preflight failure needs a category and message")
  else
    immediate do
      match ← D.select .selectRun (·.tables.run? runId) with
      | none => raise (unknownRun runId)
      | some row => do
          if !(← query (·.waits row)) then do
            commit
            return false
          else do
            D.run .updateRun (·.updateRun runId (RunRow.failedEarly category now))
            D.run .updateStage (·.updateOpenStages runId (StageRow.moved .failed))
            D.runChecked .insertEvent
              (·.tables.refusesEvent (preflightEvent runId category message eventId now))
              (.integrity "UNIQUE constraint failed: runtime_events")
              (·.insertEvent (preflightEvent runId category message eventId now))
            commit
            return true

def finishAttempt (attemptId : AttemptId) (status : AttemptStatus) (e : Ending)
    (now : Timestamp) : LedgerM Unit :=
  immediate do
    match ← D.select .selectAttempt (·.tables.attempt? attemptId) with
    | none => raise (unknownAttempt attemptId)
    | some row => do
        reading fun l ↦ raised (l.attemptStatus row.attemptId)
        if !attemptTransitionAllowed row.status status then
          raise (.invalidTransition
            ("invalid attempt transition " ++ row.status.value ++ " -> " ++ status.value))
        else do
          D.run .updateAttempt (·.updateAttempt attemptId (AttemptRow.finished status e now))
          D.run .deleteReservation (·.deleteReservation attemptId)
          commit

def scheduleRetry (runId : RunId) (stageRunId : StageRunId) (reason : String) : LedgerM Unit :=
  immediate do
    match ← D.select .selectStage (·.tables.stage? stageRunId) with
    | none => raise (unknownStage stageRunId)
    | some stage => do
        reading fun l ↦ raised (l.stageStatus stage.stageRunId)
        if stage.status ≠ .running then
          raise (.invalidTransition
            ("only a running stage can be retried, not " ++ stage.status.value))
        else do
          match ← D.select .selectRun (·.tables.run? runId) with
          | none => raise (unknownRun runId)
          | some run => do
              reading fun l ↦ raised (l.runStatus run.runId)
              if !runTransitionAllowed run.status .retryWait then
                raise (runMoveRefused run.status .retryWait)
              else do
                D.run .updateStage (·.updateStage stageRunId (StageRow.moved .retryWait))
                D.run .updateRun (·.updateRun runId (RunRow.retried reason))
                commit

/-- `request_retry` between `BEGIN IMMEDIATE` and `COMMIT`. -/
def grantRetry (runId : RunId) (requester reason eventId : String) (now : Timestamp) :
    LedgerM Unit := do
  match ← D.select .selectRun (·.tables.run? runId) with
  | none => raise (unknownRun runId)
  | some run => do
      reading fun l ↦ raised (l.taskSpec run.runId)
      let stage ← D.select .selectStage (·.tables.stageOf? runId)
      let attempt ← D.select .selectAttempt fun l ↦
        stage.bind fun s ↦ l.tables.latestAttempt? s.stageRunId
      if !(← query (·.hasFailed run)) then
        raise (.invalidTransition "only failed runs may be retried")
      else
        match stage, attempt with
        | some stage, some attempt =>
            if !attempt.mayRetry then
              raise (.runtimeStore "the latest failure is not retryable")
            else if run.taskSpec.maxAttempts ≤ attempt.attemptNumber then
              raise (.runtimeStore "retry budget exhausted")
            else do
              D.run .updateRun (·.updateRun runId (RunRow.retried (retryReason requester reason)))
              D.run .updateStage (·.updateStage stage.stageRunId (StageRow.moved .retryWait))
              D.runChecked .insertEvent
                (·.tables.refusesEvent
                  (retryEvent runId stage attempt requester reason eventId now))
                (.integrity "UNIQUE constraint failed: runtime_events")
                (·.insertEvent (retryEvent runId stage attempt requester reason eventId now))
        | _, _ => raise (.runtimeStore "the latest failure is not retryable")

def requestRetry (runId : RunId) (requester reason eventId : String) (now : Timestamp) :
    LedgerM (RunRow × List (StageRow × List Ledger.AttemptDescription)) :=
  if isBlank reason || isBlank requester then
    raise (.runtimeStore "retry reason and requester are required")
  else
    immediate do
      D.grantRetry runId requester reason eventId now
      commit
      -- still inside the `try`: the handler's `ROLLBACK` finds no transaction
      reading (·.describeRun runId)

/-- One round of the loop of `register_metrics`. -/
def registerMetric (attemptId : AttemptId) (entry : String × Metric) : LedgerM Unit := do
  reading fun _ ↦ entry.2.validate.mapError .contract
  let row : MetricRecord :=
    { metricId := entry.1, metric := Attempt.metricRow attemptId entry.2 }
  D.runChecked (.insertMetric entry.1) (·.refusesMetric row)
    (.integrity "constraint failed: runtime_metrics") (·.insertMetric row)

/-- `register_metrics`, with the ids it generates. -/
def registerMetrics (attemptId : AttemptId) (metrics : List (String × Metric)) :
    LedgerM (List String) :=
  immediate do
    metrics.forM (D.registerMetric attemptId)
    commit
    return metrics.map Prod.fst

/-- One round of the loop of `record_inputs`. -/
def recordInput (attemptId : AttemptId) (staged : StagedInput) : LedgerM Unit := do
  reading fun _ ↦ staged.validate.mapError .contract
  D.runChecked (.insertInput staged.destination) (fun l ↦ (l.tables.attempt? attemptId).isNone)
    (.integrity "FOREIGN KEY constraint failed")
    (·.replaceInput { attemptId := attemptId, input := staged })

def recordInputs (attemptId : AttemptId) (inputs : List StagedInput) : LedgerM Unit :=
  immediate do
    inputs.forM (D.recordInput attemptId)
    commit

/-- A call of one of the methods, by what it returns. -/
inductive Operation : Type → Type 1 where
  | submitRun (custody : Custody) (a : Submission) : Operation RunRow
  | transitionRun (runId : RunId) (target : RuntimeStatus) (reason : Option String)
      (now : Timestamp) : Operation Unit
  | failQueuedRun (runId : RunId) (category message eventId : String) (now : Timestamp) :
      Operation Bool
  | finishAttempt (attemptId : AttemptId) (status : AttemptStatus) (e : Ending)
      (now : Timestamp) : Operation Unit
  | scheduleRetry (runId : RunId) (stageRunId : StageRunId) (reason : String) : Operation Unit
  | requestRetry (runId : RunId) (requester reason eventId : String) (now : Timestamp) :
      Operation (RunRow × List (StageRow × List Ledger.AttemptDescription))
  | registerMetrics (attemptId : AttemptId) (metrics : List (String × Metric)) :
      Operation (List String)
  | recordInputs (attemptId : AttemptId) (inputs : List StagedInput) : Operation Unit

def perform {α : Type} : Operation α → LedgerM α
  | .submitRun custody a => D.submitRun custody a
  | .transitionRun runId target reason now => D.transitionRun runId target reason now
  | .failQueuedRun runId category message eventId now =>
      D.failQueuedRun runId category message eventId now
  | .finishAttempt attemptId status e now => D.finishAttempt attemptId status e now
  | .scheduleRetry runId stageRunId reason => D.scheduleRetry runId stageRunId reason
  | .requestRetry runId requester reason eventId now =>
      D.requestRetry runId requester reason eventId now
  | .registerMetrics attemptId metrics => D.registerMetrics attemptId metrics
  | .recordInputs attemptId inputs => D.recordInputs attemptId inputs

/-! ## Every transaction ends where it commits -/

section Settling

variable {D : Driver}

theorem inside_allow {what : Statement} : Inside (D.allow what) := (quiet_reading _).inside

theorem inside_select {α : Type} {what : Statement} {f : Ledger → α} : Inside (D.select what f) :=
  inside_allow.bind fun _ ↦ (quiet_query f).inside

theorem inside_run {what : Statement} {f : Ledger → Ledger} : Inside (D.run what f) :=
  inside_allow.bind fun _ ↦ inside_execute f

theorem inside_runChecked {what : Statement} {violated : Ledger → Bool} {e : StoreError}
    {f : Ledger → Ledger} : Inside (D.runChecked what violated e f) :=
  inside_allow.bind fun _ ↦ inside_executeChecked violated e f

theorem inside_reading {α : Type} {f : Ledger → Except StoreError α} :
    Inside (reading f : LedgerM α) :=
  (quiet_reading f).inside

theorem settles_reuseRun (custody : Custody) (a : Submission) (run : RunRow) :
    Settles (reuseRun custody a run) := by
  refine inside_reading.settles fun equivalent ↦ ?_
  split
  · exact settles_raise _
  · refine inside_reading.settles fun stages ↦ ?_
    cases stages with
    | nil => exact settles_raise _
    | cons stage _ =>
        dsimp only
        split
        · exact settles_raise _
        · exact settles_commit_pure _

theorem inside_createRun (a : Submission) (pluginId : String) : Inside (D.createRun a pluginId) :=
  inside_runChecked.bind fun _ ↦ inside_runChecked

theorem settles_submission (custody : Custody) (a : Submission) (pluginId : String) :
    Settles (D.submission custody a pluginId) := by
  refine inside_select.settles fun existing ↦ ?_
  cases existing with
  | some row => exact inside_reading.settles fun run ↦ settles_reuseRun custody a run
  | none => exact (inside_createRun a pluginId).settles fun _ ↦ settles_commit_pure _

theorem undone_transitionRun (runId : RunId) (target : RuntimeStatus) (reason : Option String)
    (now : Timestamp) (l : Ledger) : Undone (D.transitionRun runId target reason now) l := by
  refine Settles.undone (inside_select.settles fun row ↦ ?_) l
  cases row with
  | none => exact settles_raise _
  | some row =>
      refine inside_reading.settles fun _ ↦ ?_
      split
      · exact settles_commit
      · split
        · exact settles_raise _
        · exact inside_run.settles fun _ ↦ inside_run.settles fun _ ↦ settles_commit

theorem undone_failQueuedRun (runId : RunId) (category message eventId : String) (now : Timestamp)
    (l : Ledger) : Undone (D.failQueuedRun runId category message eventId now) l := by
  unfold failQueuedRun
  split
  · exact (quiet_raise _).undone
  · refine Settles.undone (inside_select.settles fun row ↦ ?_) l
    cases row with
    | none => exact settles_raise _
    | some row =>
        refine (quiet_query _).inside.settles fun waits ↦ ?_
        split
        · exact settles_commit_pure _
        · exact inside_run.settles fun _ ↦ inside_run.settles fun _ ↦
            inside_runChecked.settles fun _ ↦ settles_commit_pure _

theorem undone_finishAttempt (attemptId : AttemptId) (status : AttemptStatus) (e : Ending)
    (now : Timestamp) (l : Ledger) : Undone (D.finishAttempt attemptId status e now) l := by
  refine Settles.undone (inside_select.settles fun row ↦ ?_) l
  cases row with
  | none => exact settles_raise _
  | some row =>
      refine inside_reading.settles fun _ ↦ ?_
      split
      · exact settles_raise _
      · exact inside_run.settles fun _ ↦ inside_run.settles fun _ ↦ settles_commit

theorem undone_scheduleRetry (runId : RunId) (stageRunId : StageRunId) (reason : String)
    (l : Ledger) : Undone (D.scheduleRetry runId stageRunId reason) l := by
  refine Settles.undone (inside_select.settles fun stage ↦ ?_) l
  cases stage with
  | none => exact settles_raise _
  | some stage =>
      refine inside_reading.settles fun _ ↦ ?_
      split
      · exact settles_raise _
      · refine inside_select.settles fun run ↦ ?_
        cases run with
        | none => exact settles_raise _
        | some run =>
            refine inside_reading.settles fun _ ↦ ?_
            split
            · exact settles_raise _
            · exact inside_run.settles fun _ ↦ inside_run.settles fun _ ↦ settles_commit

/-- Whatever the k-th metric raises, the ones before it are rolled back. -/
theorem undone_registerMetrics (attemptId : AttemptId) (metrics : List (String × Metric))
    (l : Ledger) : Undone (D.registerMetrics attemptId metrics) l := by
  have hround : ∀ entry, Inside (D.registerMetric attemptId entry) := fun _ ↦
    inside_reading.bind fun _ ↦ inside_runChecked
  exact ((Inside.forM hround metrics).settles fun _ ↦ settles_commit_pure _).undone l

theorem undone_recordInputs (attemptId : AttemptId) (inputs : List StagedInput) (l : Ledger) :
    Undone (D.recordInputs attemptId inputs) l := by
  have hround : ∀ staged, Inside (D.recordInput attemptId staged) := fun _ ↦
    inside_reading.bind fun _ ↦ inside_runChecked
  exact ((Inside.forM hround inputs).settles fun _ ↦ settles_commit).undone l

end Settling

/-! ## What is read after the commit -/

section Inversion

variable {D : Driver} {α : Type} {what : Statement} {l : Ledger} {saved : Option Ledger}
  {c : Conn Ledger} {u : Unit} {a : α}

@[simp] theorem raised_eq_ok {e : Option StoreError} : raised e = .ok u ↔ e = none := by
  cases e <;> simp [raised]

theorem reading_eq_ok {f : Ledger → Except StoreError α} {c c' : Conn Ledger} :
    (reading f : LedgerM α) c = (.ok a, c') ↔ f c.db = .ok a ∧ c' = c := by
  simp [reading, eq_comm]

theorem select_eq_ok {f : Ledger → α} {c c' : Conn Ledger} :
    D.select what f c = (.ok a, c') ↔ D.refuses what = none ∧ a = f c.db ∧ c' = c := by
  unfold select allow
  rw [bind_eq_ok]
  simp only [reading_eq_ok, raised_eq_ok, query_apply, Prod.mk.injEq, Except.ok.injEq]
  constructor
  · rintro ⟨_, _, ⟨hallowed, rfl⟩, rfl, rfl⟩
    exact ⟨hallowed, rfl, rfl⟩
  · rintro ⟨hallowed, rfl, rfl⟩
    exact ⟨(), _, ⟨hallowed, rfl⟩, rfl, rfl⟩

theorem run_eq_ok {f : Ledger → Ledger} {c c' : Conn Ledger} :
    D.run what f c = (.ok u, c') ↔ D.refuses what = none ∧ c' = { c with db := f c.db } := by
  unfold run allow
  rw [bind_eq_ok]
  simp only [reading_eq_ok, raised_eq_ok, execute, Prod.mk.injEq]
  constructor
  · rintro ⟨_, _, ⟨hallowed, rfl⟩, _, rfl⟩
    exact ⟨hallowed, rfl⟩
  · rintro ⟨hallowed, rfl⟩
    exact ⟨(), _, ⟨hallowed, rfl⟩, trivial, rfl⟩

theorem runChecked_eq_ok {violated : Ledger → Bool} {e : StoreError} {f : Ledger → Ledger}
    {c c' : Conn Ledger} :
    D.runChecked what violated e f c = (.ok u, c') ↔
      D.refuses what = none ∧ violated c.db = false ∧ c' = { c with db := f c.db } := by
  unfold runChecked allow
  rw [bind_eq_ok]
  simp only [reading_eq_ok, raised_eq_ok, executeChecked]
  constructor
  · rintro ⟨_, _, ⟨hallowed, rfl⟩, h⟩
    split at h
    · cases h
    · rename_i hviolated
      obtain ⟨-, rfl⟩ := Prod.mk.inj h
      exact ⟨hallowed, Bool.not_eq_true _ ▸ hviolated, rfl⟩
  · rintro ⟨hallowed, hviolated, rfl⟩
    exact ⟨(), _, ⟨hallowed, rfl⟩, by simp [hviolated]⟩

theorem query_eq_ok {f : Ledger → α} {c c' : Conn Ledger} :
    (query f : LedgerM α) c = (.ok a, c') ↔ a = f c.db ∧ c' = c := by
  simp [eq_comm]

theorem reuseRun_ne_none {custody : Custody} {a : Submission} {run : RunRow} {c c' : Conn Ledger} :
    reuseRun custody a run c ≠ (.ok none, c') := by
  intro h
  obtain ⟨equivalent, _, _, h⟩ := bind_eq_ok.mp h
  split at h
  · cases h
  · obtain ⟨stages, _, _, h⟩ := bind_eq_ok.mp h
    cases stages with
    | nil => cases h
    | cons stage _ =>
        dsimp only at h
        split at h
        · cases h
        · obtain ⟨_, _, _, h⟩ := bind_eq_ok.mp h
          cases h

/-- A run that was just created can be read. -/
theorem returns_getRun_of_created {custody : Custody} {a : Submission} {pluginId : String}
    (h : immediate (D.submission custody a pluginId) { db := l } = (.ok none, c)) :
    ∃ run, c.db.getRun a.runId = .ok run := by
  rw [immediate_apply, handled_eq_ok] at h
  obtain ⟨existing, _, hselect, h⟩ := bind_eq_ok.mp h
  obtain ⟨_, _, rfl⟩ := select_eq_ok.mp hselect
  cases existing with
  | some row =>
      obtain ⟨run, _, _, h⟩ := bind_eq_ok.mp h
      exact absurd h reuseRun_ne_none
  | none =>
      obtain ⟨_, _, hcreate, h⟩ := bind_eq_ok.mp h
      obtain ⟨_, _, hrun, hstage⟩ := bind_eq_ok.mp hcreate
      obtain ⟨_, hfree, rfl⟩ := runChecked_eq_ok.mp hrun
      obtain ⟨_, _, rfl⟩ := runChecked_eq_ok.mp hstage
      obtain ⟨-, rfl⟩ := Prod.mk.inj h
      have hnone : l.tables.run? a.runId = none := by
        rw [Tables.run?, Table.get?_eq_none_iff]
        intro r hr hsame
        have hrefused := List.any_eq_false.mp hfree r hr
        simp [hsame, Submission.runRow] at hrefused
      have hsome : (Tables.run? ((l.tables.insertRun a.runRow).insertStage (a.stageRow pluginId))
          a.runId) = some a.runRow := by
        change Table.get? RunRow.runId a.runId (l.tables.runs ++ [a.runRow]) = _
        rw [Table.get?_append, show Table.get? RunRow.runId a.runId l.tables.runs = none from hnone]
        simp [Table.get?, Submission.runRow]
      have hget : ((l.insertRun a.runRow).insertStage (a.stageRow pluginId)).getRun a.runId =
          ((l.insertRun a.runRow).insertStage (a.stageRow pluginId)).readRun a.runRow := by
        unfold Ledger.getRun
        change (match Tables.run? ((l.tables.insertRun a.runRow).insertStage (a.stageRow pluginId))
          a.runId with
          | none => _
          | some row => _) = _
        rw [hsome]
      refine ⟨a.runRow, hget.trans ?_⟩
      simp [Ledger.readRun, Ledger.insertStage, Ledger.insertRun, raised, bind, Except.bind, pure,
        Except.pure]

theorem undone_submitRun (custody : Custody) (a : Submission) (l : Ledger) :
    Undone (D.submitRun custody a) l := by
  refine (quiet_reading _).undone_bind fun _ ↦ ?_
  split
  · exact (quiet_raise _).undone
  · rename_i pluginId _
    split
    · exact (quiet_raise _).undone
    · refine ((settles_submission custody a pluginId).undone l).bind ?_
      intro existing c h
      cases existing with
      | some run => exact ⟨run, rfl⟩
      | none => exact returns_getRun_of_created h

end Inversion

end Driver

namespace Ledger

variable {l : Ledger} {runId : RunId}

/-- What is recorded of an attempt can be read. -/
def Evident (l : Ledger) (attemptId : AttemptId) : Prop :=
  (∀ s ∈ l.inputs, s.row.attemptId = attemptId → s.unreadable = none) ∧
    (∀ s ∈ l.artifacts, s.row.attemptId = attemptId → s.unreadable = none) ∧
      ∀ s ∈ l.metrics, s.row.metric.attemptId = attemptId → s.unreadable = none

/-- Something that `describe_run` reads of a run cannot be read, apart from the row of the run and
the status of that stage. -/
def Unreadable (l : Ledger) (runId : RunId) (stageRunId : StageRunId) : Prop :=
  ∃ s ∈ l.tables.stages, s.runId = runId ∧
    (s.stageRunId ≠ stageRunId ∧ l.stageStatus s.stageRunId ≠ none ∨
      ∃ a ∈ l.tables.attempts, a.stageRunId = s.stageRunId ∧
        (l.attemptStatus a.attemptId ≠ none ∨ ¬l.Evident a.attemptId))

theorem mapM_raised {α β : Type} {g : α → Option StoreError} {h : α → β} {xs : List α}
    {ys : List β} :
    (xs.mapM fun x ↦ (do
        raised (g x)
        return h x : Except StoreError β)) = .ok ys ↔
      (∀ x ∈ xs, g x = none) ∧ ys = xs.map h := by
  induction xs generalizing ys with
  | nil => simp [pure, Except.pure, eq_comm]
  | cons x xs ih =>
      rw [List.mapM_cons, List.forall_mem_cons]
      simp only [Except.bind_eq_ok, Driver.raised_eq_ok, ih]
      constructor
      · rintro ⟨y, ⟨_, hx, hy⟩, rest, ⟨hxs, rfl⟩, hsame⟩
        obtain rfl := Except.ok.inj hy
        obtain rfl := Except.ok.inj hsame
        exact ⟨⟨hx, hxs⟩, rfl⟩
      · rintro ⟨⟨hx, hxs⟩, rfl⟩
        exact ⟨h x, ⟨(), hx, rfl⟩, xs.map h, ⟨hxs, rfl⟩, rfl⟩

theorem returns_read {α : Type} {rows : List (Stored α)} :
    Returns (rows.mapM Stored.read) ↔ ∀ s ∈ rows, s.unreadable = none := by
  refine ⟨fun ⟨_, h⟩ ↦ (mapM_raised.mp h).1, fun h ↦ ⟨_, mapM_raised.mpr ⟨h, rfl⟩⟩⟩

theorem returns_describeAttempt {a : AttemptRow} :
    Returns (l.describeAttempt a) ↔ l.Evident a.attemptId := by
  have hparts : Returns (l.describeAttempt a) ↔ Returns (l.listInputs a.attemptId) ∧
      Returns ((l.artifacts.filter fun s ↦ s.row.attemptId = a.attemptId).mapM Stored.read) ∧
        Returns ((l.metrics.filter fun s ↦
          s.row.metric.attemptId = a.attemptId).mapM Stored.read) := by
    simp only [describeAttempt, Except.returns_bind, Except.returns_pure, and_true,
      exists_and_right]
    rfl
  rw [hparts, listInputs, returns_read, returns_read, returns_read]
  simp only [List.mem_insertionSort, List.mem_filter, decide_eq_true_eq, and_imp]
  rfl

theorem listAttempts_eq_ok {stageRunId : StageRunId} {attempts : List AttemptRow} :
    l.listAttempts stageRunId = .ok attempts ↔
      (∀ a ∈ l.tables.attempts, a.stageRunId = stageRunId → l.attemptStatus a.attemptId = none) ∧
        attempts = (l.tables.attemptsOf stageRunId).insertionSort
          fun a b ↦ a.attemptNumber ≤ b.attemptNumber := by
  change ((_ : List AttemptRow).mapM fun a ↦ (do
    raised (l.attemptStatus a.attemptId)
    return a : Except StoreError AttemptRow)) = _ ↔ _
  rw [mapM_raised, List.map_id']
  simp only [List.mem_insertionSort, Tables.attemptsOf, List.mem_filter, decide_eq_true_eq, and_imp]

theorem listStages_eq_ok {stages : List StageRow} : l.listStages runId = .ok stages ↔
    (∀ s ∈ l.tables.stages, s.runId = runId → l.stageStatus s.stageRunId = none) ∧
      stages = l.tables.listStages runId := by
  change ((_ : List StageRow).mapM fun s ↦ (do
    raised (l.stageStatus s.stageRunId)
    return s : Except StoreError StageRow)) = _ ↔ _
  rw [mapM_raised, List.map_id']
  simp only [Tables.listStages, List.mem_insertionSort, List.mem_filter, decide_eq_true_eq, and_imp]

theorem returns_describeStage {s : StageRow} : Returns (l.describeStage s) ↔
    ∀ a ∈ l.tables.attempts, a.stageRunId = s.stageRunId →
      l.attemptStatus a.attemptId = none ∧ l.Evident a.attemptId := by
  simp only [describeStage, Except.returns_bind, Except.returns_pure, and_true, listAttempts_eq_ok]
  constructor
  · rintro ⟨_, ⟨hstatus, rfl⟩, hdescribed⟩ a ha hstage
    refine ⟨hstatus a ha hstage, returns_describeAttempt.mp ?_⟩
    refine Except.returns_mapM.mp hdescribed a ?_
    simpa [Tables.attemptsOf] using ⟨ha, hstage⟩
  · intro h
    refine ⟨_, ⟨fun a ha hstage ↦ (h a ha hstage).1, rfl⟩, ?_⟩
    refine Except.returns_mapM.mpr fun a ha ↦ returns_describeAttempt.mpr ?_
    obtain ⟨ha, hstage⟩ : a ∈ l.tables.attempts ∧ a.stageRunId = s.stageRunId := by
      simpa [Tables.attemptsOf] using ha
    exact (h a ha hstage).2

theorem returns_describeRun : Returns (l.describeRun runId) ↔
    Returns (l.getRun runId) ∧ ∀ s ∈ l.tables.stages, s.runId = runId →
      l.stageStatus s.stageRunId = none ∧ Returns (l.describeStage s) := by
  simp only [describeRun, Except.returns_bind, Except.returns_pure, and_true, exists_and_right,
    listStages_eq_ok]
  refine and_congr_right fun _ ↦ ?_
  constructor
  · rintro ⟨_, ⟨hstatus, rfl⟩, hdescribed⟩ s hs hrun
    refine ⟨hstatus s hs hrun, Except.returns_mapM.mp hdescribed s ?_⟩
    simpa [Tables.listStages] using ⟨hs, hrun⟩
  · intro h
    refine ⟨_, ⟨fun s hs hrun ↦ (h s hs hrun).1, rfl⟩, ?_⟩
    refine Except.returns_mapM.mpr fun s hs ↦ ?_
    obtain ⟨hs, hrun⟩ : s ∈ l.tables.stages ∧ s.runId = runId := by
      simpa [Tables.listStages] using hs
    exact (h s hs hrun).2

end Ledger

namespace Driver

/-! ## A retry that is granted -/

/-- The checks of `request_retry` that pass before its `COMMIT`, on the tables it finds. -/
structure RetryGranted (D : Driver) (l : Ledger) (runId : RunId) (eventId : String) (run : RunRow)
    (stage : StageRow) (attempt : AttemptRow) : Prop where
  found : l.tables.run? runId = some run
  task : l.taskSpec run.runId = none
  staged : l.tables.stageOf? runId = some stage
  tried : l.tables.latestAttempt? stage.stageRunId = some attempt
  failed : l.hasFailed run = true
  retryable : attempt.mayRetry = true
  budget : ¬run.taskSpec.maxAttempts ≤ attempt.attemptNumber
  event : ∀ e ∈ l.tables.events, e.eventId ≠ eventId
  driver : ∀ what ∈ [Statement.selectRun, .selectStage, .selectAttempt, .updateRun, .updateStage,
    .insertEvent], D.refuses what = none

/-- The tables `request_retry` commits. -/
def retried (l : Ledger) (runId : RunId) (requester reason eventId : String) (now : Timestamp)
    (stage : StageRow) (attempt : AttemptRow) : Ledger :=
  ((l.updateRun runId (RunRow.retried (retryReason requester reason))).updateStage
    stage.stageRunId (StageRow.moved .retryWait)).insertEvent
      (retryEvent runId stage attempt requester reason eventId now)

section Retry

variable {D : Driver} {l : Ledger} {runId : RunId} {requester reason eventId : String}
  {now : Timestamp} {c : Conn Ledger}

theorem refusesEvent_eq_false {t : Tables} {row : EventRow} :
    t.refusesEvent row = false ↔ ∀ e ∈ t.events, e.eventId ≠ row.eventId := by
  simp [Tables.refusesEvent]

theorem inside_grantRetry : Inside (D.grantRetry runId requester reason eventId now) := by
  refine inside_select.bind fun run ↦ ?_
  cases run with
  | none => exact (quiet_raise _).inside
  | some run =>
      refine inside_reading.bind fun _ ↦ inside_select.bind fun stage ↦
        inside_select.bind fun attempt ↦ (quiet_query _).inside.bind fun failed ↦ ?_
      split
      · exact (quiet_raise _).inside
      · split
        · split
          · exact (quiet_raise _).inside
          · split
            · exact (quiet_raise _).inside
            · exact inside_run.bind fun _ ↦ inside_run.bind fun _ ↦ inside_runChecked
        · exact (quiet_raise _).inside

theorem grantRetry_eq_ok {s : Ledger} {u : Unit} :
    D.grantRetry runId requester reason eventId now { db := l, saved := some s } = (.ok u, c) ↔
      ∃ run stage attempt, RetryGranted D l runId eventId run stage attempt ∧
        c = { db := retried l runId requester reason eventId now stage attempt
              saved := some s } := by
  constructor
  · intro h
    obtain ⟨run, _, hselect, h⟩ := bind_eq_ok.mp h
    obtain ⟨hselectRun, hrun, rfl⟩ := select_eq_ok.mp hselect
    cases run with
    | none => cases h
    | some run =>
        obtain ⟨_, _, hread, h⟩ := bind_eq_ok.mp h
        obtain ⟨htask, rfl⟩ := reading_eq_ok.mp hread
        obtain ⟨stage, _, hselect', h⟩ := bind_eq_ok.mp h
        obtain ⟨hselectStage, hstage, rfl⟩ := select_eq_ok.mp hselect'
        obtain ⟨attempt, _, hselect'', h⟩ := bind_eq_ok.mp h
        obtain ⟨hselectAttempt, hattempt, rfl⟩ := select_eq_ok.mp hselect''
        obtain ⟨failed, _, hquery, h⟩ := bind_eq_ok.mp h
        obtain ⟨rfl, rfl⟩ := query_eq_ok.mp hquery
        split at h
        · cases h
        · rename_i hstatus
          cases stage with
          | none => cases h
          | some stage =>
              cases attempt with
              | none => cases h
              | some attempt =>
                  dsimp only at h
                  split at h
                  · cases h
                  · rename_i hretryable
                    split at h
                    · cases h
                    · rename_i hbudget
                      obtain ⟨_, _, hrunUpdate, h⟩ := bind_eq_ok.mp h
                      obtain ⟨hupdateRun, rfl⟩ := run_eq_ok.mp hrunUpdate
                      obtain ⟨_, _, hstageUpdate, h⟩ := bind_eq_ok.mp h
                      obtain ⟨hupdateStage, rfl⟩ := run_eq_ok.mp hstageUpdate
                      obtain ⟨hinsert, hevent, rfl⟩ := runChecked_eq_ok.mp h
                      refine ⟨run, stage, attempt, ?_, rfl⟩
                      refine ⟨hrun.symm, raised_eq_ok.mp htask, hstage.symm, hattempt.symm,
                        by simpa using hstatus, by simpa using hretryable, hbudget, ?_, ?_⟩
                      · exact refusesEvent_eq_false.mp hevent
                      · simp only [List.forall_mem_cons]
                        exact ⟨hselectRun, hselectStage, hselectAttempt, hupdateRun, hupdateStage,
                          hinsert, by simp⟩
  · rintro ⟨run, stage, attempt, granted, rfl⟩
    have hdriver := granted.driver
    simp only [List.forall_mem_cons] at hdriver
    obtain ⟨hselectRun, hselectStage, hselectAttempt, hupdateRun, hupdateStage, hinsert, _⟩ :=
      hdriver
    refine bind_eq_ok.mpr ⟨some run, _, select_eq_ok.mpr ⟨hselectRun, granted.found.symm, rfl⟩, ?_⟩
    refine bind_eq_ok.mpr ⟨(), _, reading_eq_ok.mpr ⟨raised_eq_ok.mpr granted.task, rfl⟩, ?_⟩
    refine bind_eq_ok.mpr ⟨some stage, _,
      select_eq_ok.mpr ⟨hselectStage, granted.staged.symm, rfl⟩, ?_⟩
    refine bind_eq_ok.mpr ⟨some attempt, _,
      select_eq_ok.mpr ⟨hselectAttempt, granted.tried.symm, rfl⟩, ?_⟩
    refine bind_eq_ok.mpr ⟨true, _, query_eq_ok.mpr ⟨granted.failed.symm, rfl⟩, ?_⟩
    rw [if_neg (by simp)]
    dsimp only
    rw [if_neg (by simp [granted.retryable]), if_neg granted.budget]
    refine bind_eq_ok.mpr ⟨(), _, run_eq_ok.mpr ⟨hupdateRun, rfl⟩, ?_⟩
    refine bind_eq_ok.mpr ⟨(), _, run_eq_ok.mpr ⟨hupdateStage, rfl⟩, ?_⟩
    refine runChecked_eq_ok.mpr ⟨hinsert, ?_, rfl⟩
    exact refusesEvent_eq_false.mpr granted.event

theorem retried_ne {stage : StageRow} {attempt : AttemptRow} :
    retried l runId requester reason eventId now stage attempt ≠ l := by
  intro hsame
  have hlength := congrArg (fun l : Ledger ↦ l.tables.events.length) hsame
  simp [retried, Ledger.insertEvent, Tables.insertEvent, Ledger.updateStage, Tables.updateStage,
    Ledger.updateRun, Tables.updateRun] at hlength

theorem stages_retried {stage : StageRow} {attempt : AttemptRow} :
    (retried l runId requester reason eventId now stage attempt).tables.stages =
      Table.update (fun s ↦ s.stageRunId = stage.stageRunId) (StageRow.moved .retryWait)
        l.tables.stages := rfl

theorem stageStatus_retried {stage : StageRow} {attempt : AttemptRow} {id : StageRunId} :
    (retried l runId requester reason eventId now stage attempt).stageStatus id = none ↔
      (id ≠ stage.stageRunId → l.stageStatus id = none) := by
  change Function.update l.stageStatus stage.stageRunId none id = none ↔ _
  by_cases hid : id = stage.stageRunId
  · simp [hid]
  · simp [hid]

/-- The row of the run is read back after the retry. -/
theorem returns_getRun_retried {run : RunRow} {stage : StageRow} {attempt : AttemptRow}
    (granted : RetryGranted D l runId eventId run stage attempt) :
    Returns ((retried l runId requester reason eventId now stage attempt).getRun runId) := by
  have hid : run.runId = runId := Table.key_of_get? granted.found
  have hrun : (retried l runId requester reason eventId now stage attempt).tables.run? runId =
      some (RunRow.retried (retryReason requester reason) run) := by
    change Table.get? RunRow.runId runId (Table.update (fun r : RunRow ↦ r.runId = runId)
      (RunRow.retried (retryReason requester reason)) l.tables.runs) = _
    rw [Table.update, Table.get?_map fun r ↦ by split <;> rfl]
    rw [show Table.get? RunRow.runId runId l.tables.runs = some run from granted.found]
    simp [hid]
  have htask : (retried l runId requester reason eventId now stage attempt).taskSpec run.runId =
      none := granted.task
  have hstatus : (retried l runId requester reason eventId now stage attempt).runStatus run.runId =
      none := by
    change Function.update l.runStatus runId none run.runId = none
    rw [hid, Function.update_self]
  refine ⟨RunRow.retried (retryReason requester reason) run, ?_⟩
  unfold Ledger.getRun
  rw [hrun]
  simp [Ledger.readRun, RunRow.retried, htask, hstatus, raised, bind, Except.bind, pure,
    Except.pure]

theorem returns_describe_retried {run : RunRow} {stage : StageRow} {attempt : AttemptRow}
    (granted : RetryGranted D l runId eventId run stage attempt) :
    Returns ((retried l runId requester reason eventId now stage attempt).describeRun runId) ↔
      ¬l.Unreadable runId stage.stageRunId := by
  rw [Ledger.returns_describeRun, and_iff_right (returns_getRun_retried granted)]
  simp only [Ledger.returns_describeStage, stageStatus_retried, stages_retried]
  have hrows : ∀ P : StageRunId → RunId → Prop,
      (∀ s ∈ Table.update (fun s ↦ s.stageRunId = stage.stageRunId) (StageRow.moved .retryWait)
        l.tables.stages, P s.stageRunId s.runId) ↔
          ∀ s ∈ l.tables.stages, P s.stageRunId s.runId := by
    intro P
    rw [Table.update, List.forall_mem_map]
    refine forall₂_congr fun s _ ↦ ?_
    split <;> rfl
  refine (hrows fun stageRunId run ↦ run = runId →
    (stageRunId ≠ stage.stageRunId → l.stageStatus stageRunId = none) ∧
      ∀ a ∈ l.tables.attempts, a.stageRunId = stageRunId →
        l.attemptStatus a.attemptId = none ∧ l.Evident a.attemptId).trans ?_
  unfold Ledger.Unreadable
  push Not
  rfl

theorem undone_requestRetry_iff :
    Undone (D.requestRetry runId requester reason eventId now) l ↔
      ∀ run stage attempt, isBlank reason = false → isBlank requester = false →
        RetryGranted D l runId eventId run stage attempt →
          ¬l.Unreadable runId stage.stageRunId := by
  unfold requestRetry
  split
  · rename_i hblank
    refine iff_of_true (quiet_raise _).undone ?_
    intro run stage attempt hreason hrequester
    simp [hreason, hrequester] at hblank
  · rename_i hblank
    rw [undone_immediate_reading inside_grantRetry]
    have hgiven : isBlank reason = false ∧ isBlank requester = false := by simpa using hblank
    constructor
    · intro h run stage attempt _ _ granted
      rw [← returns_describe_retried granted]
      rcases h () _ (grantRetry_eq_ok.mpr ⟨run, stage, attempt, granted, rfl⟩) with hreturns | hsame
      · exact hreturns
      · exact absurd hsame retried_ne
    · intro h _ c hc
      obtain ⟨run, stage, attempt, granted, rfl⟩ := grantRetry_eq_ok.mp hc
      exact .inl ((returns_describe_retried granted).mpr
        (h run stage attempt hgiven.1 hgiven.2 granted))

end Retry

/-! ## Where every row can be read -/

end Driver

/-- Every status and every task can be read. -/
structure Ledger.Legible (l : Ledger) : Prop where
  runStatus : ∀ runId, l.runStatus runId = none
  taskSpec : ∀ runId, l.taskSpec runId = none
  stageStatus : ∀ stageRunId, l.stageStatus stageRunId = none
  attemptStatus : ∀ attemptId, l.attemptStatus attemptId = none

/-- The ledger is legible, and these are its tables. -/
def Ledger.Shows (l : Ledger) (t : Tables) : Prop := l.Legible ∧ l.tables = t

namespace Ledger

theorem update_eq_none {ι : Type} [DecidableEq ι] {flags : ι → Option StoreError} {i j : ι}
    (h : ∀ i, flags i = none) : Function.update flags i none j = none := by
  by_cases hij : j = i
  · simp [hij]
  · simp [hij, h j]

variable {l : Ledger} {t : Tables}

theorem Shows.updateRun {runId : RunId} {f : RunRow → RunRow} (h : l.Shows t) :
    (l.updateRun runId f).Shows (t.updateRun runId f) :=
  ⟨{ h.1 with runStatus := fun _ ↦ update_eq_none h.1.runStatus }, h.2 ▸ rfl⟩

theorem Shows.updateStage {stageRunId : StageRunId} {f : StageRow → StageRow} (h : l.Shows t) :
    (l.updateStage stageRunId f).Shows (t.updateStage stageRunId f) :=
  ⟨{ h.1 with stageStatus := fun _ ↦ update_eq_none h.1.stageStatus }, h.2 ▸ rfl⟩

theorem Shows.updateOpenStages {runId : RunId} {f : StageRow → StageRow} (h : l.Shows t) :
    (l.updateOpenStages runId f).Shows (t.updateOpenStages runId f) := by
  obtain ⟨legible, rfl⟩ := h
  have hopen : ∀ s, l.isOpen s = !s.settled := fun s ↦ by simp [isOpen, legible.stageStatus]
  refine ⟨{ legible with stageStatus := fun id ↦ ?_ }, ?_⟩
  · simp [Ledger.updateOpenStages, legible.stageStatus]
  · simp only [Ledger.updateOpenStages, Tables.updateOpenStages, hopen]

theorem Shows.updateAttempt {attemptId : AttemptId} {f : AttemptRow → AttemptRow} (h : l.Shows t) :
    (l.updateAttempt attemptId f).Shows (t.updateAttempt attemptId f) :=
  ⟨{ h.1 with attemptStatus := fun _ ↦ update_eq_none h.1.attemptStatus }, h.2 ▸ rfl⟩

theorem Shows.deleteReservation {attemptId : AttemptId} (h : l.Shows t) :
    (l.deleteReservation attemptId).Shows (t.deleteReservation attemptId) :=
  ⟨{ h.1 with }, h.2 ▸ rfl⟩

theorem Shows.insertEvent {row : EventRow} (h : l.Shows t) :
    (l.insertEvent row).Shows (t.insertEvent row) :=
  ⟨{ h.1 with }, h.2 ▸ rfl⟩

end Ledger

namespace Driver

/-- Nothing is refused by the driver. -/
def free : Driver := {}

section Plain

variable {α : Type} {what : Statement}

theorem refines_select {f : Ledger → α} {f' : Tables → α}
    (h : ∀ l t, l.Shows t → f l = f' t) :
    Refines Ledger.Shows (free.select what f) (query f') :=
  refines_reading_bind (a := ()) (fun _ _ _ ↦ rfl) (refines_query h)

theorem refines_run {f : Ledger → Ledger} {f' : Tables → Tables}
    (h : ∀ l t, l.Shows t → (f l).Shows (f' t)) :
    Refines Ledger.Shows (free.run what f) (execute f') :=
  refines_reading_bind (a := ()) (fun _ _ _ ↦ rfl) (refines_execute h)

theorem refines_runChecked {v : Ledger → Bool} {v' : Tables → Bool} {e : StoreError}
    {f : Ledger → Ledger} {f' : Tables → Tables} (hv : ∀ l t, l.Shows t → v l = v' t)
    (h : ∀ l t, l.Shows t → (f l).Shows (f' t)) :
    Refines Ledger.Shows (free.runChecked what v e f) (executeChecked v' e f') :=
  refines_reading_bind (a := ()) (fun _ _ _ ↦ rfl) (refines_executeChecked e hv h)

theorem raised_of_none {e : Option StoreError} (h : e = none) : raised e = .ok () := by
  rw [h, raised]

theorem refines_transitionRun (runId : RunId) (target : RuntimeStatus) (reason : Option String)
    (now : Timestamp) :
    Refines Ledger.Shows (free.transitionRun runId target reason now)
      (ChipEvolve.transitionRun runId target reason now) := by
  refine ((refines_select fun l t h ↦ by rw [← h.2]).bind fun row ↦ ?_).immediate
  cases row with
  | none => exact refines_raise _
  | some row =>
      refine refines_reading_bind (fun l t h ↦ raised_of_none (h.1.runStatus _)) ?_
      refine refines_commit.ite ((refines_raise _).ite ?_)
      exact (refines_run fun l t h ↦ h.updateRun).bind fun _ ↦
        (refines_run fun l t h ↦ h.updateOpenStages).bind fun _ ↦ refines_commit

theorem refines_failQueuedRun (runId : RunId) (category message eventId : String)
    (now : Timestamp) :
    Refines Ledger.Shows (free.failQueuedRun runId category message eventId now)
      (ChipEvolve.failQueuedRun runId category message eventId now) := by
  refine (refines_raise _).ite ?_
  refine ((refines_select fun l t h ↦ by rw [← h.2]).bind fun row ↦ ?_).immediate
  cases row with
  | none => exact refines_raise _
  | some row =>
      have hwaits : ∀ (l : Ledger) t, l.Shows t → l.waits row = row.status.waiting :=
        fun l t h ↦ by simp [Ledger.waits, h.1.runStatus]
      refine refines_query_bind hwaits (.ite (refines_commit.bind fun _ ↦ refines_pure _) ?_)
      exact (refines_run fun l t h ↦ h.updateRun).bind fun _ ↦
        (refines_run fun l t h ↦ h.updateOpenStages).bind fun _ ↦
          (refines_runChecked (fun l t h ↦ by rw [← h.2]) fun l t h ↦ h.insertEvent).bind fun _ ↦
            refines_commit.bind fun _ ↦ refines_pure _

theorem refines_finishAttempt (attemptId : AttemptId) (status : AttemptStatus) (e : Ending)
    (now : Timestamp) :
    Refines Ledger.Shows (free.finishAttempt attemptId status e now)
      (ChipEvolve.finishAttempt attemptId status e now) := by
  refine ((refines_select fun l t h ↦ by rw [← h.2]).bind fun row ↦ ?_).immediate
  cases row with
  | none => exact refines_raise _
  | some row =>
      refine refines_reading_bind (fun l t h ↦ raised_of_none (h.1.attemptStatus _)) ?_
      refine (refines_raise _).ite ?_
      exact (refines_run fun l t h ↦ h.updateAttempt).bind fun _ ↦
        (refines_run fun l t h ↦ h.deleteReservation).bind fun _ ↦ refines_commit

theorem refines_scheduleRetry (runId : RunId) (stageRunId : StageRunId) (reason : String) :
    Refines Ledger.Shows (free.scheduleRetry runId stageRunId reason)
      (ChipEvolve.scheduleRetry runId stageRunId reason) := by
  refine ((refines_select fun l t h ↦ by rw [← h.2]).bind fun stage ↦ ?_).immediate
  cases stage with
  | none => exact refines_raise _
  | some stage =>
      refine refines_reading_bind (fun l t h ↦ raised_of_none (h.1.stageStatus _)) ?_
      refine (refines_raise _).ite ?_
      refine (refines_select fun l t h ↦ by rw [← h.2]).bind fun run ↦ ?_
      cases run with
      | none => exact refines_raise _
      | some run =>
          refine refines_reading_bind (fun l t h ↦ raised_of_none (h.1.runStatus _)) ?_
          refine (refines_raise _).ite ?_
          exact (refines_run fun l t h ↦ h.updateStage).bind fun _ ↦
            (refines_run fun l t h ↦ h.updateRun).bind fun _ ↦ refines_commit

/-- A retry that is granted, up to its commit. -/
theorem refines_grantRetry (runId : RunId) (requester reason eventId : String) (now : Timestamp)
    (hreason : isBlank reason = false) (hrequester : isBlank requester = false) :
    Refines Ledger.Shows (Sql.immediate do
        free.grantRetry runId requester reason eventId now
        commit)
      (ChipEvolve.requestRetry runId requester reason eventId now) := by
  unfold ChipEvolve.requestRetry
  rw [if_neg (by simp [hreason, hrequester])]
  refine Refines.immediate ?_
  unfold grantRetry
  rw [bind_bind]
  refine (refines_select fun l t h ↦ by rw [← h.2]).bind fun run ↦ ?_
  cases run with
  | none => exact refines_raise _
  | some run =>
      have hfailed : ∀ (l : Ledger) t, l.Shows t →
          l.hasFailed run = decide (run.status = .failed) :=
        fun l t h ↦ by simp [Ledger.hasFailed, h.1.runStatus]
      simp only [bind_bind]
      refine refines_reading_bind (fun l t h ↦ raised_of_none (h.1.taskSpec _)) ?_
      refine (refines_select fun l t h ↦ by rw [← h.2]).bind fun stage ↦ ?_
      refine (refines_select fun l t h ↦ by rw [← h.2]).bind fun attempt ↦ ?_
      refine refines_query_bind hfailed ?_
      rw [ite_bind, raise_bind]
      have hguard : (!decide (run.status = .failed)) = true ↔ run.status ≠ .failed := by simp
      rw [if_congr hguard rfl rfl]
      refine (refines_raise _).ite ?_
      cases stage with
      | none => exact refines_raise _
      | some stage =>
          cases attempt with
          | none => exact refines_raise _
          | some attempt =>
              dsimp only
              simp only [ite_bind, raise_bind, bind_bind]
              refine (refines_raise _).ite ((refines_raise _).ite ?_)
              exact (refines_run fun l t h ↦ h.updateRun).bind fun _ ↦
                (refines_run fun l t h ↦ h.updateStage).bind fun _ ↦
                  (refines_runChecked (fun l t h ↦ by rw [← h.2]) fun l t h ↦
                    h.insertEvent).bind fun _ ↦ refines_commit

end Plain

/-! ## The operations -/

/-- A retry is granted, and the run cannot be described after it. -/
def Operation.Stranded {α : Type} (D : Driver) (l : Ledger) : Operation α → Prop
  | .requestRetry runId requester reason eventId _ =>
      isBlank reason = false ∧ isBlank requester = false ∧
        ∃ run stage attempt, RetryGranted D l runId eventId run stage attempt ∧
          l.Unreadable runId stage.stageRunId
  | _ => False

/-- An operation that raises leaves every table as it was and no transaction open, unless it is
`request_retry` and the exception is that of `describe_run`. -/
theorem operation_undone_iff (D : Driver) (l : Ledger) {α : Type} (op : Operation α) :
    Undone (D.perform op) l ↔ ¬op.Stranded D l := by
  cases op with
  | submitRun custody a => exact iff_of_true (undone_submitRun custody a l) id
  | transitionRun runId target reason now =>
      exact iff_of_true (undone_transitionRun runId target reason now l) id
  | failQueuedRun runId category message eventId now =>
      exact iff_of_true (undone_failQueuedRun runId category message eventId now l) id
  | finishAttempt attemptId status e now =>
      exact iff_of_true (undone_finishAttempt attemptId status e now l) id
  | scheduleRetry runId stageRunId reason =>
      exact iff_of_true (undone_scheduleRetry runId stageRunId reason l) id
  | requestRetry runId requester reason eventId now =>
      refine undone_requestRetry_iff.trans ⟨?_, ?_⟩
      · rintro h ⟨hreason, hrequester, run, stage, attempt, granted, hunreadable⟩
        exact h run stage attempt hreason hrequester granted hunreadable
      · intro h run stage attempt hreason hrequester granted hunreadable
        exact h ⟨hreason, hrequester, run, stage, attempt, granted, hunreadable⟩
  | registerMetrics attemptId metrics =>
      exact iff_of_true (undone_registerMetrics attemptId metrics l) id
  | recordInputs attemptId inputs => exact iff_of_true (undone_recordInputs attemptId inputs l) id

namespace Sample

def task : TaskSpec :=
  { taskId := "t", projectId := "p", designId := "d", pluginId := some "synth", maxAttempts := 3 }

/-- A failed run that may be retried, with a metric whose value is no JSON. -/
def failed : Ledger where
  tables :=
    { runs := [{ runId := "run", taskId := "t", idempotencyKey := none, status := .failed,
                 taskSpec := task, createdAt := 0 }]
      stages := [{ stageRunId := "stage", runId := "run", stageKey := "main", ordinal := 0,
                   pluginId := "synth", pluginVersion := "1", status := .failed, createdAt := 0 }]
      attempts := [{ attemptId := "attempt", stageRunId := "stage", attemptNumber := 1,
                     status := .failed, workspace := "/w", workerId := "worker",
                     leaseExpiresAt := none, heartbeatAt := none, startedAt := 0,
                     failure := some [("retryable", .bool true)] }] }
  metrics := [{ row := { metricId := "metric"
                         metric := { attemptId := "attempt", name := "area", value := .null,
                                     unit := none, sourceArtifactId := none, parserId := none,
                                     parserVersion := none, context := [] } }
                unreadable := some (.other "JSONDecodeError" "Expecting value") }]

/-- The retry stands, and its caller is told that there was no transaction to roll back. -/
theorem retry_raises_after_commit : ¬∀ (D : Driver) (l : Ledger) {α : Type} (op : Operation α),
    Undone (D.perform op) l := by
  intro h
  have hraised : (requestRetry {} "run" "alice" "again" "event" 5 { db := failed }).1.isOk =
      false := by decide +kernel
  have hevents : (requestRetry {} "run" "alice" "again" "event" 5
      { db := failed }).2.db.tables.events.length = 1 := by decide +kernel
  cases hresult : (requestRetry {} "run" "alice" "again" "event" 5 { db := failed }).1 with
  | ok a => simp [hresult, Except.isOk, Except.toBool] at hraised
  | error e =>
      have hsame := h {} failed (.requestRetry "run" "alice" "again" "event" 5) e hresult
      rw [show perform {} (.requestRetry "run" "alice" "again" "event" 5) { db := failed } =
        requestRetry {} "run" "alice" "again" "event" 5 { db := failed } from rfl] at hsame
      rw [hsame] at hevents
      simp [failed] at hevents

end Sample

end Driver

end ChipEvolve
