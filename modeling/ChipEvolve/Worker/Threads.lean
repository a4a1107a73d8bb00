import ChipEvolve.Store.Clients

/-!
# Workers, reclaimers and users as threads

`WorkflowRuntime.execute_once_reporting` with `_run_attempt` and
`_record_runtime_failure` (`runtime.py`), the handlers `RuntimeWorker.cycle`
puts around it and its sweep of abandoned cancellations (`worker.py`), a reclaim
pass, and the requests of a user.  Each is a program whose steps are the
committed statements of the store; what the plugin, the file system or the
operating system does to a thread is in the events.
-/

namespace ChipEvolve

open Sql

/-- The settings of a worker, as `__post_init__` accepts them. -/
structure RuntimeConfig where
  workspaceRoot : String
  leaseSeconds : Int
  workerId : WorkerId
  capacityCpuCores : Int
  capacityMemoryBytes : Int
  platformFraction : PlatformFraction
  defaultTaskCpuCores : Int
  defaultTaskMemoryBytes : Int
  leasePositive : 0 < leaseSeconds
  cpuPositive : 1 ≤ capacityCpuCores
  memoryPositive : 1 ≤ capacityMemoryBytes
  fractionPositive : 0 < platformFraction.value
  fractionAtMostOne : platformFraction.value ≤ 1
  defaultCpuPositive : 1 ≤ defaultTaskCpuCores
  defaultMemoryPositive : 1 ≤ defaultTaskMemoryBytes

def RuntimeConfig.reservationFor (cfg : RuntimeConfig) (task : TaskSpec) : ResourceRequest :=
  { cpuSeconds := task.resources.bind (·.cpuSeconds)
    cpuCores := some ((task.resources.bind (·.cpuCores)).getD cfg.defaultTaskCpuCores)
    memoryBytes := some ((task.resources.bind (·.memoryBytes)).getD cfg.defaultTaskMemoryBytes)
    processes := task.resources.bind (·.processes) }

def RuntimeConfig.claim (cfg : RuntimeConfig) (task : TaskSpec) (workspace : String) : Claim :=
  { workerId := cfg.workerId
    workspace := workspace
    leaseSeconds := cfg.leaseSeconds
    resources := some (cfg.reservationFor task)
    capacityCpuCores := some cfg.capacityCpuCores
    capacityMemoryBytes := some cfg.capacityMemoryBytes
    platformFraction := cfg.platformFraction }

/-- Where the processes run: the digests of the store, the settings of each
thread, and `str` of a JSON value. -/
structure Deployment where
  custody : Custody
  config : ThreadId → RuntimeConfig
  str : Json → String

/-! ## What an attempt leaves behind -/

/-- `PluginResult`, as `validate` accepts it, with the measurements taken of the
process. -/
structure PluginResult where
  status : RuntimeStatus
  exitCode : Int
  failure : Option JsonObject := none
  cpuSeconds : Option Rat := none
  peakMemoryBytes : Option Int := none
  peakProcesses : Option Int := none
  statusValid : status = .succeeded ∨ status = .failed ∨ status = .cancelled ∨ status = .timedOut
  exitCodeValid : status = .succeeded → exitCode = 0

/-- `_attempt_status` -/
def attemptStatus : RuntimeStatus → AttemptStatus
  | .succeeded => .succeeded
  | _ => .failed

namespace PluginResult

def ending (r : PluginResult) : Ending :=
  { exitCode := some r.exitCode
    failure := r.failure
    cpuSeconds := r.cpuSeconds
    peakMemoryBytes := r.peakMemoryBytes
    peakProcesses := r.peakProcesses }

/-- `_terminal_reason` -/
def terminalReason (str : Json → String) (r : PluginResult) : Option String :=
  match r.failure with
  | some f =>
      if f.isEmpty then none
      else
        match f.get? "category" with
        | some category => some (if category.truthy then str category else r.status.value)
        | none => some r.status.value
  | none => none

/-- `f"retrying: {_terminal_reason(…)}"` -/
def retryReason (str : Json → String) (r : PluginResult) : String :=
  "retrying: " ++ (r.terminalReason str).getD "None"

end PluginResult

/-- The failure `_record_runtime_failure` records. -/
def runtimeFailure (message : String) (evidenceError : Option String) : JsonObject :=
  [("category", .str "runtime_error"), ("message", .str message)] ++
    (evidenceError.map fun e ↦ ("evidence_error", Json.str e)).toList

/-- What `execute_once_reporting` holds once its claim returned: the run and the
stage as it read them, and its attempt. -/
structure Job where
  run : RunRow
  stage : StageRow
  attempt : AttemptRow

namespace Job

def runId (j : Job) : RunId := j.run.runId

def attemptId (j : Job) : AttemptId := j.attempt.attemptId

/-- `_should_retry` -/
def shouldRetry (j : Job) (r : PluginResult) : Bool :=
  r.status = .failed && retryable (r.failure.getD []) &&
    (j.attempt.attemptNumber : Int) < j.run.taskSpec.maxAttempts

end Job

namespace Tables

def listAttempts (t : Tables) (stageRunId : StageRunId) : List AttemptRow :=
  (t.attemptsOf stageRunId).insertionSort fun a b ↦ a.attemptNumber ≤ b.attemptNumber

def nextReadyStage (t : Tables) (runId : RunId) : Option StageRow :=
  (t.listStages runId).find? fun s ↦ s.status.claimable

end Tables

/-- A resumable plugin continues where the last attempt worked. -/
def workspaceFor (cfg : RuntimeConfig) (run : RunRow) (stage : StageRow) (resumable : Bool)
    (previous : List AttemptRow) : String :=
  match resumable, previous.getLast? with
  | true, some a => a.workspace
  | _, _ =>
      cfg.workspaceRoot ++ "/" ++ run.runId ++ "/" ++ stage.stageRunId ++ "/attempt-" ++
        toString (previous.length + 1)

/-! ## Threads -/

/-- Where a thread stands.  From `preparing` on it holds an attempt. -/
inductive Thread where
  | idle
  | cancelling (runId : RunId)
  | precancelling (runId : RunId)
  | selecting (runId : RunId)
  | staging (run : RunRow)
  | resolving (run : RunRow) (stage : StageRow)
  | claiming (run : RunRow) (stage : StageRow) (workspace : String)
  | preparing (job : Job)
  | executing (job : Job)
  | beating (job : Job) (now : Timestamp)
  | relaying (job : Job)
  | finishing (job : Job) (result : PluginResult)
  | settling (job : Job) (result : PluginResult)
  | failing (job : Job) (message : String)
  | rechecking (job : Job)
  | terminating (job : Job)
  | closing (job : Job)
  | aborted (job : Job) (message : String)
  | escaped (runId : RunId) (message : String)
  | reclaiming (pass : Pass)
  | probing (runIds : List RunId) (abandoned : List RunId)
  | dropping (runIds : List RunId)

/-- What the surroundings supply to the next statement: the clock, a generated
id, whether the fenced process is gone, and whether evidence was lost. -/
structure Reading where
  now : Timestamp
  fresh : String := ""
  gone : Bool := true
  evidenceError : Option String := none

inductive Event where
  | submit (a : Submission)
  | cancel (runId : RunId)
  | retry (runId : RunId) (requester reason eventId : String) (now : Timestamp)
  | reclaim (reference : Timestamp)
  | sweep (limit : Nat)
  | execute (runId : RunId) (externalCancel : Bool)
  | next (reading : Reading)
  | resolved (resumable : Bool)
  | attach (p : ProcessIdentity)
  | beat (now : Timestamp)
  | relay
  | done (result : PluginResult)
  | mkdirFails (message : String)
  | raise (message : String)

namespace Thread

/-- An exception leaves `execute_once_reporting` before its claim returned: the
cycle ignores an `InvalidTransition` and reports any other. -/
def escape (runId : RunId) (e : StoreError) : Thread :=
  if e.isInvalidTransition then idle else escaped runId e.describe

def ofPass : Pass → Thread
  | .returned _ => idle
  | .raised _ => idle
  | pass => reclaiming pass

/-- `execute_once_reporting` up to its claim. -/
def select (cfg : RuntimeConfig) (t : Tables) : Thread → Event → Option (Thread × Tables)
  | idle, .execute runId false => some (selecting runId, t)
  | idle, .execute runId true =>
      match exec (wantsCancel runId) t with
      | (.ok true, t') => some (precancelling runId, t')
      | (.ok false, t') => some (selecting runId, t')
      | (.error e, t') => some (escape runId e, t')
  | precancelling runId, .next r =>
      match exec (transitionRun runId .cancelRequested (some cancelReason) r.now) t with
      | (.ok _, t') => some (selecting runId, t')
      | (.error e, t') => some (escape runId e, t')
  | selecting runId, .next _ =>
      match exec (getRun runId) t with
      | (.ok run, t') => some (if run.status.isTerminal then idle else staging run, t')
      | (.error e, t') => some (escape runId e, t')
  | staging run, .next _ =>
      match t.nextReadyStage run.runId with
      | some stage => some (resolving run stage, t)
      | none => some (idle, t)
  | resolving run stage, .resolved resumable =>
      some (claiming run stage
        (workspaceFor cfg run stage resumable (t.listAttempts stage.stageRunId)), t)
  | resolving run _, .raise message => some (escaped run.runId message, t)
  | claiming run stage workspace, .next r =>
      match exec (startAttempt stage.stageRunId (cfg.claim run.taskSpec workspace) r.fresh r.now)
          t with
      | (.ok (some attempt), t') =>
          some (preparing { run := run, stage := stage, attempt := attempt }, t')
      | (.ok none, t') => some (idle, t')
      | (.error e, t') => some (escape run.runId e, t')
  | _, _ => none

/-- `_run_attempt`, from the claim to the settlement. -/
def work (cfg : RuntimeConfig) (str : Json → String) (t : Tables) :
    Thread → Event → Option (Thread × Tables)
  | preparing job, .next _ => some (executing job, t)
  | preparing job, .mkdirFails message => some (failing job message, t)
  | preparing job, .raise message => some (aborted job message, t)
  | executing job, .attach p =>
      match exec (attachProcess job.attemptId cfg.workerId p) t with
      | (.ok _, t') => some (executing job, t')
      | (.error e, t') => some (failing job e.describe, t')
  | executing job, .beat now =>
      match exec (heartbeatCheck job.attemptId cfg.workerId) t with
      | (.ok _, t') => some (beating job now, t')
      | (.error e, t') => some (failing job e.describe, t')
  | executing job, .relay =>
      match exec (wantsCancel job.runId) t with
      | (.ok true, t') => some (relaying job, t')
      | (.ok false, t') => some (executing job, t')
      | (.error e, t') => some (failing job e.describe, t')
  | executing job, .done result => some (finishing job result, t)
  | executing job, .raise message => some (failing job message, t)
  | beating job now, .next _ =>
      match exec (heartbeatUpdate job.attemptId cfg.workerId cfg.leaseSeconds now) t with
      | (.ok _, t') => some (executing job, t')
      | (.error e, t') => some (failing job e.describe, t')
  | relaying job, .next r =>
      match exec (transitionRun job.runId .cancelRequested (some cancelReason) r.now) t with
      | (.ok _, t') => some (executing job, t')
      | (.error e, t') => some (failing job e.describe, t')
  | finishing job result, .next r =>
      match exec (finishAttempt job.attemptId (attemptStatus result.status) result.ending r.now)
          t with
      | (.ok _, t') => some (settling job result, t')
      | (.error e, t') => some (failing job e.describe, t')
  | settling job result, .next r =>
      match exec
          (if job.shouldRetry result then
            scheduleRetry job.runId job.stage.stageRunId (result.retryReason str)
          else transitionRun job.runId result.status (result.terminalReason str) r.now) t with
      | (.ok _, t') => some (closing job, t')
      | (.error e, t') => some (failing job e.describe, t')
  | beating job _, .raise message => some (failing job message, t)
  | relaying job, .raise message => some (failing job message, t)
  | finishing job _, .raise message => some (failing job message, t)
  | settling job _, .raise message => some (failing job message, t)
  | _, _ => none

/-- `_record_runtime_failure`, the end of `execute_once_reporting`, and the
cycle's handler. -/
def recover (t : Tables) : Thread → Event → Option (Thread × Tables)
  | failing job message, .next r =>
      match exec (finishAttempt job.attemptId .failed
          { exitCode := some 1, failure := some (runtimeFailure message r.evidenceError) }
          r.now) t with
      | (.ok _, t') => some (rechecking job, t')
      | (.error e, t') =>
          some (if e.isInvalidTransition then rechecking job
            else aborted job e.describe, t')
  | failing job _, .raise message => some (aborted job message, t)
  | rechecking job, .next _ =>
      match exec (getRun job.runId) t with
      | (.ok run, t') => some (if run.status = .running then terminating job else closing job, t')
      | (.error e, t') => some (aborted job e.describe, t')
  | terminating job, .next r =>
      match exec (transitionRun job.runId .failed (some "runtime_error") r.now) t with
      | (.ok _, t') => some (closing job, t')
      | (.error e, t') =>
          some (if e.isInvalidTransition then closing job
            else aborted job e.describe, t')
  | closing _, .next _ => some (idle, t)
  | closing job, .raise message => some (aborted job message, t)
  | aborted job message, .next r =>
      some (idle, (exec (failQueuedRun job.runId "preflight_error" message r.fresh r.now) t).2)
  | escaped runId message, .next r =>
      some (idle, (exec (failQueuedRun runId "preflight_error" message r.fresh r.now) t).2)
  | _, _ => none

/-- `abandoned_cancellations` and `_finish_abandoned_cancellations`. -/
def sweep (t : Tables) : Thread → Event → Option (Thread × Tables)
  | idle, .sweep limit => some (probing (t.cancelRequestedRuns limit) [], t)
  | probing [] abandoned, .next _ => some (dropping abandoned, t)
  | probing (runId :: runIds) abandoned, .next _ =>
      some (probing runIds
        (if t.hasRunningAttempt runId then abandoned else abandoned ++ [runId]), t)
  | dropping [], .next _ => some (idle, t)
  | dropping (runId :: runIds), .next r =>
      match exec (transitionRun runId .cancelled (some "cancelled before the attempt started")
          r.now) t with
      | (.ok _, t') => some (dropping runIds, t')
      | (.error e, t') => some (if e.isInvalidTransition then dropping runIds else idle, t')
  | _, _ => none

/-- The requests of a user, and a reclaim pass. -/
def request (custody : Custody) (t : Tables) : Thread → Event → Option (Thread × Tables)
  | idle, .submit a => some (idle, (exec (submitRun custody a) t).2)
  | idle, .cancel runId =>
      match exec (wantsCancel runId) t with
      | (.ok true, t') => some (cancelling runId, t')
      | (_, t') => some (idle, t')
  | cancelling runId, .next r =>
      some (idle, (exec (transitionRun runId .cancelRequested (some cancelReason) r.now) t).2)
  | idle, .retry runId requester reason eventId now =>
      some (idle, (exec (requestRetry runId requester reason eventId now) t).2)
  | idle, .reclaim reference => some (ofPass (Pass.start reference t), t)
  | reclaiming pass, .next r =>
      some (ofPass (pass.step r.now r.gone t).1, (pass.step r.now r.gone t).2)
  | _, _ => none

/-- The next statement of a thread. -/
def step (d : Deployment) (tid : ThreadId) (t : Tables) (th : Thread) (ev : Event) :
    Option (Thread × Tables) :=
  (request d.custody t th ev).orElse fun _ ↦ (select (d.config tid) t th ev).orElse fun _ ↦
    (work (d.config tid) d.str t th ev).orElse fun _ ↦ (recover t th ev).orElse fun _ ↦
      sweep t th ev

end Thread

/-! ## The world -/

structure World where
  tables : Tables := {}
  threads : ThreadId → Thread := fun _ ↦ .idle

/-- The thread named in the label makes its next statement. -/
def World.step (d : Deployment) (w : World) (l : ThreadId × Event) : Option World :=
  ((w.threads l.1).step d l.1 w.tables l.2).map fun next ↦
    { tables := next.2, threads := Function.update w.threads l.1 next.1 }

/-! ## A small deployment -/

namespace Sample

def config (tid : ThreadId) : RuntimeConfig where
  workspaceRoot := "/work"
  leaseSeconds := 1
  workerId := "worker-" ++ toString tid
  capacityCpuCores := 4
  capacityMemoryBytes := 4
  platformFraction := .exact 1
  defaultTaskCpuCores := 1
  defaultTaskMemoryBytes := 1
  leasePositive := by decide
  cpuPositive := by decide
  memoryPositive := by decide
  fractionPositive := by decide
  fractionAtMostOne := by decide
  defaultCpuPositive := by decide
  defaultMemoryPositive := by decide

def deployment : Deployment :=
  { custody := custody, config := config, str := fun | .str text => text | _ => "" }

/-- The thread claims an attempt of the run and starts its plugin. -/
def starts (tid : ThreadId) (attemptId : AttemptId) (now : Timestamp) : List (ThreadId × Event) :=
  [(tid, .execute "run" false), (tid, .next { now := now }), (tid, .next { now := now }),
    (tid, .resolved true), (tid, .next { now := now, fresh := attemptId }),
    (tid, .next { now := now })]

/-- The thread makes its next `n` statements. -/
def goesOn (tid : ThreadId) (n : Nat) (now : Timestamp) : List (ThreadId × Event) :=
  List.replicate n (tid, .next { now := now })

/-- The thread starts a reclaim pass and makes the first `n` statements of it. -/
def reclaims (tid : ThreadId) (n : Nat) (now : Timestamp) : List (ThreadId × Event) :=
  (tid, .reclaim now) :: goesOn tid n now

end Sample

end ChipEvolve
