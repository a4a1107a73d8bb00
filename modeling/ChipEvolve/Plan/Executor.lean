import ChipEvolve.Machine
import ChipEvolve.Plan.Store
import Mathlib.Logic.Function.Basic

/-!
# The plan executor and the kernel it talks to

`PlanExecutor.cycle` with `_advance`, `_cancel` and `_task_for`, the cancel
requests of users, and the kernel as the executor sees it.  The executor and
the kernel are two parties: a submit request is on its way until the kernel
applies it, which can be long after the executor has stopped waiting, and a call
that fails says nothing about whether it was applied.
-/

namespace ChipEvolve.Plans

/-! ## The kernel -/

structure KernelRun where
  runId : RunId
  key : String
  status : RuntimeStatus

structure Kernel where
  runs : List KernelRun := []
  inFlight : List String := []

/-- How the status of a run can change while nobody asks for a retry of it: along
the transition table, or by a claim. -/
def kernelMoves (status target : RuntimeStatus) : Bool :=
  runTransitionAllowed status target || (status.waiting && target = .running)

namespace Kernel

def run? (k : Kernel) (runId : RunId) : Option KernelRun := Table.get? KernelRun.runId runId k.runs

def runOf? (k : Kernel) (key : String) : Option KernelRun := Table.get? KernelRun.key key k.runs

def send (key : String) (k : Kernel) : Kernel := { k with inFlight := k.inFlight ++ [key] }

/-- Apply a submit request: the run of the key, created if there is none. -/
def submit (key : String) (fresh : RunId) (k : Kernel) : Option (RunId × Kernel) :=
  match k.runOf? key with
  | some run => some (run.runId, { k with inFlight := k.inFlight.erase key })
  | none =>
      if (k.run? fresh).isSome then none
      else
        some (fresh,
          { runs := k.runs ++ [{ runId := fresh, key := key, status := .queued }]
            inFlight := k.inFlight.erase key })

def setStatus (runId : RunId) (status : RuntimeStatus) (k : Kernel) : Kernel :=
  { k with
    runs := Table.update (fun r ↦ r.runId = runId) (fun r ↦ { r with status := status }) k.runs }

/-- A run moves on its own. -/
def move (runId : RunId) (target : RuntimeStatus) (k : Kernel) : Option Kernel :=
  match k.run? runId with
  | some run => if kernelMoves run.status target then some (k.setStatus runId target) else none
  | none => none

/-- `request_cancel` of the kernel; a run that is terminal stays as it is. -/
def cancel (runId : RunId) (k : Kernel) : Option Kernel :=
  match k.run? runId with
  | some run =>
      some (if kernelMoves run.status .cancelRequested then k.setStatus runId .cancelRequested
        else k)
  | none => none

end Kernel

/-! ## What the executor computes -/

def idempotencyKey (planId : PlanId) (stepId : StepId) : String :=
  "plan:" ++ planId ++ ":step:" ++ stepId

structure Artifact where
  artifactId : String
  kind : String
  metadata : JsonObject := []

/-- Whether an artifact meets a binding; a missing key reads as `None`. -/
def Binding.selects (b : Binding) (a : Artifact) : Bool :=
  a.kind = b.artifactKind &&
    b.metadata.all fun (key, value) ↦ ((a.metadata.get? key).getD .null).pyEq value

def Binding.stagedInput (b : Binding) (a : Artifact) : Json :=
  .obj [("artifact_id", .str a.artifactId), ("destination", .str b.destination),
    ("required", .bool true)]

def stagedInputs (task : JsonObject) : List Json :=
  match task.get? "staged_inputs" with
  | some (.arr items) => items
  | _ => []

/-- What `client.run` tells about a run, besides its status. -/
structure RunDetail where
  status : RuntimeStatus
  terminalReason : Option String := none
  failures : List (Option JsonObject) := []

def platformFailures : List String :=
  ["cancelled", "lease_expired", "protocol_error", "resource_exceeded", "runtime_error", "timeout"]

/-- `str(value)` of a value that counts as true. -/
def truthyText (str : Json → String) (value : Option Json) : Option String :=
  (value.filter Json.truthy).map str

def classifyFailure (str : Json → String) (detail : RunDetail) : JsonObject :=
  let failure := (detail.failures.getLast?.join).getD []
  let category := (truthyText str (failure.get? "category")).getD
    ((detail.terminalReason.filter (· ≠ "")).getD detail.status.value)
  let message := (truthyText str (failure.get? "message")).getD category
  let source := if category ∈ platformFailures then "platform" else "plugin"
  (((failure.set "source" (.str source)).set "category" (.str category)).set "message"
    (.str message)).set "retryable" (.bool ((failure.get? "retryable").any Json.truthy))

def platformFailure (category message : String) (retryable : Bool := false) : JsonObject :=
  [("source", .str "platform"), ("category", .str category), ("message", .str message),
    ("retryable", .bool retryable)]

def cancellation : JsonObject := platformFailure "cancelled" "execution plan cancelled"

/-- A write to the store, of the plan the executor is at. -/
inductive Write where
  | submitted (stepId : StepId) (runId : RunId)
  | step (stepId : StepId) (status : RuntimeStatus) (failure : Option JsonObject)
  | finish (status : RuntimeStatus) (failure : Option JsonObject)
  | retryWait (failure : JsonObject)

def Write.apply (planId : PlanId) : Write → PlanTables → PlanTables
  | submitted stepId runId, t => t.submitted planId stepId runId
  | step stepId status failure, t => t.updateStep planId stepId status failure
  | finish status failure, t => t.updatePlan planId status failure
  | retryWait failure, t => t.updatePlan planId .retryWait (some failure)

namespace Plan

/-- The first step that has not succeeded. -/
def pending? (plan : Plan) : Option StepRow := plan.steps.find? fun s ↦ s.status ≠ .succeeded

/-- `_advance` once the kernel has answered about the run of the pending step. -/
def afterRun (str : Json → String) (plan : Plan) (step : StepRow) (detail : RunDetail) :
    List Write :=
  if detail.status ∈ activeStatuses then [.step step.stepId detail.status none]
  else if detail.status = .succeeded then
    .step step.stepId .succeeded none ::
      if plan.steps.all fun s ↦ s.status = .succeeded || s.stepId = step.stepId then
        [.finish .succeeded none]
      else []
  else
    [.step step.stepId detail.status (some (classifyFailure str detail)),
      .finish (if detail.status ∈ failedStatuses then detail.status else .failed)
        (some (classifyFailure str detail))]

def cancelSteps (steps : List StepRow) : List Write :=
  steps.map fun s ↦ .step s.stepId .cancelled (some cancellation)

/-- The end of `_cancel`: every step that has not succeeded is cancelled. -/
def drop (plan : Plan) : List Write :=
  cancelSteps (plan.steps.filter fun s ↦ s.status ≠ .succeeded) ++
    [.finish .cancelled (some cancellation)]

/-- `_cancel` once the kernel has answered about the run of the active step. -/
def afterCancel (str : Json → String) (plan : Plan) (step : StepRow) (detail : RunDetail) :
    List Write :=
  if detail.status ∈ activeStatuses then [.step step.stepId detail.status none]
  else if detail.status = .succeeded then
    let remaining := plan.steps.filter fun s ↦ s.stepId ≠ step.stepId && s.status ≠ .succeeded
    .step step.stepId .succeeded none :: cancelSteps remaining ++
      [.finish (if remaining.isEmpty then .succeeded else .cancelled) none]
  else if detail.status ≠ .cancelled then
    [.step step.stepId detail.status (some (classifyFailure str detail)),
      .finish (if detail.status ∈ failedStatuses then detail.status else .failed)
        (some (classifyFailure str detail))]
  else plan.drop

end Plan

/-! ## The executor -/

/-- Why the executor writes: the kernel has answered about the run of the pending
step or there is no such step, the step to cancel has no run, or a call was
refused or failed. -/
inductive Cause where
  | answered
  | unasked
  | refused
  | unavailable
  deriving DecidableEq

/-- Where the executor stands; `rest` are the plans of the cycle still to come. -/
inductive Executor where
  | idle
  | cycling (rest : List PlanId)
  | advancing (planId : PlanId) (rest : List PlanId)
  | binding (plan : Plan) (step : StepRow) (bindings : List Binding) (staged : List Json)
      (rest : List PlanId)
  | submitting (plan : Plan) (step : StepRow) (task : JsonObject) (rest : List PlanId)
  | polling (plan : Plan) (step : StepRow) (runId : RunId) (rest : List PlanId)
  | cancelling (plan : Plan) (step : StepRow) (runId : RunId) (rest : List PlanId)
  | checking (plan : Plan) (step : StepRow) (runId : RunId) (rest : List PlanId)
  | writing (cause : Cause) (planId : PlanId) (writes : List Write) (rest : List PlanId)

structure Service where
  taskError : JsonObject → Option String
  str : Json → String
  kernelRetryDelay : Rat

inductive Event where
  | create (a : PlanRequest)
  | requestCancel (tid : Nat) (planId : PlanId)
  | confirmCancel (tid : Nat)
  | wake
  | next (now : Rat)
  | artifacts (items : List Artifact)
  | submitted (fresh : RunId)
  | detail (terminalReason : Option String) (failures : List (Option JsonObject))
  | cancelled
  | refused (message : String)
  | unavailable (message : String)
  | apply (key : String) (fresh : RunId)
  | move (runId : RunId) (target : RuntimeStatus)
  | restart

namespace Executor

/-- `_advance` and `_cancel` up to their first call of the kernel. -/
def start (plan : Plan) (rest : List PlanId) : Executor :=
  match plan.status, plan.pending? with
  | .cancelRequested, none =>
      writing .answered plan.planId
        [.finish (if plan.steps.all fun s ↦ s.status = .succeeded then .succeeded else .cancelled)
          none] rest
  | .cancelRequested, some step =>
      match step.runId with
      | some runId => cancelling plan step runId rest
      | none => writing .unasked plan.planId plan.drop rest
  | _, none => writing .answered plan.planId [.finish .succeeded none] rest
  | _, some step =>
      match step.runId with
      | some runId => polling plan step runId rest
      | none => binding plan step step.bindings (stagedInputs step.task) rest

/-- The plan a call is made for, and the plans that follow. -/
def calling? : Executor → Option (PlanId × List PlanId)
  | binding plan _ (_ :: _) _ rest => some (plan.planId, rest)
  | submitting plan _ _ rest => some (plan.planId, rest)
  | polling plan _ _ rest => some (plan.planId, rest)
  | cancelling plan _ _ rest => some (plan.planId, rest)
  | checking plan _ _ rest => some (plan.planId, rest)
  | _ => none

/-- The handlers of `cycle`. -/
def refuse (planId : PlanId) (category message : String) (rest : List PlanId) : Executor :=
  writing .refused planId [.finish .failed (some (platformFailure category message))] rest

def delay (planId : PlanId) (message : String) (rest : List PlanId) : Executor :=
  writing .unavailable planId
    [.retryWait (platformFailure "kernel_unavailable" message true)] rest

/-- `_task_for`: the artifacts of one binding's source have arrived. -/
def bind (plan : Plan) (step : StepRow) (b : Binding) (bindings : List Binding)
    (staged : List Json) (rest : List PlanId) (items : List Artifact) : Executor :=
  match items.filter b.selects with
  | [a] => binding plan step bindings (staged ++ [b.stagedInput a]) rest
  | found =>
      refuse plan.planId "artifact_binding_error"
        ("binding from " ++ quoted b.fromStep ++ " expected one " ++ quoted b.artifactKind ++
          " artifact, found " ++ toString found.length) rest

/-- `task["staged_inputs"] = staged`, if there are any. -/
def boundTask (task : JsonObject) (staged : List Json) : JsonObject :=
  if staged.isEmpty then task else task.set "staged_inputs" (.arr staged)

end Executor

/-! ## The world -/

/-- The service and the kernel.  `requests` are the cancel requests that have
passed their check.  The last two fields are history: the plans whose cancel
request has returned, now and when the executor's cycle began. -/
structure World where
  store : PlanTables := {}
  executor : Executor := .idle
  retryAt : PlanId → Option Rat := fun _ ↦ none
  requests : Nat → Option PlanId := fun _ ↦ none
  kernel : Kernel := {}
  cancelled : List PlanId := []
  cancelledBefore : List PlanId := []

namespace World

/-- A statement of the executor that calls no kernel. -/
def advance (s : Service) (now : Rat) (w : World) : Option World :=
  match w.executor with
  | .cycling [] => some { w with executor := .idle }
  | .cycling (planId :: rest) =>
      if (w.retryAt planId).any (now < ·) then some { w with executor := .cycling rest }
      else some { w with executor := .advancing planId rest }
  | .advancing planId rest =>
      match w.store.get? planId with
      | some plan => some { w with executor := .start plan rest }
      | none =>
          some { w with
            executor := .refuse planId "artifact_binding_error" ("unknown plan " ++ quoted planId)
              rest }
  | .binding plan step [] staged rest =>
      some { w with
        executor := .submitting plan step (Executor.boundTask step.task staged) rest
        kernel := w.kernel.send (idempotencyKey plan.planId step.stepId) }
  | .writing cause planId (write :: writes) rest =>
      some { w with
        store := write.apply planId w.store
        executor := .writing cause planId writes rest }
  | .writing cause planId [] rest =>
      let retryAt := match cause with
        | .unavailable => Function.update w.retryAt planId (some (now + s.kernelRetryDelay))
        | .refused => w.retryAt
        | _ => Function.update w.retryAt planId none
      some { w with executor := .cycling rest, retryAt := retryAt }
  | _ => none

/-- An answer of the kernel reaches the executor. -/
def receive (s : Service) (w : World) : Event → Option World
  | .artifacts items =>
      match w.executor with
      | .binding plan step (b :: bindings) staged rest =>
          match (plan.steps.find? fun u ↦ u.stepId = b.fromStep).bind StepRow.runId with
          | some _ => some { w with executor := .bind plan step b bindings staged rest items }
          | none => none
      | _ => none
  | .submitted fresh =>
      match w.executor with
      | .submitting plan step _ rest =>
          match w.kernel.submit (idempotencyKey plan.planId step.stepId) fresh with
          | some (runId, kernel) =>
              some { w with
                kernel := kernel
                executor := .writing .answered plan.planId [.submitted step.stepId runId] rest }
          | none => none
      | _ => none
  | .detail terminalReason failures =>
      match w.executor with
      | .polling plan step runId rest =>
          match w.kernel.run? runId with
          | some run =>
              let detail := { status := run.status, terminalReason, failures }
              some { w with
                executor := .writing .answered plan.planId (plan.afterRun s.str step detail) rest }
          | none => none
      | .checking plan step runId rest =>
          match w.kernel.run? runId with
          | some run =>
              let detail := { status := run.status, terminalReason, failures }
              some { w with
                executor := .writing .answered plan.planId (plan.afterCancel s.str step detail)
                  rest }
          | none => none
      | _ => none
  | .cancelled =>
      match w.executor with
      | .cancelling plan step runId rest =>
          match w.kernel.cancel runId with
          | some kernel => some { w with kernel := kernel, executor := .checking plan step runId rest }
          | none => none
      | _ => none
  | .refused message =>
      w.executor.calling?.map fun (planId, rest) ↦
        { w with executor := .refuse planId "submission_refused" message rest }
  | .unavailable message =>
      w.executor.calling?.map fun (planId, rest) ↦
        { w with executor := .delay planId message rest }
  | _ => none

/-- Requests of users, the start of a cycle, and what the kernel does by itself. -/
def surroundings (s : Service) (w : World) : Event → Option World
  | .create a =>
      match w.store.createOwned s.taskError a with
      | .ok store => some { w with store := store }
      | .error _ => some w
  | .requestCancel tid planId =>
      match w.requests tid, w.store.cancelError? planId with
      | none, none => some { w with requests := Function.update w.requests tid (some planId) }
      | none, some _ => some w
      | some _, _ => none
  | .confirmCancel tid =>
      match w.requests tid with
      | some planId =>
          some { w with
            store := w.store.updatePlan planId .cancelRequested none
            requests := Function.update w.requests tid none
            cancelled := planId :: w.cancelled }
      | none => none
  | .wake =>
      match w.executor with
      | .idle =>
          some { w with executor := .cycling w.store.active, cancelledBefore := w.cancelled }
      | _ => none
  | .apply key fresh =>
      if key ∈ w.kernel.inFlight then
        (w.kernel.submit key fresh).map fun (_, kernel) ↦ { w with kernel := kernel }
      else none
  | .move runId target => (w.kernel.move runId target).map fun kernel ↦ { w with kernel := kernel }
  | .restart =>
      some { w with executor := .idle, retryAt := fun _ ↦ none, requests := fun _ ↦ none }
  | _ => none

def step (s : Service) (w : World) : Event → Option World
  | .next now => w.advance s now
  | ev => (w.receive s ev).orElse fun _ ↦ w.surroundings s ev

end World

end ChipEvolve.Plans
