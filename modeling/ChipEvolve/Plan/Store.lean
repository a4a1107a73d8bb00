import ChipEvolve.Table
import ChipEvolve.Contracts.Status
import ChipEvolve.Contracts.Task
import Mathlib.Data.List.Sort

/-!
# The tables of the plan service

Plans and their ordered steps, and the methods of `PlanStore`, each of which is
one transaction (`plan_executor/__main__.py`).  Plan and step statuses are texts
drawn from the run statuses of the kernel.
-/

namespace ChipEvolve.Plans

abbrev PlanId := String
abbrev StepId := String
abbrev RunId := String

/-- A `PlanError` with its HTTP status. -/
structure PlanError where
  message : String
  status : Nat := 400

structure Binding where
  fromStep : StepId
  artifactKind : String
  destination : String
  metadata : JsonObject := []

structure PlanRow where
  planId : PlanId
  ownerId : Option String := none
  status : RuntimeStatus
  failure : Option JsonObject := none
  createdAt : Rat

structure StepRow where
  planId : PlanId
  ordinal : Nat
  stepId : StepId
  task : JsonObject
  bindings : List Binding
  runId : Option RunId := none
  status : RuntimeStatus
  failure : Option JsonObject := none

structure PlanTables where
  plans : List PlanRow := []
  steps : List StepRow := []

/-- A plan as `get` returns it. -/
structure Plan where
  planId : PlanId
  status : RuntimeStatus
  failure : Option JsonObject
  steps : List StepRow

/-- `FAILED` -/
def failedStatuses : List RuntimeStatus := [.failed, .cancelled, .timedOut, .lost]

/-- `ACTIVE` -/
def activeStatuses : List RuntimeStatus :=
  [.queued, .preparing, .running, .retryWait, .cancelRequested]

/-! ## Creating a plan -/

structure StepRequest where
  stepId : StepId
  task : JsonObject
  bindings : List Binding := []

structure PlanRequest where
  planId : PlanId
  ownerId : Option String := none
  steps : List StepRequest
  now : Rat

def isPlanIdentifierTail (c : Char) : Bool :=
  c.isAlphanum || c = '.' || c = '_' || c = '-'

/-- `IDENTIFIER` of the plan service, which unlike the kernel's has no colon. -/
def isPlanIdentifier (s : String) : Bool :=
  match s.toList with
  | [] => false
  | c :: cs => c.isAlphanum && cs.all isPlanIdentifierTail && cs.length ≤ 127

def maxSteps : Nat := 64

/-- `_validate_binding` -/
def validateBinding (stepId : StepId) (earlier : List StepId) (b : Binding) : Validated := do
  refuseIf (b.fromStep ∉ earlier)
    ("step " ++ quoted stepId ++ " binding must refer to an earlier step")
  refuseIf (b.artifactKind = "") ("step " ++ quoted stepId ++ " binding needs artifact_kind")
  refuseIf (b.destination = "") ("step " ++ quoted stepId ++ " binding needs destination")

/-- The loop of `_validate` over the steps, with the step ids seen so far. -/
def validateSteps (taskError : JsonObject → Option String) :
    List StepId → List StepRequest → Validated
  | _, [] => .ok ()
  | seen, step :: steps => do
      refuseIf (¬isPlanIdentifier step.stepId) "every step needs an identifier step_id"
      refuseIf (step.stepId ∈ seen) ("duplicate step_id " ++ quoted step.stepId)
      match taskError step.task with
      | some message =>
          .error ("step " ++ quoted step.stepId ++ " has an invalid task: " ++ message)
      | none => .ok ()
      step.bindings.forM (validateBinding step.stepId seen)
      validateSteps taskError (seen ++ [step.stepId]) steps

/-- `_validate`; `taskError` is what `TaskSpec.from_dict` objects to. -/
def PlanRequest.validate (taskError : JsonObject → Option String) (a : PlanRequest) : Validated := do
  refuseIf (¬isPlanIdentifier a.planId) "plan_id must be a non-empty identifier"
  refuseIf (¬(0 < a.steps.length ∧ a.steps.length ≤ maxSteps))
    ("steps must contain between 1 and " ++ toString maxSteps ++ " entries")
  validateSteps taskError [] a.steps

def PlanRequest.planRow (a : PlanRequest) : PlanRow :=
  { planId := a.planId, ownerId := a.ownerId, status := .queued, createdAt := a.now }

def PlanRequest.stepRows (a : PlanRequest) : List StepRow :=
  a.steps.zipIdx.map fun (step, ordinal) ↦
    { planId := a.planId
      ordinal := ordinal
      stepId := step.stepId
      task := step.task
      bindings := step.bindings
      status := .queued }

namespace PlanTables

def plan? (t : PlanTables) (planId : PlanId) : Option PlanRow :=
  Table.get? PlanRow.planId planId t.plans

def status? (t : PlanTables) (planId : PlanId) : Option RuntimeStatus :=
  (t.plan? planId).map PlanRow.status

/-- `ORDER BY ordinal` -/
def stepsOf (t : PlanTables) (planId : PlanId) : List StepRow :=
  (t.steps.filter fun s ↦ s.planId = planId).insertionSort fun a b ↦ a.ordinal ≤ b.ordinal

def createOwned (taskError : JsonObject → Option String) (a : PlanRequest) (t : PlanTables) :
    Except PlanError PlanTables :=
  match a.validate taskError with
  | .error message => .error { message := message }
  | .ok () =>
      if (t.plan? a.planId).isSome then
        .error { message := "plan_id " ++ quoted a.planId ++ " already exists", status := 409 }
      else .ok { plans := t.plans ++ [a.planRow], steps := t.steps ++ a.stepRows }

/-! ## Reading and writing -/

def get? (t : PlanTables) (planId : PlanId) : Option Plan :=
  (t.plan? planId).map fun row ↦
    { planId := planId, status := row.status, failure := row.failure, steps := t.stepsOf planId }

/-- `active` -/
def active (t : PlanTables) : List PlanId :=
  ((t.plans.filter fun p ↦ p.status = .queued || p.status = .running || p.status = .retryWait ||
    p.status = .cancelRequested).insertionSort fun a b ↦ a.createdAt ≤ b.createdAt).map
      PlanRow.planId

/-- `json.dumps(failure) if failure else None` -/
def failureColumn (failure : Option JsonObject) : Option JsonObject :=
  failure.filter fun f ↦ !f.isEmpty

/-- `_update_plan` -/
def updatePlan (planId : PlanId) (status : RuntimeStatus) (failure : Option JsonObject)
    (t : PlanTables) : PlanTables :=
  { t with
    plans := Table.update (fun p ↦ p.planId = planId)
      (fun p ↦ { p with status := status, failure := failureColumn failure }) t.plans }

/-- `_update_step` -/
def updateStep (planId : PlanId) (stepId : StepId) (status : RuntimeStatus)
    (failure : Option JsonObject) (t : PlanTables) : PlanTables :=
  { t with
    steps := Table.update (fun s ↦ s.planId = planId && s.stepId = stepId)
      (fun s ↦ { s with status := status, failure := failureColumn failure }) t.steps }

/-- The step gets its run, and the plan is `running` unless it is being cancelled. -/
def submitted (planId : PlanId) (stepId : StepId) (runId : RunId) (t : PlanTables) : PlanTables :=
  { plans := Table.update (fun p ↦ p.planId = planId && p.status ≠ .cancelRequested)
      (fun p ↦ { p with status := .running, failure := none }) t.plans
    steps := Table.update (fun s ↦ s.planId = planId && s.stepId = stepId)
      (fun s ↦ { s with status := .queued, failure := none, runId := some runId }) t.steps }

/-- The check of `request_cancel`: the error it raises, if any. -/
def cancelError? (planId : PlanId) (t : PlanTables) : Option PlanError :=
  match t.status? planId with
  | none => some { message := "unknown plan " ++ quoted planId, status := 404 }
  | some status =>
      if status ∈ failedStatuses || status = .succeeded then
        some { message := "cannot cancel a plan in " ++ quoted status.value, status := 409 }
      else none

end PlanTables

end ChipEvolve.Plans
