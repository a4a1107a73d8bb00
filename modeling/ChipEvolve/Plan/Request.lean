import ChipEvolve.Contracts.Staged
import ChipEvolve.Plan.Binding

/-!
# Plan requests as payloads

`PlanStore.create_owned` with `_validate` and `_validate_binding` (`plan_executor/__main__.py`)
on a JSON object.  A task is validated without its bindings and a binding without the task, and
what is submitted is the two together; and a set is asked for a key that need not be hashable.
-/

namespace ChipEvolve.Plans

open Builtins (hashable text?)
open Except (Raises Returns)
open Payload (part)

/-! ## Creating a plan -/

/-- What `create_owned` raises: a `PlanError`, or a `TypeError` that is none. -/
inductive CreateError where
  | plan (e : PlanError)
  | typeError (message : String)

/-- It is no `PlanError`. -/
def CreateError.Escaping : CreateError → Prop
  | plan _ => False
  | typeError _ => True

abbrev Creates (α : Type) := Except CreateError α

/-- What a check has found, or else a `PlanError`. -/
def orRefuse {α : Type} (message : String) : Option α → Creates α
  | some a => .ok a
  | none => .error (.plan { message := message })

def object? : Json → Option JsonObject
  | .obj m => some m
  | _ => none

def list? : Json → Option (List Json)
  | .arr items => some items
  | _ => none

/-- `value in earlier`, for a set of texts. -/
def isIn (j : Json) (earlier : List StepId) : Creates (Option StepId) :=
  if hashable j then .ok ((text? j).filter (· ∈ earlier)) else .error (.typeError "unhashable type")

/-- The loop over the fields that a binding needs. -/
def needed (stepId : StepId) (m : JsonObject) (field : String) : Creates String :=
  orRefuse ("step " ++ quoted stepId ++ " binding needs " ++ field)
    ((text? (part m field)).filter (· ≠ ""))

/-- `_validate_binding`, and the binding that it lets pass. -/
def readBinding (stepId : StepId) (earlier : List StepId) (j : Json) : Creates Binding := do
  let m ← orRefuse ("step " ++ quoted stepId ++ " has a non-object binding") (object? j)
  let fromStep ← orRefuse ("step " ++ quoted stepId ++ " binding must refer to an earlier step")
    (← isIn (part m "from_step") earlier)
  let artifactKind ← needed stepId m "artifact_kind"
  let destination ← needed stepId m "destination"
  let metadata ← orRefuse ("step " ++ quoted stepId ++ " binding metadata must be an object")
    (object? ((m.get? "metadata").getD (.obj [])))
  return { fromStep := fromStep, artifactKind := artifactKind, destination := destination
           metadata := metadata }

def messageOf : Payload.FromDictError → String
  | .contract message | .typeError message | .valueError message => message

/-- What `TaskSpec.from_dict` objects to. -/
def taskError (task : JsonObject) : Option String :=
  match Payload.TaskSpec.fromDict (.obj task) with
  | .ok _ => none
  | .error e => some (messageOf e)

/-- `TaskSpec.from_dict(step["task"])` and the handler around it. -/
def acceptTask (stepId : StepId) (task : JsonObject) : Creates Unit :=
  match taskError task with
  | none => .ok ()
  | some message =>
      .error (.plan
        { message := "step " ++ quoted stepId ++ " has an invalid task: " ++ message })

/-- One turn of the loop of `_validate`. -/
def readStep (seen : List StepId) (j : Json) : Creates StepRequest := do
  let m ← orRefuse "every step must be an object" (object? j)
  let stepId ← orRefuse "every step needs an identifier step_id"
    ((text? (part m "step_id")).filter isPlanIdentifier)
  orRefuse ("duplicate step_id " ++ quoted stepId) (if stepId ∈ seen then none else some ())
  let task ← orRefuse ("step " ++ quoted stepId ++ " needs a task object")
    (object? (part m "task"))
  acceptTask stepId task
  let items ← orRefuse ("step " ++ quoted stepId ++ " bindings must be a list")
    (list? ((m.get? "bindings").getD (.arr [])))
  let bindings ← items.mapM (readBinding stepId seen)
  return { stepId := stepId, task := task, bindings := bindings }

def readSteps : List StepId → List Json → Creates (List StepRequest)
  | _, [] => .ok []
  | seen, j :: js => do
      let step ← readStep seen j
      let steps ← readSteps (seen ++ [step.stepId]) js
      return step :: steps

/-- `payload.get("plan_id") or f"plan-{…}"` -/
def planIdOf (str : Json → String) (fresh : PlanId) (payload : JsonObject) : PlanId :=
  (truthyText str (payload.get? "plan_id")).getD fresh

/-- The transaction of `create_owned`. -/
def insertPlan (a : PlanRequest) (t : PlanTables) : Creates PlanTables :=
  if (t.plan? a.planId).isSome then
    .error (.plan
      { message := "plan_id " ++ quoted a.planId ++ " already exists", status := 409 })
  else .ok { plans := t.plans ++ [a.planRow], steps := t.steps ++ a.stepRows }

/-- `create_owned`; what raises has stored nothing. -/
def createOwned (str : Json → String) (fresh : PlanId) (ownerId : Option String) (now : Rat)
    (payload : JsonObject) (t : PlanTables) : Creates PlanTables := do
  let planId := planIdOf str fresh payload
  orRefuse "plan_id must be a non-empty identifier"
    (if isPlanIdentifier planId then some () else none)
  let items ← orRefuse ("steps must contain between 1 and " ++ toString maxSteps ++ " entries")
    ((list? (part payload "steps")).filter fun items ↦ 0 < items.length && items.length ≤ maxSteps)
  let steps ← readSteps [] items
  insertPlan { planId := planId, ownerId := ownerId, steps := steps, now := now } t

/-! ## What is read -/

/-- The binding that an object describes, for a step that comes after `earlier`. -/
structure DescribesBinding (earlier : List StepId) (m : JsonObject) (b : Binding) : Prop where
  source : part m "from_step" = .str b.fromStep
  earlier : b.fromStep ∈ earlier
  kind : part m "artifact_kind" = .str b.artifactKind ∧ b.artifactKind ≠ ""
  destination : part m "destination" = .str b.destination ∧ b.destination ≠ ""
  metadata : (m.get? "metadata").getD (.obj []) = .obj b.metadata

/-- The step that an object describes. -/
structure DescribesStep (seen : List StepId) (m : JsonObject) (s : StepRequest) : Prop where
  stepId : part m "step_id" = .str s.stepId ∧ isPlanIdentifier s.stepId = true
  fresh : s.stepId ∉ seen
  task : part m "task" = .obj s.task
  accepted : Returns (Payload.TaskSpec.fromDict (.obj s.task))
  bindings : ∃ items, (m.get? "bindings").getD (.arr []) = .arr items ∧
    List.Forall₂ (fun j b ↦ ∃ mb, j = .obj mb ∧ DescribesBinding seen mb b) items s.bindings

/-- The steps that a list describes, one after the other. -/
inductive Describes : List StepId → List Json → List StepRequest → Prop
  | nil {seen : List StepId} : Describes seen [] []
  | cons {seen : List StepId} {m : JsonObject} {s : StepRequest} {js : List Json}
      {ss : List StepRequest} (hs : DescribesStep seen m s)
      (hss : Describes (seen ++ [s.stepId]) js ss) : Describes seen (.obj m :: js) (s :: ss)

section Reading

variable {α : Type} {message : String} {o : Option α} {a : α} {j : Json} {m : JsonObject}
  {stepId : StepId} {earlier seen : List StepId} {b : Binding} {s : StepRequest} {js : List Json}
  {ss : List StepRequest}

@[simp] theorem orRefuse_eq_ok : orRefuse message o = .ok a ↔ o = some a := by
  cases o <;> simp [orRefuse]

@[simp] theorem not_raises_orRefuse : ¬Raises CreateError.Escaping (orRefuse message o) := by
  cases o <;> simp [orRefuse, CreateError.Escaping]

@[simp] theorem object?_eq_some : object? j = some m ↔ j = .obj m := by
  cases j <;> simp [object?]

@[simp] theorem list?_eq_some {items : List Json} : list? j = some items ↔ j = .arr items := by
  cases j <;> simp [list?]

theorem filter_text?_eq_some {p : String → Bool} {t : String} :
    (text? j).filter p = some t ↔ j = .str t ∧ p t = true := by
  rw [Option.filter_eq_some_iff, Json.text?_eq_some]

theorem isIn_eq_ok {o : Option StepId} : isIn j earlier = .ok o ↔
    hashable j = true ∧ (text? j).filter (· ∈ earlier) = o := by
  unfold isIn
  split <;> simp_all

theorem raises_isIn : Raises CreateError.Escaping (isIn j earlier) ↔ hashable j = false := by
  unfold isIn
  split <;> simp_all [CreateError.Escaping]

theorem needed_eq_ok {field t : String} :
    needed stepId m field = .ok t ↔ part m field = .str t ∧ t ≠ "" := by
  unfold needed
  rw [orRefuse_eq_ok, filter_text?_eq_some]
  simp

theorem taskError_eq_none {task : JsonObject} :
    taskError task = none ↔ Returns (Payload.TaskSpec.fromDict (.obj task)) := by
  unfold taskError
  cases Payload.TaskSpec.fromDict (.obj task) <;> simp

theorem acceptTask_eq_ok {task : JsonObject} {u : Unit} : acceptTask stepId task = .ok u ↔
    Returns (Payload.TaskSpec.fromDict (.obj task)) := by
  rw [← taskError_eq_none]
  unfold acceptTask
  cases taskError task <;> simp

@[simp] theorem not_raises_acceptTask {task : JsonObject} :
    ¬Raises CreateError.Escaping (acceptTask stepId task) := by
  unfold acceptTask
  cases taskError task <;> simp [CreateError.Escaping]

theorem readBinding_eq_ok : readBinding stepId earlier j = .ok b ↔
    ∃ m, j = .obj m ∧ DescribesBinding earlier m b := by
  simp only [readBinding, Except.bind_eq_ok, orRefuse_eq_ok, object?_eq_some, isIn_eq_ok,
    needed_eq_ok]
  constructor
  · rintro ⟨m, rfl, _, ⟨_, rfl⟩, source, hsource, kind, hkind, destination, hdestination, metadata,
      hmetadata, hb⟩
    obtain rfl := Except.ok.inj hb
    obtain ⟨hsource, hearlier⟩ := filter_text?_eq_some.mp hsource
    exact ⟨m, rfl, hsource, of_decide_eq_true hearlier, hkind, hdestination, hmetadata⟩
  · rintro ⟨m, rfl, h⟩
    refine ⟨m, rfl, _, ⟨?_, rfl⟩, b.fromStep, ?_, _, h.kind, _, h.destination, _, h.metadata, rfl⟩
    · rw [h.source]
      rfl
    · exact filter_text?_eq_some.mpr ⟨h.source, decide_eq_true h.earlier⟩

theorem raises_readBinding : Raises CreateError.Escaping (readBinding stepId earlier j) ↔
    ∃ m, j = .obj m ∧ hashable (part m "from_step") = false := by
  simp only [readBinding, needed, Except.raises_bind, not_raises_orRefuse, raises_isIn,
    Except.raises_pure, and_false, exists_false, or_false, false_or, orRefuse_eq_ok,
    object?_eq_some]

theorem readStep_eq_ok : readStep seen j = .ok s ↔ ∃ m, j = .obj m ∧ DescribesStep seen m s := by
  simp only [readStep, Except.bind_eq_ok, orRefuse_eq_ok, object?_eq_some, list?_eq_some,
    acceptTask_eq_ok]
  constructor
  · rintro ⟨m, rfl, stepId, hstepId, _, hfresh, task, htask, _, haccepted, items, hitems, bindings,
      hbindings, hs⟩
    obtain rfl := Except.ok.inj hs
    obtain ⟨hstepId, hidentifier⟩ := filter_text?_eq_some.mp hstepId
    refine ⟨m, rfl, ⟨hstepId, hidentifier⟩, ?_, htask, haccepted, items, hitems, ?_⟩
    · intro hseen
      rw [if_pos hseen] at hfresh
      cases hfresh
    · exact (Except.forall₂_of_mapM hbindings).imp fun _ _ ↦ readBinding_eq_ok.mp
  · rintro ⟨m, rfl, h⟩
    obtain ⟨items, hitems, hbindings⟩ := h.bindings
    refine ⟨m, rfl, s.stepId, filter_text?_eq_some.mpr h.stepId, (), if_neg h.fresh, s.task, h.task,
      (), h.accepted, items, hitems, s.bindings, ?_, rfl⟩
    exact Except.mapM_of_forall₂ (hbindings.imp fun _ _ ↦ readBinding_eq_ok.mpr)

theorem readSteps_eq_ok : readSteps seen js = .ok ss ↔ Describes seen js ss := by
  induction js generalizing seen ss with
  | nil =>
      constructor
      · intro h
        obtain rfl := Except.ok.inj h
        exact .nil
      · rintro ⟨⟩
        rfl
  | cons j js ih =>
      simp only [readSteps, Except.bind_eq_ok, readStep_eq_ok, ih]
      constructor
      · rintro ⟨s, ⟨m, rfl, hs⟩, ss, hss, h⟩
        obtain rfl := Except.ok.inj h
        exact .cons hs hss
      · rintro ⟨⟩
        exact ⟨_, ⟨_, rfl, ‹_›⟩, _, ‹_›, rfl⟩

/-! ## What is raised besides -/

/-- A binding that names its source by a list or an object, after bindings that are in order. -/
def StuckBinding (earlier : List StepId) (items : List Json) : Prop :=
  ∃ before m after, items = before ++ .obj m :: after ∧
    (∀ j ∈ before, ∃ mb b, j = .obj mb ∧ DescribesBinding earlier mb b) ∧
    hashable (part m "from_step") = false

/-- A step with such a binding that is otherwise in order. -/
def StuckStep (seen : List StepId) (j : Json) : Prop :=
  ∃ (m : JsonObject) (stepId : StepId) (task : JsonObject) (items : List Json),
    j = .obj m ∧ part m "step_id" = .str stepId ∧
    isPlanIdentifier stepId = true ∧ stepId ∉ seen ∧ part m "task" = .obj task ∧
    Returns (Payload.TaskSpec.fromDict (.obj task)) ∧
    (m.get? "bindings").getD (.arr []) = .arr items ∧ StuckBinding seen items

/-- Such a step after steps that are in order. -/
inductive Stuck : List StepId → List Json → Prop
  | here {seen : List StepId} {j : Json} {js : List Json} (h : StuckStep seen j) :
      Stuck seen (j :: js)
  | later {seen : List StepId} {m : JsonObject} {s : StepRequest} {js : List Json}
      (hs : DescribesStep seen m s) (h : Stuck (seen ++ [s.stepId]) js) :
      Stuck seen (.obj m :: js)

theorem raises_bindings {items : List Json} :
    Raises CreateError.Escaping (items.mapM (readBinding stepId earlier)) ↔
      StuckBinding earlier items := by
  simp only [Except.raises_mapM, raises_readBinding, Returns, readBinding_eq_ok, StuckBinding]
  constructor
  · rintro ⟨before, _, after, rfl, hbefore, m, rfl, hm⟩
    exact ⟨before, m, after, rfl, fun j hj ↦ by
      obtain ⟨b, mb, hb⟩ := hbefore j hj
      exact ⟨mb, b, hb⟩, hm⟩
  · rintro ⟨before, m, after, rfl, hbefore, hm⟩
    exact ⟨before, _, after, rfl, fun j hj ↦ by
      obtain ⟨mb, b, hb⟩ := hbefore j hj
      exact ⟨b, mb, hb⟩, m, rfl, hm⟩

theorem raises_readStep : Raises CreateError.Escaping (readStep seen j) ↔ StuckStep seen j := by
  simp only [readStep, Except.raises_bind, not_raises_orRefuse, not_raises_acceptTask, false_or,
    Except.raises_pure, and_false, exists_false, or_false, raises_bindings, orRefuse_eq_ok,
    object?_eq_some, list?_eq_some, acceptTask_eq_ok, filter_text?_eq_some]
  constructor
  · rintro ⟨m, rfl, stepId, ⟨hstepId, hidentifier⟩, _, hfresh, task, htask, _, haccepted, items,
      hitems, hstuck⟩
    refine ⟨m, stepId, task, items, rfl, hstepId, hidentifier, ?_, htask, haccepted, hitems, hstuck⟩
    intro hseen
    rw [if_pos hseen] at hfresh
    cases hfresh
  · rintro ⟨m, stepId, task, items, rfl, hstepId, hidentifier, hfresh, htask, haccepted, hitems,
      hstuck⟩
    exact ⟨m, rfl, stepId, ⟨hstepId, hidentifier⟩, (), if_neg hfresh, task, htask, (), haccepted,
      items, hitems, hstuck⟩

theorem raises_readSteps : Raises CreateError.Escaping (readSteps seen js) ↔ Stuck seen js := by
  induction js generalizing seen with
  | nil =>
      refine ⟨fun h ↦ absurd h Except.raises_ok, ?_⟩
      rintro ⟨⟩
  | cons j js ih =>
      simp only [readSteps, Except.raises_bind, raises_readStep, readStep_eq_ok, ih,
        Except.raises_pure, and_false, exists_false, or_false]
      constructor
      · rintro (h | ⟨s, ⟨m, rfl, hs⟩, h⟩)
        · exact .here h
        · exact .later hs h
      · rintro (h | ⟨hs, h⟩)
        · exact .inl h
        · exact .inr ⟨_, ⟨_, rfl, hs⟩, h⟩

/-! ## A request as a whole -/

theorem Describes.length_eq (h : Describes seen js ss) : js.length = ss.length := by
  induction h with
  | nil => rfl
  | cons _ _ ih => rw [List.length_cons, List.length_cons, ih]

section Request

variable {str : Json → String} {fresh : PlanId} {ownerId : Option String} {now : Rat}
  {payload : JsonObject} {t t' : PlanTables} {planId : PlanId} {items : List Json}

/-- The list of steps a payload gives, and the identifier of the plan. -/
structure Requests (str : Json → String) (fresh : PlanId) (payload : JsonObject)
    (planId : PlanId) (items : List Json) : Prop where
  named : planIdOf str fresh payload = planId
  identifier : isPlanIdentifier planId = true
  steps : part payload "steps" = .arr items
  bounded : 0 < items.length ∧ items.length ≤ maxSteps

theorem requests_iff : Requests str fresh payload planId items ↔
    planIdOf str fresh payload = planId ∧
      (if isPlanIdentifier (planIdOf str fresh payload) then some () else none) = some () ∧
      ((list? (part payload "steps")).filter fun items ↦
        0 < items.length && items.length ≤ maxSteps) = some items := by
  rw [Option.filter_eq_some_iff, list?_eq_some]
  constructor
  · rintro ⟨rfl, hidentifier, hsteps, hbounded⟩
    exact ⟨rfl, if_pos hidentifier, hsteps, by simpa using hbounded⟩
  · rintro ⟨rfl, hidentifier, hsteps, hbounded⟩
    refine ⟨rfl, ?_, hsteps, by simpa using hbounded⟩
    by_contra hnot
    rw [if_neg hnot] at hidentifier
    cases hidentifier

theorem insertPlan_eq_ok {a : PlanRequest} : insertPlan a t = .ok t' ↔
    t.plan? a.planId = none ∧
      t' = { plans := t.plans ++ [a.planRow], steps := t.steps ++ a.stepRows } := by
  unfold insertPlan
  cases t.plan? a.planId <;> simp [eq_comm]

theorem createOwned_eq_ok : createOwned str fresh ownerId now payload t = .ok t' ↔
    ∃ planId items steps, Requests str fresh payload planId items ∧ Describes [] items steps ∧
      insertPlan { planId := planId, ownerId := ownerId, steps := steps, now := now } t =
        .ok t' := by
  simp only [createOwned, Except.bind_eq_ok, orRefuse_eq_ok, readSteps_eq_ok, requests_iff]
  constructor
  · rintro ⟨_, hidentifier, items, hitems, steps, hsteps, h⟩
    exact ⟨_, items, steps, ⟨rfl, hidentifier, hitems⟩, hsteps, h⟩
  · rintro ⟨_, items, steps, ⟨rfl, hidentifier, hitems⟩, hsteps, h⟩
    exact ⟨_, hidentifier, items, hitems, steps, hsteps, h⟩

theorem raises_createOwned :
    Raises CreateError.Escaping (createOwned str fresh ownerId now payload t) ↔
      ∃ planId items, Requests str fresh payload planId items ∧ Stuck [] items := by
  have hinsert : ∀ a, ¬Raises CreateError.Escaping (insertPlan a t) := by
    intro a
    unfold insertPlan
    split <;> simp [CreateError.Escaping]
  simp only [createOwned, Except.raises_bind, not_raises_orRefuse, false_or, raises_readSteps,
    hinsert, and_false, exists_false, or_false, orRefuse_eq_ok, requests_iff]
  constructor
  · rintro ⟨_, hidentifier, items, hitems, hstuck⟩
    exact ⟨_, items, ⟨rfl, hidentifier, hitems⟩, hstuck⟩
  · rintro ⟨_, items, ⟨rfl, hidentifier, hitems⟩, hstuck⟩
    exact ⟨_, hidentifier, items, hitems, hstuck⟩

end Request

end Reading

end ChipEvolve.Plans
