import ChipEvolve.Plan.Request

/-!
# Plans whose steps can be submitted

What `_task_for` (`plan_executor/__main__.py`) makes of a step that `create_owned` has stored, as
`TaskSpec.from_dict` (`contracts/task.py`) takes it.  Nothing compares the destinations of the
bindings with each other, with those of the task, or with the rule for paths, and the first to do
so is the kernel when the step is submitted.
-/

namespace ChipEvolve.Plans

open Except (Raises Returns)
open Payload (part)

/-! ## The request behind a payload -/

section Refinement

variable {earlier seen : List StepId} {stepId : StepId} {m : JsonObject} {b : Binding}
  {js : List Json} {ss : List StepRequest} {a : PlanRequest} {t t' : PlanTables}

theorem DescribesBinding.valid (h : DescribesBinding earlier m b) :
    validateBinding stepId earlier b = .ok () := by
  unfold validateBinding
  simp only [refuseIf, h.earlier, h.kind.2, h.destination.2, not_true_eq_false, if_false]
  rfl

theorem Describes.valid (h : Describes seen js ss) :
    validateSteps taskError seen ss = .ok () := by
  induction h with
  | nil => rfl
  | @cons seen m s js ss hs _ ih =>
      obtain ⟨items, _, hbindings⟩ := hs.bindings
      have hall : s.bindings.forM (validateBinding s.stepId seen) = .ok () := by
        refine Except.forM_eq_ok.mpr fun b hb ↦ ?_
        obtain ⟨j, _, mb, _, hdescribes⟩ := (Pointwise.mem hbindings).2 b hb
        exact hdescribes.valid
      unfold validateSteps
      simp only [refuseIf, hs.stepId.2, hs.fresh, taskError_eq_none.mpr hs.accepted, hall, ih,
        not_true_eq_false, if_false]
      rfl

/-- The plan that is stored is one that the tables of the service accept. -/
theorem createOwned_refines {str : Json → String} {fresh : PlanId} {ownerId : Option String}
    {now : Rat} {payload : JsonObject}
    (h : createOwned str fresh ownerId now payload t = .ok t') :
    ∃ a : PlanRequest, t.createOwned taskError a = .ok t' := by
  obtain ⟨planId, items, steps, hrequests, hsteps, h⟩ := createOwned_eq_ok.mp h
  obtain ⟨hnew, rfl⟩ := insertPlan_eq_ok.mp h
  refine ⟨{ planId := planId, ownerId := ownerId, steps := steps, now := now }, ?_⟩
  have hvalid : PlanRequest.validate taskError
      { planId := planId, ownerId := ownerId, steps := steps, now := now } = .ok () := by
    have hbounded := hrequests.bounded
    rw [hsteps.length_eq] at hbounded
    unfold PlanRequest.validate
    simp only [refuseIf, hrequests.identifier, hbounded, hsteps.valid, and_self,
      not_true_eq_false, if_false]
    rfl
  unfold PlanTables.createOwned
  rw [hvalid]
  simp only [hnew, Option.isSome_none, Bool.false_eq_true, if_false]

end Refinement

/-! ## Destinations -/

/-- The destinations of the bindings are paths inside the workspace, no two are equal, and none
is that of an input the task declares itself. -/
structure Placeable (task : JsonObject) (bindings : List Binding) : Prop where
  inside : ∀ b ∈ bindings,
    validateRelativePath "input destination" b.destination "attempt workspace" = .ok ()
  distinct : (bindings.map Binding.destination).Nodup
  apart : ∀ b ∈ bindings, ∀ item ∈ Payload.TaskSpec.declared task,
    Payload.InputFile.destination item ≠ some b.destination

/-- Whatever artifacts are chosen, the task of the step is accepted. -/
def StepRow.Submittable (step : StepRow) : Prop :=
  ∀ chosen : List Artifact, chosen.length = step.bindings.length →
    (∀ a ∈ chosen, isIdentifier a.artifactId = true) →
      Returns (Payload.TaskSpec.fromDict (.obj (step.boundTo chosen)))

section Submittable

variable {step : StepRow} {bindings : List Binding} {chosen : List Artifact}

theorem destinations_zipWith (hlength : chosen.length = bindings.length) :
    (List.zipWith Binding.stagedInput bindings chosen).map Payload.InputFile.destination =
      bindings.map fun b ↦ some b.destination := by
  induction bindings generalizing chosen with
  | nil => rfl
  | cons b bindings ih =>
      obtain ⟨a, chosen, rfl⟩ := List.exists_cons_of_length_eq_add_one hlength
      rw [List.zipWith_cons_cons, List.map_cons, List.map_cons, ih (by simpa using hlength)]
      rfl

theorem returns_stagedInputs (hlength : chosen.length = bindings.length)
    (hids : ∀ a ∈ chosen, isIdentifier a.artifactId = true) :
    (∀ j ∈ List.zipWith Binding.stagedInput bindings chosen,
        Returns (Payload.InputFile.fromDict j)) ↔
      ∀ b ∈ bindings,
        validateRelativePath "input destination" b.destination "attempt workspace" = .ok () := by
  induction bindings generalizing chosen with
  | nil => simp
  | cons b bindings ih =>
      obtain ⟨a, chosen, rfl⟩ := List.exists_cons_of_length_eq_add_one hlength
      rw [List.forall_mem_cons] at hids
      rw [List.zipWith_cons_cons, List.forall_mem_cons, List.forall_mem_cons,
        ih (by simpa using hlength) hids.2]
      refine and_congr_left fun _ ↦ ?_
      exact Payload.InputFile.returns_artifact.trans (and_iff_left hids.1)

/-- The merged task is accepted exactly where its bindings can be placed. -/
theorem returns_boundTo (h : Returns (Payload.TaskSpec.fromDict (.obj step.task)))
    (hlength : chosen.length = step.bindings.length)
    (hids : ∀ a ∈ chosen, isIdentifier a.artifactId = true) :
    Returns (Payload.TaskSpec.fromDict (.obj (step.boundTo chosen))) ↔
      Placeable step.task step.bindings := by
  have hown := Payload.TaskSpec.nodup_declared h
  have hplaceable : Placeable step.task step.bindings ↔
      (∀ j ∈ List.zipWith Binding.stagedInput step.bindings chosen,
        Returns (Payload.InputFile.fromDict j)) ∧
      ((Payload.TaskSpec.declared step.task ++
        List.zipWith Binding.stagedInput step.bindings chosen).map
          Payload.InputFile.destination).Nodup := by
    rw [returns_stagedInputs hlength hids, List.map_append, destinations_zipWith hlength,
      List.nodup_append]
    constructor
    · intro hp
      refine ⟨hp.inside, hown, ?_, fun x hx y hy ↦ ?_⟩
      · have hmap := hp.distinct.map (Option.some_injective String)
        rwa [List.map_map] at hmap
      · obtain ⟨item, hitem, rfl⟩ := List.mem_map.mp hx
        obtain ⟨b, hb, rfl⟩ := List.mem_map.mp hy
        exact hp.apart b hb item hitem
    · rintro ⟨hinside, _, hdistinct, hapart⟩
      refine ⟨hinside, ?_, fun b hb item hitem ↦ ?_⟩
      · refine List.Nodup.of_map some ?_
        rwa [List.map_map]
      · exact hapart _ (List.mem_map_of_mem hitem) _ (List.mem_map_of_mem hb)
  have hstaged : stagedInputs step.task = Payload.TaskSpec.declared step.task := rfl
  unfold StepRow.boundTo Executor.boundTask
  rw [hstaged]
  split
  · rename_i hempty
    have hnone : step.bindings = [] := by
      have hzip := (List.append_eq_nil_iff.mp (List.isEmpty_iff.mp hempty)).2
      have hlengths := congrArg List.length hzip
      rw [List.length_zipWith, hlength, Nat.min_self] at hlengths
      exact List.length_eq_zero_iff.mp hlengths
    rw [hnone]
    exact iff_of_true h ⟨by simp, List.nodup_nil, by simp⟩
  · rw [Payload.TaskSpec.returns_set_staged h, hplaceable]

theorem submittable_iff (h : Returns (Payload.TaskSpec.fromDict (.obj step.task))) :
    step.Submittable ↔ Placeable step.task step.bindings := by
  constructor
  · intro hall
    have hlength : (List.replicate step.bindings.length
        ({ artifactId := "a", kind := "" } : Artifact)).length = step.bindings.length :=
      List.length_replicate
    have hids : ∀ a ∈ List.replicate step.bindings.length
        ({ artifactId := "a", kind := "" } : Artifact), isIdentifier a.artifactId = true := by
      intro a ha
      obtain rfl := List.eq_of_mem_replicate ha
      decide
    exact (returns_boundTo h hlength hids).mp (hall _ hlength hids)
  · intro hplaceable chosen hlength hids
    exact (returns_boundTo h hlength hids).mpr hplaceable

end Submittable

/-! ## Every plan that is stored -/

/-- Either a `PlanError`, and nothing is stored, or a plan of whose steps each can be submitted. -/
def Sufficient (r : Creates PlanTables) (t : PlanTables) : Prop :=
  (∃ e, r = .error (.plan e)) ∨
    ∃ t' rows, r = .ok t' ∧ t'.steps = t.steps ++ rows ∧ ∀ step ∈ rows, step.Submittable

section Sufficient

variable {r : Creates PlanTables} {t : PlanTables}

theorem sufficient_iff : Sufficient r t ↔ ¬Raises CreateError.Escaping r ∧
    ∀ t', r = .ok t' → ∃ rows, t'.steps = t.steps ++ rows ∧ ∀ step ∈ rows, step.Submittable := by
  unfold Sufficient
  cases r with
  | ok t' => simp
  | error e => cases e <;> simp [CreateError.Escaping]

/-- The rows of a request have the tasks and the bindings of its steps. -/
theorem mem_stepRows {a : PlanRequest} : (∀ row ∈ a.stepRows, ∃ s ∈ a.steps,
      row.task = s.task ∧ row.bindings = s.bindings) ∧
    ∀ s ∈ a.steps, ∃ row ∈ a.stepRows, row.task = s.task ∧ row.bindings = s.bindings := by
  unfold PlanRequest.stepRows
  constructor
  · intro row hrow
    obtain ⟨p, hp, rfl⟩ := List.mem_map.mp hrow
    exact ⟨p.1, List.fst_mem_of_mem_zipIdx hp, rfl, rfl⟩
  · intro s hs
    obtain ⟨i, hi, rfl⟩ := List.getElem_of_mem hs
    exact ⟨_, List.mem_map_of_mem (List.mk_mem_zipIdx_iff_getElem?.mpr
      (List.getElem?_eq_getElem hi)), rfl, rfl⟩

theorem Describes.accepted {seen : List StepId} {js : List Json} {ss : List StepRequest}
    (h : Describes seen js ss) {s : StepRequest} (hs : s ∈ ss) :
    Returns (Payload.TaskSpec.fromDict (.obj s.task)) := by
  induction h with
  | nil => cases hs
  | cons hfirst _ ih =>
      rcases List.mem_cons.mp hs with rfl | hs
      · exact hfirst.accepted
      · exact ih hs

/-- Validation suffices for a payload exactly where it comes to no binding whose source is a list
or an object, and the bindings of a plan that is not refused can all be placed. -/
theorem plan_validation_sufficient_iff (str : Json → String) (fresh : PlanId)
    (ownerId : Option String) (now : Rat) (payload : JsonObject) (t : PlanTables) :
    Sufficient (createOwned str fresh ownerId now payload t) t ↔
      ∀ planId items, Requests str fresh payload planId items → ¬Stuck [] items ∧
        (t.plan? planId = none → ∀ steps, Describes [] items steps →
          ∀ s ∈ steps, Placeable s.task s.bindings) := by
  rw [sufficient_iff, raises_createOwned]
  constructor
  · rintro ⟨hquiet, hstored⟩ planId items hrequests
    refine ⟨fun hstuck ↦ hquiet ⟨planId, items, hrequests, hstuck⟩, fun hnew steps hsteps s hs ↦ ?_⟩
    have hinsert := insertPlan_eq_ok (t := t)
      (a := { planId := planId, ownerId := ownerId, steps := steps, now := now }) |>.mpr ⟨hnew, rfl⟩
    obtain ⟨rows, hrows, hall⟩ :=
      hstored _ (createOwned_eq_ok.mpr ⟨planId, items, steps, hrequests, hsteps, hinsert⟩)
    obtain rfl := List.append_cancel_left hrows
    obtain ⟨row, hrow, htask, hbindings⟩ := (mem_stepRows
      (a := { planId := planId, ownerId := ownerId, steps := steps, now := now })).2 s hs
    have haccepted := hsteps.accepted hs
    rw [← htask] at haccepted
    rw [← htask, ← hbindings]
    exact (submittable_iff haccepted).mp (hall row hrow)
  · intro hcond
    refine ⟨?_, fun t' h ↦ ?_⟩
    · rintro ⟨planId, items, hrequests, hstuck⟩
      exact (hcond planId items hrequests).1 hstuck
    · obtain ⟨planId, items, steps, hrequests, hsteps, h⟩ := createOwned_eq_ok.mp h
      obtain ⟨hnew, rfl⟩ := insertPlan_eq_ok.mp h
      refine ⟨_, rfl, fun row hrow ↦ ?_⟩
      obtain ⟨s, hs, htask, hbindings⟩ := mem_stepRows.1 row hrow
      have haccepted := hsteps.accepted hs
      rw [← htask] at haccepted
      refine (submittable_iff haccepted).mpr ?_
      rw [htask, hbindings]
      exact (hcond planId items hrequests).2 hnew steps hsteps s hs

end Sufficient

/-! ## A destination outside the workspace -/

namespace Sample

def taskNamed (taskId : String) : JsonObject :=
  [("task_id", .str taskId), ("project_id", .str "project"), ("design_id", .str "design"),
    ("plugin_id", .str "plugin"), ("schema_version", .int 3)]

def escapingBinding : JsonObject :=
  [("from_step", .str "produce"), ("artifact_kind", .str "report"),
    ("destination", .str "../report.json")]

def escapingSteps : List Json :=
  [.obj [("step_id", .str "produce"), ("task", .obj (taskNamed "produce"))],
    .obj [("step_id", .str "consume"), ("task", .obj (taskNamed "consume")),
      ("bindings", .arr [.obj escapingBinding])]]

def escapingPlan : JsonObject := [("plan_id", .str "plan"), ("steps", .arr escapingSteps)]

def escapingRequests : List StepRequest :=
  [{ stepId := "produce", task := taskNamed "produce" },
    { stepId := "consume", task := taskNamed "consume"
      bindings := [{ fromStep := "produce", artifactKind := "report"
                     destination := "../report.json" }] }]

theorem describes_escaping : Describes [] escapingSteps escapingRequests := by
  have hproduce : Returns (Payload.TaskSpec.fromDict (.obj (taskNamed "produce"))) :=
    Except.returns_of_isOk (by decide +kernel)
  have hconsume : Returns (Payload.TaskSpec.fromDict (.obj (taskNamed "consume"))) :=
    Except.returns_of_isOk (by decide +kernel)
  refine .cons ⟨⟨rfl, by decide⟩, by decide, rfl, hproduce, [], rfl, .nil⟩
    (.cons ⟨⟨rfl, by decide⟩, by decide, rfl, hconsume, _, rfl, ?_⟩ .nil)
  exact .cons ⟨_, rfl, rfl, by decide, ⟨rfl, by decide⟩, ⟨rfl, by decide⟩, rfl⟩ .nil

/-- A plan is stored whose second step the kernel will refuse. -/
theorem stored_plan_refused : ¬∀ (str : Json → String) (fresh : PlanId) (ownerId : Option String)
    (now : Rat) (payload : JsonObject) (t : PlanTables),
      Sufficient (createOwned str fresh ownerId now payload t) t := by
  intro h
  have hcond := (plan_validation_sufficient_iff (fun _ ↦ "plan") "fresh" none 0 escapingPlan {}).mp
    (h _ _ _ _ _ _) "plan" escapingSteps ⟨rfl, by decide, rfl, by decide⟩
  have hplaceable := hcond.2 rfl _ describes_escaping _
    (List.mem_cons_of_mem _ List.mem_cons_self)
  exact absurd (hplaceable.inside _ List.mem_cons_self) (by decide)

end Sample

end ChipEvolve.Plans
