import ChipEvolve.Plan.Executor
import ChipEvolve.Provenance.Logs

/-!
# The artifacts a step is bound to

`PlanExecutor._task_for` (`plan_executor/__main__.py`) over what `ArtifactInventory.for_run`
(`artifact_inventory.py`) tells of the source runs.  The inventory is a flat list over all
attempts of a run, and an attempt that failed has registered what it produced like any other, so
a binding that asks for one artifact asks for one among all of them.
-/

namespace ChipEvolve.Plans

open Provenance (Records)

def Artifact.ofRow (row : ArtifactRow) : Artifact :=
  { artifactId := row.artifactId, kind := row.kind, metadata := row.metadata }

/-- `client.artifacts` -/
def clientArtifacts (x : Records) (runId : RunId) : Except RuntimeError (List Artifact) :=
  (x.inventory runId {}).map (List.map fun entry ↦ .ofRow entry.artifact)

/-- One artifact for a binding, or the text of the `PlanError`. -/
def Binding.choose (b : Binding) (items : List Artifact) : Except String Artifact :=
  match items.filter b.selects with
  | [a] => .ok a
  | found =>
      .error ("binding from " ++ quoted b.fromStep ++ " expected one " ++ quoted b.artifactKind ++
        " artifact, found " ++ toString found.length)

/-- The task of a step whose bindings are met by `chosen`. -/
def StepRow.boundTo (step : StepRow) (chosen : List Artifact) : JsonObject :=
  Executor.boundTask step.task
    (stagedInputs step.task ++ List.zipWith Binding.stagedInput step.bindings chosen)

/-- The loop of `_task_for`; `answers` are what `client.artifacts` returns for one binding after
the other. -/
def chooseAll : List Binding → List (List Artifact) → Except String (List Artifact)
  | b :: bindings, items :: answers => do
      let a ← b.choose items
      let chosen ← chooseAll bindings answers
      return a :: chosen
  | _, _ => .ok []

/-- `_task_for` -/
def taskFor (step : StepRow) (answers : List (List Artifact)) : Except String JsonObject :=
  (chooseAll step.bindings answers).map step.boundTo

/-! ## The loop of the executor -/

section Loop

variable {plan : Plan} {step : StepRow} {b : Binding} {bindings : List Binding}
  {staged : List Json} {rest : List PlanId} {items : List Artifact} {a : Artifact}

theorem choose_eq_ok : b.choose items = .ok a ↔ items.filter b.selects = [a] := by
  unfold Binding.choose
  rcases items.filter b.selects with _ | ⟨first, _ | ⟨second, found⟩⟩ <;> simp

theorem bind_of_choose (h : b.choose items = .ok a) :
    Executor.bind plan step b bindings staged rest items =
      .binding plan step bindings (staged ++ [b.stagedInput a]) rest := by
  unfold Executor.bind
  rw [choose_eq_ok.mp h]

theorem bind_of_choose_error {message : String} (h : b.choose items = .error message) :
    Executor.bind plan step b bindings staged rest items =
      .refuse plan.planId "artifact_binding_error" message rest := by
  unfold Binding.choose at h
  unfold Executor.bind
  generalize items.filter b.selects = found at h ⊢
  rcases found with _ | ⟨first, _ | ⟨second, found⟩⟩
  · obtain rfl := Except.error.inj h
    rfl
  · cases h
  · obtain rfl := Except.error.inj h
    rfl

/-- The run of the step a binding refers to. -/
def Plan.sourceRun (plan : Plan) (b : Binding) : Option RunId :=
  (plan.steps.find? fun u ↦ u.stepId = b.fromStep).bind StepRow.runId

theorem receive_artifacts {s : Service} {w : World} {runId : RunId}
    (hw : w.executor = .binding plan step (b :: bindings) staged rest)
    (hsource : plan.sourceRun b = some runId) :
    w.step s (.artifacts items) =
      some { w with executor := .bind plan step b bindings staged rest items } := by
  unfold Plan.sourceRun at hsource
  simp only [World.step, World.receive, hw, hsource]
  rfl

/-- The executor binds one binding after the other, as `_task_for` does. -/
theorem run_artifacts (s : Service) {w : World} {answers : List (List Artifact)}
    {chosen : List Artifact} (hw : w.executor = .binding plan step bindings staged rest)
    (hsources : ∀ b ∈ bindings, ∃ runId, plan.sourceRun b = some runId)
    (hlength : answers.length = bindings.length)
    (h : chooseAll bindings answers = .ok chosen) :
    Machine.run (World.step s) w (answers.map .artifacts) =
      some { w with
        executor := .binding plan step []
          (staged ++ List.zipWith Binding.stagedInput bindings chosen) rest } := by
  induction bindings generalizing w staged answers chosen with
  | nil =>
      obtain rfl := List.length_eq_zero_iff.mp hlength
      simp [← hw]
  | cons b bindings ih =>
      obtain ⟨items, answers, rfl⟩ := List.exists_cons_of_length_eq_add_one hlength
      rw [List.forall_mem_cons] at hsources
      obtain ⟨runId, hrun⟩ := hsources.1
      obtain ⟨a, ha, h⟩ := Except.bind_eq_ok.mp h
      obtain ⟨others, hothers, h⟩ := Except.bind_eq_ok.mp h
      obtain rfl := Except.ok.inj h
      rw [List.map_cons, Machine.run_cons, receive_artifacts hw hrun, Option.bind_some,
        ih (bind_of_choose ha) hsources.2 (by simpa using hlength) hothers]
      simp

/-- The first binding that is not met ends the plan, whatever the others ask for. -/
theorem run_artifacts_error (s : Service) {w : World} {answers : List (List Artifact)}
    {message : String} (hw : w.executor = .binding plan step bindings staged rest)
    (hsources : ∀ b ∈ bindings, ∃ runId, plan.sourceRun b = some runId)
    (hlength : answers.length = bindings.length)
    (h : chooseAll bindings answers = .error message) :
    ∃ n, Machine.run (World.step s) w ((answers.take n).map .artifacts) =
      some { w with executor := .refuse plan.planId "artifact_binding_error" message rest } := by
  induction bindings generalizing w staged answers with
  | nil =>
      obtain rfl := List.length_eq_zero_iff.mp hlength
      cases h
  | cons b bindings ih =>
      obtain ⟨items, answers, rfl⟩ := List.exists_cons_of_length_eq_add_one hlength
      rw [List.forall_mem_cons] at hsources
      obtain ⟨runId, hrun⟩ := hsources.1
      have hstep : w.step s (.artifacts items) =
          some { w with executor := .bind plan step b bindings staged rest items } :=
        receive_artifacts hw hrun
      unfold chooseAll at h
      cases hchoose : b.choose items with
      | error e =>
          rw [hchoose] at h
          obtain rfl := Except.error.inj h
          refine ⟨1, ?_⟩
          rw [List.take_succ_cons, List.take_zero, List.map_cons, Machine.run_cons, hstep,
            bind_of_choose_error hchoose]
          rfl
      | ok a =>
          rw [hchoose] at h
          cases hothers : chooseAll bindings answers with
          | ok chosen =>
              rw [hothers] at h
              cases h
          | error e =>
              rw [hothers] at h
              obtain rfl := Except.error.inj h
              obtain ⟨n, hn⟩ := ih (w := { w with executor := _ }) (bind_of_choose hchoose)
                hsources.2 (by simpa using hlength) hothers
              refine ⟨n + 1, ?_⟩
              rw [List.take_succ_cons, List.map_cons, Machine.run_cons, hstep]
              exact hn

end Loop

/-! ## The artifacts of all attempts -/

section Attempts

variable {b : Binding} {a : Artifact} {d : Provenance.RunDetail}

/-- The artifacts of some attempts, in order. -/
def artifactsOf (attempts : List (StageRow × Provenance.AttemptDetail)) : List Artifact :=
  attempts.flatMap fun p ↦ p.2.artifacts.map .ofRow

/-- The artifacts of a run that meet a binding. -/
def Binding.candidates (b : Binding) (d : Provenance.RunDetail) : List Artifact :=
  (artifactsOf d.attempts).filter b.selects

/-- An attempt that has succeeded. -/
def shipped (p : StageRow × Provenance.AttemptDetail) : Bool := p.2.attempt.status = .succeeded

theorem clientArtifacts_eq {x : Records} {runId : RunId} (hd : x.runDetail runId = .ok d) :
    clientArtifacts x runId = .ok (artifactsOf d.attempts) := by
  unfold clientArtifacts Provenance.Records.inventory Provenance.RunDetail.inventory artifactsOf
  rw [hd]
  simp [Except.map, Provenance.InventoryFilter.admits, Provenance.carries, List.map_flatMap,
    Function.comp_def]

/-- Where only the attempts that succeeded have an artifact that meets the binding, the others
might as well have registered nothing. -/
theorem candidates_of_shipped
    (hothers : ∀ p ∈ d.attempts, shipped p = false → ∀ row ∈ p.2.artifacts,
      b.selects (.ofRow row) = false) :
    b.candidates d = (artifactsOf (d.attempts.filter shipped)).filter b.selects := by
  unfold Binding.candidates artifactsOf
  generalize d.attempts = attempts at hothers ⊢
  induction attempts with
  | nil => rfl
  | cons p attempts ih =>
      rw [List.forall_mem_cons] at hothers
      rw [List.flatMap_cons, List.filter_append, ih hothers.2]
      cases hp : shipped p with
      | true => rw [List.filter_cons_of_pos hp, List.flatMap_cons, List.filter_append]
      | false =>
          have hnone : (p.2.artifacts.map Artifact.ofRow).filter b.selects = [] := by
            rw [List.filter_eq_nil_iff]
            intro a ha
            obtain ⟨row, hrow, rfl⟩ := List.mem_map.mp ha
            exact Bool.eq_false_iff.mp (hothers.1 hp row hrow)
          rw [hnone, List.filter_cons_of_neg (by simp [hp]), List.nil_append]

end Attempts

/-- A source run, when its artifacts are asked for. -/
structure Told where
  records : Records
  runId : RunId
  detail : Provenance.RunDetail
  described : records.runDetail runId = .ok detail

def Told.answer (t : Told) : Except RuntimeError (List Artifact) :=
  clientArtifacts t.records t.runId

theorem chooseAll_eq_ok {bindings : List Binding} {told : List Told} {chosen : List Artifact}
    (hlength : told.length = bindings.length) :
    chooseAll bindings (told.map fun t ↦ artifactsOf t.detail.attempts) = .ok chosen ↔
      List.Forall₂ (fun p a ↦ Binding.candidates p.1 p.2.detail = [a]) (bindings.zip told)
        chosen := by
  induction bindings generalizing told chosen with
  | nil =>
      obtain rfl := List.length_eq_zero_iff.mp hlength
      simp [chooseAll, eq_comm]
  | cons b bindings ih =>
      obtain ⟨t, told, rfl⟩ := List.exists_cons_of_length_eq_add_one hlength
      have hrest : told.length = bindings.length := by simpa using hlength
      rw [List.zip_cons_cons, List.forall₂_cons_left_iff, List.map_cons]
      unfold chooseAll
      rw [Except.bind_eq_ok]
      constructor
      · rintro ⟨a, ha, h⟩
        obtain ⟨others, hothers, h⟩ := Except.bind_eq_ok.mp h
        obtain rfl := Except.ok.inj h
        exact ⟨a, others, choose_eq_ok.mp ha, (ih hrest).mp hothers, rfl⟩
      · rintro ⟨a, others, ha, hothers, rfl⟩
        refine ⟨a, choose_eq_ok.mpr ha, ?_⟩
        rw [(ih hrest).mpr hothers]
        rfl

/-- A task is made exactly where each binding is met by one artifact among those of all attempts;
these are the artifacts of the attempt that succeeded where no other attempt has left one that
meets the binding. -/
theorem task_for_binds_iff {step : StepRow} {told : List Told} {answers : List (List Artifact)}
    (hanswers : told.mapM Told.answer = .ok answers)
    (hlength : told.length = step.bindings.length) :
    (∀ task, taskFor step answers = .ok task ↔ ∃ chosen,
      List.Forall₂ (fun p a ↦ Binding.candidates p.1 p.2.detail = [a]) (step.bindings.zip told)
        chosen ∧ task = step.boundTo chosen) ∧
      ∀ b t, (b, t) ∈ step.bindings.zip told → ∀ p, t.detail.attempts.filter shipped = [p] →
        (∀ q ∈ t.detail.attempts, shipped q = false → ∀ row ∈ q.2.artifacts,
          b.selects (.ofRow row) = false) →
        b.candidates t.detail = (p.2.artifacts.map .ofRow).filter b.selects := by
  have htold : told.mapM Told.answer =
      .ok (told.map fun t ↦ artifactsOf t.detail.attempts) := by
    refine Except.mapM_of_forall₂ (List.forall₂_map_right_iff.mpr (List.forall₂_same.mpr ?_))
    exact fun t _ ↦ clientArtifacts_eq t.described
  obtain rfl := Except.ok.inj (htold.symm.trans hanswers)
  constructor
  · intro task
    unfold taskFor
    rw [Except.map_eq_ok]
    simp only [chooseAll_eq_ok hlength, eq_comm (b := task)]
  · intro b t _ p hshipped hothers
    rw [candidates_of_shipped hothers, hshipped]
    simp [artifactsOf]

/-! ## A source run that was retried -/

namespace Sample

open Provenance.Sample (loggedRun loggedStage loggedAttempt)

def report (attemptId artifactId : String) : ArtifactRow where
  artifactId := artifactId
  attemptId := attemptId
  kind := "report"
  storeKey := "report.json"
  sizeBytes := 2
  sha256 := "digest"
  metadata := []
  storage := .workspace

/-- The first attempt has failed and the second has succeeded. -/
def retried (rows : List ArtifactRow) : Records where
  system :=
    { tables :=
        { runs := [{ loggedRun with status := .succeeded }]
          stages := [loggedStage]
          attempts := [loggedAttempt 1 "a1" "/work/1",
            { loggedAttempt 2 "a2" "/work/2" with status := .succeeded }] } }
  depot := { artifacts := rows }

def retriedDetail (rows : List ArtifactRow) : Provenance.RunDetail where
  run := { loggedRun with status := .succeeded }
  stages := ((retried rows).tables.listStages "run").map fun s ↦
    (retried rows).stageDetail ((retried rows).describeStage s)

def retriedTold (rows : List ArtifactRow) : Told where
  records := retried rows
  runId := "run"
  detail := retriedDetail rows
  described := Provenance.Records.runDetail_eq_ok.mpr ⟨_, rfl, rfl⟩

def reportBinding : Binding where
  fromStep := "produce"
  artifactKind := "report"
  destination := "report.json"

def consumer : StepRow where
  planId := "plan"
  ordinal := 1
  stepId := "consume"
  task := [("task_id", .str "consume"), ("project_id", .str "project"),
    ("design_id", .str "design"), ("plugin_id", .str "consumer"), ("schema_version", .int 3)]
  bindings := [reportBinding]
  status := .queued

/-- The report of the failed attempt is in the way of that of the attempt that succeeded. -/
theorem failed_attempt_blocks : ¬∀ (step : StepRow) (told : List Told)
    (answers : List (List Artifact)) (last : List (StageRow × Provenance.AttemptDetail)),
      told.mapM Told.answer = .ok answers → told.length = step.bindings.length →
      List.Forall₂ (fun t p ↦ t.detail.attempts.filter shipped = [p]) told last →
      (∀ task, taskFor step answers = .ok task → ∃ chosen, task = step.boundTo chosen ∧
        List.Forall₂ (fun p a ↦ ∃ row ∈ p.2.artifacts, Artifact.ofRow row = a) last chosen) ∧
      (List.Forall₂ (fun b p ↦ ∃ a, (p.2.artifacts.map .ofRow).filter (Binding.selects b) = [a])
        step.bindings last → ∃ task, taskFor step answers = .ok task) := by
  intro h
  have hblocked := (h consumer [retriedTold [report "a1" "r1", report "a2" "r2"]]
    [[.ofRow (report "a1" "r1"), .ofRow (report "a2" "r2")]] _ rfl rfl (.cons rfl .nil)).2
      (.cons ⟨.ofRow (report "a2" "r2"), rfl⟩ .nil)
  obtain ⟨task, htask⟩ := hblocked
  cases htask

/-- A log of the failed attempt, and a report of its successor. -/
def leftRows : List ArtifactRow :=
  [{ report "a1" "l1" with kind := "log" }, report "a2" "r2"]

/-- Where the failed attempt has left no report, its successor's is the one candidate and is
bound. -/
theorem task_for_binds_shipped :
    taskFor consumer [leftRows.map .ofRow] = .ok (consumer.boundTo [.ofRow (report "a2" "r2")]) ∧
      reportBinding.candidates (retriedDetail leftRows) = [.ofRow (report "a2" "r2")] := by
  have htold : [retriedTold leftRows].mapM Told.answer = .ok [leftRows.map .ofRow] := rfl
  obtain ⟨htask, hshipped⟩ := @task_for_binds_iff consumer _ _ htold rfl
  have hcandidates := hshipped reportBinding (retriedTold leftRows)
    (List.mem_singleton.mpr rfl) _ rfl (by decide +kernel)
  exact ⟨(htask _).mpr ⟨_, .cons hcandidates .nil, rfl⟩, hcandidates⟩

end Sample

end ChipEvolve.Plans
