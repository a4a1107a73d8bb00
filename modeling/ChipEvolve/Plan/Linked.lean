import ChipEvolve.Plan.Kernel
import ChipEvolve.Plan.Cancellation

/-!
# Steps and the runs under their keys

The steps of a plan are worked on in order.  So a step whose key has a run, or
whose request is on its way, has only finished steps before it, and a finished
step has a run that succeeded.  `Linked` collects what the tables of the plan
service and the kernel say of each other.
-/

namespace ChipEvolve.Plans

def StepRow.key (s : StepRow) : String := idempotencyKey s.planId s.stepId

/-! ## The steps of a valid request -/

theorem not_of_refuseIf {p : Prop} [Decidable p] {message : String}
    (h : refuseIf p message = .ok ()) : ¬p := by
  unfold refuseIf at h
  split at h
  · cases h
  · assumption

theorem validateSteps_ok {taskError : JsonObject → Option String} {seen : List StepId}
    {steps : List StepRequest} (h : validateSteps taskError seen steps = .ok ()) :
    (steps.map StepRequest.stepId).Nodup ∧ ∀ s ∈ steps, s.stepId ∉ seen := by
  induction steps generalizing seen with
  | nil => simp
  | cons step steps ih =>
      obtain ⟨_, h⟩ := Validated.of_bind h
      obtain ⟨hseen, h⟩ := Validated.of_bind h
      dsimp only at h
      split at h
      · cases h
      obtain ⟨_, h⟩ := Validated.of_bind h
      obtain ⟨_, h⟩ := Validated.of_bind h
      obtain ⟨hnodup, hnew⟩ := ih h
      refine ⟨List.nodup_cons.mpr ⟨?_, hnodup⟩, ?_⟩
      · intro hmem
        obtain ⟨s, hs, heq⟩ := List.mem_map.mp hmem
        exact hnew s hs (by simp [heq])
      · intro s hs
        rcases List.mem_cons.mp hs with rfl | hs
        · exact not_of_refuseIf hseen
        · exact fun hmem ↦ hnew s hs (List.mem_append_left _ hmem)

namespace PlanRequest

variable {taskError : JsonObject → Option String} {a : PlanRequest}

theorem planId_of_valid (h : a.validate taskError = .ok ()) : isPlanIdentifier a.planId = true := by
  obtain ⟨hname, _⟩ := Validated.of_bind h
  simpa using not_of_refuseIf hname

theorem stepIds_of_valid (h : a.validate taskError = .ok ()) :
    (a.steps.map StepRequest.stepId).Nodup := by
  obtain ⟨_, h⟩ := Validated.of_bind h
  obtain ⟨_, h⟩ := Validated.of_bind h
  exact (validateSteps_ok h).1

theorem of_mem_stepRows {s : StepRow} (h : s ∈ a.stepRows) :
    s.planId = a.planId ∧ s.status = .queued ∧ s.runId = none := by
  obtain ⟨x, _, rfl⟩ := List.mem_map.mp h
  exact ⟨rfl, rfl, rfl⟩

theorem stepRows_stepId : a.stepRows.map StepRow.stepId = a.steps.map StepRequest.stepId := by
  unfold stepRows
  rw [List.map_map, ← List.zipIdx_map_fst 0 a.steps, List.map_map]
  simp

theorem stepRows_ordinal : a.stepRows.map StepRow.ordinal = List.range a.steps.length := by
  unfold stepRows
  rw [List.map_map]
  exact (List.zipIdx_map_snd 0 a.steps).trans (List.range_eq_range'.symm)

end PlanRequest

/-! ## The steps of a plan -/

structure PlanTables.Sound (t : PlanTables) : Prop where
  owned : ∀ s ∈ t.steps, (t.plan? s.planId).isSome
  named : ∀ s ∈ t.steps, isPlanIdentifier s.planId = true
  stepIds : Table.Unique (fun s : StepRow ↦ (s.planId, s.stepId)) t.steps
  ordinals : Table.Unique (fun s : StepRow ↦ (s.planId, s.ordinal)) t.steps

namespace PlanTables

variable {t t' : PlanTables} {planId : PlanId} {stepId : StepId}

theorem mem_stepsOf {s : StepRow} : s ∈ t.stepsOf planId ↔ s ∈ t.steps ∧ s.planId = planId := by
  unfold stepsOf
  rw [(List.perm_insertionSort _ _).mem_iff]
  simp

theorem stepsOf_sorted :
    (t.stepsOf planId).Pairwise fun a b : StepRow ↦ a.ordinal ≤ b.ordinal := by
  have htotal : Std.Total fun a b : StepRow ↦ a.ordinal ≤ b.ordinal := ⟨fun a b ↦ by omega⟩
  have htrans : IsTrans StepRow fun a b ↦ a.ordinal ≤ b.ordinal := ⟨fun a b c ↦ by omega⟩
  exact List.pairwise_insertionSort _ _

theorem Sound.eq_of_key (h : t.Sound) {s u : StepRow} (hs : s ∈ t.steps) (hu : u ∈ t.steps)
    (hkey : s.key = u.key) : s = u := by
  obtain ⟨hplan, hstep⟩ := idempotencyKey_inj (h.named s hs) (h.named u hu) hkey
  exact h.stepIds.eq_of_key hs hu (Prod.ext hplan hstep)

theorem Sound.nodup_stepsOf (h : t.Sound) (planId : PlanId) :
    ((t.stepsOf planId).map StepRow.stepId).Nodup := by
  unfold stepsOf
  rw [((List.perm_insertionSort _ _).map _).nodup_iff]
  have hpairs := h.stepIds.sublist
    ((List.filter_sublist (p := fun s : StepRow ↦ decide (s.planId = planId))).map
      fun s : StepRow ↦ (s.planId, s.stepId))
  refine List.Nodup.of_map (fun stepId ↦ (planId, stepId)) ?_
  rw [List.map_map]
  convert hpairs using 1
  refine List.map_congr_left fun s hs ↦ ?_
  have hplan : s.planId = planId := by simpa using (List.mem_filter.mp hs).2
  simp [hplan]

/-- No step of that name has finished. -/
def Unfinished (t : PlanTables) (planId : PlanId) (stepId : StepId) : Prop :=
  ∀ s ∈ t.steps, s.planId = planId → s.stepId = stepId → s.status ≠ .succeeded

theorem Sound.unfinished (h : t.Sound) {s : StepRow} (hs : s ∈ t.stepsOf planId)
    (hstatus : s.status ≠ .succeeded) : t.Unfinished planId s.stepId := by
  intro u hu hplan hstep
  obtain ⟨hmem, hs⟩ := mem_stepsOf.mp hs
  have heq : u = s := h.stepIds.eq_of_key hu hmem (by simp [hplan, hs, hstep])
  exact heq ▸ hstatus

end PlanTables

/-- The executor works on the plan as it is stored, at its first unfinished step. -/
structure Plan.At (t : PlanTables) (plan : Plan) (step : StepRow) : Prop where
  steps : plan.steps = t.stepsOf plan.planId
  pending : plan.pending? = some step

namespace Plan.At

variable {t : PlanTables} {plan : Plan} {step : StepRow}

theorem mem (h : plan.At t step) : step ∈ t.stepsOf plan.planId :=
  h.steps ▸ List.mem_of_find?_eq_some h.pending

theorem unfinished (h : plan.At t step) : step.status ≠ .succeeded := by
  simpa using List.find?_some h.pending

/-- The steps before the first unfinished one have finished. -/
theorem finished (h : plan.At t step) {s : StepRow} (hs : s ∈ t.stepsOf plan.planId)
    (hbefore : s.ordinal < step.ordinal) : s.status = .succeeded := by
  obtain ⟨_, done, todo, hsplit, hdone⟩ := List.find?_eq_some_iff_append.mp h.pending
  rw [h.steps] at hsplit
  rw [hsplit] at hs
  rcases List.mem_append.mp hs with hs | hs
  · simpa using hdone s hs
  · have hsorted : (done ++ step :: todo).Pairwise fun a b : StepRow ↦ a.ordinal ≤ b.ordinal :=
      hsplit ▸ PlanTables.stepsOf_sorted
    have hafter : step.ordinal ≤ s.ordinal := by
      rcases List.mem_cons.mp hs with rfl | hs
      · exact Nat.le_refl _
      · exact List.rel_of_pairwise_cons (List.pairwise_append.mp hsorted).2.1 hs
    omega

end Plan.At

/-! ## What a write does to a step -/

namespace Write

/-- The step that a write is about. -/
def stepId? : Write → Option StepId
  | submitted stepId _ => some stepId
  | step stepId _ _ => some stepId
  | _ => none

def onStep (planId : PlanId) (write : Write) (s : StepRow) : StepRow :=
  if s.planId = planId ∧ write.stepId? = some s.stepId then
    match write with
    | submitted _ runId => { s with status := .queued, failure := none, runId := some runId }
    | step _ status failure =>
        { s with status := status, failure := PlanTables.failureColumn failure }
    | _ => s
  else s

variable {t : PlanTables} {write : Write} {planId : PlanId} {s : StepRow}

theorem steps_apply : (write.apply planId t).steps = t.steps.map (write.onStep planId) := by
  cases write with
  | submitted stepId | step stepId =>
      refine List.map_congr_left fun s _ ↦ ?_
      by_cases h : s.planId = planId ∧ s.stepId = stepId
      · simp [onStep, stepId?, h.1, h.2]
      · have h' : ¬(s.planId = planId ∧ stepId = s.stepId) := fun ⟨hp, hs⟩ ↦ h ⟨hp, hs.symm⟩
        simp [onStep, stepId?, h, h']
  | finish | retryWait =>
      exact (List.map_id'' (fun s ↦ ite_self s) t.steps).symm

@[simp] theorem onStep_planId : (write.onStep planId s).planId = s.planId := by
  unfold onStep
  split <;> [cases write <;> rfl; rfl]

@[simp] theorem onStep_stepId : (write.onStep planId s).stepId = s.stepId := by
  unfold onStep
  split <;> [cases write <;> rfl; rfl]

@[simp] theorem onStep_ordinal : (write.onStep planId s).ordinal = s.ordinal := by
  unfold onStep
  split <;> [cases write <;> rfl; rfl]

@[simp] theorem onStep_key : (write.onStep planId s).key = s.key := by
  simp [StepRow.key]

end Write

/-! ## Tables and kernel -/

/-- What the tables of the plan service and the kernel say of each other. -/
structure Linked (t : PlanTables) (k : Kernel) : Prop where
  sound : t.Sound
  wellFormed : k.WellFormed
  known : ∀ key, k.Keyed key → ∃ s ∈ t.steps, s.key = key
  linked : ∀ s ∈ t.steps, ∀ runId, s.runId = some runId →
    ∃ run, k.runOf? s.key = some run ∧ run.runId = runId
  done : ∀ s ∈ t.steps, s.status = .succeeded →
    ∃ run, k.runOf? s.key = some run ∧ run.status = .succeeded
  inOrder : ∀ s ∈ t.steps, k.Keyed s.key → ∀ u ∈ t.steps, u.planId = s.planId →
    u.ordinal < s.ordinal → u.status = .succeeded

/-- What a write relies on. -/
def Write.Sound (t : PlanTables) (k : Kernel) (planId : PlanId) : Write → Prop
  | submitted stepId runId =>
      (∃ run, k.runOf? (idempotencyKey planId stepId) = some run ∧ run.runId = runId) ∧
        t.Unfinished planId stepId
  | step stepId status _ =>
      (status = .succeeded → ∃ run, k.runOf? (idempotencyKey planId stepId) = some run ∧
        run.status = .succeeded) ∧
        (status ≠ .succeeded → t.Unfinished planId stepId)
  | _ => True

namespace Write

variable {t : PlanTables} {k k' : Kernel} {write : Write} {planId : PlanId} {s : StepRow}

theorem Sound.runId (h : write.Sound t k planId) {runId : RunId}
    (hrun : (write.onStep planId s).runId = some runId) :
    s.runId = some runId ∨ ∃ run, k.runOf? s.key = some run ∧ run.runId = runId := by
  unfold onStep at hrun
  split at hrun
  · rename_i htarget
    obtain ⟨hplan, hstep⟩ := htarget
    cases write with
    | submitted stepId newId =>
        obtain rfl : newId = runId := by simpa using hrun
        obtain rfl : stepId = s.stepId := by simpa [stepId?] using hstep
        subst hplan
        exact .inr h.1
    | step | finish | retryWait => exact .inl hrun
  · exact .inl hrun

theorem Sound.succeeded (h : write.Sound t k planId)
    (hstatus : (write.onStep planId s).status = .succeeded) :
    s.status = .succeeded ∨ ∃ run, k.runOf? s.key = some run ∧ run.status = .succeeded := by
  unfold onStep at hstatus
  split at hstatus
  · rename_i htarget
    obtain ⟨hplan, hstep⟩ := htarget
    cases write with
    | submitted => cases hstatus
    | step stepId status =>
        obtain rfl : stepId = s.stepId := by simpa [stepId?] using hstep
        subst hplan
        exact .inr (h.1 hstatus)
    | finish | retryWait => exact .inl hstatus
  · exact .inl hstatus

/-- A finished step stays finished. -/
theorem Sound.stays (h : write.Sound t k planId) (hs : s ∈ t.steps)
    (hstatus : s.status = .succeeded) : (write.onStep planId s).status = .succeeded := by
  unfold onStep
  split
  · rename_i htarget
    obtain ⟨hplan, hstep⟩ := htarget
    cases write with
    | submitted stepId =>
        obtain rfl : stepId = s.stepId := by simpa [stepId?] using hstep
        exact absurd hstatus (h.2 s hs hplan rfl)
    | step stepId status =>
        obtain rfl : stepId = s.stepId := by simpa [stepId?] using hstep
        by_contra hne
        exact h.2 hne s hs hplan rfl hstatus
    | finish | retryWait => exact hstatus
  · exact hstatus

end Write

namespace Linked

variable {s : Service} {t t' : PlanTables} {k k' : Kernel}

theorem empty : Linked {} {} where
  sound := ⟨by simp, by simp, List.nodup_nil, List.nodup_nil⟩
  wellFormed := ⟨List.nodup_nil, List.nodup_nil⟩
  known key h := by simp [Kernel.Keyed, Kernel.runOf?, Table.get?] at h
  linked _ h := by cases h
  done _ h := by cases h
  inOrder _ h := by cases h

theorem follows (h : Linked t k) {created : Option String} (hk : Kernel.Follows created k k') :
    Linked t k' where
  sound := h.sound
  wellFormed := hk.wellFormed h.wellFormed
  known key hkey := h.known key ((hk.keyed key).mp hkey)
  linked s hs runId hrunId := by
    obtain ⟨run, hrun, rfl⟩ := h.linked s hs runId hrunId
    obtain ⟨run', hrun', hid, _⟩ := hk.kept _ run hrun
    exact ⟨run', hrun', hid⟩
  done s hs hstatus := hk.succeeded (h.done s hs hstatus)
  inOrder s hs hkey := h.inOrder s hs ((hk.keyed _).mp hkey)

/-- A request is sent for the first unfinished step. -/
theorem send (h : Linked t k) {plan : Plan} {step : StepRow} (hat : plan.At t step) :
    Linked t (k.send (idempotencyKey plan.planId step.stepId)) := by
  obtain ⟨hmem, hplan⟩ := PlanTables.mem_stepsOf.mp hat.mem
  have hkey : step.key = idempotencyKey plan.planId step.stepId := by simp [StepRow.key, hplan]
  rw [← hkey]
  refine ⟨h.sound, ⟨h.wellFormed.runIds, h.wellFormed.keys⟩, ?_, h.linked, h.done, ?_⟩
  · intro key hkeyed
    rcases Kernel.keyed_send.mp hkeyed with hold | rfl
    · exact h.known key hold
    · exact ⟨step, hmem, rfl⟩
  · intro s hs hkeyed u hu hsame hbefore
    rcases Kernel.keyed_send.mp hkeyed with hold | hnew
    · exact h.inOrder s hs hold u hu hsame hbefore
    · obtain rfl := h.sound.eq_of_key hs hmem hnew
      exact hat.finished (PlanTables.mem_stepsOf.mpr ⟨hu, hsame.trans hplan⟩) hbefore

theorem write (h : Linked t k) {write : Write} {planId : PlanId} (hw : write.Sound t k planId) :
    Linked (write.apply planId t) k := by
  have hsteps : (write.apply planId t).steps = t.steps.map (write.onStep planId) :=
    Write.steps_apply
  refine ⟨⟨?_, ?_, ?_, ?_⟩, h.wellFormed, ?_, ?_, ?_, ?_⟩ <;> rw [hsteps]
  · intro s hs
    obtain ⟨u, hu, rfl⟩ := List.mem_map.mp hs
    exact PlanTables.isSome_plan?_write (by simpa using h.sound.owned u hu)
  · intro s hs
    obtain ⟨u, hu, rfl⟩ := List.mem_map.mp hs
    simpa using h.sound.named u hu
  · exact h.sound.stepIds.map (by simp)
  · exact h.sound.ordinals.map (by simp)
  · intro key hkey
    obtain ⟨u, hu, rfl⟩ := h.known key hkey
    exact ⟨_, List.mem_map_of_mem hu, Write.onStep_key⟩
  · intro s hs runId hrunId
    obtain ⟨u, hu, rfl⟩ := List.mem_map.mp hs
    rw [Write.onStep_key]
    rcases hw.runId hrunId with hold | hnew
    · exact h.linked u hu runId hold
    · exact hnew
  · intro s hs hstatus
    obtain ⟨u, hu, rfl⟩ := List.mem_map.mp hs
    rw [Write.onStep_key]
    rcases hw.succeeded hstatus with hold | hnew
    · exact h.done u hu hold
    · exact hnew
  · intro s hs hkey u hu hsame hbefore
    obtain ⟨s₀, hs₀, rfl⟩ := List.mem_map.mp hs
    obtain ⟨u₀, hu₀, rfl⟩ := List.mem_map.mp hu
    simp only [Write.onStep_key, Write.onStep_planId, Write.onStep_ordinal] at hkey hsame hbefore
    exact hw.stays hu₀ (h.inOrder s₀ hs₀ hkey u₀ hu₀ hsame hbefore)

/-- A new plan has no step yet, and no request was made for one. -/
theorem new (h : Linked t k) {taskError : JsonObject → Option String} {a : PlanRequest}
    (hok : t.createOwned taskError a = .ok t') :
    (∀ s ∈ t.steps, s.planId ≠ a.planId) ∧ ∀ s ∈ a.stepRows, ¬k.Keyed s.key := by
  obtain ⟨hvalid, hnone, _⟩ := PlanTables.createOwned_ok hok
  have hfresh : ∀ s ∈ t.steps, s.planId ≠ a.planId := by
    intro s hs heq
    have hsome := h.sound.owned s hs
    rw [heq, hnone] at hsome
    cases hsome
  refine ⟨hfresh, fun s hs hkeyed ↦ ?_⟩
  obtain ⟨u, hu, hkey⟩ := h.known _ hkeyed
  have hplan := (PlanRequest.of_mem_stepRows hs).1
  obtain ⟨hsame, _⟩ := idempotencyKey_inj (h.sound.named u hu)
    (hplan ▸ PlanRequest.planId_of_valid hvalid) hkey
  exact hfresh u hu (hsame.trans hplan)

theorem sound_create (h : Linked t k) {taskError : JsonObject → Option String} {a : PlanRequest}
    (hok : t.createOwned taskError a = .ok t') : t'.Sound := by
  obtain ⟨hfresh, _⟩ := h.new hok
  have hsome : ∀ q, (t.plan? q).isSome → (t'.plan? q).isSome := fun q hq ↦
    PlanTables.isSome_plan?_create hok hq
  obtain ⟨hvalid, hnone, rfl⟩ := PlanTables.createOwned_ok hok
  have hcolumn : ∀ {γ : Type} (column : StepRow → γ), (a.stepRows.map column).Nodup →
      Table.Unique (fun s ↦ (s.planId, column s)) t.steps →
      Table.Unique (fun s ↦ (s.planId, column s)) (t.steps ++ a.stepRows) := by
    intro γ column hnew hold
    unfold Table.Unique
    rw [List.map_append]
    have hpairs : (a.stepRows.map fun s ↦ (s.planId, column s)).Nodup :=
      List.Nodup.of_map Prod.snd (by simpa [Function.comp_def] using hnew)
    refine List.Nodup.append hold hpairs ?_
    intro x hx hx'
    obtain ⟨s, hs, rfl⟩ := List.mem_map.mp hx
    obtain ⟨u, hu, heq⟩ := List.mem_map.mp hx'
    have hplan : u.planId = s.planId := congrArg Prod.fst heq
    exact hfresh s hs (hplan.symm.trans (PlanRequest.of_mem_stepRows hu).1)
  refine ⟨?_, ?_, ?_, ?_⟩
  · intro s hs
    rcases List.mem_append.mp hs with hs | hs
    · exact hsome _ (h.sound.owned s hs)
    · rw [(PlanRequest.of_mem_stepRows hs).1]
      exact Table.get?_isSome_iff.mpr (by simp [PlanRequest.planRow])
  · intro s hs
    rcases List.mem_append.mp hs with hs | hs
    · exact h.sound.named s hs
    · exact (PlanRequest.of_mem_stepRows hs).1 ▸ PlanRequest.planId_of_valid hvalid
  · refine hcolumn StepRow.stepId ?_ h.sound.stepIds
    rw [PlanRequest.stepRows_stepId]
    exact PlanRequest.stepIds_of_valid hvalid
  · refine hcolumn StepRow.ordinal ?_ h.sound.ordinals
    rw [PlanRequest.stepRows_ordinal]
    exact List.nodup_range

theorem create (h : Linked t k) {taskError : JsonObject → Option String} {a : PlanRequest}
    (hok : t.createOwned taskError a = .ok t') : Linked t' k := by
  obtain ⟨hfresh, hsilent⟩ := h.new hok
  have hsound := h.sound_create hok
  obtain ⟨_, _, rfl⟩ := PlanTables.createOwned_ok hok
  refine ⟨hsound, h.wellFormed, ?_, ?_, ?_, ?_⟩
  · intro key hkey
    obtain ⟨s, hs, hs'⟩ := h.known key hkey
    exact ⟨s, List.mem_append_left _ hs, hs'⟩
  · intro s hs runId hrunId
    rcases List.mem_append.mp hs with hs | hs
    · exact h.linked s hs runId hrunId
    · simp [(PlanRequest.of_mem_stepRows hs).2.2] at hrunId
  · intro s hs hstatus
    rcases List.mem_append.mp hs with hs | hs
    · exact h.done s hs hstatus
    · simp [(PlanRequest.of_mem_stepRows hs).2.1] at hstatus
  · intro s hs hkey u hu hsame hbefore
    rcases List.mem_append.mp hs with hs | hs
    · rcases List.mem_append.mp hu with hu | hu
      · exact h.inOrder s hs hkey u hu hsame hbefore
      · exact absurd (hsame.symm.trans (PlanRequest.of_mem_stepRows hu).1) (hfresh s hs)
    · exact absurd hkey (hsilent s hs)

end Linked

end ChipEvolve.Plans
