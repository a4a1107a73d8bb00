import ChipEvolve.Plan.Turns

/-!
# The plans of a cycle

Only the executor ends plans, and it ends the one it is at with its last write.
So a plan that is still ahead of it in the cycle has not ended, whatever users
and the kernel do meanwhile.
-/

namespace ChipEvolve.Plans

open Machine

/-! ## Statuses after a write -/

namespace PlanTables

variable {t : PlanTables} {planId q : PlanId}

theorem status?_updatePlan {status : RuntimeStatus} {failure : Option JsonObject} :
    (t.updatePlan planId status failure).status? q =
      (t.status? q).map fun old ↦ if q = planId then status else old := by
  unfold status? plan? updatePlan Table.update
  rw [Table.get?_map (by intro r; split <;> rfl), Option.map_map, Option.map_map]
  cases h : Table.get? PlanRow.planId q t.plans with
  | none => rfl
  | some row =>
      have hkey : row.planId = q := Table.key_of_get? h
      by_cases hq : q = planId <;> simp [hkey, hq]

theorem status?_submitted {stepId : StepId} {runId : RunId} :
    (t.submitted planId stepId runId).status? q =
      (t.status? q).map fun old ↦
        if q = planId ∧ old ≠ .cancelRequested then .running else old := by
  unfold status? plan? submitted Table.update
  rw [Table.get?_map (by intro r; split <;> rfl), Option.map_map, Option.map_map]
  cases h : Table.get? PlanRow.planId q t.plans with
  | none => rfl
  | some row =>
      have hkey : row.planId = q := Table.key_of_get? h
      by_cases hq : q = planId <;> by_cases hcancel : row.status = .cancelRequested <;>
        simp [hkey, hq, hcancel]

theorem createOwned_ok {taskError : JsonObject → Option String} {a : PlanRequest}
    {t' : PlanTables} (h : t.createOwned taskError a = .ok t') :
    a.validate taskError = .ok () ∧ t.plan? a.planId = none ∧
      t' = { plans := t.plans ++ [a.planRow], steps := t.steps ++ a.stepRows } := by
  unfold createOwned at h
  split at h
  · cases h
  · rename_i hvalid
    split at h
    · cases h
    · rename_i hnone
      exact ⟨hvalid, by simpa using hnone, (Except.ok.inj h).symm⟩

/-- A plan keeps its status when another is created, and the new one is queued. -/
theorem status?_create {taskError : JsonObject → Option String} {a : PlanRequest}
    {t' : PlanTables} (h : t.createOwned taskError a = .ok t') :
    (∀ status, t.status? q = some status → t'.status? q = some status) ∧
      ∀ status, t'.status? q = some status → t.status? q = some status ∨ status = .queued := by
  obtain ⟨_, _, rfl⟩ := createOwned_ok h
  unfold status? plan?
  rw [Table.get?_append]
  cases hold : Table.get? PlanRow.planId q t.plans with
  | some row => simp
  | none =>
      refine ⟨by simp, fun status hstatus ↦ .inr ?_⟩
      rw [Option.none_or] at hstatus
      obtain ⟨row, hrow, rfl⟩ := Option.map_eq_some_iff.mp hstatus
      obtain rfl := List.mem_singleton.mp (Table.mem_of_get? hrow)
      rfl

end PlanTables

/-! ## The writes of one plan -/

/-- A terminal status is written last. -/
def Orderly : List Write → Prop
  | [] => True
  | .finish status _ :: writes => status.isTerminal = true ∧ writes = []
  | _ :: writes => Orderly writes

theorem orderly_cancelSteps {steps : List StepRow} {writes : List Write} (h : Orderly writes) :
    Orderly (Plan.cancelSteps steps ++ writes) := by
  induction steps with
  | nil => exact h
  | cons s steps ih => exact ih

theorem terminal_of_failed {status : RuntimeStatus} :
    (if status ∈ failedStatuses then status else .failed).isTerminal = true := by
  cases status <;> decide

theorem Plan.orderly_afterRun (str : Json → String) (plan : Plan) (step : StepRow)
    (detail : RunDetail) : Orderly (plan.afterRun str step detail) := by
  unfold afterRun
  split
  · trivial
  · split
    · split
      · exact ⟨rfl, rfl⟩
      · trivial
    · exact ⟨terminal_of_failed, rfl⟩

theorem Plan.orderly_drop (plan : Plan) : Orderly plan.drop :=
  orderly_cancelSteps ⟨rfl, rfl⟩

theorem Plan.orderly_afterCancel (str : Json → String) (plan : Plan) (step : StepRow)
    (detail : RunDetail) : Orderly (plan.afterCancel str step detail) := by
  unfold afterCancel
  split
  · trivial
  · split
    · show Orderly (cancelSteps _ ++ [.finish _ none])
      refine orderly_cancelSteps ⟨?_, rfl⟩
      split <;> rfl
    · split
      · exact ⟨terminal_of_failed, rfl⟩
      · exact plan.orderly_drop

/-! ## The plans ahead -/

/-- The plans of the cycle that the executor has not ended yet. -/
def Executor.ahead : Executor → List PlanId
  | idle => []
  | cycling rest => rest
  | advancing planId rest => planId :: rest
  | binding plan _ _ _ rest => plan.planId :: rest
  | submitting plan _ _ rest => plan.planId :: rest
  | polling plan _ _ rest => plan.planId :: rest
  | cancelling plan _ _ rest => plan.planId :: rest
  | checking plan _ _ rest => plan.planId :: rest
  | writing _ _ [] rest => rest
  | writing _ planId (_ :: _) rest => planId :: rest

/-- What holds of the plans whatever the kernel answers. -/
structure World.Steady (w : World) : Prop where
  planIds : Table.Unique PlanRow.planId w.store.plans
  distinct : w.executor.ahead.Nodup
  live : ∀ planId ∈ w.executor.ahead, ∀ status, w.store.status? planId = some status →
    status.isTerminal = false
  orderly : ∀ cause planId writes rest, w.executor = .writing cause planId writes rest →
    Orderly writes

namespace Executor

variable {s : Service} {w : World} {ex ex' : Executor}

theorem ahead_start (plan : Plan) (rest : List PlanId) :
    (start plan rest).ahead = plan.planId :: rest := by
  unfold start
  split
  · rfl
  · split
    · rfl
    · unfold Plan.drop
      cases h : Plan.cancelSteps (plan.steps.filter fun s ↦ s.status ≠ .succeeded) <;> rfl
  · rfl
  · split <;> rfl

theorem ahead_bind (plan : Plan) (step : StepRow) (b : Binding) (bindings : List Binding)
    (staged : List Json) (rest : List PlanId) (items : List Artifact) :
    (bind plan step b bindings staged rest items).ahead = plan.planId :: rest := by
  unfold bind
  split <;> rfl

theorem ahead_calling {planId : PlanId} {rest : List PlanId}
    (h : ex.calling? = some (planId, rest)) : ex.ahead = planId :: rest := by
  unfold calling? at h
  split at h <;> cases h <;> rfl

theorem ahead_writing (cause : Cause) (planId : PlanId) (writes : List Write)
    (rest : List PlanId) :
    List.Sublist (writing cause planId writes rest).ahead (planId :: rest) := by
  cases writes with
  | nil => exact List.sublist_cons_self planId rest
  | cons => exact List.Sublist.refl _

/-- The executor takes plans off the cycle and adds none. -/
theorem Moves.ahead_sublist (h : ex.Moves s w ex') : List.Sublist ex'.ahead ex.ahead := by
  cases h with
  | endCycle | enter | unknown | done => exact List.Sublist.refl _
  | skip => exact List.sublist_cons_self _ _
  | read hplan =>
      obtain ⟨row, _, rfl⟩ := Option.map_eq_some_iff.mp hplan
      rw [ahead_start]
      exact List.Sublist.refl _
  | bound =>
      rw [ahead_bind]
      exact List.Sublist.refl _
  | polled | checked => exact ahead_writing _ _ _ _
  | refused hcalling | unavailable hcalling =>
      rw [ahead_calling hcalling]
      exact List.Sublist.refl _

theorem orderly_start {plan : Plan} {rest rest' : List PlanId} {cause : Cause} {planId : PlanId}
    {writes : List Write} (h : start plan rest = writing cause planId writes rest') :
    Orderly writes := by
  unfold start at h
  split at h
  · cases h
    refine ⟨?_, rfl⟩
    split <;> rfl
  · split at h <;> cases h
    exact plan.orderly_drop
  · cases h
    exact ⟨rfl, rfl⟩
  · split at h <;> cases h

theorem orderly_bind {plan : Plan} {step : StepRow} {b : Binding} {bindings : List Binding}
    {staged : List Json} {rest rest' : List PlanId} {items : List Artifact} {cause : Cause}
    {planId : PlanId} {writes : List Write}
    (h : bind plan step b bindings staged rest items = writing cause planId writes rest') :
    Orderly writes := by
  unfold bind at h
  split at h <;> cases h
  exact ⟨rfl, rfl⟩

theorem Moves.orderly (h : ex.Moves s w ex') {cause : Cause} {planId : PlanId}
    {writes : List Write} {rest : List PlanId} (hex : ex' = writing cause planId writes rest) :
    Orderly writes := by
  cases h with
  | endCycle | skip | enter | done => cases hex
  | read => exact orderly_start hex
  | bound => exact orderly_bind hex
  | polled =>
      cases hex
      exact Plan.orderly_afterRun _ _ _ _
  | checked =>
      cases hex
      exact Plan.orderly_afterCancel _ _ _ _
  | unknown | refused =>
      cases hex
      exact ⟨rfl, rfl⟩
  | unavailable =>
      cases hex
      trivial

end Executor

/-! ## One write -/

theorem Orderly.tail {write : Write} {writes : List Write} (h : Orderly (write :: writes)) :
    Orderly writes := by
  cases write with
  | finish => rw [h.2]; trivial
  | _ => exact h

namespace Write

variable {t : PlanTables} {write : Write} {planId q : PlanId} {status : RuntimeStatus}

theorem status?_other (hq : q ≠ planId) : (write.apply planId t).status? q = t.status? q := by
  cases write with
  | submitted => simp [apply, PlanTables.status?_submitted, hq]
  | step => rfl
  | finish | retryWait => simp [apply, PlanTables.status?_updatePlan, hq]

/-- A write that is not the last leaves a plan that has not ended so. -/
theorem live_apply (hlast : ∀ status failure, write ≠ .finish status failure)
    (h : ∀ status, t.status? q = some status → status.isTerminal = false)
    (hstatus : (write.apply planId t).status? q = some status) : status.isTerminal = false := by
  cases write with
  | submitted =>
      rw [apply, PlanTables.status?_submitted] at hstatus
      obtain ⟨old, hold, rfl⟩ := Option.map_eq_some_iff.mp hstatus
      split
      · rfl
      · exact h old hold
  | step => exact h status hstatus
  | finish => exact absurd rfl (hlast _ _)
  | retryWait =>
      rw [apply, PlanTables.status?_updatePlan] at hstatus
      obtain ⟨old, hold, rfl⟩ := Option.map_eq_some_iff.mp hstatus
      split
      · rfl
      · exact h old hold

theorem planIds (h : Table.Unique PlanRow.planId t.plans) :
    Table.Unique PlanRow.planId (write.apply planId t).plans := by
  cases write with
  | submitted | finish | retryWait =>
      exact h.map fun r ↦ by split <;> rfl
  | step => exact h

end Write

theorem PlanTables.nodup_active {t : PlanTables} (h : Table.Unique PlanRow.planId t.plans) :
    t.active.Nodup := by
  unfold active
  rw [((List.perm_insertionSort _ _).map _).nodup_iff]
  exact (List.filter_sublist.map _).nodup h

theorem PlanTables.live_of_active {t : PlanTables} (h : Table.Unique PlanRow.planId t.plans)
    {planId : PlanId} (hactive : planId ∈ t.active) {status : RuntimeStatus}
    (hstatus : t.status? planId = some status) : status.isTerminal = false := by
  unfold active at hactive
  rw [((List.perm_insertionSort _ _).map _).mem_iff] at hactive
  obtain ⟨row, hrow, rfl⟩ := List.mem_map.mp hactive
  obtain ⟨hmem, hlisted⟩ := List.mem_filter.mp hrow
  have hget : t.plan? row.planId = some row := h.get? hmem
  obtain rfl : row.status = status := by simpa [status?, hget] using hstatus
  cases hrow : row.status <;> simp_all <;> rfl

/-! ## Every world is steady -/

namespace World.Steady

variable {s : Service} {w w' : World} {ev : Event}

theorem empty : World.Steady {} where
  planIds := List.nodup_nil
  distinct := List.nodup_nil
  live _ h := by cases h
  orderly _ _ _ _ h := by cases h

theorem create (h : w.Steady) {a : PlanRequest} {store : PlanTables}
    (hok : w.store.createOwned s.taskError a = .ok store) :
    World.Steady { w with store := store } := by
  obtain ⟨_, hnone, rfl⟩ := PlanTables.createOwned_ok hok
  refine ⟨?_, h.distinct, ?_, h.orderly⟩
  · exact h.planIds.append (Table.get?_eq_none_iff.mp hnone)
  · intro planId hahead status hstatus
    rcases (PlanTables.status?_create hok).2 status hstatus with hold | rfl
    · exact h.live planId hahead status hold
    · rfl

theorem write (h : w.Steady) {cause : Cause} {planId : PlanId} {write : Write}
    {writes : List Write} {rest : List PlanId}
    (hex : w.executor = .writing cause planId (write :: writes) rest) :
    World.Steady
      { w with
        store := write.apply planId w.store
        executor := .writing cause planId writes rest } := by
  have hdistinct := h.distinct
  have hlive := h.live
  have horderly := h.orderly cause planId _ rest hex
  simp only [hex, Executor.ahead] at hdistinct hlive
  have hsub := Executor.ahead_writing cause planId writes rest
  refine ⟨Write.planIds h.planIds, hsub.nodup hdistinct, ?_, ?_⟩
  · intro q hq status hstatus
    have hold := hlive q (hsub.subset hq)
    by_cases hne : q = planId
    · subst hne
      refine Write.live_apply ?_ hold hstatus
      rintro status failure rfl
      obtain ⟨_, rfl⟩ := horderly
      exact (List.nodup_cons.mp hdistinct).1 hq
    · rw [Write.status?_other hne] at hstatus
      exact hold status hstatus
  · intro cause' planId' writes' rest' heq
    cases heq
    exact horderly.tail

theorem step (h : w.Steady) (hstep : w.step s ev = some w') : w'.Steady := by
  have hturn := step_turn hstep
  cases hturn with
  | outside => exact ⟨h.planIds, h.distinct, h.live, h.orderly⟩
  | create hok => exact h.create hok
  | confirm =>
      refine ⟨?_, h.distinct, ?_, h.orderly⟩
      · exact h.planIds.map fun r ↦ by split <;> rfl
      · intro q hq status hstatus
        rw [PlanTables.status?_updatePlan] at hstatus
        obtain ⟨old, hold, rfl⟩ := Option.map_eq_some_iff.mp hstatus
        split
        · rfl
        · exact h.live q hq old hold
  | wake =>
      refine ⟨h.planIds, PlanTables.nodup_active h.planIds, ?_, by simp⟩
      exact fun q hq status hstatus ↦ PlanTables.live_of_active h.planIds hq hstatus
  | restart => exact ⟨h.planIds, List.nodup_nil, by simp [Executor.ahead], by simp⟩
  | moves hmoves =>
      have hsub := hmoves.ahead_sublist
      refine ⟨h.planIds, hsub.nodup h.distinct, fun q hq ↦ h.live q (hsub.subset hq), ?_⟩
      exact fun cause planId writes rest hwriting ↦ hmoves.orderly hwriting
  | send hex | cancel hex =>
      have hdistinct := h.distinct
      have hlive := h.live
      rw [hex] at hdistinct hlive
      exact ⟨h.planIds, hdistinct, hlive, by simp⟩
  | write hex => exact h.write hex
  | accept hex =>
      have hdistinct := h.distinct
      have hlive := h.live
      rw [hex] at hdistinct hlive
      refine ⟨h.planIds, hdistinct, hlive, ?_⟩
      intro cause planId writes rest hwriting
      cases hwriting
      trivial

theorem of_reachable {guard : World → Event → Prop}
    (h : ReachableBy (World.step s) guard {} w) : w.Steady :=
  h.invariant empty fun _ _ _ hw _ hstep ↦ hw.step hstep

end World.Steady

end ChipEvolve.Plans
