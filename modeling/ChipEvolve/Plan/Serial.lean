import ChipEvolve.Plan.Exchange

/-!
# Plans go step by step

A step gets a run only when the steps before it have succeeded, keeps the run it
got, and a plan is written down as succeeded only when all its steps are.  The
first two follow from what the tables and the kernel say of each other; for the
third the executor's pending writes must contain the successes that are missing.
-/

namespace ChipEvolve.Plans

open Machine

/-! ## Completed plans -/

namespace PlanTables

def AllSucceeded (t : PlanTables) (planId : PlanId) : Prop :=
  ∀ s ∈ t.steps, s.planId = planId → s.status = .succeeded

/-- The writes contain the success of every step of the plan that has not succeeded. -/
def CompletedBy (t : PlanTables) (planId : PlanId) (writes : List Write) : Prop :=
  ∀ s ∈ t.steps, s.planId = planId →
    s.status = .succeeded ∨ ∃ failure, .step s.stepId .succeeded failure ∈ writes

end PlanTables

/-- The executor writes that a plan has succeeded only with the successes that are missing. -/
def Executor.Completing (t : PlanTables) : Executor → Prop
  | writing _ planId writes _ => ∀ failure, .finish .succeeded failure ∈ writes →
      (t.plan? planId).isSome ∧ t.CompletedBy planId writes
  | _ => True

structure World.Complete (w : World) : Prop where
  plans : ∀ planId, w.store.status? planId = some .succeeded → w.store.AllSucceeded planId
  executor : w.executor.Completing w.store

section Moves

variable {t : PlanTables} {plan : Plan} {step : StepRow} {rest : List PlanId}

theorem failed_ne_succeeded (status : RuntimeStatus) :
    (if status ∈ failedStatuses then status else .failed) ≠ .succeeded := by
  cases status <;> decide

theorem Plan.At.isSome_plan? (hat : plan.At t step) (h : t.Sound) :
    (t.plan? plan.planId).isSome := by
  obtain ⟨hmem, hplan⟩ := PlanTables.mem_stepsOf.mp hat.mem
  exact hplan ▸ h.owned step hmem

/-- When every step but one has succeeded, the success of that one completes the plan. -/
theorem Plan.At.completedBy (hat : plan.At t step) {writes : List Write}
    (hothers : ∀ s ∈ plan.steps, s.status = .succeeded ∨ s.stepId = step.stepId)
    {failure : Option JsonObject} (hmem : .step step.stepId .succeeded failure ∈ writes) :
    t.CompletedBy plan.planId writes := by
  intro s hs hplan
  have hs' : s ∈ plan.steps := hat.steps ▸ PlanTables.mem_stepsOf.mpr ⟨hs, hplan⟩
  rcases hothers s hs' with hdone | heq
  · exact .inl hdone
  · exact .inr ⟨failure, heq ▸ hmem⟩

theorem completing_afterRun (str : Json → String) (h : t.Sound) (hat : plan.At t step)
    (detail : RunDetail) (cause : Cause) :
    (Executor.writing cause plan.planId (plan.afterRun str step detail) rest).Completing t := by
  intro failure hfinish
  refine ⟨hat.isSome_plan? h, ?_⟩
  unfold Plan.afterRun at hfinish ⊢
  split at hfinish
  · simp at hfinish
  · split at hfinish
    · rename_i hactive hdone
      rw [if_neg hactive, if_pos hdone]
      split at hfinish
      · rename_i hall
        refine hat.completedBy (fun s hs ↦ ?_) List.mem_cons_self
        simpa using List.all_eq_true.mp hall s hs
      · simp at hfinish
    · simp only [List.mem_cons, reduceCtorEq, Write.finish.injEq, false_or, List.not_mem_nil,
        or_false] at hfinish
      exact absurd hfinish.1.symm (failed_ne_succeeded _)

theorem completing_afterCancel (str : Json → String) (h : t.Sound) (hat : plan.At t step)
    (detail : RunDetail) (cause : Cause) :
    (Executor.writing cause plan.planId (plan.afterCancel str step detail) rest).Completing t := by
  intro failure hfinish
  refine ⟨hat.isSome_plan? h, ?_⟩
  have hcancelSteps : ∀ steps, Write.finish .succeeded failure ∉ Plan.cancelSteps steps := by
    intro steps hmem
    obtain ⟨_, _, hstep⟩ := mem_cancelSteps hmem
    cases hstep
  unfold Plan.afterCancel at hfinish ⊢
  split at hfinish
  · simp at hfinish
  · split at hfinish
    · rename_i hactive hdone
      rw [if_neg hactive, if_pos hdone]
      refine hat.completedBy (fun s hs ↦ ?_) List.mem_cons_self
      simp [hcancelSteps] at hfinish
      by_cases heq : s.stepId = step.stepId
      · exact .inr heq
      · exact .inl (hfinish.1 s hs heq)
    · split at hfinish
      · simp only [List.mem_cons, reduceCtorEq, Write.finish.injEq, false_or, List.not_mem_nil,
          or_false] at hfinish
        exact absurd hfinish.1.symm (failed_ne_succeeded _)
      · simp [Plan.drop, hcancelSteps] at hfinish

theorem completing_start (hplan : (t.plan? plan.planId).isSome)
    (hsteps : plan.steps = t.stepsOf plan.planId) : (Executor.start plan rest).Completing t := by
  have hdone : plan.pending? = none → ∀ writes, t.CompletedBy plan.planId writes := by
    intro hpending writes s hs hs'
    refine .inl ?_
    simpa using List.find?_eq_none.mp hpending s (hsteps ▸ PlanTables.mem_stepsOf.mpr ⟨hs, hs'⟩)
  unfold Executor.start
  split
  · rename_i hpending
    exact fun _ _ ↦ ⟨hplan, hdone hpending _⟩
  · split
    · trivial
    · intro failure hfinish
      rcases List.mem_append.mp hfinish with hmem | hmem
      · obtain ⟨_, _, hstep⟩ := mem_cancelSteps hmem
        cases hstep
      · simp at hmem
  · rename_i hpending _
    exact fun _ _ ↦ ⟨hplan, hdone hpending _⟩
  · split <;> trivial

theorem Executor.Moves.completing {s : Service} {w : World} {ex ex' : Executor}
    (hmoves : ex.Moves s w ex') (h : Linked w.store w.kernel)
    (hwired : ex.Wired w.store w.kernel) : ex'.Completing w.store := by
  cases hmoves with
  | endCycle | skip | enter | done => trivial
  | read hplan =>
      refine completing_start ?_ (PlanTables.steps_of_get? hplan)
      obtain ⟨row, hrow, rfl⟩ := Option.map_eq_some_iff.mp hplan
      exact Option.isSome_iff_exists.mpr ⟨row, hrow⟩
  | unknown | refused | unavailable => exact fun _ hfinish ↦ by simp at hfinish
  | bound =>
      unfold Executor.bind
      split
      · trivial
      · exact fun _ hfinish ↦ by simp at hfinish
  | polled => exact completing_afterRun s.str h.sound hwired.1 _ _
  | checked => exact completing_afterCancel s.str h.sound hwired.1 _ _

end Moves

/-! ## One write -/

section Store

variable {t : PlanTables} {k : Kernel} {planId q : PlanId} {write : Write} {writes : List Write}

theorem PlanTables.AllSucceeded.apply (h : t.AllSucceeded q) (hw : write.Sound t k planId) :
    (write.apply planId t).AllSucceeded q := by
  intro s hs hplan
  rw [Write.steps_apply] at hs
  obtain ⟨u, hu, rfl⟩ := List.mem_map.mp hs
  exact hw.stays hu (h u hu (Write.onStep_planId.symm.trans hplan))

/-- What one write did not complete is left to the others. -/
theorem PlanTables.CompletedBy.apply (h : t.CompletedBy planId (write :: writes))
    (hw : write.Sound t k planId) : (write.apply planId t).CompletedBy planId writes := by
  intro s hs hplan
  rw [Write.steps_apply] at hs
  obtain ⟨u, hu, rfl⟩ := List.mem_map.mp hs
  have hown : u.planId = planId := Write.onStep_planId.symm.trans hplan
  rcases h u hu hown with hdone | ⟨failure, hmem⟩
  · exact .inl (hw.stays hu hdone)
  · rcases List.mem_cons.mp hmem with rfl | hmem
    · exact .inl (by simp [Write.onStep, Write.stepId?, hown])
    · exact .inr ⟨failure, by rwa [Write.onStep_stepId]⟩

/-- A plan is written down as succeeded by the last write, after all its steps. -/
theorem allSucceeded_of_status?_write (hw : write.Sound t k planId)
    (horderly : Orderly (write :: writes))
    (hplans : t.status? q = some .succeeded → t.AllSucceeded q)
    (hcompletes : ∀ failure, .finish .succeeded failure ∈ write :: writes →
      t.CompletedBy planId (write :: writes))
    (hstatus : (write.apply planId t).status? q = some .succeeded) : t.AllSucceeded q := by
  by_cases hq : q = planId
  · subst hq
    cases write with
    | submitted =>
        rw [Write.apply, PlanTables.status?_submitted] at hstatus
        obtain ⟨old, hold, hnew⟩ := Option.map_eq_some_iff.mp hstatus
        split at hnew
        · cases hnew
        · exact hplans (hnew ▸ hold)
    | step => exact hplans hstatus
    | finish status failure =>
        rw [Write.apply, PlanTables.status?_updatePlan] at hstatus
        obtain ⟨old, _, hnew⟩ := Option.map_eq_some_iff.mp hstatus
        rw [if_pos rfl] at hnew
        obtain ⟨_, rfl⟩ := horderly
        subst hnew
        intro s hs hplan
        rcases hcompletes failure List.mem_cons_self s hs hplan with hdone | ⟨_, hmem⟩
        · exact hdone
        · simp at hmem
    | retryWait =>
        rw [Write.apply, PlanTables.status?_updatePlan] at hstatus
        obtain ⟨old, _, hnew⟩ := Option.map_eq_some_iff.mp hstatus
        rw [if_pos rfl] at hnew
        cases hnew
  · rw [Write.status?_other hq] at hstatus
    exact hplans hstatus

end Store

/-! ## Every world -/

namespace World.Complete

variable {s : Service} {w w' : World} {ev : Event}

theorem empty : World.Complete {} := ⟨fun _ hstatus ↦ (by cases hstatus), trivial⟩

theorem create (h : w.Complete) {a : PlanRequest}
    {store : PlanTables} (hok : w.store.createOwned s.taskError a = .ok store) :
    World.Complete { w with store := store } := by
  obtain ⟨_, hnone, hstore⟩ := PlanTables.createOwned_ok hok
  have hsteps : ∀ u ∈ store.steps, (w.store.plan? u.planId).isSome → u ∈ w.store.steps := by
    rw [hstore]
    intro u hu hsome
    rcases List.mem_append.mp hu with hu | hu
    · exact hu
    · rw [(PlanRequest.of_mem_stepRows hu).1, hnone] at hsome
      cases hsome
  constructor
  · intro planId hstatus u hu hplan
    rcases (PlanTables.status?_create hok).2 _ hstatus with hold | hqueued
    · have hsome : (w.store.plan? planId).isSome := by
        obtain ⟨row, hrow, _⟩ := Option.map_eq_some_iff.mp hold
        exact Option.isSome_iff_exists.mpr ⟨row, hrow⟩
      exact h.plans planId hold u (hsteps u hu (hplan ▸ hsome)) hplan
    · cases hqueued
  · have hcompleting := h.executor
    cases hex : w.executor with
    | writing cause planId writes rest =>
        rw [hex] at hcompleting
        intro failure hfinish
        obtain ⟨hsome, hcompleted⟩ := hcompleting failure hfinish
        refine ⟨PlanTables.isSome_plan?_create hok hsome, fun u hu hplan ↦ ?_⟩
        exact hcompleted u (hsteps u hu (hplan ▸ hsome)) hplan
    | _ => trivial

theorem step (h : w.Complete) (hsteady : w.Steady) (hwired : w.Wired)
    (hstep : w.step s ev = some w') : w'.Complete := by
  have hturn := step_turn hstep
  cases hturn with
  | outside => exact ⟨h.plans, h.executor⟩
  | create hok => exact h.create hok
  | @confirm tid planId =>
      constructor
      · intro q hstatus
        rw [PlanTables.status?_updatePlan] at hstatus
        obtain ⟨old, hold, hnew⟩ := Option.map_eq_some_iff.mp hstatus
        split at hnew
        · cases hnew
        · exact h.plans q (hnew ▸ hold)
      · have hcompleting := h.executor
        cases hex : w.executor with
        | writing cause q writes rest =>
            rw [hex] at hcompleting
            intro failure hfinish
            obtain ⟨hsome, hcompleted⟩ := hcompleting failure hfinish
            exact ⟨@PlanTables.isSome_plan?_write _ _ (.finish .cancelRequested none) _ hsome,
              hcompleted⟩
        | _ => trivial
  | wake | restart => exact ⟨h.plans, trivial⟩
  | moves hmoves => exact ⟨h.plans, hmoves.completing hwired.linked hwired.executor⟩
  | send | cancel => exact ⟨h.plans, trivial⟩
  | @write cause planId write writes rest now hex =>
      have hbacked := hwired.executor
      have hcompleting := h.executor
      rw [hex] at hbacked hcompleting
      have hsound := hbacked.each write List.mem_cons_self
      constructor
      · intro q hstatus
        exact (allSucceeded_of_status?_write hsound (hsteady.orderly _ _ _ _ hex) (h.plans q)
          (fun failure hfinish ↦ (hcompleting failure hfinish).2) hstatus).apply hsound
      · intro failure hfinish
        obtain ⟨hsome, hcompleted⟩ := hcompleting failure (List.mem_cons_of_mem _ hfinish)
        exact ⟨PlanTables.isSome_plan?_write hsome, hcompleted.apply hsound⟩
  | accept => exact ⟨h.plans, fun _ hfinish ↦ by simp at hfinish⟩

end World.Complete

/-! ## Runs that were recorded -/

/-- Every run of a step is still its run. -/
def World.KeepsRuns (w w' : World) : Prop :=
  ∀ u ∈ w.store.steps, ∀ runId, u.runId = some runId →
    ∃ u' ∈ w'.store.steps, u'.planId = u.planId ∧ u'.stepId = u.stepId ∧ u'.runId = some runId

namespace World.KeepsRuns

variable {s : Service} {w w' w'' : World} {ev : Event}

theorem refl (w : World) : w.KeepsRuns w := fun u hu _ hrun ↦ ⟨u, hu, rfl, rfl, hrun⟩

theorem trans (h : w.KeepsRuns w') (h' : w'.KeepsRuns w'') : w.KeepsRuns w'' := by
  intro u hu runId hrun
  obtain ⟨u', hu', hplan, hstep, hrun'⟩ := h u hu runId hrun
  obtain ⟨u'', hu'', hplan', hstep', hrun''⟩ := h' u' hu' runId hrun'
  exact ⟨u'', hu'', hplan'.trans hplan, hstep'.trans hstep, hrun''⟩

/-- A step is submitted again only with the run of its key, which is the run it has. -/
theorem of_step (hwired : w.Wired) (hstep : w.step s ev = some w') : w.KeepsRuns w' := by
  have hturn := step_turn hstep
  cases hturn with
  | create hok =>
      obtain ⟨_, _, rfl⟩ := PlanTables.createOwned_ok hok
      exact fun u hu _ hrun ↦ ⟨u, List.mem_append_left _ hu, rfl, rfl, hrun⟩
  | @write cause planId write writes rest now hex =>
      have hbacked := hwired.executor
      rw [hex] at hbacked
      intro u hu runId hrun
      refine ⟨write.onStep planId u, ?_, Write.onStep_planId, Write.onStep_stepId, ?_⟩
      · rw [Write.steps_apply]
        exact List.mem_map_of_mem hu
      · have hsome : (write.onStep planId u).runId.isSome := by
          unfold Write.onStep
          split
          · cases write <;> simp [hrun]
          · simp [hrun]
        obtain ⟨newId, hnew⟩ := Option.isSome_iff_exists.mp hsome
        rcases (hbacked.each write List.mem_cons_self).runId hnew with hold | ⟨run, hof, rfl⟩
        · rw [hnew, ← hold, hrun]
        · obtain ⟨run', hof', rfl⟩ := hwired.linked.linked u hu runId hrun
          rw [hnew, Option.some.inj (hof.symm.trans hof')]
  | _ => exact .refl _

end World.KeepsRuns

/-! ## Serial plans -/

/-- In every history, with crashes and cancel requests anywhere: a step has a run only if every
step before it has succeeded, so at most one step of a plan has a run and has not succeeded; the
runs of steps stay; the kernel has at most one run for each step, and a run for nothing else; and
a plan has succeeded only if all its steps have. -/
theorem plan_steps_serial (s : Service) {history : List Event} {w : World}
    (hvisits : Visits (World.step s) {} history w) :
    (∀ u ∈ w.store.steps, u.runId.isSome → ∀ v ∈ w.store.steps, v.planId = u.planId →
      v.ordinal < u.ordinal → v.status = .succeeded) ∧
    (∀ u ∈ w.store.steps, ∀ v ∈ w.store.steps, u.planId = v.planId →
      u.runId.isSome → u.status ≠ .succeeded → v.runId.isSome → v.status ≠ .succeeded → u = v) ∧
    (∀ later w', run (World.step s) w later = some w' → w.KeepsRuns w') ∧
    (∀ r ∈ w.kernel.runs, ∃ u ∈ w.store.steps, r.key = u.key ∧
      (∀ r' ∈ w.kernel.runs, r'.key = u.key → r' = r) ∧
      ∀ v ∈ w.store.steps, v.key = u.key → v = u) ∧
    ∀ p ∈ w.store.plans, p.status = .succeeded → w.store.AllSucceeded p.planId := by
  have hreach := hvisits.reachable
  have hwired := World.Wired.of_reachable hreach
  have hlinked := hwired.linked
  have hserial : ∀ u ∈ w.store.steps, u.runId.isSome → ∀ v ∈ w.store.steps,
      v.planId = u.planId → v.ordinal < u.ordinal → v.status = .succeeded := by
    intro u hu hsome v hv hplan hbefore
    obtain ⟨runId, hrun⟩ := Option.isSome_iff_exists.mp hsome
    obtain ⟨run, hof, _⟩ := hlinked.linked u hu runId hrun
    exact hlinked.inOrder u hu (.inl (by rw [hof]; rfl)) v hv hplan hbefore
  refine ⟨hserial, ?_, ?_, ?_, ?_⟩
  · intro u hu v hv hplan hu' hopen hv' hopen'
    rcases Nat.lt_trichotomy u.ordinal v.ordinal with hlt | heq | hgt
    · exact absurd (hserial v hv hv' u hu hplan hlt) hopen
    · exact hlinked.sound.ordinals.eq_of_key hu hv (Prod.ext hplan heq)
    · exact absurd (hserial u hu hu' v hv hplan.symm hgt) hopen'
  · intro later w' hrun
    exact hreach.run_rel World.KeepsRuns.refl (fun _ _ _ h h' ↦ h.trans h')
      (fun x ev x' hx hstep ↦ .of_step (.of_reachable hx) hstep) hrun
  · intro r hr
    have hkeyed : w.kernel.Keyed r.key := .inl (Table.get?_isSome_iff.mpr (List.mem_map_of_mem hr))
    obtain ⟨u, hu, hkey⟩ := hlinked.known r.key hkeyed
    refine ⟨u, hu, hkey.symm, fun r' hr' hkey' ↦ ?_, fun v hv hsame ↦ ?_⟩
    · exact hlinked.wellFormed.keys.eq_of_key hr' hr (hkey'.trans hkey)
    · exact hlinked.sound.eq_of_key hv hu hsame
  · intro p hp hstatus
    have hcomplete : w.Complete ∧ w.Steady ∧ w.Wired := hreach.invariant
      (P := fun w ↦ World.Complete w ∧ World.Steady w ∧ World.Wired w)
      ⟨.empty, .empty, .empty⟩ fun _ _ _ h _ hstep ↦
        ⟨h.1.step h.2.1 h.2.2 hstep, h.2.1.step hstep, h.2.2.step hstep⟩
    refine hcomplete.1.plans p.planId ?_
    unfold PlanTables.status? PlanTables.plan?
    rw [hcomplete.2.1.planIds.get? hp, ← hstatus]
    rfl

namespace Sample

def twoSteps : PlanRequest :=
  { planId := "plan",
    steps := [{ stepId := "synthesis", task := [] }, { stepId := "layout", task := [] }],
    now := 0 }

def submits (runId : RunId) : List Event :=
  [.wake, .next 0, .next 0, .next 0, .submitted runId, .next 0, .next 0, .next 0]

def succeeds (runId : RunId) : List Event :=
  [.move runId .running, .move runId .succeeded, .wake, .next 0, .next 0, .detail none [],
    .next 0, .next 0, .next 0]

/-- Synthesis runs to its end, then layout is submitted. -/
def inTurn : List Event :=
  .create twoSteps :: submits "run-1" ++ succeeds "run-1" ++ submits "run-2"

end Sample

theorem plan_steps_serial_inTurn : ∃ w, Visits (World.step Sample.service) {} Sample.inTurn w ∧
    ∃ u ∈ w.store.steps, u.runId = some "run-2" ∧
      ∀ v ∈ w.store.steps, v.planId = u.planId → v.ordinal < u.ordinal →
        v.status = .succeeded := by
  have hend : (run (World.step Sample.service) {} Sample.inTurn).any (fun w ↦
      w.store.steps.any fun u ↦ u.runId = some "run-2") = true := by decide +kernel
  obtain ⟨w, hvisits, hw⟩ := Visits.of_any hend
  obtain ⟨u, hu, hrun⟩ := List.any_eq_true.mp hw
  have hrun : u.runId = some "run-2" := of_decide_eq_true hrun
  exact ⟨w, hvisits, u, hu, hrun,
    (plan_steps_serial Sample.service hvisits).1 u hu (by rw [hrun]; rfl)⟩

end ChipEvolve.Plans
