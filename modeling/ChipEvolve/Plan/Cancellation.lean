import ChipEvolve.Plan.Steady

/-!
# A cancelled plan stays cancelled

Two threads write the status of a plan.  `submitted` leaves a requested
cancellation alone; the handler of an unreachable kernel does not.  A history
without that write keeps every cancellation, and no cycle that began after the
request returned submits a step of the plan.
-/

namespace ChipEvolve.Plans

open Machine

/-- The next statement is the `retry_wait` of a plan that is being cancelled. -/
def World.overwritesCancel (w : World) (ev : Event) : Bool :=
  match w.executor, ev with
  | .writing _ planId (.retryWait _ :: _) _, .next _ =>
      w.store.status? planId = some .cancelRequested
  | _, _ => false

/-- The plan for which the next statement sends `client.submit`. -/
def World.submitsFor? (w : World) (ev : Event) : Option PlanId :=
  match w.executor, ev with
  | .binding plan _ [] _ _, .next _ => some plan.planId
  | _, _ => none

/-- What a step owes to the plans whose cancel request has returned. -/
structure CancelKept (w : World) (ev : Event) (w' : World) : Prop where
  stays : ∀ planId, w.store.status? planId = some .cancelRequested →
    ∃ status, w'.store.status? planId = some status ∧
      (status = .cancelRequested ∨ status.isTerminal = true)
  silent : ∀ planId, w.submitsFor? ev = some planId → planId ∉ w.cancelledBefore

/-! ## The plans whose cancel request has returned -/

/-- What the service remembers of the cancel requests that have returned. -/
structure World.Remembers (w : World) : Prop where
  requested : ∀ tid planId, w.requests tid = some planId → (w.store.plan? planId).isSome
  known : ∀ planId ∈ w.cancelled, (w.store.plan? planId).isSome
  before : ∀ planId ∈ w.cancelledBefore, planId ∈ w.cancelled
  kept : ∀ planId ∈ w.cancelled, ∀ status, w.store.status? planId = some status →
    status = .cancelRequested ∨ status.isTerminal = true
  fresh : ∀ plan step bindings staged rest,
    w.executor = .binding plan step bindings staged rest → plan.planId ∉ w.cancelledBefore

namespace PlanTables

variable {t : PlanTables} {planId : PlanId}

theorem isSome_of_cancelError? (h : t.cancelError? planId = none) : (t.plan? planId).isSome := by
  unfold cancelError? status? at h
  cases hplan : t.plan? planId with
  | none => simp [hplan] at h
  | some row => rfl

theorem isSome_plan?_write {write : Write} {q : PlanId} (h : (t.plan? q).isSome) :
    ((write.apply planId t).plan? q).isSome := by
  obtain ⟨row, hrow⟩ := Option.isSome_iff_exists.mp h
  have hplans : ∀ f : PlanRow → PlanRow, (∀ r, (f r).planId = r.planId) →
      (Table.get? PlanRow.planId q (t.plans.map f)).isSome := by
    intro f hf
    rw [Table.get?_map hf, show Table.get? PlanRow.planId q t.plans = some row from hrow]
    rfl
  cases write with
  | submitted | finish | retryWait => exact hplans _ fun r ↦ by split <;> rfl
  | step => exact h

theorem isSome_plan?_create {taskError : JsonObject → Option String} {a : PlanRequest}
    {t' : PlanTables} (h : t.createOwned taskError a = .ok t') {q : PlanId}
    (hq : (t.plan? q).isSome) : (t'.plan? q).isSome := by
  obtain ⟨row, hrow⟩ := Option.isSome_iff_exists.mp hq
  obtain ⟨_, _, rfl⟩ := createOwned_ok h
  exact Option.isSome_iff_exists.mpr ⟨row, Table.get?_append_of_some hrow⟩

end PlanTables

/-- A plan that is being cancelled gets no new run. -/
theorem Executor.start_ne_binding {plan plan' : Plan} {rest rest' : List PlanId} {step : StepRow}
    {bindings : List Binding} {staged : List Json} (hcancel : plan.status = .cancelRequested) :
    start plan rest ≠ binding plan' step bindings staged rest' := by
  intro hex
  cases hpending : plan.pending? with
  | none => simp [start, hcancel, hpending] at hex
  | some active => cases hrun : active.runId <;> simp [start, hcancel, hpending, hrun] at hex

namespace World.Remembers

variable {s : Service} {w w' : World} {ev : Event}

theorem empty : World.Remembers {} where
  requested _ _ h := by cases h
  known _ h := by cases h
  before _ h := by cases h
  kept _ h := by cases h
  fresh _ _ _ _ _ h := by cases h

theorem create (h : w.Remembers) {a : PlanRequest} {store : PlanTables}
    (hok : w.store.createOwned s.taskError a = .ok store) :
    World.Remembers { w with store := store } := by
  refine ⟨fun tid q hq ↦ PlanTables.isSome_plan?_create hok (h.requested tid q hq),
    fun q hq ↦ PlanTables.isSome_plan?_create hok (h.known q hq), h.before, ?_, h.fresh⟩
  intro q hq status hstatus
  obtain ⟨row, hrow⟩ := Option.isSome_iff_exists.mp (h.known q hq)
  have hold : w.store.status? q = some row.status := by simp [PlanTables.status?, hrow]
  obtain rfl := Option.some.inj (((PlanTables.status?_create hok).1 _ hold).symm.trans hstatus)
  exact h.kept q hq _ hold

theorem confirm (h : w.Remembers) {tid : Nat} {planId : PlanId}
    (hrequest : w.requests tid = some planId) :
    World.Remembers
      { w with
        store := w.store.updatePlan planId .cancelRequested none
        requests := Function.update w.requests tid none
        cancelled := planId :: w.cancelled } := by
  have hsome : ∀ q, (w.store.plan? q).isSome →
      ((w.store.updatePlan planId .cancelRequested none).plan? q).isSome := fun q hq ↦
    show ((Write.apply planId (.finish .cancelRequested none) w.store).plan? q).isSome from
      PlanTables.isSome_plan?_write hq
  refine ⟨?_, ?_, fun q hq ↦ List.mem_cons_of_mem _ (h.before q hq), ?_, h.fresh⟩
  · intro tid' q hq
    by_cases htid : tid' = tid
    · simp [htid] at hq
    · exact hsome q (h.requested tid' q (by simpa [htid] using hq))
  · intro q hq
    rcases List.mem_cons.mp hq with rfl | hq
    · exact hsome q (h.requested tid q hrequest)
    · exact hsome q (h.known q hq)
  · intro q hq status hstatus
    rw [PlanTables.status?_updatePlan] at hstatus
    obtain ⟨old, hold, rfl⟩ := Option.map_eq_some_iff.mp hstatus
    by_cases hne : q = planId
    · exact .inl (if_pos hne)
    · rw [if_neg hne]
      exact h.kept q ((List.mem_cons.mp hq).resolve_left hne) old hold

/-- The executor binds the steps of a plan only if it was not being cancelled when
the cycle began. -/
theorem fresh_of_moves (h : w.Remembers) (hsteady : w.Steady) {ex : Executor}
    (hmoves : w.executor.Moves s w ex) {plan : Plan} {step : StepRow} {bindings : List Binding}
    {staged : List Json} {rest : List PlanId} (hex : ex = .binding plan step bindings staged rest) :
    plan.planId ∉ w.cancelledBefore := by
  have hold := h.fresh
  have hlive := hsteady.live
  generalize w.executor = ex₀ at hmoves hold hlive
  cases hmoves with
  | endCycle | skip | enter | unknown | polled | checked | refused | unavailable | done => cases hex
  | @read planId rest' plan' hplan =>
      intro hbefore
      obtain ⟨row, hrow, rfl⟩ := Option.map_eq_some_iff.mp hplan
      have hstatus : w.store.status? planId = some row.status := by
        simp [PlanTables.status?, hrow]
      have hsame : plan.planId = planId := by
        have hahead := congrArg Executor.ahead hex
        rw [Executor.ahead_start] at hahead
        exact (List.cons.inj hahead).1.symm
      rw [hsame] at hbefore
      have hcancel : row.status = .cancelRequested := by
        refine (h.kept planId (h.before planId hbefore) _ hstatus).resolve_right ?_
        simp [hlive planId List.mem_cons_self _ hstatus]
      exact Executor.start_ne_binding hcancel hex
  | bound =>
      unfold Executor.bind at hex
      split at hex <;> cases hex
      exact hold _ _ _ _ _ rfl

/-- Every write but the guarded one leaves a requested cancellation as it is or ends
the plan. -/
theorem kept_write {t : PlanTables} {planId q : PlanId} {write : Write} {writes : List Write}
    (horderly : Orderly (write :: writes))
    (hguard : ∀ failure, write = .retryWait failure →
      t.status? planId ≠ some .cancelRequested)
    (hold : t.status? q = some .cancelRequested) :
    ∃ status, (write.apply planId t).status? q = some status ∧
      (status = .cancelRequested ∨ status.isTerminal = true) := by
  by_cases hne : q = planId
  swap
  · exact ⟨_, (Write.status?_other hne).trans hold, .inl rfl⟩
  subst hne
  cases write with
  | submitted => exact ⟨_, by simp [Write.apply, PlanTables.status?_submitted, hold], .inl rfl⟩
  | step => exact ⟨_, hold, .inl rfl⟩
  | finish =>
      refine ⟨_, by simp [Write.apply, PlanTables.status?_updatePlan, hold], .inr horderly.1⟩
  | retryWait failure => exact absurd hold (hguard failure rfl)

theorem write (h : w.Remembers) (hsteady : w.Steady) {now : Rat}
    (hguard : w.overwritesCancel (.next now) = false) {cause : Cause} {planId : PlanId}
    {write : Write} {writes : List Write} {rest : List PlanId}
    (hex : w.executor = .writing cause planId (write :: writes) rest) :
    World.Remembers
      { w with
        store := write.apply planId w.store
        executor := .writing cause planId writes rest } := by
  refine ⟨fun tid q hq ↦ PlanTables.isSome_plan?_write (h.requested tid q hq),
    fun q hq ↦ PlanTables.isSome_plan?_write (h.known q hq), h.before, ?_, by simp⟩
  intro q hq status hstatus
  by_cases hne : q = planId
  swap
  · rw [Write.status?_other hne] at hstatus
    exact h.kept q hq status hstatus
  subst hne
  obtain ⟨row, hrow⟩ := Option.isSome_iff_exists.mp (h.known q hq)
  have hold : w.store.status? q = some row.status := by simp [PlanTables.status?, hrow]
  have hlive := hsteady.live q (by simp [hex, Executor.ahead]) _ hold
  have hcancel : row.status = .cancelRequested :=
    (h.kept q hq _ hold).resolve_right (by simp [hlive])
  obtain ⟨status', hstatus', hkept⟩ := kept_write (hsteady.orderly cause q _ rest hex)
    (by
      rintro failure rfl
      simpa [overwritesCancel, hex] using hguard) (hcancel ▸ hold)
  obtain rfl := Option.some.inj (hstatus.symm.trans hstatus')
  exact hkept

theorem step (h : w.Remembers) (hsteady : w.Steady) (hguard : w.overwritesCancel ev = false)
    (hstep : w.step s ev = some w') : w'.Remembers := by
  have hturn := step_turn hstep
  cases hturn with
  | outside hrequests =>
      refine ⟨fun tid q hq ↦ ?_, h.known, h.before, h.kept, h.fresh⟩
      rcases hrequests tid q hq with hold | hopen
      · exact h.requested tid q hold
      · exact PlanTables.isSome_of_cancelError? hopen
  | create hok => exact h.create hok
  | confirm hrequest => exact h.confirm hrequest
  | wake => exact ⟨h.requested, h.known, fun _ hq ↦ hq, h.kept, by simp⟩
  | restart => exact ⟨by simp, h.known, h.before, h.kept, by simp⟩
  | moves hmoves =>
      refine ⟨h.requested, h.known, h.before, h.kept, ?_⟩
      exact fun plan step bindings staged rest hex ↦ h.fresh_of_moves hsteady hmoves hex
  | send | accept | cancel => exact ⟨h.requested, h.known, h.before, h.kept, by simp⟩
  | write hex => exact h.write hsteady hguard hex

end World.Remembers

/-! ## Over a whole history -/

namespace World

variable {s : Service} {w w' : World} {ev : Event}

theorem cancelKept_of_step (hsteady : w.Steady) (h : w.Remembers)
    (hguard : w.overwritesCancel ev = false) (hstep : w.step s ev = some w') :
    CancelKept w ev w' := by
  refine ⟨fun planId hcancel ↦ ?_, fun planId hsubmits ↦ ?_⟩
  · have hturn := step_turn hstep
    cases hturn with
    | create hok => exact ⟨_, (PlanTables.status?_create hok).1 _ hcancel, .inl rfl⟩
    | confirm =>
        refine ⟨.cancelRequested, ?_, .inl rfl⟩
        simp [PlanTables.status?_updatePlan, hcancel]
    | outside | wake | restart | moves | send | accept | cancel => exact ⟨_, hcancel, .inl rfl⟩
    | @write cause planId' write writes rest now hex =>
        refine Remembers.kept_write (hsteady.orderly _ _ _ _ hex) ?_ hcancel
        rintro failure rfl
        simpa [overwritesCancel, hex] using hguard
  · unfold submitsFor? at hsubmits
    split at hsubmits
    · rename_i plan step staged rest now hex
      obtain rfl := Option.some.inj hsubmits
      exact h.fresh _ _ _ _ _ hex
    · cases hsubmits

theorem not_cancelKept_of_overwrites (hover : w.overwritesCancel ev = true)
    (hstep : w.step s ev = some w') : ¬CancelKept w ev w' := by
  unfold overwritesCancel at hover
  split at hover
  · rename_i cause planId failure writes rest now hex
    have hcancel : w.store.status? planId = some .cancelRequested := by simpa using hover
    intro hkept
    obtain ⟨status, hstatus, hok⟩ := hkept.stays planId hcancel
    simp only [step, advance, hex] at hstep
    obtain rfl := Option.some.inj hstep
    have hwait : status = .retryWait := by
      simpa [Write.apply, PlanTables.status?_updatePlan, hcancel] using hstatus.symm
    rcases hok with hok | hok <;> simp [hwait, RuntimeStatus.isTerminal,
      RuntimeStatus.terminalStatuses] at hok
  · cases hover

end World

/-- Every cancellation of a history is kept exactly when the history never puts a
plan that is being cancelled into `retry_wait`. -/
theorem plan_cancellation_kept_iff (s : Service) (history : List Event) :
    (∀ w ev w', Takes (World.step s) {} history w ev w' → CancelKept w ev w') ↔
      ∀ w ev w', Takes (World.step s) {} history w ev w' → w.overwritesCancel ev = false := by
  constructor
  · intro hkept w ev w' htakes
    by_contra hover
    exact World.not_cancelKept_of_overwrites (by simpa using hover) htakes.step_eq
      (hkept w ev w' htakes)
  · intro hguard w ev w' htakes
    have hreach : ReachableBy (World.step s) (fun w ev ↦ w.overwritesCancel ev = false) {} w :=
      htakes.visits_left.reachableBy hguard
    have hboth : w.Steady ∧ w.Remembers := by
      refine hreach.invariant (P := fun w ↦ w.Steady ∧ w.Remembers) ⟨.empty, .empty⟩ ?_
      rintro w ev w' ⟨hsteady, hremembers⟩ hquiet hstep
      exact ⟨hsteady.step hstep, hremembers.step hsteady hquiet hstep⟩
    exact World.cancelKept_of_step hboth.1 hboth.2 (hguard w ev w' htakes) htakes.step_eq

namespace Sample

def service : Service :=
  { taskError := fun _ ↦ none, str := fun | .str text => text | _ => "", kernelRetryDelay := 1 }

def request : PlanRequest := { planId := "plan", steps := [{ stepId := "step", task := [] }], now := 0 }

def cancels : List Event := [.requestCancel 0 "plan", .confirmCancel 0]

/-- A user cancels the plan while its step is being submitted, and the kernel
cannot be reached. -/
def outage : List Event :=
  [.create request, .wake, .next 0, .next 0, .next 0] ++ cancels ++ [.unavailable "unreachable"]

end Sample

/-- The plan goes back to `retry_wait`. -/
theorem outage_forgets_cancellation :
    ¬∀ (s : Service) (history : List Event) w ev w',
      Takes (World.step s) {} history w ev w' → CancelKept w ev w' := by
  intro hclaim
  have hends : (run (World.step Sample.service) {} Sample.outage).any (fun w ↦
      w.overwritesCancel (.next 0) && (w.step Sample.service (.next 0)).isSome) = true := by
    decide +kernel
  obtain ⟨w, w', htakes, hover⟩ := Takes.of_any hends
  exact World.not_cancelKept_of_overwrites hover htakes.step_eq
    (hclaim Sample.service _ w _ w' htakes)

end ChipEvolve.Plans
