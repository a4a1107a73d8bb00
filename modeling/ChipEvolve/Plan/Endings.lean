import ChipEvolve.Plan.Exchange

/-!
# A plan that has ended has no live run

The executor ends a plan either on an answer of the kernel or without one: a
step to cancel has no `run_id`, or a call was refused.  On an answer every run of
the plan is over.  Without one the plan can end above a run that was created by a
request whose reply was lost, and a request that is still on its way can create
a run for a plan that has ended.  A history with neither leaves no run behind.
-/

namespace ChipEvolve.Plans

open Machine

/-- Some run of the kernel under the key of a step of the plan is not over. -/
def World.liveUnder (w : World) (planId : PlanId) : Bool :=
  w.kernel.runs.any fun run ↦ !run.status.isTerminal &&
    (w.store.stepsOf planId).any fun s ↦ run.key = idempotencyKey planId s.stepId

/-- No run is live under a plan whose status is terminal. -/
def EndedClean (w : World) : Prop :=
  ∀ planId status, w.store.status? planId = some status → status.isTerminal = true →
    w.liveUnder planId = false

/-- The next statement ends a plan above a live run, without an answer of the kernel
about the run of its pending step. -/
def World.endsBlindly (w : World) (ev : Event) : Bool :=
  match w.executor, ev with
  | .writing cause planId (.finish _ _ :: _) _, .next _ => cause ≠ .answered && w.liveUnder planId
  | _, _ => false

/-- The kernel creates a run on a request made for a plan that has ended since. -/
def World.appliesLate (w : World) (ev : Event) : Bool :=
  match ev with
  | .apply key _ =>
      (w.kernel.runOf? key).isNone && w.store.steps.any fun s ↦
        idempotencyKey s.planId s.stepId = key &&
          (w.store.status? s.planId).any RuntimeStatus.isTerminal
  | _ => false

/-! ## Runs under the keys of a plan -/

section Live

variable {w : World} {planId : PlanId}

theorem liveUnder_iff :
    w.liveUnder planId = true ↔ ∃ s ∈ w.store.steps, s.planId = planId ∧
      ∃ run ∈ w.kernel.runs, run.key = s.key ∧ run.status.isTerminal = false := by
  simp only [World.liveUnder, List.any_eq_true, Bool.and_eq_true, Bool.not_eq_true',
    decide_eq_true_eq]
  constructor
  · rintro ⟨run, hrun, hlive, s, hs, hkey⟩
    obtain ⟨hmem, rfl⟩ := PlanTables.mem_stepsOf.mp hs
    exact ⟨s, hmem, rfl, run, hrun, hkey, hlive⟩
  · rintro ⟨s, hmem, rfl, run, hrun, hkey, hlive⟩
    exact ⟨run, hrun, hlive, s, PlanTables.mem_stepsOf.mpr ⟨hmem, rfl⟩, hkey⟩

theorem not_liveUnder_iff (hwf : w.kernel.WellFormed) :
    w.liveUnder planId = false ↔ ∀ s ∈ w.store.steps, s.planId = planId →
      ∀ run, w.kernel.runOf? s.key = some run → run.status.isTerminal = true := by
  rw [← Bool.not_eq_true, liveUnder_iff]
  constructor
  · intro hnone s hs hplan run hrun
    by_contra hlive
    exact hnone ⟨s, hs, hplan, run, Table.mem_of_get? hrun, Table.key_of_get? hrun,
      by simpa using hlive⟩
  · rintro hover ⟨s, hs, hplan, run, hrun, hkey, hlive⟩
    have hget : w.kernel.runOf? s.key = some run := hwf.keys.get?_iff.mpr ⟨hrun, hkey⟩
    simp [hover s hs hplan run hget] at hlive

theorem not_liveUnder_of_closed (hwf : w.kernel.WellFormed)
    (h : Closed w.store w.kernel planId) : w.liveUnder planId = false := by
  refine (not_liveUnder_iff hwf).mpr fun s hs hplan run hrun ↦ ?_
  obtain ⟨run', hrun', hterminal⟩ := h s hs hplan (.inl (by simp [hrun]))
  obtain rfl := Option.some.inj (hrun.symm.trans hrun')
  exact hterminal

/-- The kernel makes no live run under a plan that has none, unless it creates one. -/
theorem not_liveUnder_of_follows {w' : World} {created : Option String}
    (hwf : w.kernel.WellFormed) (h : w.liveUnder planId = false)
    (hstore : w'.store.steps = w.store.steps)
    (hfollows : Kernel.Follows created w.kernel w'.kernel)
    (hnew : ∀ s ∈ w.store.steps, s.planId = planId → w.kernel.runOf? s.key = none →
      created ≠ some s.key) : w'.liveUnder planId = false := by
  refine (not_liveUnder_iff (hfollows.wellFormed hwf)).mpr ?_
  rw [hstore]
  intro s hs hplan run' hrun'
  cases hold : w.kernel.runOf? s.key with
  | none => exact absurd (hfollows.new _ hold (by simp [hrun'])) (hnew s hs hplan hold)
  | some run =>
      have hterminal := (not_liveUnder_iff hwf).mp h s hs hplan run hold
      obtain ⟨run₁, hrun₁, hsame⟩ := hfollows.final hold hterminal
      obtain rfl := Option.some.inj (hrun'.symm.trans hrun₁)
      rw [hsame]
      exact hterminal

end Live

/-! ## One step -/

namespace EndedClean

variable {s : Service} {w w' : World} {ev : Event}

theorem empty : EndedClean {} := by
  intro planId status hstatus
  cases hstatus

theorem of_follows (h : EndedClean w) (hwf : w.kernel.WellFormed) (hstore : w'.store = w.store)
    {created : Option String} (hfollows : Kernel.Follows created w.kernel w'.kernel)
    (hnew : ∀ u ∈ w.store.steps, ∀ status, w.store.status? u.planId = some status →
      status.isTerminal = true → w.kernel.runOf? u.key = none → created ≠ some u.key) :
    EndedClean w' := by
  intro planId status hstatus hterminal
  rw [hstore] at hstatus
  refine not_liveUnder_of_follows hwf (h planId status hstatus hterminal) (by rw [hstore])
    hfollows ?_
  rintro u hu rfl
  exact hnew u hu status hstatus hterminal

theorem outside (h : EndedClean w) (hwf : w.kernel.WellFormed)
    (hlate : w.appliesLate ev = false) {requests : Nat → Option PlanId} {kernel : Kernel}
    (hkernel : w.kernel.Turn ev kernel) :
    EndedClean { w with requests := requests, kernel := kernel } := by
  cases hkernel with
  | same => exact h
  | moved hmove => exact h.of_follows hwf rfl (Kernel.follows_move hwf hmove none) (by simp)
  | @applied key fresh runId _ hkey hsubmit =>
      refine h.of_follows hwf rfl (Kernel.follows_submit (.inr hkey) hsubmit).1 ?_
      intro u hu status hstatus hterminal hnone heq
      obtain rfl := Option.some.inj heq
      have hmade : w.appliesLate (.apply u.key fresh) = true := by
        simp only [World.appliesLate, hnone, Option.isNone_none, Bool.true_and, List.any_eq_true]
        exact ⟨u, hu, by simp [StepRow.key, hstatus, hterminal]⟩
      rw [hmade] at hlate
      cases hlate

/-- The store changes and the runs stay as they are. -/
theorem of_store (hwf : w.kernel.WellFormed) (hkernel : w'.kernel = w.kernel)
    (hkeys : ∀ u' ∈ w'.store.steps, (∃ u ∈ w.store.steps, u.planId = u'.planId ∧ u.key = u'.key) ∨
      ¬w.kernel.Keyed u'.key)
    (hended : ∀ planId status, w'.store.status? planId = some status → status.isTerminal = true →
      w.liveUnder planId = false) : EndedClean w' := by
  intro planId status hstatus hterminal
  have hover := (not_liveUnder_iff hwf).mp (hended planId status hstatus hterminal)
  refine (not_liveUnder_iff (hkernel ▸ hwf)).mpr fun u' hu' hplan run hrun ↦ ?_
  rw [hkernel] at hrun
  rcases hkeys u' hu' with ⟨u, hu, hsame, hkey⟩ | hsilent
  · rw [← hkey] at hrun
    exact hover u hu (hsame.trans hplan) run hrun
  · exact absurd (.inl (by simp [hrun])) hsilent

theorem create (h : EndedClean w) (hwired : w.Wired) {a : PlanRequest} {store : PlanTables}
    (hok : w.store.createOwned s.taskError a = .ok store) :
    EndedClean { w with store := store } := by
  obtain ⟨_, hsilent⟩ := hwired.linked.new hok
  refine of_store hwired.linked.wellFormed rfl ?_ ?_
  · obtain ⟨_, _, rfl⟩ := PlanTables.createOwned_ok hok
    intro u' hu'
    rcases List.mem_append.mp hu' with hu' | hu'
    · exact .inl ⟨u', hu', rfl, rfl⟩
    · exact .inr (hsilent u' hu')
  · intro planId status hstatus hterminal
    rcases (PlanTables.status?_create hok).2 status hstatus with hold | rfl
    · exact h planId status hold hterminal
    · cases hterminal

theorem write_keys {t : PlanTables} {k : Kernel} {planId : PlanId} {write : Write} :
    ∀ u' ∈ (write.apply planId t).steps,
      (∃ u ∈ t.steps, u.planId = u'.planId ∧ u.key = u'.key) ∨ ¬k.Keyed u'.key := by
  intro u' hu'
  rw [Write.steps_apply] at hu'
  obtain ⟨u, hu, rfl⟩ := List.mem_map.mp hu'
  exact .inl ⟨u, hu, Write.onStep_planId.symm, Write.onStep_key.symm⟩

theorem write (h : EndedClean w) (hsteady : w.Steady) (hwired : w.Wired) {cause : Cause}
    {planId : PlanId} {write : Write} {writes : List Write} {rest : List PlanId} {now : Rat}
    (hblind : w.endsBlindly (.next now) = false)
    (hex : w.executor = .writing cause planId (write :: writes) rest) :
    EndedClean
      { w with
        store := write.apply planId w.store
        executor := .writing cause planId writes rest } := by
  have hwf := hwired.linked.wellFormed
  refine of_store hwf rfl write_keys ?_
  intro q status hstatus hterminal
  by_cases hq : q = planId
  · subst hq
    by_cases hlast : ∃ status failure, write = .finish status failure
    · obtain ⟨status', failure, rfl⟩ := hlast
      by_cases hcause : cause = .answered
      · have hbacked := hwired.executor
        rw [hex] at hbacked
        exact not_liveUnder_of_closed hwf (hbacked.closed hcause _ _ List.mem_cons_self)
      · simpa [World.endsBlindly, hex, hcause] using hblind
    · have hlive := hsteady.live q (by simp [hex, Executor.ahead])
      have hnot := Write.live_apply (fun status' failure heq ↦ hlast ⟨_, _, heq⟩) hlive hstatus
      rw [hterminal] at hnot
      cases hnot
  · rw [Write.status?_other hq] at hstatus
    exact h q status hstatus hterminal

theorem step (h : EndedClean w) (hsteady : w.Steady) (hwired : w.Wired)
    (hblind : w.endsBlindly ev = false) (hlate : w.appliesLate ev = false)
    (hstep : w.step s ev = some w') : EndedClean w' := by
  have hwf := hwired.linked.wellFormed
  have hturn := World.step_turn hstep
  cases hturn with
  | outside _ hkernel => exact h.outside hwf hlate hkernel
  | create hok => exact h.create hwired hok
  | @confirm tid planId =>
      have hkeys := @write_keys w.store w.kernel planId (.finish .cancelRequested none)
      refine of_store hwf rfl hkeys fun q status hstatus hterminal ↦ ?_
      rw [PlanTables.status?_updatePlan] at hstatus
      obtain ⟨old, hold, rfl⟩ := Option.map_eq_some_iff.mp hstatus
      by_cases hq : q = planId
      · simp [hq, RuntimeStatus.isTerminal, RuntimeStatus.terminalStatuses] at hterminal
      · exact h q old hold (by simpa [hq] using hterminal)
  | wake | restart | moves | send => exact h
  | write hex => exact h.write hsteady hwired hblind hex
  | @accept plan step task rest fresh runId kernel hex hsubmit =>
      have hexec := hwired.executor
      rw [hex] at hexec
      obtain ⟨hat, hkeyed⟩ := hexec
      refine h.of_follows hwf rfl (Kernel.follows_submit hkeyed hsubmit).1 ?_
      -- the executor submits for a plan that has not ended
      intro u hu status hstatus hterminal _ heq
      obtain ⟨hmem, hplan⟩ := PlanTables.mem_stepsOf.mp hat.mem
      have hkey : step.key = u.key := hat.key.trans (Option.some.inj heq)
      obtain rfl := hwired.linked.sound.eq_of_key hmem hu hkey
      have hlive := hsteady.live step.planId (by simp [hex, Executor.ahead, hplan]) status hstatus
      rw [hterminal] at hlive
      cases hlive
  | cancel _ hcancel =>
      exact h.of_follows hwf rfl (Kernel.follows_cancel hwf hcancel none) (by simp)

end EndedClean

/-! ## Over a whole history -/

namespace World

variable {s : Service} {w w' : World} {ev : Event}

theorem not_endedClean_of_endsBlindly (hsteady : w.Steady) (hwired : w.Wired)
    (hblind : w.endsBlindly ev = true) (hstep : w.step s ev = some w') : ¬EndedClean w' := by
  unfold endsBlindly at hblind
  split at hblind
  · rename_i cause planId status failure writes rest now hex
    have hlive : w.liveUnder planId = true := by
      simp only [Bool.and_eq_true] at hblind
      exact hblind.2
    obtain ⟨u, hu, rfl, _⟩ := liveUnder_iff.mp hlive
    obtain ⟨row, hrow⟩ := Option.isSome_iff_exists.mp (hwired.linked.sound.owned u hu)
    have horderly := hsteady.orderly _ _ _ _ hex
    simp only [step, advance, hex] at hstep
    obtain rfl := Option.some.inj hstep
    intro hclean
    have hended : (w.store.updatePlan u.planId status failure).status? u.planId = some status := by
      rw [PlanTables.status?_updatePlan]
      simp [PlanTables.status?, hrow]
    have hover := hclean u.planId status hended horderly.1
    exact absurd (hlive.symm.trans hover) (by decide)
  · cases hblind

theorem not_endedClean_of_appliesLate (hlate : w.appliesLate ev = true)
    (hstep : w.step s ev = some w') : ¬EndedClean w' := by
  unfold appliesLate at hlate
  split at hlate
  · rename_i key fresh
    simp only [Bool.and_eq_true, List.any_eq_true, decide_eq_true_eq] at hlate
    obtain ⟨hnone, u, hu, rfl, hended⟩ := hlate
    obtain ⟨status, hstatus, hterminal⟩ := (Option.any_eq_true _ _).mp hended
    have hnone : w.kernel.runOf? (idempotencyKey u.planId u.stepId) = none := by simpa using hnone
    simp only [step, receive, surroundings, Option.orElse_none] at hstep
    split at hstep
    · obtain ⟨⟨runId, kernel⟩, hsubmit, rfl⟩ := Option.map_eq_some_iff.mp hstep
      intro hclean
      have hover := hclean u.planId status hstatus hterminal
      unfold Kernel.submit at hsubmit
      rw [hnone] at hsubmit
      dsimp only at hsubmit
      split at hsubmit
      · cases hsubmit
      · cases hsubmit
        rw [← Bool.not_eq_true, liveUnder_iff] at hover
        exact hover ⟨u, hu, rfl, _, List.mem_append_right _ List.mem_cons_self, rfl, rfl⟩
    · cases hstep
  · cases hlate

end World

/-- No plan of a history ends above a live run exactly when no plan is ended without
an answer of the kernel above one, and no request is applied after its plan has
ended. -/
theorem ended_plans_leave_no_run_iff (s : Service) (history : List Event) :
    (∀ w, Visits (World.step s) {} history w → EndedClean w) ↔
      ∀ w ev w', Takes (World.step s) {} history w ev w' →
        w.endsBlindly ev = false ∧ w.appliesLate ev = false := by
  constructor
  · intro hclean w ev w' htakes
    have hreach := htakes.visits_left.reachable
    have hafter := hclean w' htakes.visits_right
    refine ⟨?_, ?_⟩
    · by_contra hblind
      exact World.not_endedClean_of_endsBlindly (.of_reachable hreach) (.of_reachable hreach)
        (by simpa using hblind) htakes.step_eq hafter
    · by_contra hlate
      exact World.not_endedClean_of_appliesLate (by simpa using hlate) htakes.step_eq hafter
  · intro hguard w hvisits
    have hreach : ReachableBy (World.step s)
        (fun w ev ↦ w.endsBlindly ev = false ∧ w.appliesLate ev = false) {} w :=
      hvisits.reachableBy hguard
    have hall : w.Steady ∧ w.Wired ∧ EndedClean w := by
      refine hreach.invariant (P := fun w ↦ w.Steady ∧ w.Wired ∧ EndedClean w)
        ⟨.empty, .empty, .empty⟩ ?_
      rintro w ev w' ⟨hsteady, hwired, hclean⟩ ⟨hblind, hlate⟩ hstep
      exact ⟨hsteady.step hstep, hwired.step hstep, hclean.step hsteady hwired hblind hlate hstep⟩
    exact hall.2.2

namespace Sample

/-- The kernel creates the run of the step but its reply is lost; the plan waits,
a user cancels it, and the executor finds a step without a run. -/
def lostReply : List Event :=
  [.create request, .wake, .next 0, .next 0, .next 0, .apply "plan:plan:step:step" "run",
    .unavailable "unreachable", .next 0, .next 0, .next 0] ++ cancels ++
  [.wake, .next 2, .next 2, .next 2, .next 2]

end Sample

/-- The plan is cancelled and its run stays queued. -/
theorem cancelled_plan_leaves_run :
    ¬∀ (s : Service) (history : List Event) w,
      Visits (World.step s) {} history w → EndedClean w := by
  intro hclaim
  have hend : (run (World.step Sample.service) {} Sample.lostReply).any (fun w ↦
      w.store.status? "plan" = some .cancelled && w.liveUnder "plan") = true := by decide +kernel
  obtain ⟨w, hvisits, hw⟩ := Visits.of_any hend
  simp only [Bool.and_eq_true, decide_eq_true_eq] at hw
  have hover := hclaim Sample.service _ w hvisits "plan" .cancelled hw.1 rfl
  exact absurd (hw.2.symm.trans hover) (by decide)

end ChipEvolve.Plans
