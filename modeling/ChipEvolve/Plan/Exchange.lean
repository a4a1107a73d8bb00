import ChipEvolve.Plan.Linked

/-!
# What the executor knows of the kernel

From the moment it reads a plan until it has written what it learned, the
executor knows that its copy of the steps is the stored one, that the run it asks
about is the run of the pending step, and, when the kernel has answered with a
terminal status, that no other run of the plan can be live.
-/

namespace ChipEvolve.Plans

open Machine

/-- Every step of the plan that was ever submitted has a run that is over. -/
def Closed (t : PlanTables) (k : Kernel) (planId : PlanId) : Prop :=
  ∀ s ∈ t.steps, s.planId = planId → k.Keyed s.key →
    ∃ run, k.runOf? s.key = some run ∧ run.status.isTerminal = true

/-- What the executor relies on while it writes. -/
structure Backed (t : PlanTables) (k : Kernel) (cause : Cause) (planId : PlanId)
    (writes : List Write) : Prop where
  each : ∀ write ∈ writes, write.Sound t k planId
  distinct : (writes.filterMap Write.stepId?).Nodup
  closed : cause = .answered → ∀ status failure, .finish status failure ∈ writes →
    Closed t k planId

def Executor.Wired (t : PlanTables) (k : Kernel) : Executor → Prop
  | binding plan step _ _ _ => plan.At t step
  | submitting plan step _ _ =>
      plan.At t step ∧ k.Keyed (idempotencyKey plan.planId step.stepId)
  | polling plan step runId _ => plan.At t step ∧ step.runId = some runId
  | cancelling plan step runId _ => plan.At t step ∧ step.runId = some runId
  | checking plan step runId _ => plan.At t step ∧ step.runId = some runId
  | writing cause planId writes _ => Backed t k cause planId writes
  | _ => True

/-! ## Closed plans -/

section Closed

variable {t : PlanTables} {k : Kernel} {plan : Plan} {step : StepRow}

theorem closed_of_finished (h : Linked t k) {planId : PlanId}
    (hdone : ∀ s ∈ t.stepsOf planId, s.status = .succeeded) : Closed t k planId := by
  intro s hs hplan _
  obtain ⟨run, hrun, hstatus⟩ := h.done s hs (hdone s (PlanTables.mem_stepsOf.mpr ⟨hs, hplan⟩))
  exact ⟨run, hrun, by rw [hstatus]; rfl⟩

/-- When the run of the pending step is over, so is every run of the plan: the steps
before it have finished, and those after it were never submitted. -/
theorem closed_of_pending (h : Linked t k) (hat : plan.At t step) {run : KernelRun}
    (hrun : k.runOf? step.key = some run) (hterminal : run.status.isTerminal = true) :
    Closed t k plan.planId := by
  obtain ⟨hmem, hstep⟩ := PlanTables.mem_stepsOf.mp hat.mem
  intro s hs hplan hkeyed
  rcases Nat.lt_trichotomy s.ordinal step.ordinal with hlt | heq | hgt
  · have hstatus := hat.finished (PlanTables.mem_stepsOf.mpr ⟨hs, hplan⟩) hlt
    obtain ⟨run', hrun', hdone⟩ := h.done s hs hstatus
    exact ⟨run', hrun', by rw [hdone]; rfl⟩
  · have hsame : s = step :=
      h.sound.ordinals.eq_of_key hs hmem (Prod.ext (hplan.trans hstep.symm) heq)
    exact ⟨run, hsame ▸ hrun, hterminal⟩
  · have hstatus := h.inOrder s hs hkeyed step hmem (hstep.trans hplan.symm) hgt
    exact absurd hstatus hat.unfinished

end Closed

/-! ## The kernel moves -/

section Follows

variable {t : PlanTables} {k k' : Kernel} {created : Option String} {planId : PlanId}

theorem Closed.follows (h : Closed t k planId) (hk : Kernel.Follows created k k') :
    Closed t k' planId := by
  intro s hs hplan hkeyed
  obtain ⟨run, hrun, hterminal⟩ := h s hs hplan ((hk.keyed _).mp hkeyed)
  obtain ⟨run', hrun', hsame⟩ := hk.final hrun hterminal
  exact ⟨run', hrun', hsame ▸ hterminal⟩

theorem Write.Sound.follows {write : Write} (h : write.Sound t k planId)
    (hk : Kernel.Follows created k k') : write.Sound t k' planId := by
  cases write with
  | submitted stepId runId =>
      obtain ⟨⟨run, hrun, hid⟩, hunfinished⟩ := h
      obtain ⟨run', hrun', hid', _⟩ := hk.kept _ run hrun
      exact ⟨⟨run', hrun', hid'.trans hid⟩, hunfinished⟩
  | step stepId status failure => exact ⟨fun hstatus ↦ hk.succeeded (h.1 hstatus), h.2⟩
  | finish | retryWait => trivial

theorem Executor.Wired.follows {ex : Executor} (h : ex.Wired t k)
    (hk : Kernel.Follows created k k') : ex.Wired t k' := by
  cases ex with
  | idle | cycling | advancing => trivial
  | binding | polling | cancelling | checking => exact h
  | submitting => exact ⟨h.1, (hk.keyed _).mpr h.2⟩
  | writing =>
      exact ⟨fun write hwrite ↦ (h.each write hwrite).follows hk, h.distinct,
        fun hcause status failure hfinish ↦ (h.closed hcause status failure hfinish).follows hk⟩

end Follows

/-! ## The executor moves -/

section Moves

variable {t : PlanTables} {k : Kernel} {plan : Plan} {step : StepRow} {rest : List PlanId}

theorem terminal_of_not_active {status : RuntimeStatus} (h : status ∉ activeStatuses) :
    status.isTerminal = true := by
  cases status <;> first | rfl | exact absurd h (by decide)

theorem mem_cancelSteps {steps : List StepRow} {write : Write}
    (h : write ∈ Plan.cancelSteps steps) :
    ∃ s ∈ steps, write = .step s.stepId .cancelled (some cancellation) := by
  obtain ⟨s, hs, rfl⟩ := List.mem_map.mp h
  exact ⟨s, hs, rfl⟩

theorem stepId?_cancelSteps (steps : List StepRow) (status : RuntimeStatus)
    (failure : Option JsonObject) :
    (Plan.cancelSteps steps ++ [Write.finish status failure]).filterMap Write.stepId? =
      steps.map StepRow.stepId := by
  unfold Plan.cancelSteps
  rw [List.filterMap_append, List.filterMap_map]
  simp [Function.comp_def, Write.stepId?]

theorem sound_cancelSteps (h : Linked t k) {planId : PlanId} {steps : List StepRow}
    (hsteps : ∀ s ∈ steps, s ∈ t.stepsOf planId ∧ s.status ≠ .succeeded) {write : Write}
    (hwrite : write ∈ Plan.cancelSteps steps) : write.Sound t k planId := by
  obtain ⟨s, hs, rfl⟩ := mem_cancelSteps hwrite
  obtain ⟨hmem, hstatus⟩ := hsteps s hs
  exact ⟨by simp, fun _ ↦ h.sound.unfinished hmem hstatus⟩

/-- The plan is dropped: the kernel has answered that the run is cancelled, or it was
not asked at all. -/
theorem backed_drop (h : Linked t k) (hsteps : plan.steps = t.stepsOf plan.planId)
    {cause : Cause} (hclosed : cause = .answered → Closed t k plan.planId) :
    Backed t k cause plan.planId plan.drop := by
  unfold Plan.drop
  refine ⟨?_, ?_, fun hcause _ _ _ ↦ hclosed hcause⟩
  · intro write hwrite
    rcases List.mem_append.mp hwrite with hwrite | hwrite
    · refine sound_cancelSteps h (fun s hs ↦ ?_) hwrite
      obtain ⟨hmem, hstatus⟩ := List.mem_filter.mp hs
      exact ⟨hsteps ▸ hmem, by simpa using hstatus⟩
    · rw [List.mem_singleton.mp hwrite]
      trivial
  · rw [stepId?_cancelSteps, hsteps]
    exact (List.filter_sublist.map _).nodup (h.sound.nodup_stepsOf plan.planId)

theorem backed_finish {cause : Cause} {planId : PlanId} {status : RuntimeStatus}
    {failure : Option JsonObject} (hclosed : cause = .answered → Closed t k planId) :
    Backed t k cause planId [.finish status failure] :=
  ⟨fun write hwrite ↦ by rw [List.mem_singleton.mp hwrite]; trivial, List.nodup_nil,
    fun hcause _ _ _ ↦ hclosed hcause⟩

theorem wired_refuse (planId : PlanId) (category message : String) (rest : List PlanId) :
    (Executor.refuse planId category message rest).Wired t k :=
  backed_finish fun hcause ↦ by cases hcause

theorem wired_delay (planId : PlanId) (message : String) (rest : List PlanId) :
    (Executor.delay planId message rest).Wired t k :=
  ⟨fun write hwrite ↦ by rw [List.mem_singleton.mp hwrite]; trivial, List.nodup_nil,
    fun hcause ↦ by cases hcause⟩

theorem wired_start (h : Linked t k) (hsteps : plan.steps = t.stepsOf plan.planId) :
    (Executor.start plan rest).Wired t k := by
  have hnone : plan.pending? = none → Closed t k plan.planId := by
    intro hpending
    refine closed_of_finished h fun s hs ↦ ?_
    simpa using List.find?_eq_none.mp hpending s (hsteps ▸ hs)
  unfold Executor.start
  split
  · rename_i hpending
    exact backed_finish fun _ ↦ hnone hpending
  · rename_i hpending
    split
    · rename_i hrunId
      exact ⟨⟨hsteps, hpending⟩, hrunId⟩
    · exact backed_drop h hsteps fun hcause ↦ by cases hcause
  · rename_i hpending _
    exact backed_finish fun _ ↦ hnone hpending
  · rename_i hpending _
    split
    · rename_i hrunId
      exact ⟨⟨hsteps, hpending⟩, hrunId⟩
    · exact ⟨hsteps, hpending⟩

/-- The run the executor asks about is the run of the pending step. -/
theorem Plan.At.runOf? (hat : plan.At t step) (h : Linked t k) {runId : RunId}
    (hrunId : step.runId = some runId) {run : KernelRun} (hrun : k.run? runId = some run) :
    k.runOf? step.key = some run := by
  obtain ⟨run', hrun', rfl⟩ := h.linked step (PlanTables.mem_stepsOf.mp hat.mem).1 runId hrunId
  rw [h.wellFormed.eq_run hrun' hrun]
  exact hrun'

theorem Plan.At.key (hat : plan.At t step) :
    step.key = idempotencyKey plan.planId step.stepId := by
  simp [StepRow.key, (PlanTables.mem_stepsOf.mp hat.mem).2]

/-- The status of the pending step's run is written down. -/
theorem Plan.At.sound_step (hat : plan.At t step) (h : Linked t k) {run : KernelRun}
    (hrun : k.runOf? step.key = some run) {failure : Option JsonObject} :
    Write.Sound t k plan.planId (.step step.stepId run.status failure) :=
  ⟨fun hstatus ↦ ⟨run, hat.key ▸ hrun, hstatus⟩,
    fun _ ↦ h.sound.unfinished hat.mem hat.unfinished⟩

theorem Plan.At.backed_step (hat : plan.At t step) (h : Linked t k) {run : KernelRun}
    (hrun : k.runOf? step.key = some run) {failure : Option JsonObject} :
    Backed t k .answered plan.planId [.step step.stepId run.status failure] := by
  refine ⟨?_, List.nodup_singleton _, fun _ _ _ hfinish ↦ by simp at hfinish⟩
  intro write hwrite
  rw [List.mem_singleton.mp hwrite]
  exact hat.sound_step h hrun

theorem Plan.At.backed_end (hat : plan.At t step) (h : Linked t k) {run : KernelRun}
    (hrun : k.runOf? step.key = some run) (hterminal : run.status.isTerminal = true)
    {failure failure' : Option JsonObject} {status : RuntimeStatus} :
    Backed t k .answered plan.planId
      [.step step.stepId run.status failure, .finish status failure'] := by
  refine ⟨?_, List.nodup_singleton _, fun _ _ _ _ ↦ closed_of_pending h hat hrun hterminal⟩
  intro write hwrite
  rcases List.mem_cons.mp hwrite with rfl | hwrite
  · exact hat.sound_step h hrun
  · rw [List.mem_singleton.mp hwrite]
    trivial

theorem backed_afterRun (str : Json → String) (h : Linked t k) (hat : plan.At t step)
    {run : KernelRun} (hrun : k.runOf? step.key = some run) {detail : RunDetail}
    (hdetail : detail.status = run.status) :
    Backed t k .answered plan.planId (plan.afterRun str step detail) := by
  unfold Plan.afterRun
  rw [hdetail]
  split
  · exact hat.backed_step h hrun
  · rename_i hactive
    have hterminal := terminal_of_not_active hactive
    split
    · rename_i hdone
      rw [← hdone]
      split
      · exact hat.backed_end h hrun hterminal
      · exact hat.backed_step h hrun
    · exact hat.backed_end h hrun hterminal

theorem backed_afterCancel (str : Json → String) (h : Linked t k) (hat : plan.At t step)
    {run : KernelRun} (hrun : k.runOf? step.key = some run) {detail : RunDetail}
    (hdetail : detail.status = run.status) :
    Backed t k .answered plan.planId (plan.afterCancel str step detail) := by
  unfold Plan.afterCancel
  rw [hdetail]
  split
  · exact hat.backed_step h hrun
  · rename_i hactive
    have hclosed := closed_of_pending h hat hrun (terminal_of_not_active hactive)
    split
    · rename_i hdone
      have hwritten : Write.Sound t k plan.planId (.step step.stepId .succeeded none) :=
        hdone ▸ hat.sound_step h hrun
      refine ⟨?_, ?_, fun _ _ _ _ ↦ hclosed⟩
      · intro write hwrite
        rcases List.mem_cons.mp hwrite with rfl | hwrite
        · exact hwritten
        · rcases List.mem_append.mp hwrite with hwrite | hwrite
          · refine sound_cancelSteps h (fun s hs ↦ ?_) hwrite
            obtain ⟨hmem, hstatus⟩ := List.mem_filter.mp hs
            simp only [Bool.and_eq_true, decide_eq_true_eq] at hstatus
            exact ⟨hat.steps ▸ hmem, hstatus.2⟩
          · rw [List.mem_singleton.mp hwrite]
            trivial
      · show (step.stepId :: (Plan.cancelSteps _ ++ [Write.finish _ none]).filterMap
          Write.stepId?).Nodup
        rw [stepId?_cancelSteps, hat.steps]
        refine List.nodup_cons.mpr ⟨?_, ?_⟩
        · intro hmem
          obtain ⟨s, hs, heq⟩ := List.mem_map.mp hmem
          have hother := (List.mem_filter.mp hs).2
          simp [heq] at hother
        · exact (List.filter_sublist.map _).nodup (h.sound.nodup_stepsOf plan.planId)
    · split
      · exact hat.backed_end h hrun (terminal_of_not_active hactive)
      · exact backed_drop h hat.steps fun _ ↦ hclosed

theorem wired_bind {b : Binding} {bindings : List Binding} {staged : List Json}
    {items : List Artifact} (hat : plan.At t step) :
    (Executor.bind plan step b bindings staged rest items).Wired t k := by
  unfold Executor.bind
  split
  · exact hat
  · exact wired_refuse _ _ _ _

theorem PlanTables.steps_of_get? {planId : PlanId} (h : t.get? planId = some plan) :
    plan.steps = t.stepsOf plan.planId := by
  obtain ⟨row, _, rfl⟩ := Option.map_eq_some_iff.mp h
  rfl

theorem Executor.Moves.wired {s : Service} {w : World} {ex ex' : Executor}
    (hmoves : ex.Moves s w ex') (h : Linked w.store w.kernel)
    (hwired : ex.Wired w.store w.kernel) : ex'.Wired w.store w.kernel := by
  cases hmoves with
  | endCycle | skip | enter | done => trivial
  | read hplan => exact wired_start h (PlanTables.steps_of_get? hplan)
  | unknown | refused => exact wired_refuse _ _ _ _
  | unavailable => exact wired_delay _ _ _
  | bound => exact wired_bind hwired
  | polled hrun hdetail =>
      obtain ⟨hat, hrunId⟩ := hwired
      exact backed_afterRun s.str h hat (hat.runOf? h hrunId hrun) hdetail
  | checked hrun hdetail =>
      obtain ⟨hat, hrunId⟩ := hwired
      exact backed_afterCancel s.str h hat (hat.runOf? h hrunId hrun) hdetail

end Moves

/-! ## The store changes -/

section Store

variable {t t' : PlanTables} {k : Kernel} {planId : PlanId}

theorem Closed.write (h : Closed t k planId) {q : PlanId} {write : Write} :
    Closed (write.apply q t) k planId := by
  intro s hs hplan hkeyed
  rw [Write.steps_apply] at hs
  obtain ⟨u, hu, rfl⟩ := List.mem_map.mp hs
  rw [Write.onStep_key] at hkeyed ⊢
  exact h u hu (Write.onStep_planId.symm.trans hplan) hkeyed

theorem PlanTables.Unfinished.write {stepId : StepId} (h : t.Unfinished planId stepId)
    {q : PlanId} {write : Write} (hother : write.stepId? ≠ some stepId) :
    (write.apply q t).Unfinished planId stepId := by
  intro s hs hplan hstep
  rw [Write.steps_apply] at hs
  obtain ⟨u, hu, rfl⟩ := List.mem_map.mp hs
  rw [Write.onStep_planId] at hplan
  rw [Write.onStep_stepId] at hstep
  have hsame : write.onStep q u = u := if_neg fun htarget ↦ hother (htarget.2.trans (hstep ▸ rfl))
  rw [hsame]
  exact h u hu hplan hstep

theorem Write.Sound.write {other : Write} (h : other.Sound t k planId) {write : Write}
    (hother : ∀ stepId, other.stepId? = some stepId → write.stepId? ≠ some stepId) :
    other.Sound (write.apply planId t) k planId := by
  cases other with
  | submitted stepId runId => exact ⟨h.1, h.2.write (hother stepId rfl)⟩
  | step stepId status failure => exact ⟨h.1, fun hne ↦ (h.2 hne).write (hother stepId rfl)⟩
  | finish | retryWait => trivial

/-- The writes that follow rely on steps that this write leaves alone. -/
theorem Backed.tail {cause : Cause} {write : Write} {writes : List Write}
    (h : Backed t k cause planId (write :: writes)) :
    Backed (write.apply planId t) k cause planId writes := by
  refine ⟨?_, ?_, ?_⟩
  · intro other hmem
    refine (h.each other (List.mem_cons_of_mem _ hmem)).write fun stepId hstep heq ↦ ?_
    have hdistinct := h.distinct
    rw [List.filterMap_cons_some heq] at hdistinct
    exact (List.nodup_cons.mp hdistinct).1 (List.mem_filterMap.mpr ⟨other, hmem, hstep⟩)
  · exact ((List.sublist_cons_self write writes).filterMap _).nodup h.distinct
  · intro hcause status failure hfinish
    exact (h.closed hcause status failure (List.mem_cons_of_mem _ hfinish)).write

theorem Executor.Wired.confirm {ex : Executor} (h : ex.Wired t k) {q : PlanId}
    {status : RuntimeStatus} {failure : Option JsonObject} :
    ex.Wired (t.updatePlan q status failure) k := by
  cases ex with
  | idle | cycling | advancing => trivial
  | binding => exact ⟨h.steps, h.pending⟩
  | submitting | polling | cancelling | checking => exact ⟨⟨h.1.steps, h.1.pending⟩, h.2⟩
  | writing => exact ⟨h.each, h.distinct, h.closed⟩

variable {taskError : JsonObject → Option String} {a : PlanRequest}

theorem Plan.At.create {plan : Plan} {step : StepRow} (hat : plan.At t step) (h : Linked t k)
    (hok : t.createOwned taskError a = .ok t') : plan.At t' step := by
  obtain ⟨hfresh, _⟩ := h.new hok
  obtain ⟨_, _, rfl⟩ := PlanTables.createOwned_ok hok
  obtain ⟨hmem, hplan⟩ := PlanTables.mem_stepsOf.mp hat.mem
  refine ⟨?_, hat.pending⟩
  have hnone : a.stepRows.filter (fun s ↦ s.planId = plan.planId) = [] := by
    refine List.filter_eq_nil_iff.mpr fun s hs ↦ ?_
    have hne : a.planId ≠ plan.planId := fun heq ↦ hfresh step hmem (hplan.trans heq.symm)
    simpa [(PlanRequest.of_mem_stepRows hs).1] using hne
  rw [hat.steps]
  unfold PlanTables.stepsOf
  rw [List.filter_append, hnone, List.append_nil]

theorem Closed.create (hclosed : Closed t k planId) (h : Linked t k)
    (hok : t.createOwned taskError a = .ok t') : Closed t' k planId := by
  obtain ⟨_, hsilent⟩ := h.new hok
  obtain ⟨_, _, rfl⟩ := PlanTables.createOwned_ok hok
  intro s hs hplan hkeyed
  rcases List.mem_append.mp hs with hs | hs
  · exact hclosed s hs hplan hkeyed
  · exact absurd hkeyed (hsilent s hs)

theorem PlanTables.Unfinished.create {stepId : StepId} (h : t.Unfinished planId stepId)
    (hok : t.createOwned taskError a = .ok t') : t'.Unfinished planId stepId := by
  obtain ⟨_, _, rfl⟩ := PlanTables.createOwned_ok hok
  intro s hs hplan hstep
  rcases List.mem_append.mp hs with hs | hs
  · exact h s hs hplan hstep
  · simp [(PlanRequest.of_mem_stepRows hs).2.1]

theorem Write.Sound.create {write : Write} (h : write.Sound t k planId)
    (hok : t.createOwned taskError a = .ok t') : write.Sound t' k planId := by
  cases write with
  | submitted => exact ⟨h.1, h.2.create hok⟩
  | step => exact ⟨h.1, fun hne ↦ (h.2 hne).create hok⟩
  | finish | retryWait => trivial

theorem Executor.Wired.create {ex : Executor} (hwired : ex.Wired t k) (h : Linked t k)
    (hok : t.createOwned taskError a = .ok t') : ex.Wired t' k := by
  cases ex with
  | idle | cycling | advancing => trivial
  | binding => exact Plan.At.create hwired h hok
  | submitting | polling | cancelling | checking => exact ⟨hwired.1.create h hok, hwired.2⟩
  | writing =>
      exact ⟨fun write hwrite ↦ (hwired.each write hwrite).create hok, hwired.distinct,
        fun hcause status failure hfinish ↦
          (hwired.closed hcause status failure hfinish).create h hok⟩

end Store

/-! ## Every world is wired -/

structure World.Wired (w : World) : Prop where
  linked : Linked w.store w.kernel
  executor : w.executor.Wired w.store w.kernel

namespace World.Wired

variable {s : Service} {w w' : World} {ev : Event}

theorem empty : World.Wired {} := ⟨.empty, trivial⟩

/-- How the kernel changes in one step, requests that are sent apart. -/
theorem follows_of_turn (h : w.Wired) {k : Kernel} (hturn : w.kernel.Turn ev k) :
    ∃ created, Kernel.Follows created w.kernel k := by
  cases hturn with
  | same => exact ⟨none, .refl none _⟩
  | applied hkey hsubmit => exact ⟨_, (Kernel.follows_submit (.inr hkey) hsubmit).1⟩
  | moved hmove => exact ⟨none, Kernel.follows_move h.linked.wellFormed hmove none⟩

theorem step (h : w.Wired) (hstep : w.step s ev = some w') : w'.Wired := by
  have hturn := step_turn hstep
  cases hturn with
  | outside _ hkernel =>
      obtain ⟨created, hfollows⟩ := h.follows_of_turn hkernel
      exact ⟨h.linked.follows hfollows, h.executor.follows hfollows⟩
  | create hok => exact ⟨h.linked.create hok, h.executor.create h.linked hok⟩
  | @confirm tid planId =>
      have hlinked : Linked (Write.apply planId (.finish .cancelRequested none) w.store) w.kernel :=
        h.linked.write trivial
      exact ⟨hlinked, h.executor.confirm⟩
  | wake | restart => exact ⟨h.linked, trivial⟩
  | moves hmoves => exact ⟨h.linked, hmoves.wired h.linked h.executor⟩
  | send hex =>
      have hat := h.executor
      rw [hex] at hat
      exact ⟨h.linked.send hat, hat, Kernel.keyed_send.mpr (.inr rfl)⟩
  | write hex =>
      have hbacked := h.executor
      rw [hex] at hbacked
      exact ⟨h.linked.write (hbacked.each _ List.mem_cons_self), hbacked.tail⟩
  | accept hex hsubmit =>
      have hwired := h.executor
      rw [hex] at hwired
      obtain ⟨hat, hkeyed⟩ := hwired
      obtain ⟨hfollows, hrun⟩ := Kernel.follows_submit hkeyed hsubmit
      refine ⟨h.linked.follows hfollows, ?_, List.nodup_singleton _, by simp⟩
      intro write hwrite
      rw [List.mem_singleton.mp hwrite]
      exact ⟨hrun, h.linked.sound.unfinished hat.mem hat.unfinished⟩
  | cancel hex hcancel =>
      have hwired := h.executor
      rw [hex] at hwired
      have hfollows := Kernel.follows_cancel h.linked.wellFormed hcancel none
      exact ⟨h.linked.follows hfollows, hwired⟩

theorem of_reachable {guard : World → Event → Prop}
    (h : ReachableBy (World.step s) guard {} w) : w.Wired :=
  h.invariant empty fun _ _ _ hw _ hstep ↦ hw.step hstep

end World.Wired

end ChipEvolve.Plans
