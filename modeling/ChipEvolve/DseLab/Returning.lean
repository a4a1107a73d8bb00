import ChipEvolve.DseLab.Submitted

/-!
# The handlers of the laboratory return

A handler that has started can always go on, also when the kernel does not answer, and the bound
on the points of a sweep bounds the steps it takes.
-/

namespace ChipEvolve.DseLab

open Gateway Machine

/-- The steps that a handler has before it at the most. -/
def Stage.work : Stage → Nat
  | .idle => 0
  | .created _ _ => 3 * maxPointsPerSweep + 2
  | .submitting _ _ rest => 3 * rest.length + 1
  | .calling _ _ _ _ rest => 3 * rest.length + 3
  | .recording _ _ _ _ rest => 3 * rest.length + 2
  | .comparing c => 2 * c.rest.length + 1
  | .measuring _ _ _ rest => 2 * rest.length + 2

namespace LabEvent

/-- A request comes to the thread. -/
def starts (thread : ThreadId) : LabEvent → Bool
  | .create t _ _ | .compare t _ => t = thread
  | _ => false

/-- The thread goes on with its request. -/
def continues (thread : ThreadId) : LabEvent → Bool
  | .load t | .submit t _ _ | .hear t _ | .unreachable t _ | .record t | .look t _ | .measure t _
  | .answer t => t = thread
  | _ => false

/-- The step is of the laboratory alone: a call of it has ended without an answer, or it makes
none. -/
def unanswered : LabEvent → Bool
  | .load _ | .unreachable _ _ | .record _ | .look _ (some _) | .measure _ (.error _)
  | .answer _ => true
  | _ => false

end LabEvent

namespace Lab

variable {H : Bytes → String} {derive : String → Bytes → Nat → Bytes} {api : KernelApi}
variable {zip : Bundle.Archive → Bytes} {str : Json → String} {s s' : Lab}
variable {thread other : ThreadId} {stage : Stage} {event : LabEvent}

/-- What the stages before and after a step of a thread say of the work of every thread. -/
theorem work_goto (hless : stage.work < (s.stage other).work) :
    ((s.goto other stage).stage thread).work + (if decide (other = thread) then 1 else 0) ≤
      (s.stage thread).work := by
  by_cases heq : other = thread
  · subst heq
    rw [stage_goto_self, decide_eq_true rfl, if_pos rfl]
    exact hless
  · rw [stage_goto_of_ne (Ne.symm heq), decide_eq_false heq]
    exact le_rfl

theorem lookAt_eq_some {c : Comparison} {p : Point} {rest : List Point} {failure : Option String}
    (h : s.lookAt other c p rest failure = some s') :
    ∃ stage : Stage, stage.work ≤ 2 * rest.length + 2 ∧ s' = s.goto other stage := by
  unfold lookAt at h
  split at h
  · exact ⟨_, by simp [Stage.work, Comparison.add], (Option.some.inj h).symm⟩
  split at h
  · exact ⟨_, by simp [Stage.work, Comparison.add], (Option.some.inj h).symm⟩
  split at h
  · exact ⟨_, by simp [Stage.work, Comparison.add], (Option.some.inj h).symm⟩
  · exact ⟨_, le_rfl, (Option.some.inj h).symm⟩
  · cases h

namespace Sound

theorem work_le (h : s.Sound) : (s.stage thread).work ≤ 3 * maxPointsPerSweep + 2 := by
  have hwired := h.wired thread
  cases hstage : s.stage thread with
  | idle | created => simp [Stage.work]
  | submitting sweep a rest =>
      have hlength := (h.ofStage hstage : Pending s.store sweep rest).length
      simp only [Stage.work]
      omega
  | calling sweep a p id rest | recording sweep a p runId rest =>
      have hlength := (h.ofStage hstage).1.length
      simp only [Stage.work, List.length_cons] at hlength ⊢
      omega
  | comparing c =>
      have hlength := (h.ofStage hstage : c.Fair _ _).length_le h.store
      simp only [Stage.work]
      omega
  | measuring c p run rest =>
      obtain ⟨hfair, hrest, _⟩ := h.ofStage hstage
      have hlength := hfair.length_le h.store
      rw [hrest, List.length_cons] at hlength
      simp only [Stage.work]
      omega

/-- A step of a handler uses up some of its work; the other steps leave the handler alone, save
for its death. -/
theorem work_step (h : s.Sound) (hstep : s.step H derive api zip str event = some s')
    (hstarts : event.starts thread = false) :
    (s'.stage thread).work + (if event.continues thread then 1 else 0) ≤
      (s.stage thread).work := by
  cases event with
  | create t a d =>
      have hne : thread ≠ t := fun heq ↦ of_decide_eq_false hstarts heq.symm
      simp only [Lab.step] at hstep
      split at hstep
      case h_2 => cases hstep
      case h_1 =>
        split at hstep
        · obtain rfl := Option.some.inj hstep
          exact le_rfl
        · obtain rfl := Option.some.inj hstep
          exact (congrArg Stage.work (stage_goto_of_ne hne)).le
  | load t =>
      simp only [Lab.step] at hstep
      split at hstep
      case h_2 => cases hstep
      case h_1 hstage =>
        split at hstep
        · obtain rfl := Option.some.inj hstep
          exact work_goto (by rw [hstage]; simp [Stage.work])
        · next sweep points hget =>
            obtain rfl := Option.some.inj hstep
            obtain ⟨hmem, rfl, rfl⟩ := SweepStore.getSweep_eq_ok hget
            have hlength := h.store.length_pointsOf hmem
            exact work_goto (by rw [hstage]; simp only [Stage.work]; omega)
  | submit t id r =>
      simp only [Lab.step] at hstep
      split at hstep
      case h_2 => cases hstep
      case h_1 hstage =>
        obtain ⟨gate, _, rfl⟩ := Option.map_eq_some_iff.mp hstep
        exact work_goto (by rw [hstage]; simp only [Stage.work, List.length_cons]; omega)
  | hear t message =>
      simp only [Lab.step] at hstep
      split at hstep
      case h_2 => cases hstep
      case h_1 hstage =>
        split at hstep
        case h_2 => cases hstep
        case h_1 =>
          obtain rfl := Option.some.inj hstep
          exact work_goto (by rw [hstage]; simp only [Stage.work]; omega)
  | unreachable t text =>
      simp only [Lab.step] at hstep
      split at hstep
      case h_3 => cases hstep
      all_goals
        next hstage =>
          obtain rfl := Option.some.inj hstep
          exact work_goto (by rw [hstage]; simp only [Stage.work, List.length_cons]; omega)
  | record t =>
      simp only [Lab.step] at hstep
      split at hstep
      case h_2 => cases hstep
      case h_1 hstage =>
        obtain rfl := Option.some.inj hstep
        exact work_goto (by rw [hstage]; simp only [Stage.work]; omega)
  | compare t sweepId =>
      have hne : thread ≠ t := fun heq ↦ of_decide_eq_false hstarts heq.symm
      simp only [Lab.step] at hstep
      split at hstep
      case h_2 => cases hstep
      case h_1 =>
        split at hstep
        · obtain rfl := Option.some.inj hstep
          exact le_rfl
        · obtain rfl := Option.some.inj hstep
          exact (congrArg Stage.work (stage_goto_of_ne hne)).le
  | look t failure =>
      simp only [Lab.step] at hstep
      split at hstep
      case h_2 => cases hstep
      case h_1 c hstage =>
        split at hstep
        · cases hstep
        next p rest hrest =>
        obtain ⟨stage, hwork, rfl⟩ := lookAt_eq_some hstep
        exact work_goto (by rw [hstage, Stage.work, hrest, List.length_cons]; omega)
  | measure t answer =>
      simp only [Lab.step] at hstep
      split at hstep
      case h_2 => cases hstep
      case h_1 c p run rest hstage =>
        split at hstep
        all_goals
          obtain rfl := Option.some.inj hstep
          exact work_goto (by rw [hstage]; simp [Stage.work, Comparison.add])
  | answer t =>
      simp only [Lab.step] at hstep
      split at hstep
      case h_3 => cases hstep
      case h_1 hstage =>
        obtain rfl := Option.some.inj hstep
        exact work_goto (by rw [hstage]; simp [Stage.work])
      case h_2 hstage =>
        split at hstep
        · obtain rfl := Option.some.inj hstep
          exact work_goto (by rw [hstage]; simp [Stage.work])
        · cases hstep
  | dies t =>
      obtain rfl := Option.some.inj hstep
      by_cases heq : t = thread
      · subst heq
        rw [stage_goto_self]
        exact Nat.zero_le _
      · exact (congrArg Stage.work (stage_goto_of_ne (Ne.symm heq))).le
  | kernel e =>
      obtain ⟨gate, _, rfl⟩ := Option.map_eq_some_iff.mp hstep
      exact le_rfl

theorem work_run {later : List LabEvent} (h : s.Sound)
    (hrun : run (Lab.step H derive api zip str) s later = some s')
    (hstarts : ∀ e ∈ later, e.starts thread = false) :
    (s'.stage thread).work + later.countP (LabEvent.continues thread) ≤
      (s.stage thread).work := by
  induction later generalizing s with
  | nil =>
      obtain rfl : s = s' := by simpa using hrun
      exact le_rfl
  | cons e later ih =>
      obtain ⟨u, hu, hrest⟩ := Option.bind_eq_some_iff.mp hrun
      have hfirst := h.work_step hu (hstarts e List.mem_cons_self)
      have hlast := ih (h.step hu) hrest fun e' he' ↦ hstarts e' (List.mem_cons_of_mem _ he')
      rw [List.countP_cons]
      omega

end Sound

/-- A handler waits for nothing but the kernel's answer, and goes on without one too. -/
theorem goes_on (hbusy : s.stage thread ≠ .idle) : ∃ event : LabEvent,
    event.continues thread = true ∧ event.unanswered = true ∧
      (s.step H derive api zip str event).isSome = true := by
  cases hstage : s.stage thread with
  | idle => exact absurd hstage hbusy
  | created sweepId a =>
      refine ⟨.load thread, decide_eq_true rfl, rfl, ?_⟩
      simp only [step, hstage]
      split <;> rfl
  | submitting sweep a rest =>
      cases rest with
      | nil => exact ⟨.answer thread, decide_eq_true rfl, rfl, by simp [step, hstage]⟩
      | cons p rest =>
          exact ⟨.unreachable thread "", decide_eq_true rfl, rfl, by simp [step, hstage]⟩
  | calling => exact ⟨.unreachable thread "", decide_eq_true rfl, rfl, by simp [step, hstage]⟩
  | recording => exact ⟨.record thread, decide_eq_true rfl, rfl, by simp [step, hstage]⟩
  | comparing c =>
      cases hrest : c.rest with
      | nil => exact ⟨.answer thread, decide_eq_true rfl, rfl, by simp [step, hstage, hrest]⟩
      | cons p rest =>
          refine ⟨.look thread (some ""), decide_eq_true rfl, rfl, ?_⟩
          simp only [step, hstage, hrest, lookAt]
          split
          · rfl
          · split <;> rfl
  | measuring c p run rest =>
      exact ⟨.measure thread (.error ""), decide_eq_true rfl, rfl, by simp [step, hstage]⟩

end Lab

section Runs

variable {H : Bytes → String} {derive : String → Bytes → Nat → Bytes} {api : KernelApi}
variable {zip : Bundle.Archive → Bytes} {str : Json → String} {gate : Gate} {s : Lab}
variable {events : List LabEvent}

/-- No handler is ever stuck, also when the kernel does not answer, and none takes more steps than
three for each point it may have. -/
theorem handlers_return (hwell : WellFormed gate.stores.tables)
    (hvisits : Visits (Lab.step H derive api zip str) { gate := gate } events s)
    (thread : ThreadId) :
    (s.stage thread ≠ .idle → ∃ event : LabEvent, event.continues thread = true ∧
      event.unanswered = true ∧ (s.step H derive api zip str event).isSome = true) ∧
    ∀ later s', run (Lab.step H derive api zip str) s later = some s' →
      (∀ e ∈ later, e.starts thread = false) →
        later.countP (LabEvent.continues thread) ≤ 3 * maxPointsPerSweep + 2 := by
  refine ⟨Lab.goes_on, fun later s' hrun hstarts ↦ ?_⟩
  have hsound := Lab.Sound.of_visits hwell hvisits
  have hrest := hsound.work_run hrun hstarts
  have hbound : (s.stage thread).work ≤ 3 * maxPointsPerSweep + 2 := hsound.work_le
  omega

end Runs

namespace Sample

def submitting (s : Lab) : Bool :=
  match s.stage 0 with
  | .submitting .. => true
  | _ => false

/-- The handler goes on with the last of its points. -/
theorem handlers_return_trial :
    ∃ s, Visits labStep lab opened s ∧ submitting s = true ∧
      ∃ event : LabEvent, event.continues 0 = true ∧ event.unanswered = true ∧
        (labStep s event).isSome = true := by
  obtain ⟨s, hvisits, hsubmitting⟩ : ∃ s, Visits labStep lab opened s ∧
      submitting s = true := Visits.of_any (by decide +kernel)
  refine ⟨s, hvisits, hsubmitting, (handlers_return gate_blank hvisits 0).1 fun hidle ↦ ?_⟩
  simp [submitting, hidle] at hsubmitting

end Sample

end ChipEvolve.DseLab
