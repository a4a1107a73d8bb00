import ChipEvolve.DseLab.Compared

/-!
# No sweep is aborted

`submit_sweep` goes through the points of its sweep whatever the kernel answers: a point that is
refused or gets no answer is recorded as refused, and the next one follows.
-/

namespace ChipEvolve.DseLab

open Gateway Machine

/-- The sweep that a handler goes through, and the points that it has not recorded. -/
def Stage.left? : Stage → Option (Sweep × List Point)
  | .submitting sweep _ rest => some (sweep, rest)
  | .calling sweep _ p _ rest => some (sweep, p :: rest)
  | .recording sweep _ p _ rest => some (sweep, p :: rest)
  | .idle | .created _ _ | .comparing _ | .measuring _ _ _ _ => none

def LabEvent.thread? : LabEvent → Option ThreadId
  | .create t _ _ | .load t | .submit t _ _ | .hear t _ | .unreachable t _ | .record t
  | .compare t _ | .look t _ | .measure t _ | .answer t | .dies t => some t
  | .kernel _ => none

namespace Lab

/-- The status of the answer that a handler is about to hear. -/
def status? (s : Lab) (thread : ThreadId) : Option Nat :=
  match s.stage thread with
  | .calling _ _ _ id _ =>
      match s.gate.requests id with
      | some (.answered status) => some status
      | _ => none
  | _ => none

/-- A call of the handler ends without a run: there is no answer, or the kernel refuses. -/
def Refuses (s : Lab) (thread : ThreadId) (text : String) : LabEvent → Prop
  | .unreachable t text' => t = thread ∧ text' = text
  | .hear t message => t = thread ∧
      ∃ status, s.status? thread = some status ∧ status ≠ 201 ∧ errorMessage ⟨status, message⟩ = text
  | _ => False

/-- The handler has gone on through these points, and is at one of them or has returned. -/
def Advances (s : Lab) (thread : ThreadId) (sweep : Sweep) (points : List Point) : Prop :=
  ∃ done rest, points = done ++ rest ∧
    (∀ p ∈ done, ∃ q ∈ s.store.points, q.blank = p.blank ∧ q.runId.isSome = true) ∧
    ((s.stage thread).left? = some (sweep, rest) ∨ rest = [] ∧ sweep.sweepId ∈ s.submitted)

/-- This is what is recorded for the point, or what the handler records next. -/
def Keeps (s : Lab) (thread : ThreadId) (p : Point) (runId : String) : Prop :=
  (∃ sweep a rest, s.stage thread = .recording sweep a p runId rest) ∨
    ∃ q ∈ s.store.points, q.blank = p.blank ∧ q.runId = some runId

/-- What holds of the sweeps from a state on. -/
structure Unaborted (next : Lab → LabEvent → Option Lab) (s : Lab) : Prop where
  recorded : ∀ sweepId ∈ s.submitted, ∀ p ∈ s.store.points, p.sweepId = sweepId →
    p.runId.isSome = true
  /-- No record is taken back. -/
  lasting : ∀ later s', run next s later = some s' → ∀ p ∈ s.store.points,
    p.runId.isSome = true → p ∈ s'.store.points
  /-- No answer stops a handler that does not end in another exception. -/
  advances : ∀ thread sweep points, (s.stage thread).left? = some (sweep, points) →
    ∀ later s', run next s later = some s' → .dies thread ∉ later →
      s'.Advances thread sweep points
  /-- A point that the kernel refuses, or does not answer for, is recorded so. -/
  refused : ∀ thread sweep p rest text event u,
    (s.stage thread).left? = some (sweep, p :: rest) → s.Refuses thread text event →
    next s event = some u → ∀ later s', run next u later = some s' → .dies thread ∉ later →
      s'.Keeps thread p (refusedText text)

variable {H : Bytes → String} {derive : String → Bytes → Nat → Bytes} {api : KernelApi}
variable {zip : Bundle.Archive → Bytes} {str : Json → String} {s s' : Lab}
variable {thread : ThreadId} {event : LabEvent} {sweep : Sweep} {points rest : List Point}
variable {p : Point} {runId : String}

/-! ## One step -/

theorem lookAt_goto {t : ThreadId} {c : Comparison} {failure : Option String}
    (h : s.lookAt t c p rest failure = some s') : ∃ stage, s' = s.goto t stage := by
  unfold lookAt at h
  split at h
  · exact ⟨_, (Option.some.inj h).symm⟩
  split at h
  · exact ⟨_, (Option.some.inj h).symm⟩
  split at h
  · exact ⟨_, (Option.some.inj h).symm⟩
  · exact ⟨_, (Option.some.inj h).symm⟩
  · cases h

/-- What a step leaves of the other handlers, of the records and of the sweeps submitted. -/
structure Follows (s s' : Lab) (event : LabEvent) : Prop where
  stage : ∀ thread, event.thread? ≠ some thread → s'.stage thread = s.stage thread
  store : s.store.Grows s'.store
  submitted : ∀ sweepId ∈ s.submitted, sweepId ∈ s'.submitted

theorem Follows.goto {t : ThreadId} {stage : Stage} (ht : event.thread? = some t) :
    s.Follows (s.goto t stage) event where
  stage := fun _ hne ↦ stage_goto_of_ne fun heq ↦ hne (heq ▸ ht)
  store := .refl _
  submitted := fun _ ↦ id

theorem Sound.follows (h : s.Sound) (hstep : s.step H derive api zip str event = some s') :
    s.Follows s' event := by
  cases event with
  | create t a d =>
      simp only [Lab.step] at hstep
      split at hstep
      case h_2 => cases hstep
      case h_1 =>
        rcases SweepStore.createSweep_cases a d s.store with
          ⟨e, herror⟩ | ⟨sweep, points, _, hfresh, _, hpoints, hok⟩
        · rw [herror] at hstep
          obtain rfl := Option.some.inj hstep
          exact ⟨fun _ _ ↦ rfl, .refl _, fun _ ↦ id⟩
        · obtain ⟨rfl, _⟩ := SweepStore.insertPoints_eq_some hpoints
          rw [hok] at hstep
          obtain rfl := Option.some.inj hstep
          exact ⟨(Follows.goto rfl).stage, .created hfresh, fun _ ↦ id⟩
  | load t | compare t sweepId =>
      simp only [Lab.step] at hstep
      split at hstep
      case h_2 => cases hstep
      case h_1 =>
        split at hstep
        all_goals
          obtain rfl := Option.some.inj hstep
          first
          | exact .goto rfl
          | exact ⟨fun _ _ ↦ rfl, .refl _, fun _ ↦ id⟩
  | submit t requestId r =>
      simp only [Lab.step] at hstep
      split at hstep
      case h_2 => cases hstep
      case h_1 =>
        obtain ⟨gate, _, rfl⟩ := Option.map_eq_some_iff.mp hstep
        exact ⟨(Follows.goto rfl).stage, .refl _, fun _ ↦ id⟩
  | hear t message =>
      simp only [Lab.step] at hstep
      split at hstep
      case h_2 => cases hstep
      case h_1 =>
        split at hstep
        case h_2 => cases hstep
        case h_1 =>
          obtain rfl := Option.some.inj hstep
          exact .goto rfl
  | unreachable t text =>
      simp only [Lab.step] at hstep
      split at hstep
      case h_3 => cases hstep
      all_goals
        obtain rfl := Option.some.inj hstep
        exact .goto rfl
  | record t =>
      simp only [Lab.step] at hstep
      split at hstep
      case h_2 => cases hstep
      case h_1 sweep a p runId rest hstage =>
        obtain rfl := Option.some.inj hstep
        have hpending : Pending s.store sweep (p :: rest) := (h.ofStage hstage).1
        exact ⟨(Follows.goto rfl).stage,
          .recordSubmission (hpending.unrecorded h.store.pointIds), fun _ ↦ id⟩
  | look t failure =>
      simp only [Lab.step] at hstep
      split at hstep
      case h_2 => cases hstep
      case h_1 =>
        split at hstep
        · cases hstep
        · obtain ⟨stage, rfl⟩ := lookAt_goto hstep
          exact .goto rfl
  | measure t answer =>
      simp only [Lab.step] at hstep
      split at hstep
      case h_2 => cases hstep
      case h_1 =>
        split at hstep
        all_goals
          obtain rfl := Option.some.inj hstep
          exact .goto rfl
  | answer t =>
      simp only [Lab.step] at hstep
      split at hstep
      case h_3 => cases hstep
      case h_1 =>
        obtain rfl := Option.some.inj hstep
        exact ⟨(Follows.goto rfl).stage, .refl _, fun _ ↦ List.mem_cons_of_mem _⟩
      case h_2 =>
        split at hstep
        · obtain rfl := Option.some.inj hstep
          exact ⟨(Follows.goto rfl).stage, .refl _, fun _ ↦ id⟩
        · cases hstep
  | dies t =>
      obtain rfl := Option.some.inj hstep
      exact .goto rfl
  | kernel e =>
      obtain ⟨gate, _, rfl⟩ := Option.map_eq_some_iff.mp hstep
      exact ⟨fun _ _ ↦ rfl, .refl _, fun _ ↦ id⟩

/-- A handler in a sweep stays with its point, records it and goes on, or returns after the last. -/
theorem Sound.left_step (h : s.Sound) (hstep : s.step H derive api zip str event = some s')
    (hthread : event.thread? = some thread) (hdies : event ≠ .dies thread)
    (hleft : (s.stage thread).left? = some (sweep, points)) :
    (s'.stage thread).left? = some (sweep, points) ∨
      (∃ p rest, points = p :: rest ∧ (s'.stage thread).left? = some (sweep, rest) ∧
        ∃ q ∈ s'.store.points, q.blank = p.blank ∧ q.runId.isSome = true) ∨
      points = [] ∧ sweep.sweepId ∈ s'.submitted := by
  cases event with
  | kernel => cases hthread
  | dies t => exact absurd (congrArg LabEvent.dies (Option.some.inj hthread)) hdies
  | submit t id r =>
      obtain rfl := Option.some.inj hthread
      simp only [Lab.step] at hstep
      split at hstep
      case h_2 => cases hstep
      case h_1 hstage =>
        obtain ⟨gate, _, rfl⟩ := Option.map_eq_some_iff.mp hstep
        rw [hstage] at hleft
        refine .inl ((congrArg Stage.left? stage_goto_self).trans ?_)
        exact hleft
  | hear t message =>
      obtain rfl := Option.some.inj hthread
      simp only [Lab.step] at hstep
      split at hstep
      case h_2 => cases hstep
      case h_1 hstage =>
        split at hstep
        case h_2 => cases hstep
        case h_1 =>
          obtain rfl := Option.some.inj hstep
          rw [hstage] at hleft
          exact .inl ((congrArg Stage.left? stage_goto_self).trans hleft)
  | unreachable t text =>
      obtain rfl := Option.some.inj hthread
      simp only [Lab.step] at hstep
      split at hstep
      case h_3 => cases hstep
      all_goals
        next hstage =>
          obtain rfl := Option.some.inj hstep
          rw [hstage] at hleft
          exact .inl ((congrArg Stage.left? stage_goto_self).trans hleft)
  | record t =>
      obtain rfl := Option.some.inj hthread
      simp only [Lab.step] at hstep
      split at hstep
      case h_2 => cases hstep
      case h_1 sweep a p runId rest hstage =>
        obtain rfl := Option.some.inj hstep
        have hpending : Pending s.store sweep (p :: rest) := (h.ofStage hstage).1
        rw [hstage] at hleft
        obtain ⟨rfl, rfl⟩ := Prod.mk.inj (Option.some.inj hleft)
        refine .inr (.inl ⟨p, rest, rfl, congrArg Stage.left? stage_goto_self, ?_⟩)
        exact ⟨_, SweepStore.recorded_mem (hpending.points p List.mem_cons_self).1, rfl, rfl⟩
  | answer t =>
      obtain rfl := Option.some.inj hthread
      simp only [Lab.step] at hstep
      split at hstep
      case h_3 => cases hstep
      case h_1 hstage =>
        obtain rfl := Option.some.inj hstep
        rw [hstage] at hleft
        obtain ⟨rfl, rfl⟩ := Prod.mk.inj (Option.some.inj hleft)
        exact .inr (.inr ⟨rfl, List.mem_cons_self⟩)
      case h_2 hstage =>
        rw [hstage] at hleft
        cases hleft
  | create t a d | load t | compare t sweepId | look t failure | measure t answer =>
      obtain rfl := Option.some.inj hthread
      simp only [Lab.step] at hstep
      split at hstep
      case h_2 => cases hstep
      case h_1 hstage =>
        rw [hstage] at hleft
        cases hleft

theorem Advances.step (h : s.Advances thread sweep points) (hsound : s.Sound)
    (hstep : s.step H derive api zip str event = some s') (hdies : event ≠ .dies thread) :
    s'.Advances thread sweep points := by
  obtain ⟨done, rest, rfl, hdone, hstage⟩ := h
  have hfollows := hsound.follows hstep
  have hdone' : ∀ p ∈ done, ∃ q ∈ s'.store.points, q.blank = p.blank ∧ q.runId.isSome = true := by
    intro p hp
    obtain ⟨q, hq, hblank, hsome⟩ := hdone p hp
    exact ⟨q, hfollows.store.recorded hq hsome, hblank, hsome⟩
  rcases hstage with hleft | ⟨hrest, hsubmitted⟩
  · by_cases hthread : event.thread? = some thread
    · rcases hsound.left_step hstep hthread hdies hleft with
        hsame | ⟨p, rest', rfl, hnext, hrecord⟩ | hreturned
      · exact ⟨done, rest, rfl, hdone', .inl hsame⟩
      · refine ⟨done ++ [p], rest', by simp, fun q hq ↦ ?_, .inl hnext⟩
        rcases List.mem_append.mp hq with hq | hq
        · exact hdone' q hq
        · exact List.mem_singleton.mp hq ▸ hrecord
      · exact ⟨done, rest, rfl, hdone', .inr hreturned⟩
    · exact ⟨done, rest, rfl, hdone', .inl (by rwa [hfollows.stage thread hthread])⟩
  · exact ⟨done, rest, rfl, hdone', .inr ⟨hrest, hfollows.submitted _ hsubmitted⟩⟩

theorem Keeps.step (h : s.Keeps thread p runId) (hsound : s.Sound)
    (hstep : s.step H derive api zip str event = some s') (hdies : event ≠ .dies thread) :
    s'.Keeps thread p runId := by
  have hfollows := hsound.follows hstep
  rcases h with ⟨sweep, a, rest, hstage⟩ | ⟨q, hq, hblank, hrunId⟩
  · by_cases hthread : event.thread? = some thread
    · cases event with
      | kernel => cases hthread
      | dies t => exact absurd (congrArg LabEvent.dies (Option.some.inj hthread)) hdies
      | record t =>
          obtain rfl := Option.some.inj hthread
          have hpending : Pending s.store sweep (p :: rest) := (hsound.ofStage hstage).1
          simp only [Lab.step, hstage] at hstep
          obtain rfl := Option.some.inj hstep
          have hp := (hpending.points p List.mem_cons_self).1
          exact .inr ⟨_, SweepStore.recorded_mem hp, rfl, rfl⟩
      | create | load | submit | hear | unreachable | compare | look | measure | answer =>
          obtain rfl := Option.some.inj hthread
          simp only [Lab.step, hstage] at hstep
          cases hstep
    · exact .inl ⟨sweep, a, rest, (hfollows.stage thread hthread).trans hstage⟩
  · exact .inr ⟨q, hfollows.store.recorded hq (by rw [hrunId]; rfl), hblank, hrunId⟩

theorem recorded_refused {status : Nat} {run : Option RunRow} {message : String}
    (h : status ≠ 201) :
    recorded status run message = refusedText (errorMessage ⟨status, message⟩) := by
  unfold recorded
  split
  · rw [if_neg h]
  · rfl

theorem Refuses.keeps {text : String} (h : s.Refuses thread text event)
    (hleft : (s.stage thread).left? = some (sweep, p :: rest))
    (hstep : s.step H derive api zip str event = some s') :
    s'.Keeps thread p (refusedText text) := by
  cases event with
  | unreachable t text' =>
      obtain ⟨rfl, rfl⟩ := h
      simp only [Lab.step] at hstep
      split at hstep
      case h_3 => cases hstep
      all_goals
        next hstage =>
          obtain rfl := Option.some.inj hstep
          rw [hstage] at hleft
          obtain ⟨rfl, heq⟩ := Prod.mk.inj (Option.some.inj hleft)
          obtain ⟨rfl, rfl⟩ := List.cons.inj heq
          exact .inl ⟨_, _, _, stage_goto_self⟩
  | hear t message =>
      obtain ⟨rfl, status, hstatus, hrefused, rfl⟩ := h
      simp only [Lab.step] at hstep
      split at hstep
      case h_2 => cases hstep
      case h_1 sweep a p id rest hstage =>
        split at hstep
        case h_2 => cases hstep
        case h_1 hanswered =>
          obtain rfl := Option.some.inj hstep
          simp only [status?, hstage, hanswered, Option.some.injEq] at hstatus
          rw [hstage] at hleft
          obtain ⟨rfl, heq⟩ := Prod.mk.inj (Option.some.inj hleft)
          obtain ⟨rfl, rfl⟩ := List.cons.inj heq
          exact .inl ⟨sweep, a, rest, by rw [stage_goto_self, hstatus, recorded_refused hrefused]⟩
  | create | load | submit | record | compare | look | measure | answer | dies | kernel =>
      exact h.elim

end Lab

section Runs

variable {H : Bytes → String} {derive : String → Bytes → Nat → Bytes} {api : KernelApi}
variable {zip : Bundle.Archive → Bytes} {str : Json → String} {gate : Gate} {s : Lab}
variable {events : List LabEvent}

/-- A sweep whose submission has returned has a record for each of its points, records last, and
no answer of the kernel and no missing one stops a submission. -/
theorem submitted_recorded (hwell : WellFormed gate.stores.tables)
    (hvisits : Visits (Lab.step H derive api zip str) { gate := gate } events s) :
    s.Unaborted (Lab.step H derive api zip str) := by
  have hsound := Lab.Sound.of_visits hwell hvisits
  -- What one step preserves of a sound state lasts for as long as the handler does not die.
  have hlasts : ∀ (P : Lab → Prop) (thread : ThreadId),
      (∀ u u' event, u.Sound → P u → Lab.step H derive api zip str u event = some u' →
        event ≠ .dies thread → P u') →
      ∀ u, u.Sound → P u → ∀ later s', run (Lab.step H derive api zip str) u later = some s' →
        .dies thread ∉ later → P s' := by
    intro P thread hkeeps u hu hP later s' hrun
    refine (run_induction (P := fun later s' ↦ s'.Sound ∧ (.dies thread ∉ later → P s'))
      ⟨hu, fun _ ↦ hP⟩ (fun later v event v' ⟨hv, hP⟩ hstep ↦ ⟨hv.step hstep, fun hdies ↦ ?_⟩)
      hrun).2
    simp only [List.mem_append, List.mem_singleton, not_or] at hdies
    exact hkeeps v v' event hv (hP hdies.1) hstep (Ne.symm hdies.2)
  exact
    { recorded := fun sweepId hsweepId ↦ (hsound.submitted sweepId hsweepId).2
      lasting := by
        intro later s' hrun p hp hsome
        exact (run_induction (P := fun _ s' ↦ s'.Sound ∧ p ∈ s'.store.points) ⟨hsound, hp⟩
          (fun _ _ _ _ ⟨hv, hmem⟩ hstep ↦
            ⟨hv.step hstep, (hv.follows hstep).store.recorded hmem hsome⟩) hrun).2
      advances := by
        intro thread sweep points hleft
        exact hlasts (fun u ↦ u.Advances thread sweep points) thread
          (fun _ _ _ hu h hstep hdies ↦ h.step hu hstep hdies) s hsound
          ⟨[], points, rfl, List.forall_mem_nil _, .inl hleft⟩
      refused := by
        intro thread sweep p rest text event u hleft hrefuses hstep
        exact hlasts (fun u ↦ u.Keeps thread p (refusedText text)) thread
          (fun _ _ _ hu h hstep hdies ↦ h.step hu hstep hdies) u (hsound.step hstep)
          (hrefuses.keeps hleft hstep) }

end Runs

namespace Sample

def atLast (s : Lab) : Bool :=
  match (s.stage 0).left? with
  | some (_, [_]) => true
  | _ => false

theorem left_of_atLast {s : Lab} (h : atLast s = true) :
    ∃ sweep p, (s.stage 0).left? = some (sweep, [p]) := by
  unfold atLast at h
  split at h
  · next sweep p hleft => exact ⟨sweep, p, hleft⟩
  · cases h

/-- The kernel is out of reach for the last of the points, which is recorded so. -/
theorem submitted_recorded_trial :
    ∃ s s' p, Visits labStep lab opened s ∧ run labStep s closed = some s' ∧
      s'.Keeps 0 p (refusedText "no answer") ∧ s'.submitted = ["sweep-1"] := by
  obtain ⟨s, hvisits, hends⟩ : ∃ s, Visits labStep lab opened s ∧
      (atLast s && (run labStep s closed).any fun s' ↦ s'.submitted = ["sweep-1"]) = true :=
    Visits.of_any (by decide +kernel)
  obtain ⟨hlast, hany⟩ := Bool.and_eq_true_iff.mp hends
  obtain ⟨sweep, p, hleft⟩ := left_of_atLast hlast
  obtain ⟨s', hrun, hsubmitted⟩ := (Option.any_eq_true _ _).mp hany
  obtain ⟨u, hstep, hrest⟩ := Option.bind_eq_some_iff.mp hrun
  exact ⟨s, s', p, hvisits, hrun,
    (submitted_recorded gate_blank hvisits).refused 0 sweep p [] "no answer"
      (.unreachable 0 "no answer") u hleft ⟨rfl, rfl⟩ hstep _ s' hrest (by simp),
    of_decide_eq_true hsubmitted⟩

end Sample

end ChipEvolve.DseLab
