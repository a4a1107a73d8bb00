import ChipEvolve.Worker.Exclusion

/-!
# The attempts of a run stay within its budget

Three paths grant another attempt, each from a check made in an earlier
transaction, and the claim itself checks nothing.  While a run is held no claim
of it can come in between, so what the holder read about the number of attempts
is still true when it puts the run back.
-/

namespace ChipEvolve

open Machine Sql

/-- How many attempts the stage has had. -/
def Tables.used (t : Tables) (stageRunId : StageRunId) : Nat := (t.attemptsOf stageRunId).length

structure World.Budget (w : World) : Prop where
  spent : ∀ r ∈ w.tables.runs, ∀ s ∈ w.tables.stages, s.runId = r.runId →
    (w.tables.used s.stageRunId : Int) ≤ r.taskSpec.maxAttempts
  waiting : ∀ r ∈ w.tables.runs, ∀ s ∈ w.tables.stages, s.runId = r.runId →
    r.status.waiting = true → (w.tables.used s.stageRunId : Int) < r.taskSpec.maxAttempts
  newest : ∀ runId a, RunningIn w.tables runId a → a.attemptNumber = w.tables.used a.stageRunId
  settled : ∀ tid job p, (w.threads tid).phase? = some (job, p) →
    (w.threads tid).Owes w.tables job.runId →
      job.attempt.attemptNumber = w.tables.used job.stage.stageRunId
  granted : ∀ tid ids runId stageRunId runIds,
    (w.threads tid).pass? = some (.rescheduling ids runId stageRunId runIds) →
      ∀ r, w.tables.run? runId = some r →
        (w.tables.used stageRunId : Int) < r.taskSpec.maxAttempts

/-! ## Counting attempts -/

section Used

variable {t : Tables} {e : Effect} {stageRunId : StageRunId}

/-- An effect that does not claim the stage only rewrites its attempts. -/
theorem attemptsOf_apply_unclaimed (hclaim : ∀ stage c attemptId now,
    e = .claim stage c attemptId now → stage.stageRunId ≠ stageRunId) :
    (e.apply t).attemptsOf stageRunId = (t.attemptsOf stageRunId).map e.onAttempt := by
  have hnone : (e.newAttempts t).filter (fun a ↦ a.stageRunId = stageRunId) = [] := by
    cases e with
    | claim stage c attemptId now =>
        have hother := hclaim stage c attemptId now rfl
        simp [Effect.newAttempts, Tables.nextAttempt, Claim.attemptRow, hother]
    | _ => rfl
  rw [attemptsOf_apply, hnone, List.append_nil]

theorem used_apply (hclaim : ∀ stage c attemptId now, e = .claim stage c attemptId now →
    stage.stageRunId ≠ stageRunId) : (e.apply t).used stageRunId = t.used stageRunId := by
  unfold Tables.used
  rw [attemptsOf_apply_unclaimed hclaim, List.length_map]

theorem used_claim {stage : StageRow} {c : Claim} {attemptId : AttemptId} {now : Timestamp} :
    ((Effect.claim stage c attemptId now).apply t).used stage.stageRunId =
      t.used stage.stageRunId + 1 := by
  unfold Tables.used
  rw [attemptsOf_apply, List.length_append, List.length_map]
  simp [Effect.newAttempts, Tables.nextAttempt, Claim.attemptRow]

theorem used_fresh (hwf : WellFormed t) (hnew : ∀ s ∈ t.stages, s.stageRunId ≠ stageRunId) :
    t.used stageRunId = 0 := by
  unfold Tables.used Tables.attemptsOf
  rw [List.length_eq_zero_iff, List.filter_eq_nil_iff]
  intro a ha hstage
  obtain ⟨s, hs, hsid⟩ := List.mem_map.mp (hwf.attemptStages a ha)
  exact hnew s hs (hsid.trans (by simpa using hstage))

theorem latestAttempt?_number (hwf : WellFormed t) {a : AttemptRow}
    (h : t.latestAttempt? stageRunId = some a) : a.attemptNumber = t.used stageRunId := by
  have hnumber : a.attemptNumber = t.maxAttemptNumber stageRunId := by
    simpa using List.find?_some h
  rw [hnumber, hwf.maxAttemptNumber_eq, Tables.used]

theorem resumable?_room {runId : RunId} {r : RunRow} (h : t.resumable? runId = some stageRunId)
    (hr : t.run? runId = some r) : (t.used stageRunId : Int) < r.taskSpec.maxAttempts := by
  unfold Tables.resumable? at h
  rw [hr] at h
  split at h
  · rename_i run stage hrun _
    obtain rfl := Option.some.inj hrun
    split at h
    · rename_i hroom
      obtain rfl := Option.some.inj h
      simpa [Tables.used] using (Bool.and_eq_true_iff.mp hroom).2
    · cases h
  · cases h

end Used

/-- A pass decides to put a run back from what the tables hold at that moment. -/
theorem Pass.step_rescheduling {now : Timestamp} {gone : Bool} {t : Tables} {p : Pass}
    {ids : List AttemptId} {runId : RunId} {stageRunId : StageRunId} {runIds : List RunId}
    (h : (p.step now gone t).1 = .rescheduling ids runId stageRunId runIds) :
    (p.step now gone t).2 = t ∧ t.resumable? runId = some stageRunId := by
  cases p with
  | fencing reference rows ids runIds =>
      cases rows with
      | nil => cases h
      | cons row rows =>
          simp only [step] at h
          split at h
          · split at h <;> cases h
          · cases h
  | settling ids runIds =>
      cases runIds with
      | nil => cases h
      | cons runId runIds =>
          cases hresumable : t.resumable? runId with
          | some stageRunId' =>
              simp only [step, hresumable] at h ⊢
              cases h
              exact ⟨trivial, hresumable⟩
          | none =>
              simp only [step, hresumable] at h
              cases h
  | rescheduling | losing =>
      simp only [step] at h
      split at h
      · cases h
      · split at h <;> cases h
  | releasing | returned | raised => cases h

/-! ## The holder's view stays true -/

/-- A thread that holds an attempt ends no other. -/
theorem Thread.Acts.ends_own {d : Deployment} {tid : ThreadId} {t : Tables} {th th' : Thread}
    {ev : Event} {e : Effect} (h : th.Acts d tid t ev e th') {job : Job} {p : Phase}
    (hphase : th.phase? = some (job, p)) {a : AttemptRow} (hends : e.Ends a) :
    a.attemptId = job.attemptId := by
  cases h with
  | finish | fail =>
      obtain ⟨rfl, rfl⟩ := Prod.mk.inj (Option.some.inj hphase)
      exact hends.symm
  | pass => cases hphase
  | _ => cases hends

namespace World

variable {d : Deployment} {w w' : World} {l : ThreadId × Event} {e : Effect}

/-- Nobody claims the stage of a run that is held. -/
theorem Excludes.unclaimed_of_held (h : w.Excludes) (hagree : Paired (fun r s ↦ s = r) w.tables)
    (he : e.Enabled w.tables) {s : StageRow} (hs : s ∈ w.tables.stages) {x : Holder}
    (hx : w.Holds s.runId x) :
    ∀ stage c attemptId now, e = .claim stage c attemptId now →
      stage.stageRunId ≠ s.stageRunId := by
  rintro stage c attemptId now rfl hid
  obtain rfl := h.sound.wellFormed.stageIds.eq_of_key (Table.mem_of_get? he.1) hs hid
  exact h.exclusive.not_free hx (free_of_claim h.sound.wellFormed hagree he).1

theorem Excludes.used_of_held (h : w.Excludes) (hagree : Paired (fun r s ↦ s = r) w.tables)
    (he : e.Enabled w.tables) {s : StageRow} (hs : s ∈ w.tables.stages) {x : Holder}
    (hx : w.Holds s.runId x) :
    (e.apply w.tables).used s.stageRunId = w.tables.used s.stageRunId :=
  used_apply (h.unclaimed_of_held hagree he hs hx)

theorem Budget.newest_act (h : w.Budget) (hex : w.Excludes)
    (hagree : Paired (fun r s ↦ s = r) w.tables) (he : e.Enabled w.tables) {runId : RunId}
    {a' : AttemptRow} (ha' : RunningIn (e.apply w.tables) runId a') :
    a'.attemptNumber = (e.apply w.tables).used a'.stageRunId := by
  rcases ha'.of_apply hex.sound.wellFormed hex.sound.noPending he with
    ⟨a, ha, _, rfl⟩ | ⟨stage, c, attemptId, now, rfl, rfl, _⟩
  · have hnumber := h.newest runId a ha
    obtain ⟨_, _, s, hs, hstage, rfl⟩ := id ha
    have hsame := hex.used_of_held hagree he hs (x := .inl a.attemptId) ⟨a, ha, rfl⟩
    rw [hstage] at hsame
    rw [Effect.onAttempt_attemptNumber, Effect.onAttempt_stageRunId, hnumber, hsame]
  · have hnumber : (w.tables.nextAttempt stage c attemptId now).attemptNumber =
        w.tables.maxAttemptNumber stage.stageRunId + 1 := rfl
    rw [hnumber, hex.sound.wellFormed.maxAttemptNumber_eq]
    exact used_claim.symm

theorem Budget.settled_act (h : w.Budget) (hex : w.Excludes)
    (hagree : Paired (fun r s ↦ s = r) w.tables) (hstep : w.step d l = some w')
    (hacts : (w.threads l.1).Acts d l.1 w.tables l.2 e (w'.threads l.1))
    (he : e.Enabled w.tables) {tid : ThreadId} {job : Job} {p' : Phase}
    (hphase : (w'.threads tid).phase? = some (job, p'))
    (howes : (w'.threads tid).Owes (e.apply w.tables) job.runId) :
    job.attempt.attemptNumber = (e.apply w.tables).used job.stage.stageRunId := by
  have hwf := hex.sound.wellFormed
  have hkeep : ∀ p, (w.threads tid).phase? = some (job, p) →
      (w.threads tid).Owes w.tables job.runId →
        job.attempt.attemptNumber = (e.apply w.tables).used job.stage.stageRunId := by
    intro p hold howed
    obtain ⟨_, ⟨s, hs, hrun⟩, _⟩ := hex.sound.jobs tid job p hold
    have hsame := hex.used_of_held hagree he (Table.mem_of_get? hs) (x := .inr tid) (hrun ▸ howed)
    rw [show s.stageRunId = job.stage.stageRunId from Table.key_of_get? hs] at hsame
    rw [hsame]
    exact h.settled tid job p hold howed
  rcases Sound.held_cases hstep hacts hphase with
    ⟨htid, hold⟩ | ⟨rfl, p, hold, _⟩ | ⟨_, _, _, _, _, _, _, _, rfl, _⟩
  · exact hkeep p' hold (owes_of_other hex.sound hstep hacts he htid howes)
  · rcases hacts.owes he hwf hex.sound.noPending (hex.sound.jobs l.1) (hex.sound.fits l.1)
      (hex.sound.rows l.1) howes with howed | ⟨a, ha, hends⟩
    · exact hkeep p hold howed
    · obtain ⟨⟨row, hrow, hstage, hnumber⟩, _, _⟩ := hex.sound.jobs l.1 job p hold
      have hid := hacts.ends_own hold hends
      obtain rfl := hwf.attempt_eq hrow ha.1 hid
      rw [← hnumber, ← hstage, used_apply, h.newest _ _ ha]
      rintro stage c attemptId now rfl
      cases hends
  · cases howes with
    | worker hphase' hsettles =>
        obtain ⟨_, rfl⟩ := Prod.mk.inj (Option.some.inj (hphase.symm.trans hphase'))
        cases hsettles
    | pass hpass => simp [Thread.pass?_of_phase? hphase] at hpass

/-- Room that a pass has found for a run it owes is still there after an effect. -/
theorem Budget.granted_other (h : w.Budget) (hex : w.Excludes)
    (hagree : Paired (fun r s ↦ s = r) w.tables) (he : e.Enabled w.tables) {tid : ThreadId}
    {ids : List AttemptId} {runId : RunId} {stageRunId : StageRunId} {runIds : List RunId}
    (hpass : (w.threads tid).pass? = some (.rescheduling ids runId stageRunId runIds))
    {r' : RunRow} (hr' : (e.apply w.tables).run? runId = some r') :
    ((e.apply w.tables).used stageRunId : Int) < r'.taskSpec.maxAttempts := by
  obtain ⟨s, hs, rfl⟩ := hex.sound.ownStage tid _ hpass
  have hmem := Table.mem_of_get? hs
  obtain ⟨r, hr⟩ := hex.sound.wellFormed.exists_run hmem
  obtain rfl := Option.some.inj ((run?_apply e hr).symm.trans hr')
  have howes : w.Holds s.runId (.inr tid) := .pass hpass List.mem_cons_self
  have hsame := hex.used_of_held hagree he hmem howes
  rw [show s.stageRunId = stageRunId from Table.key_of_get? hs] at hsame
  rw [hsame, Effect.onRun_taskSpec]
  exact h.granted tid ids s.runId stageRunId runIds hpass r hr

/-- Whoever puts a run back has room for it. -/
theorem Budget.reschedule_room (h : w.Budget) (hex : w.Excludes) {th' : Thread} {runId : RunId}
    {stageRunId : StageRunId} {reason : String}
    (hacts : (w.threads l.1).Acts d l.1 w.tables l.2 (.reschedule runId stageRunId reason) th') :
    (∃ s, w.tables.stage? stageRunId = some s ∧ s.runId = runId) ∧
      ∀ r, w.tables.run? runId = some r →
        (w.tables.used stageRunId : Int) < r.taskSpec.maxAttempts := by
  obtain ⟨tid, ev⟩ := l
  simp only at hacts
  generalize hth : w.threads tid = th at hacts
  cases hacts with
  | @reschedule job result r hretry =>
      have hphase : (w.threads tid).phase? = some (job, .settling) := by rw [hth]; rfl
      obtain ⟨⟨a, ha, _⟩, hstage, run, hrun, hspec⟩ := hex.sound.jobs tid job .settling hphase
      refine ⟨hstage, fun r hr ↦ ?_⟩
      obtain rfl := Option.some.inj (hrun.symm.trans hr)
      have hresulted : a.status.resulted = true := by
        rcases hex.sound.fits tid job .settling a hphase ha with hstatus | hstatus <;>
          simp [hstatus, AttemptStatus.resulted]
      have hnumber := h.settled tid job .settling hphase (.worker hphase rfl rfl ha hresulted)
      have hroom : (job.attempt.attemptNumber : Int) < job.run.taskSpec.maxAttempts := by
        simpa using (Bool.and_eq_true_iff.mp hretry).2
      rw [← hnumber, hspec]
      exact hroom
  | pass hemits =>
      cases hemits with
      | @reschedule ids runId stageRunId runIds =>
          have hpass : (w.threads tid).pass? =
              some (.rescheduling ids runId stageRunId runIds) := by rw [hth]; rfl
          exact ⟨hex.sound.ownStage tid _ hpass, h.granted tid _ _ _ _ hpass⟩

/-- A run that waits after an effect has room for an attempt. -/
theorem Budget.waiting_act (h : w.Budget) (hex : w.Excludes)
    {th' : Thread} (hacts : (w.threads l.1).Acts d l.1 w.tables l.2 e th')
    (he : e.Enabled w.tables) {r : RunRow} {s : StageRow} (hr : r ∈ w.tables.runs)
    (hs : s ∈ w.tables.stages) (hrun : s.runId = r.runId) {r' s' : RuntimeStatus}
    (hmoves : Moves w.tables r s e r' s') (hwaiting : r'.waiting = true)
    (hclaim : ∀ c attemptId now, e ≠ .claim s c attemptId now) :
    (w.tables.used s.stageRunId : Int) < r.taskSpec.maxAttempts := by
  have hwf := hex.sound.wellFormed
  cases hmoves with
  | keep | rescheduleStage => exact h.waiting r hr s hs hrun hwaiting
  | move =>
      rw [not_waiting_of_closed hacts.move_closed] at hwaiting
      cases hwaiting
  | fail => cases hwaiting
  | claim => exact absurd rfl (hclaim _ _ _)
  | reschedule => exact (h.reschedule_room hex hacts).2 r (hwf.run?_of_mem hr)
  | rescheduleRun _ hne =>
      obtain ⟨s', hs', hrun'⟩ := (h.reschedule_room hex hacts).1
      obtain rfl := hwf.stage_eq_of_run (Table.mem_of_get? hs') hs (hrun'.trans hrun.symm)
      exact absurd (Table.key_of_get? hs').symm hne
  | retry _ hlatest _ hbudget =>
      rwa [latestAttempt?_number hwf hlatest] at hbudget

theorem Budget.runs_act (h : w.Budget) (hex : w.Excludes)
    (hagree : Paired (fun r s ↦ s = r) w.tables)
    {th' : Thread} (hacts : (w.threads l.1).Acts d l.1 w.tables l.2 e th')
    (he : e.Enabled w.tables) {r' : RunRow} {s' : StageRow} (hr' : r' ∈ (e.apply w.tables).runs)
    (hs' : s' ∈ (e.apply w.tables).stages) (hrun' : s'.runId = r'.runId) :
    ((e.apply w.tables).used s'.stageRunId : Int) ≤ r'.taskSpec.maxAttempts ∧
      (r'.status.waiting = true →
        ((e.apply w.tables).used s'.stageRunId : Int) < r'.taskSpec.maxAttempts) := by
  have hwf := hex.sound.wellFormed
  rcases hwf.pair_cases he hr' hs' hrun' with
    ⟨r, hr, s, hs, hrun, rfl, rfl⟩ | ⟨a, pluginId, rfl, rfl, rfl⟩
  · rw [Effect.onStage_stageRunId, Effect.onRun_taskSpec]
    by_cases hclaim : ∃ c attemptId now, e = .claim s c attemptId now
    · obtain ⟨c, attemptId, now, rfl⟩ := hclaim
      have hsame := hagree r hr s hs hrun
      have hwaiting : r.status.waiting = true := waiting_of_claimable (hsame ▸ he.2.1)
      have hroom := h.waiting r hr s hs hrun hwaiting
      refine ⟨by rw [used_claim]; omega, fun hstill ↦ ?_⟩
      simp only [Effect.onRun, hrun, hwaiting, decide_true, Bool.and_self, if_true] at hstill
      cases hstill
    · push Not at hclaim
      have hsame : (e.apply w.tables).used s.stageRunId = w.tables.used s.stageRunId := by
        refine used_apply ?_
        rintro stage c attemptId now rfl hid
        obtain rfl := hwf.stageIds.eq_of_key (Table.mem_of_get? he.1) hs hid
        exact hclaim c attemptId now rfl
      rw [hsame]
      exact ⟨h.spent r hr s hs hrun, fun hwaiting ↦ h.waiting_act hex hacts he hr hs hrun
        (hwf.moves he hr hs hrun) hwaiting hclaim⟩
  · have hfresh : ∀ s ∈ w.tables.stages, s.stageRunId ≠ a.stageRunId :=
      Tables.fresh_of_refusesStage he.2.2
    have hmax : 0 < a.task.maxAttempts := he.1
    have hused : ((Effect.create a pluginId).apply w.tables).used a.stageRunId = 0 := by
      rw [used_apply (by simp)]
      exact used_fresh hwf hfresh
    simp only [Submission.stageRow, Submission.runRow, hused]
    exact ⟨by omega, fun _ ↦ by omega⟩

namespace Budget

theorem empty : World.Budget {} where
  spent _ h := by cases h
  waiting _ h := by cases h
  newest _ _ h := by cases h.1
  settled _ _ _ h := by cases h
  granted _ _ _ _ _ h := by cases h

theorem rest (h : w.Budget) (hex : w.Excludes) (hstep : w.step d l = some w')
    (hsame : w'.tables = w.tables)
    (hrests : (w.threads l.1).Rests w.tables (w'.threads l.1)) : w'.Budget := by
  refine ⟨?_, ?_, ?_, ?_, ?_⟩ <;> rw [hsame]
  · exact h.spent
  · exact h.waiting
  · exact h.newest
  · intro tid job p' hphase howes
    by_cases htid : tid = l.1
    · subst htid
      obtain ⟨p, hold, _⟩ := hrests.job hphase
      exact h.settled l.1 job p hold (hrests.owes (hex.sound.fits l.1) howes)
    · rw [step_other hstep htid] at hphase howes
      exact h.settled tid job p' hphase howes
  · intro tid ids runId stageRunId runIds hpass r hr
    by_cases htid : tid = l.1
    · subst htid
      rcases hrests.pass_cases hpass with ⟨reference, hstart⟩ | ⟨pass, now, gone, _, hnext, _⟩
      · cases hstart
      · exact resumable?_room (Pass.step_rescheduling hnext.symm).2 hr
    · rw [step_other hstep htid] at hpass
      exact h.granted tid ids runId stageRunId runIds hpass r hr

theorem act (h : w.Budget) (hex : w.Excludes) (hagree : Paired (fun r s ↦ s = r) w.tables)
    (hstep : w.step d l = some w')
    (hacts : (w.threads l.1).Acts d l.1 w.tables l.2 e (w'.threads l.1))
    (he : e.Enabled w.tables) (happly : w'.tables = e.apply w.tables) : w'.Budget := by
  refine ⟨?_, ?_, ?_, ?_, ?_⟩ <;> rw [happly]
  · exact fun r hr s hs hrun ↦ (h.runs_act hex hagree hacts he hr hs hrun).1
  · exact fun r hr s hs hrun ↦ (h.runs_act hex hagree hacts he hr hs hrun).2
  · exact fun runId a ha ↦ h.newest_act hex hagree he ha
  · exact fun tid job p hphase howes ↦ h.settled_act hex hagree hstep hacts he hphase howes
  · intro tid ids runId stageRunId runIds hpass r hr
    by_cases htid : tid = l.1
    · subst htid
      obtain ⟨pass, now, gone, _, hnext, htables, _⟩ := hacts.pass_step hpass
      obtain ⟨hsame, hresumable⟩ := Pass.step_rescheduling hnext.symm
      rw [← htables, hsame] at hr ⊢
      exact resumable?_room hresumable hr
    · rw [step_other hstep htid] at hpass
      exact h.granted_other hex hagree he hpass hr

theorem of_reachable (h : ReachableBy (World.step d) (fun w l ↦ w.failsReclaimed l = false) {} w) :
    w.Budget := by
  induction h with
  | init => exact empty
  | next hs _ hstep ih =>
      have hex := Excludes.of_reachable hs
      rcases step_turn hstep with ⟨hsame, hrests⟩ | ⟨e, hacts, he, happly⟩
      · exact ih.rest hex hstep hsame hrests
      · exact ih.act hex (agree_of_reachable hs) hstep hacts he happly

end Budget

end World

/-! ## Over a whole history -/

/-- The attempts of every stage are numbered from one, without gaps, up to at most
the budget of its run. -/
def WithinAttempts (t : Tables) : Prop :=
  ∀ r ∈ t.runs, ∀ s ∈ t.stages, s.runId = r.runId →
    ∃ n : Nat, (t.attemptsOf s.stageRunId).map AttemptRow.attemptNumber = List.range' 1 n ∧
      (n : Int) ≤ r.taskSpec.maxAttempts

/-- In a history without a worker that fails the run of an attempt it has lost, no
run ever has more attempts than its budget. -/
theorem attempts_within_budget (d : Deployment) (history : List (ThreadId × Event))
    (hnone : ∀ w l w', Takes (World.step d) {} history w l w' → w.failsReclaimed l = false)
    (w : World) (hw : Visits (World.step d) {} history w) : WithinAttempts w.tables := by
  intro r hr s hs hrun
  have hreach := hw.reachableBy hnone
  have hwf := (World.Excludes.of_reachable hreach).sound.wellFormed
  exact ⟨_, hwf.numbered s.stageRunId, (World.Budget.of_reachable hreach).spent r hr s hs hrun⟩

theorem attempts_within_budget_resumed :
    (run (World.step Sample.deployment) {} Sample.resumed).isSome = true ∧
      ∀ w, Visits (World.step Sample.deployment) {} Sample.resumed w → WithinAttempts w.tables := by
  refine ⟨by decide +kernel, attempts_within_budget Sample.deployment Sample.resumed ?_⟩
  have hnone : allSteps (World.step Sample.deployment) (fun w l ↦ !w.failsReclaimed l) {}
      Sample.resumed = true := by decide +kernel
  intro w l w' htakes
  simpa using htakes.of_allSteps hnone

/-- A third attempt of a run that may have two. -/
theorem attempt_beyond_budget :
    ¬∀ (d : Deployment) (history : List (ThreadId × Event)) w,
      Visits (World.step d) {} history w → WithinAttempts w.tables := by
  intro hclaim
  have hends : (run (World.step Sample.deployment) {} (Sample.doubled 2)).any (fun w ↦
      w.tables.runs.any fun r ↦ w.tables.stages.any fun s ↦ s.runId = r.runId &&
        r.taskSpec.maxAttempts < (w.tables.attemptsOf s.stageRunId).length) = true := by
    decide +kernel
  obtain ⟨w, hw, hbeyond⟩ := Visits.of_any hends
  obtain ⟨r, hr, s, hs, hrun, hmany⟩ : ∃ r ∈ w.tables.runs, ∃ s ∈ w.tables.stages,
      s.runId = r.runId ∧
        r.taskSpec.maxAttempts < (w.tables.attemptsOf s.stageRunId).length := by
    simpa using hbeyond
  obtain ⟨n, hnumbered, hn⟩ := hclaim Sample.deployment _ w hw r hr s hs hrun
  have hlength := congrArg List.length hnumbered
  simp only [List.length_map, List.length_range'] at hlength
  omega

end ChipEvolve
