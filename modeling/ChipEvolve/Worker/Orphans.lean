import ChipEvolve.Worker.Sound
import ChipEvolve.Store.Running

/-!
# Runs that nobody will finish

A run whose status is `running` is found again only through a running attempt
with a lease.  The attempt and its run end in separate commits, so a process
that stops between the two leaves the run behind.
-/

namespace ChipEvolve

open Machine Sql

/-- Every `running` run has a running attempt. -/
def NoOrphan (t : Tables) : Prop :=
  ∀ r ∈ t.runs, r.status = .running → ∃ a, RunningIn t r.runId a

namespace Tables

/-- The attempt is running, so is its run, and no other attempt of the stage is. -/
def lastRunning (t : Tables) (attemptId : AttemptId) : Bool :=
  (t.attempt? attemptId).any fun a ↦ a.status = .running &&
    ((t.stage? a.stageRunId).bind fun s ↦ t.runStatus? s.runId) = some .running &&
    !t.attempts.any fun b ↦
      b.attemptId ≠ attemptId && b.stageRunId = a.stageRunId && b.status = .running

end Tables

/-- The next statement ends the last running attempt of a `running` run: through
`finish_attempt`, or because a reclaim pass marks it `lost`. -/
def World.endsLast (w : World) (l : ThreadId × Event) : Bool :=
  match w.threads l.1, l.2 with
  | .finishing job _, .next _ => w.tables.lastRunning job.attemptId
  | .failing job _, .next _ => w.tables.lastRunning job.attemptId
  | .reclaiming (.fencing reference (row :: _) _ _), .next r =>
      fenceExpiredProcess row r.gone && 0 < w.tables.lapsed row.attemptId reference &&
        w.tables.lastRunning row.attemptId
  | _, _ => false

theorem lastRunning_iff {t : Tables} {a : AttemptRow} (ha : t.attempt? a.attemptId = some a) :
    t.lastRunning a.attemptId = true ↔
      a.status = .running ∧
        (∃ s r, t.stage? a.stageRunId = some s ∧ t.run? s.runId = some r ∧ r.status = .running) ∧
        ∀ b ∈ t.attempts, b.stageRunId = a.stageRunId → b.status = .running →
          b.attemptId = a.attemptId := by
  simp only [Tables.lastRunning, ha, Option.any_some, Bool.and_eq_true, decide_eq_true_eq,
    Bool.not_eq_true', List.any_eq_false, Tables.runStatus?, Option.bind_eq_some_iff,
    Option.map_eq_some_iff, and_assoc]
  refine and_congr_right fun _ ↦ and_congr ?_ ?_
  · simp only [exists_and_left]
  · grind

/-! ## One effect -/

/-- A run that is `running` was so before, or its stage has just been claimed. -/
theorem Moves.of_running {t : Tables} {r : RunRow} {s : StageRow} {e : Effect}
    {r' s' : RuntimeStatus} (h : Moves t r s e r' s')
    (hmove : ∀ runId target reason now, e = .move runId target reason now → target ≠ .running)
    (hrunning : r' = .running) :
    r.status = .running ∨ ∃ c attemptId now, e = .claim s c attemptId now := by
  cases h with
  | keep | rescheduleStage => exact .inl hrunning
  | move => exact absurd hrunning (hmove _ _ _ _ rfl)
  | claim => exact .inr ⟨_, _, _, rfl⟩
  | fail | reschedule | rescheduleRun | retry => cases hrunning

/-- A run that is `running` after an effect was so before, or has an attempt that was just
claimed. -/
theorem running_or_claimed {t : Tables} (hwf : WellFormed t) {e : Effect} (he : e.Enabled t)
    (hmove : ∀ runId target reason now, e = .move runId target reason now → target ≠ .running)
    {r' : RunRow} (hr' : r' ∈ (e.apply t).runs) (hrunning' : r'.status = .running) :
    (∃ r ∈ t.runs, r.runId = r'.runId ∧ r.status = .running) ∨
      ∃ a, RunningIn (e.apply t) r'.runId a := by
  rw [e.runs_apply, List.mem_append, List.mem_map] at hr'
  rcases hr' with ⟨r, hr, rfl⟩ | hnew
  swap
  · cases e with
    | create a pluginId =>
        obtain rfl := List.mem_singleton.mp hnew
        cases hrunning'
    | _ => cases hnew
  obtain ⟨s, hs⟩ := hwf.exists_stage (hwf.run?_of_mem hr)
  have hsMem := Table.mem_of_get? hs
  have hsRun : s.runId = r.runId := Table.key_of_get? hs
  rcases (hwf.moves he hr hsMem hsRun).of_running hmove hrunning' with
    hrunning | ⟨c, attemptId, now, rfl⟩
  · exact .inl ⟨r, hr, by simp, hrunning⟩
  · refine .inr ⟨t.nextAttempt s c attemptId now, ?_, rfl,
      (Effect.claim s c attemptId now).onStage s, ?_, by simp; rfl, by simpa using hsRun⟩
    · rw [Effect.attempts_apply]
      exact List.mem_append_right _ (List.mem_singleton_self _)
    · rw [Effect.stages_apply]
      exact List.mem_append_left _ (List.mem_map_of_mem hsMem)

theorem NoOrphan.apply {t : Tables} (h : NoOrphan t) (hwf : WellFormed t) (hpending : NoPending t)
    {e : Effect} (he : e.Enabled t)
    (hmove : ∀ runId target reason now, e = .move runId target reason now → target ≠ .running)
    (hlast : ∀ a ∈ t.attempts, a.status = .running → e.Ends a →
      t.lastRunning a.attemptId = false) : NoOrphan (e.apply t) := by
  intro r' hr' hrunning'
  rcases running_or_claimed hwf he hmove hr' hrunning' with ⟨r, hr, hid, hrunning⟩ | hclaimed
  swap
  · exact hclaimed
  rw [← hid]
  obtain ⟨a, ha, haRunning, s₁, hs₁, hstage, hrun⟩ := h r hr hrunning
  by_cases hends : e.Ends a
  · -- the attempt that carried the run ends here, so another one does
    have hnot := (lastRunning_iff (hwf.attempt?_of_mem ha)).not.mp
      (by simp [hlast a ha haRunning hends])
    push Not at hnot
    have hrow : t.stage? a.stageRunId = some s₁ := hstage ▸ hwf.stage?_of_mem hs₁
    obtain ⟨b, hb, hbStage, hbRunning, hne⟩ := hnot haRunning
      ⟨s₁, r, hrow, hrun ▸ hwf.run?_of_mem hr, hrunning⟩
    have hstill := running_of_not_ends hwf hpending he hb hbRunning
      fun hends' ↦ hne (hends.attemptId_eq hends')
    exact ⟨_, RunningIn.apply ⟨hb, hbRunning, s₁, hs₁, hstage.trans hbStage.symm, hrun⟩ hstill⟩
  · have hstill := running_of_not_ends hwf hpending he ha haRunning hends
    exact ⟨_, RunningIn.apply ⟨ha, haRunning, s₁, hs₁, hstage, hrun⟩ hstill⟩

/-- Ending the last running attempt orphans the run. -/
theorem not_noOrphan_of_ends {t : Tables} (hwf : WellFormed t) (hpending : NoPending t) {e : Effect}
    (he : e.Enabled t) {a : AttemptRow} (ha : a ∈ t.attempts) (hends : e.Ends a)
    (hlast : t.lastRunning a.attemptId = true) : ¬NoOrphan (e.apply t) := by
  intro hnone
  obtain ⟨_, ⟨s, r, hs, hr, hrunning⟩, honly⟩ :=
    (lastRunning_iff (hwf.attempt?_of_mem ha)).mp hlast
  obtain ⟨hruns, hstages⟩ := hends.frame t
  obtain ⟨b', hb', hbRunning, s', hs', hstage, hrun⟩ :=
    hnone r (hruns ▸ Table.mem_of_get? hr) hrunning
  rw [hstages] at hs'
  have hrKey : r.runId = s.runId := Table.key_of_get? hr
  have hsKey : s.stageRunId = a.stageRunId := Table.key_of_get? hs
  obtain rfl := hwf.stage_eq_of_run hs' (Table.mem_of_get? hs) (hrun.trans hrKey)
  rcases attempt_cases hb' with ⟨b, hb, rfl⟩ | ⟨_, _, _, _, rfl, _⟩
  · rw [Effect.onAttempt_stageRunId] at hstage
    have hbOld := (hwf.attemptMoves hpending he hb).running hbRunning
    have hid := honly b hb (hstage.symm.trans hsKey) hbOld
    obtain rfl := hwf.attemptIds.eq_of_key hb ha hid
    exact hends.not_running hwf hpending he hb hbRunning
  · cases hends

/-! ## One statement -/

namespace World

variable {d : Deployment} {w w' : World} {l : ThreadId × Event}

/-- A statement that ends an attempt is one that `endsLast` looks at. -/
theorem not_last_of_acts {e : Effect} {th' : Thread}
    (hacts : (w.threads l.1).Acts d l.1 w.tables l.2 e th') (hnot : w.endsLast l = false)
    {a : AttemptRow} (ha : a ∈ w.tables.attempts) (hends : e.Ends a) :
    w.tables.lastRunning a.attemptId = false := by
  obtain ⟨tid, ev⟩ := l
  simp only at hacts
  generalize hth : w.threads tid = th at hacts
  cases hacts with
  | finish | fail =>
      rw [← show _ = a.attemptId from hends]
      simpa [endsLast, hth] using hnot
  | pass hemits =>
      cases hemits with
      | lose hfenced =>
          obtain ⟨hid, hexpired⟩ := hends
          have hlapsed : 0 < w.tables.lapsed a.attemptId _ :=
            List.countP_pos_iff.mpr ⟨a, ha, by simpa using hexpired⟩
          simpa [endsLast, hth, hfenced, hid, hlapsed] using hnot
      | release | reschedule | settle => cases hends
  | _ => cases hends

theorem lastRunning_row {t : Tables} {attemptId : AttemptId} (h : t.lastRunning attemptId = true) :
    ∃ a, t.attempt? attemptId = some a ∧ a.status = .running := by
  obtain ⟨a, ha, hlast⟩ := (Option.any_eq_true _ _).mp h
  exact ⟨a, ha, by simp_all⟩

/-- `finish_attempt` succeeds on an attempt that is running. -/
theorem finishAttempt_commits {t : Tables} {attemptId : AttemptId} {a : AttemptRow}
    (ha : t.attempt? attemptId = some a) (hrunning : a.status = .running) {status : AttemptStatus}
    (hstatus : status = .succeeded ∨ status = .failed) (ending : Ending) (now : Timestamp) :
    Commits (finishAttempt attemptId status ending now) t (.finish attemptId status ending now)
      (.ok ()) := by
  have he : (Effect.finish attemptId status ending now).Enabled t := by
    refine ⟨a, ha, ?_⟩
    rcases hstatus with rfl | rfl <;> rw [hrunning] <;> rfl
  rcases finishAttempt_cases t attemptId status ending now with ⟨hnot, _⟩ | hcommits
  · exact absurd he hnot
  · exact hcommits

/-- What `endsLast` announces is done. -/
theorem endsLast_step (hlast : w.endsLast l = true) (hstep : w.step d l = some w') :
    ∃ (e : Effect) (a : AttemptRow), e.Enabled w.tables ∧ a ∈ w.tables.attempts ∧ e.Ends a ∧
      w.tables.lastRunning a.attemptId = true ∧ w'.tables = e.apply w.tables := by
  obtain ⟨next, hnext, rfl⟩ := Option.map_eq_some_iff.mp hstep
  unfold endsLast at hlast
  split at hlast
  · rename_i job result r hth hev
    obtain ⟨a, ha, hrunning⟩ := lastRunning_row hlast
    have hid : a.attemptId = job.attemptId := Table.key_of_get? ha
    have hcommits := finishAttempt_commits ha hrunning (attemptStatus_cases result.status)
      result.ending r.now
    simp only [hth, hev, Thread.step, Thread.request, Thread.select, Thread.work, hcommits.exec,
      Option.orElse_none] at hnext
    obtain rfl := Option.some.inj hnext
    exact ⟨_, a, hcommits.1, Table.mem_of_get? ha, hid.symm, by rwa [hid], rfl⟩
  · rename_i job message r hth hev
    obtain ⟨a, ha, hrunning⟩ := lastRunning_row hlast
    have hid : a.attemptId = job.attemptId := Table.key_of_get? ha
    have hcommits := finishAttempt_commits ha hrunning (.inr rfl)
      { exitCode := some 1, failure := some (runtimeFailure message r.evidenceError) } r.now
    simp only [hth, hev, Thread.step, Thread.request, Thread.select, Thread.work, Thread.recover,
      hcommits.exec, Option.orElse_none] at hnext
    obtain rfl := Option.some.inj hnext
    exact ⟨_, a, hcommits.1, Table.mem_of_get? ha, hid.symm, by rwa [hid], rfl⟩
  · rename_i reference row rows ids runIds r hth hev
    simp only [Bool.and_eq_true, decide_eq_true_eq] at hlast
    obtain ⟨⟨hfenced, hlapsed⟩, hlast⟩ := hlast
    obtain ⟨a, ha, hmeets⟩ := List.countP_pos_iff.mp hlapsed
    obtain ⟨hid, hexpired⟩ : a.attemptId = row.attemptId ∧ a.expired reference = true := by
      simpa using hmeets
    refine ⟨.lose row.attemptId reference, a, trivial, ha, ⟨hid.symm, hexpired⟩, by rwa [hid], ?_⟩
    rw [hth, hev] at hnext
    obtain rfl := Option.some.inj hnext
    simp only [Pass.step, hfenced, if_true,
      (markLost_commits w.tables row.attemptId reference).exec]
    split <;> simp_all
  · cases hlast

end World

/-! ## Over a whole history -/

/-- No run is ever orphaned in a history exactly when no statement of it ends the
last running attempt of a run that is still `running`. -/
theorem no_orphaned_run_iff (d : Deployment) (history : List (ThreadId × Event)) :
    (∀ w, Visits (World.step d) {} history w → NoOrphan w.tables) ↔
      ∀ w l w', Takes (World.step d) {} history w l w' → w.endsLast l = false := by
  constructor
  · intro hnone w l w' htakes
    have hsound : w.Sound := .of_reachable htakes.visits_left.reachable
    by_contra hlast
    obtain ⟨e, a, he, ha, hends, hlast, happly⟩ :=
      World.endsLast_step (by simpa using hlast) htakes.step_eq
    refine not_noOrphan_of_ends hsound.wellFormed hsound.noPending he ha hends hlast ?_
    rw [← happly]
    exact hnone w' htakes.visits_right
  · intro hnot w hw
    have hreach : ReachableBy (World.step d) (fun w l ↦ w.endsLast l = false) {} w :=
      hw.reachableBy hnot
    have hboth : w.Sound ∧ NoOrphan w.tables := by
      refine hreach.invariant (P := fun w ↦ w.Sound ∧ NoOrphan w.tables)
        ⟨.empty, by simp [NoOrphan]⟩ ?_
      rintro w l w' ⟨hsound, hnone⟩ hlast hstep
      refine ⟨hsound.step hstep, ?_⟩
      rcases World.step_turn hstep with ⟨hsame, _⟩ | ⟨e, hacts, he, happly⟩
      · rwa [show w'.tables = w.tables from hsame]
      · rw [show w'.tables = e.apply w.tables from happly]
        refine hnone.apply hsound.wellFormed hsound.noPending he ?_ ?_
        · rintro runId target reason now rfl
          exact ne_running_of_closed hacts.move_closed
        · intro a ha _ hends
          exact World.not_last_of_acts hacts hlast ha hends
    exact hboth.2

def Sample.success : PluginResult where
  status := .succeeded
  exitCode := 0
  statusValid := .inl rfl
  exitCodeValid _ := rfl

/-- A worker that stops after `finish_attempt`, before it moves the run. -/
def Sample.stopped : List (ThreadId × Event) :=
  [(9, .submit (Sample.submission 2))] ++ Sample.starts 0 "a1" 0 ++ [(0, .done Sample.success)] ++
    Sample.goesOn 0 1 100000

/-- Its run stays `running` without a running attempt. -/
theorem run_outlives_its_attempt :
    ¬∀ (d : Deployment) (history : List (ThreadId × Event)) w,
      Visits (World.step d) {} history w → NoOrphan w.tables := by
  intro hclaim
  have hends : (run (World.step Sample.deployment) {} Sample.stopped).any (fun w ↦
      w.tables.runs.any (fun r ↦ r.status = .running) &&
        w.tables.attempts.all fun a ↦ a.status ≠ .running) = true := by decide +kernel
  obtain ⟨w, hw, hstuck⟩ := Visits.of_any hends
  obtain ⟨⟨r, hr, hrunning⟩, hnone⟩ : (∃ r ∈ w.tables.runs, r.status = .running) ∧
      ∀ a ∈ w.tables.attempts, a.status ≠ .running := by simpa using hstuck
  obtain ⟨a, ha, hstatus, _⟩ := hclaim Sample.deployment Sample.stopped w hw r hr hrunning
  exact hnone a ha hstatus

end ChipEvolve
