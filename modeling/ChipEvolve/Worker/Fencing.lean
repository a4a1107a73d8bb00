import ChipEvolve.Worker.Sound

/-!
# Fencing of a reclaimed worker

A worker whose attempt a reclaim pass has marked `lost` still unwinds
`execute_once_reporting`.  What it must not do by then is touch a run that has
gone on to a newer attempt.  `_record_runtime_failure` asks only whether the run
is `running`, not whose attempt made it so; the theorem says exactly which
statements of such a worker do the damage.
-/

namespace ChipEvolve

open Machine Sql

namespace Tables

/-- A newer attempt of the same stage exists. -/
def superseded (t : Tables) (job : Job) : Bool :=
  t.attempts.any fun a ↦ a.stageRunId = job.stage.stageRunId &&
    job.attempt.attemptNumber < a.attemptNumber

def isLost (t : Tables) (attemptId : AttemptId) : Bool :=
  (t.attempt? attemptId).any fun a ↦ a.status = .lost

end Tables

/-- The attempt a thread still works on although it is `lost`. -/
def World.lostJob? (w : World) (tid : ThreadId) : Option Job :=
  match (w.threads tid).phase? with
  | some (job, _) => if w.tables.isLost job.attemptId then some job else none
  | none => none

/-- What a step of a reclaimed worker must leave alone. -/
structure Fenced (t : Tables) (job : Job) (t' : Tables) : Prop where
  superseded : t.superseded job = true →
    t'.runStatus? job.runId = t.runStatus? job.runId ∧
      t'.stageStatus? job.stage.stageRunId = t.stageStatus? job.stage.stageRunId
  running : t.hasRunningAttempt job.runId = true → t'.runStatus? job.runId = some .failed →
    t.runStatus? job.runId = some .failed

/-- The status the next statement of a reclaimed worker would write into its run,
if the store lets it. -/
def Thread.writes? (t : Tables) : Thread → Event → Option RuntimeStatus
  | terminating job, .next _ =>
      if (t.runStatus? job.runId).any fun status ↦ runTransitionAllowed status .failed then
        some .failed
      else none
  | relaying job, .next _ =>
      if (t.runStatus? job.runId).any fun status ↦ runTransitionAllowed status .cancelRequested then
        some .cancelRequested
      else none
  | aborted job message, .next r =>
      if (t.runStatus? job.runId).any RuntimeStatus.waiting && message ≠ "" &&
          !t.refusesEvent (preflightEvent job.runId "preflight_error" message r.fresh r.now) then
        some .failed
      else none
  | _, _ => none

/-- A reclaimed worker writes the status of a run it no longer has: a newer
attempt exists, or it fails the run over an attempt that is running. -/
def World.overrides (w : World) (l : ThreadId × Event) : Bool :=
  match w.lostJob? l.1, (w.threads l.1).writes? w.tables l.2 with
  | some job, some target =>
      w.tables.superseded job || (target = .failed && w.tables.hasRunningAttempt job.runId)
  | _, _ => false

theorem Fenced.refl (t : Tables) (job : Job) : Fenced t job t where
  superseded _ := ⟨rfl, rfl⟩
  running _ h := h

/-- An effect that leaves the runs and the stages alone. -/
theorem Fenced.of_frame {t t' : Tables} {job : Job} (hruns : t'.runs = t.runs)
    (hstages : t'.stages = t.stages) : Fenced t job t' where
  superseded _ := by simp only [Tables.runStatus?, Tables.run?, hruns, Tables.stageStatus?,
    Tables.stage?, hstages, and_self]
  running _ h := by simpa only [Tables.runStatus?, Tables.run?, hruns] using h

/-- Writing `target` is harmless exactly when nobody depends on the run. -/
theorem Fenced.of_target {t t' : Tables} {job : Job} {target : RuntimeStatus}
    (htarget : t'.runStatus? job.runId = some target)
    (hnone : (t.superseded job || (target = .failed && t.hasRunningAttempt job.runId)) = false) :
    Fenced t job t' := by
  obtain ⟨hsuperseded, hrunning⟩ := Bool.or_eq_false_iff.mp hnone
  refine ⟨fun h ↦ ?_, fun h hfailed ↦ ?_⟩
  · cases hsuperseded.symm.trans h
  · obtain rfl := Option.some.inj (htarget.symm.trans hfailed)
    simp [h] at hrunning

theorem not_fenced_of_target {t t' : Tables} {job : Job} {target : RuntimeStatus}
    (htarget : t'.runStatus? job.runId = some target)
    (hnew : t.runStatus? job.runId ≠ some target)
    (hsome : (t.superseded job || (target = .failed && t.hasRunningAttempt job.runId)) = true) :
    ¬Fenced t job t' := by
  intro hfenced
  rcases Bool.or_eq_true_iff.mp hsome with hsuperseded | hfailed
  · have hsame := (hfenced.superseded hsuperseded).1
    exact hnew (hsame.symm.trans htarget)
  · obtain ⟨rfl, hrunning⟩ : target = .failed ∧ t.hasRunningAttempt job.runId = true := by
      simpa using hfailed
    exact hnew (hfenced.running hrunning htarget)

/-! ## What the writes do -/

theorem move_enabled_iff {t : Tables} {runId : RunId} {target : RuntimeStatus}
    {reason : Option String} {now : Timestamp} :
    (Effect.move runId target reason now).Enabled t ↔
      ((t.runStatus? runId).any fun status ↦ runTransitionAllowed status target) = true := by
  cases hrow : t.run? runId <;> simp [Effect.Enabled, Tables.runStatus?, hrow]

theorem runStatus?_move {t : Tables} {runId : RunId} {target : RuntimeStatus}
    {reason : Option String} {now : Timestamp} (he : (Effect.move runId target reason now).Enabled t) :
    ((Effect.move runId target reason now).apply t).runStatus? runId = some target ∧
      t.runStatus? runId ≠ some target := by
  obtain ⟨row, hrow, hallowed⟩ := he
  have hkey : row.runId = runId := Table.key_of_get? hrow
  refine ⟨by simp [Tables.runStatus?, run?_apply _ hrow, Effect.onRun, hkey, RunRow.moved], ?_⟩
  intro hsame
  have hstatus : row.status = target := by simpa [Tables.runStatus?, hrow] using hsame
  exact not_allowed_self target (hstatus ▸ hallowed)

theorem failEarly_enabled_iff {t : Tables} {runId : RunId} {message eventId : String}
    {now : Timestamp} :
    (Effect.failEarly runId "preflight_error" message eventId now).Enabled t ↔
      ((t.runStatus? runId).any RuntimeStatus.waiting && message ≠ "" &&
        !t.refusesEvent (preflightEvent runId "preflight_error" message eventId now)) = true := by
  cases hrow : t.run? runId with
  | none => simp [Effect.Enabled, Tables.runStatus?, hrow]
  | some row =>
      simp [Effect.Enabled, Tables.runStatus?, hrow]
      tauto

theorem runStatus?_failEarly {t : Tables} {runId : RunId} {category message eventId : String}
    {now : Timestamp} (he : (Effect.failEarly runId category message eventId now).Enabled t) :
    ((Effect.failEarly runId category message eventId now).apply t).runStatus? runId =
        some .failed ∧ t.runStatus? runId ≠ some .failed := by
  obtain ⟨_, _, row, hrow, hwaiting⟩ := he
  have hkey : row.runId = runId := Table.key_of_get? hrow
  refine ⟨by simp [Tables.runStatus?, run?_apply _ hrow, Effect.onRun, hkey, RunRow.failedEarly],
    ?_⟩
  intro hsame
  have hstatus : row.status = .failed := by simpa [Tables.runStatus?, hrow] using hsame
  rw [hstatus] at hwaiting
  cases hwaiting

namespace Thread

variable {d : Deployment} {tid : ThreadId} {t : Tables} {th th' : Thread} {ev : Event}
  {e : Effect} {job : Job} {p : Phase} {target : RuntimeStatus} {next : Thread × Tables}

/-- A thread that holds an attempt leaves runs and stages alone, or writes the
status of its own run, or settles the attempt it has finished. -/
theorem Acts.held_cases (hacts : th.Acts d tid t ev e th') (he : e.Enabled t)
    (hjob : th.phase? = some (job, p)) :
    ((e.apply t).runs = t.runs ∧ (e.apply t).stages = t.stages) ∨
      (∃ target, th.writes? t ev = some target ∧
        (e.apply t).runStatus? job.runId = some target) ∨
      p = .settling := by
  cases hacts with
  | attach | beat | finish | fail => exact .inl ⟨rfl, rfl⟩
  | relay | terminate =>
      obtain ⟨rfl, rfl⟩ := Prod.mk.inj (Option.some.inj hjob)
      exact .inr (.inl ⟨_, if_pos (move_enabled_iff.mp he), (runStatus?_move he).1⟩)
  | abort =>
      obtain ⟨rfl, rfl⟩ := Prod.mk.inj (Option.some.inj hjob)
      exact .inr (.inl ⟨_, if_pos (failEarly_enabled_iff.mp he), (runStatus?_failEarly he).1⟩)
  | reschedule | settle =>
      obtain ⟨rfl, rfl⟩ := Prod.mk.inj (Option.some.inj hjob)
      exact .inr (.inr rfl)
  | submit | retry | cancel | precancel | claim | escape | drop | pass => cases hjob

/-- What `writes?` announces is written. -/
theorem step_writes (hjob : th.phase? = some (job, p)) (hwrites : th.writes? t ev = some target)
    (hstep : th.step d tid t ev = some next) :
    next.2.runStatus? job.runId = some target ∧ t.runStatus? job.runId ≠ some target := by
  unfold writes? at hwrites
  split at hwrites
  · rename_i job' r
    obtain ⟨rfl, rfl⟩ := Prod.mk.inj (Option.some.inj hjob)
    obtain ⟨hallowed, hsome⟩ := Option.ite_none_right_eq_some.mp hwrites
    obtain rfl := Option.some.inj hsome
    have he : (Effect.move job'.runId .failed (some "runtime_error") r.now).Enabled t :=
      move_enabled_iff.mpr hallowed
    rcases transitionRun_cases t job'.runId .failed (some "runtime_error") r.now with
      ⟨hnot, _⟩ | hcommits
    · exact absurd he hnot
    · simp only [step, request, select, work, recover, hcommits.exec, Option.orElse_none] at hstep
      obtain rfl := Option.some.inj hstep
      exact runStatus?_move he
  · rename_i job' r
    obtain ⟨rfl, rfl⟩ := Prod.mk.inj (Option.some.inj hjob)
    obtain ⟨hallowed, hsome⟩ := Option.ite_none_right_eq_some.mp hwrites
    obtain rfl := Option.some.inj hsome
    have he : (Effect.move job'.runId .cancelRequested (some cancelReason) r.now).Enabled t :=
      move_enabled_iff.mpr hallowed
    rcases transitionRun_cases t job'.runId .cancelRequested (some cancelReason) r.now with
      ⟨hnot, _⟩ | hcommits
    · exact absurd he hnot
    · simp only [step, request, select, work, hcommits.exec, Option.orElse_none] at hstep
      obtain rfl := Option.some.inj hstep
      exact runStatus?_move he
  · rename_i job' message r
    obtain ⟨rfl, rfl⟩ := Prod.mk.inj (Option.some.inj hjob)
    obtain ⟨hwaiting, hsome⟩ := Option.ite_none_right_eq_some.mp hwrites
    obtain rfl := Option.some.inj hsome
    have he := failEarly_enabled_iff.mpr hwaiting
    obtain rfl := Option.some.inj hstep
    rcases failQueuedRun_cases t job'.runId "preflight_error" message r.fresh r.now with
      ⟨hnot, _⟩ | hcommits
    · exact absurd he hnot
    · rw [hcommits.exec]
      exact runStatus?_failEarly he
  · cases hwrites

end Thread

/-! ## Over a whole history -/

namespace World

variable {d : Deployment} {w w' : World} {l : ThreadId × Event} {job : Job}

theorem lostJob?_eq_some (h : w.lostJob? l.1 = some job) :
    ∃ p a, (w.threads l.1).phase? = some (job, p) ∧ w.tables.attempt? job.attemptId = some a ∧
      a.status = .lost := by
  unfold lostJob? at h
  split at h
  · rename_i job' p hphase
    obtain ⟨hlost, hsome⟩ := Option.ite_none_right_eq_some.mp h
    obtain rfl := Option.some.inj hsome
    obtain ⟨a, ha, hstatus⟩ := (Option.any_eq_true _ _).mp hlost
    exact ⟨p, a, hphase, ha, by simpa using hstatus⟩
  · cases h

/-- A statement of a reclaimed worker that overrides nothing is harmless. -/
theorem fenced_of_not_overrides (hsound : w.Sound) (hstep : w.step d l = some w')
    (hnot : w.overrides l = false) (hlost : w.lostJob? l.1 = some job) :
    Fenced w.tables job w'.tables := by
  obtain ⟨p, a, hphase, ha, hstatus⟩ := lostJob?_eq_some hlost
  rcases step_turn hstep with ⟨hsame, _⟩ | ⟨e, hacts, he, happly⟩
  · rw [show w'.tables = w.tables from hsame]
    exact .refl _ _
  simp only at happly
  rw [happly]
  rcases hacts.held_cases he hphase with ⟨hruns, hstages⟩ | ⟨target, hwrites, htarget⟩ | rfl
  · exact .of_frame hruns hstages
  · refine .of_target htarget ?_
    simpa [overrides, hlost, hwrites] using hnot
  · have hfits := hsound.fits l.1 job .settling a hphase ha
    simp [Phase.Fits, hstatus] at hfits

theorem not_fenced_of_overrides (hstep : w.step d l = some w') (hover : w.overrides l = true) :
    ∃ job, w.lostJob? l.1 = some job ∧ ¬Fenced w.tables job w'.tables := by
  unfold overrides at hover
  split at hover
  · rename_i job target hlost hwrites
    obtain ⟨p, a, hphase, _⟩ := lostJob?_eq_some hlost
    obtain ⟨next, hnext, rfl⟩ := Option.map_eq_some_iff.mp hstep
    obtain ⟨htarget, hnew⟩ := Thread.step_writes hphase hwrites hnext
    exact ⟨job, hlost, not_fenced_of_target htarget hnew hover⟩
  · cases hover

end World

/-- Every step of every reclaimed worker of a history is fenced exactly when none
of them writes the status of a run that has gone on without it. -/
theorem reclaimed_worker_fenced_iff (d : Deployment) (history : List (ThreadId × Event)) :
    (∀ w l w', Takes (World.step d) {} history w l w' → ∀ job, w.lostJob? l.1 = some job →
        Fenced w.tables job w'.tables) ↔
      ∀ w l w', Takes (World.step d) {} history w l w' → w.overrides l = false := by
  constructor
  · intro hfenced w l w' htakes
    by_contra hover
    obtain ⟨job, hlost, hnot⟩ :=
      World.not_fenced_of_overrides htakes.step_eq (by simpa using hover)
    exact hnot (hfenced w l w' htakes job hlost)
  · intro hnot w l w' htakes job hlost
    have hsound : w.Sound := .of_reachable htakes.visits_left.reachable
    exact World.fenced_of_not_overrides hsound htakes.step_eq (hnot w l w' htakes) hlost

/-- The lease of worker 0 expires, worker 2 runs the second attempt, and then
worker 0 notices that its heartbeat is refused. -/
def Sample.overtaken : List (ThreadId × Event) :=
  [(9, .submit (Sample.submission 2))] ++ Sample.starts 0 "a1" 0 ++ Sample.reclaims 1 5 2000000 ++
    Sample.starts 2 "a2" 2000000 ++ [(0, .beat 2100000)] ++ Sample.goesOn 0 2 2100000

/-- Worker 0 then fails the run under the attempt of worker 2. -/
theorem reclaimed_worker_fails_running_run :
    ¬∀ (d : Deployment) (history : List (ThreadId × Event)) w l w',
      Takes (World.step d) {} history w l w' → ∀ job, w.lostJob? l.1 = some job →
        Fenced w.tables job w'.tables := by
  intro hclaim
  have hends : (run (World.step Sample.deployment) {} Sample.overtaken).any (fun w ↦
      w.overrides (0, .next { now := 2100000 }) &&
        (w.step Sample.deployment (0, .next { now := 2100000 })).isSome) = true := by
    decide +kernel
  obtain ⟨w, w', htakes, hover⟩ := Takes.of_any hends
  obtain ⟨job, hlost, hnot⟩ := World.not_fenced_of_overrides htakes.step_eq hover
  exact hnot (hclaim Sample.deployment _ w _ w' htakes job hlost)

end ChipEvolve
