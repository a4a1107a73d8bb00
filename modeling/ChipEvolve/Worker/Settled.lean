import ChipEvolve.Worker.Exclusion
import ChipEvolve.Worker.Orphans

/-!
# What a worker leaves behind

Whatever is raised in `_run_attempt`, `_record_runtime_failure` ends the attempt
and fails the run if that is still `running`.  In between a `running` run is
carried: by a running attempt, by the worker that has ended its attempt, or by the
pass that has marked it `lost`.
-/

namespace ChipEvolve

open Machine Sql

/-- The job whose thread is about to return. -/
def Thread.closing? : Thread → Option Job
  | .closing job => some job
  | _ => none

theorem Thread.closing?_eq_some {th : Thread} {job : Job} :
    th.closing? = some job ↔ th = .closing job := by
  cases th <;> simp [closing?]

/-- Recording a failure raises something else than an `InvalidTransition`. -/
def World.failsToRecord (w : World) (l : ThreadId × Event) : Bool :=
  match w.threads l.1, l.2 with
  | .failing _ _, .raise _ => true
  | _, _ => false

structure World.Settles (w : World) : Prop where
  owed : ∀ tid pass, (w.threads tid).pass? = some pass →
    ∀ runId ∈ pass.owed, (w.tables.run? runId).isSome
  closed : ∀ tid job, w.threads tid = .closing job →
    ∃ a, w.tables.attempt? job.attemptId = some a ∧ a.status ≠ .running
  carried : ∀ runId, w.tables.runStatus? runId = some .running →
    (∃ a, RunningIn w.tables runId a) ∨ ∃ tid, (w.threads tid).Owes w.tables runId

/-! ## Runs that are put down -/

section Store

variable {t t' : Tables} {runId : RunId}

/-- A transition that succeeds, or that a `running` run may make, puts the run down. -/
theorem ne_running_of_transitionRun {target : RuntimeStatus} {reason : Option String}
    {now : Timestamp} {x : Except StoreError Unit} (htarget : target ≠ .running)
    (h : exec (transitionRun runId target reason now) t = (x, t'))
    (hmay : x = .ok () ∨ runTransitionAllowed .running target = true) :
    t'.runStatus? runId ≠ some .running := by
  unfold exec at h
  rw [transitionRun_apply] at h
  intro hrunning
  cases hrow : t.run? runId with
  | none =>
      simp only [hrow, Prod.mk.injEq] at h
      rw [← h.2, Tables.runStatus?, hrow] at hrunning
      cases hrunning
  | some row =>
      have hkey : row.runId = runId := Table.key_of_get? hrow
      simp only [hrow] at h
      by_cases hsame : row.status = target
      · simp only [hsame, if_true, Prod.mk.injEq] at h
        rw [← h.2, Tables.runStatus?, hrow, Option.map_some, hsame] at hrunning
        exact htarget (Option.some.inj hrunning)
      · by_cases hallowed : runTransitionAllowed row.status target = true
        · simp only [hsame, hallowed, if_true, if_false, Prod.mk.injEq] at h
          rw [← h.2, Tables.runStatus?, run?_apply _ hrow, Option.map_some, Effect.onRun,
            if_pos hkey] at hrunning
          exact htarget (Option.some.inj hrunning)
        · simp only [hsame, if_false, if_neg hallowed, Prod.mk.injEq] at h
          rw [← h.2, Tables.runStatus?, hrow, Option.map_some] at hrunning
          rcases hmay with rfl | hmay
          · cases h.1
          · exact hallowed (Option.some.inj hrunning ▸ hmay)

/-- A retry that is scheduled puts the run down, and a run that is running as its stage is gets
one. -/
theorem ne_running_of_scheduleRetry {stageRunId : StageRunId} {reason : String}
    {x : Except StoreError Unit} (hagree : Paired (fun r s ↦ s = r) t)
    (hown : ∃ s, t.stage? stageRunId = some s ∧ s.runId = runId)
    (h : exec (scheduleRetry runId stageRunId reason) t = (x, t')) :
    t'.runStatus? runId ≠ some .running := by
  obtain ⟨s, hs, hrun⟩ := hown
  intro hrunning
  rcases scheduleRetry_cases t runId stageRunId reason with ⟨hnot, y, hkeeps⟩ | hcommits
  · rw [hkeeps.exec] at h
    obtain ⟨-, rfl⟩ := Prod.mk.inj h
    obtain ⟨r, hr, hstatus⟩ := Option.map_eq_some_iff.mp hrunning
    have hsame := hagree r (Table.mem_of_get? hr) s (Table.mem_of_get? hs)
      (hrun.trans (Table.key_of_get? hr).symm)
    exact hnot ⟨⟨s, hs, hsame.trans hstatus⟩, r, hr, hstatus⟩
  · rw [hcommits.exec] at h
    obtain ⟨-, rfl⟩ := Prod.mk.inj h
    obtain ⟨_, r, hr, _⟩ := hcommits.1
    rw [Tables.runStatus?, run?_apply _ hr, Option.map_some, Effect.onRun,
      if_pos (Table.key_of_get? hr)] at hrunning
    cases hrunning

theorem isInvalidTransition_of_transitionRun {target : RuntimeStatus} {reason : Option String}
    {now : Timestamp} {x : StoreError} (hrun : (t.run? runId).isSome)
    (h : exec (transitionRun runId target reason now) t = (.error x, t')) :
    x.isInvalidTransition = true := by
  obtain ⟨row, hrow⟩ := Option.isSome_iff_exists.mp hrun
  simp only [exec, transitionRun_apply, hrow] at h
  split at h
  · cases h
  · split at h
    · cases h
    · cases h
      rfl

theorem isInvalidTransition_of_scheduleRetry {stageRunId : StageRunId} {reason : String}
    {x : StoreError} (hrun : (t.run? runId).isSome)
    (hown : ∃ s, t.stage? stageRunId = some s ∧ s.runId = runId)
    (h : exec (scheduleRetry runId stageRunId reason) t = (.error x, t')) :
    x.isInvalidTransition = true := by
  obtain ⟨row, hrow⟩ := Option.isSome_iff_exists.mp hrun
  obtain ⟨s, hs, _⟩ := hown
  simp only [exec, scheduleRetry_apply, hs, hrow] at h
  split at h
  · split at h
    · cases h
    · cases h
      rfl
  · cases h
    rfl

theorem isInvalidTransition_of_finishAttempt {attemptId : AttemptId} {status : AttemptStatus}
    {e : Ending} {now : Timestamp} {x : StoreError} {a : AttemptRow}
    (ha : t.attempt? attemptId = some a)
    (h : exec (finishAttempt attemptId status e now) t = (.error x, t')) :
    x.isInvalidTransition = true := by
  simp only [exec, finishAttempt_apply, ha] at h
  split at h
  · cases h
  · cases h
    rfl

end Store

/-! ## The thread that has a run to settle -/

section Threads

variable {d : Deployment} {tid : ThreadId} {t : Tables} {th : Thread} {ev : Event}
  {next : Thread × Tables} {t' : Tables} {job : Job} {runId : RunId}

/-- A pass that puts a run down has moved it. -/
theorem Pass.owed_or_settled {p : Pass} {now : Timestamp} {gone : Bool}
    (hagree : Paired (fun r s ↦ s = r) t) (hown : p.OwnStage t)
    (hknown : ∀ runId ∈ p.owed, (t.run? runId).isSome) (howed : runId ∈ p.owed) :
    (∃ p', (Thread.ofPass (p.step now gone t).1).pass? = some p' ∧ runId ∈ p'.owed) ∨
      (p.step now gone t).2.runStatus? runId ≠ some .running := by
  cases p with
  | fencing reference rows ids runIds =>
      left
      cases rows with
      | nil =>
          refine ⟨_, rfl, ?_⟩
          simpa [step, owed, sortedIds, (List.perm_insertionSort _ _).mem_iff] using howed
      | cons row rows =>
          simp only [step, (markLost_commits t row.attemptId reference).exec]
          split
          · split
            · exact ⟨_, rfl, List.mem_cons_of_mem _ howed⟩
            · exact ⟨_, rfl, howed⟩
            · simp_all
          · exact ⟨_, rfl, howed⟩
  | releasing => exact .inl ⟨_, rfl, howed⟩
  | settling ids runIds =>
      cases runIds with
      | nil => cases howed
      | cons first runIds =>
          left
          simp only [step]
          split <;> exact ⟨_, rfl, howed⟩
  | rescheduling ids first stageRunId runIds =>
      simp only [step]
      split
      · rename_i t' hexec
        rcases List.mem_cons.mp howed with rfl | hrest
        · exact .inr (ne_running_of_scheduleRetry hagree hown hexec)
        · exact .inl ⟨_, rfl, hrest⟩
      · rename_i e t' hexec
        rw [if_pos (isInvalidTransition_of_scheduleRetry (hknown _ List.mem_cons_self) hown hexec)]
        exact .inl ⟨_, rfl, howed⟩
  | losing ids first runIds =>
      simp only [step]
      split
      · rename_i t' hexec
        rcases List.mem_cons.mp howed with rfl | hrest
        · exact .inr (ne_running_of_transitionRun (by decide) hexec (.inl rfl))
        · exact .inl ⟨_, rfl, hrest⟩
      · rename_i e t' hexec
        rw [if_pos (isInvalidTransition_of_transitionRun (hknown _ List.mem_cons_self) hexec)]
        rcases List.mem_cons.mp howed with rfl | hrest
        · exact .inr (ne_running_of_transitionRun (by decide) hexec (.inr rfl))
        · exact .inl ⟨_, rfl, hrest⟩
  | returned | raised => cases howed

theorem PluginResult.status_ne_running (result : PluginResult) : result.status ≠ .running := by
  rcases result.statusValid with h | h | h | h <;> rw [h] <;> decide

/-- A worker that puts its run down has moved it. -/
theorem Thread.settling_or_settled {p : Phase} (hphase : th.phase? = some (job, p))
    (hsettles : p.settles = true) (hknown : job.Known t) (hagree : Paired (fun r s ↦ s = r) t)
    (hrecords : ∀ message message', th = .failing job message → ev ≠ .raise message')
    (hstep : th.step d tid t ev = some next) :
    (∃ p', next.1.phase? = some (job, p') ∧ p'.settles = true) ∨
      next.2.runStatus? job.runId ≠ some .running := by
  obtain ⟨⟨a, ha, _⟩, ⟨s, hs, hsrun⟩, row, hrow, _⟩ := hknown
  cases th with
  | settling job' result =>
      obtain ⟨rfl, rfl⟩ := Prod.mk.inj (Option.some.inj hphase)
      cases ev with
      | next r =>
          simp only [step, request, select, work, Option.orElse_none] at hstep
          split at hstep <;> obtain rfl := Option.some.inj hstep
          · rename_i t' hexec
            right
            split at hexec
            · exact ne_running_of_scheduleRetry hagree
                ⟨s, hs, hsrun⟩ hexec
            · exact ne_running_of_transitionRun result.status_ne_running hexec (.inl rfl)
          · exact .inl ⟨_, rfl, rfl⟩
      | raise message =>
          obtain rfl := Option.some.inj hstep
          exact .inl ⟨_, rfl, rfl⟩
      | _ => cases hstep
  | failing job' message =>
      obtain ⟨rfl, rfl⟩ := Prod.mk.inj (Option.some.inj hphase)
      cases ev with
      | next r =>
          simp only [step, request, select, work, recover, Option.orElse_none] at hstep
          split at hstep <;> obtain rfl := Option.some.inj hstep
          · exact .inl ⟨_, rfl, rfl⟩
          · rename_i e t' hexec
            rw [if_pos (isInvalidTransition_of_finishAttempt ha hexec)]
            exact .inl ⟨_, rfl, rfl⟩
      | raise message' => exact absurd rfl (hrecords _ _ rfl)
      | _ => cases hstep
  | rechecking job' =>
      obtain ⟨rfl, rfl⟩ := Prod.mk.inj (Option.some.inj hphase)
      cases ev with
      | next r =>
          simp only [step, request, select, work, recover, Option.orElse_none] at hstep
          rw [(getRun_keeps t job'.runId).exec, hrow] at hstep
          obtain rfl := Option.some.inj hstep
          by_cases hrunning : row.status = .running
          · rw [if_pos hrunning]
            exact .inl ⟨_, rfl, rfl⟩
          · refine .inr fun hstatus ↦ hrunning ?_
            rw [Tables.runStatus?, hrow] at hstatus
            exact Option.some.inj hstatus
      | _ => cases hstep
  | terminating job' =>
      obtain ⟨rfl, rfl⟩ := Prod.mk.inj (Option.some.inj hphase)
      cases ev with
      | next r =>
          simp only [step, request, select, work, recover, Option.orElse_none] at hstep
          right
          split at hstep <;> obtain rfl := Option.some.inj hstep
          · rename_i t' hexec
            exact ne_running_of_transitionRun (by decide) hexec (.inl rfl)
          · rename_i e t' hexec
            exact ne_running_of_transitionRun (by decide) hexec (.inr rfl)
      | _ => cases hstep
  | preparing | executing | beating | relaying | finishing | closing | aborted =>
      obtain ⟨-, rfl⟩ := Prod.mk.inj (Option.some.inj hphase)
      cases hsettles
  | _ => cases hphase

/-- A worker returns from `execute_once_reporting` only after `_run_attempt` has settled the
run or `_record_runtime_failure` has looked at it. -/
theorem Thread.phase_of_closing (h : th.step d tid t ev = some (closing job, t')) :
    th.phase? = some (job, .settling) ∨ th.phase? = some (job, .rechecking) := by
  have hleaving : (closing job).phase? = some (job, .leaving) := rfl
  obtain ⟨p, hphase⟩ : ∃ p, th.phase? = some (job, p) := by
    rcases turn h with ⟨_, hrests⟩ | ⟨e, hacts, _, _⟩
    · obtain ⟨p, hp, _⟩ := hrests.job hleaving
      exact ⟨p, hp⟩
    · rcases hacts.job hleaving with
        ⟨p, hp, _⟩ | ⟨_, _, _, _, _, _, _, hp, _⟩
      · exact ⟨p, hp⟩
      · cases hp
  cases th with
  | settling | rechecking | terminating =>
      obtain ⟨rfl, rfl⟩ := Prod.mk.inj (Option.some.inj hphase)
      simp [phase?]
  | failing =>
      cases ev with
      | next r =>
          simp only [step, request, select, work, recover, Option.orElse_none] at h
          split at h
          · cases h
          · split at h <;> cases h
      | _ => cases h
  | preparing | executing | beating | relaying | finishing | closing | aborted =>
      cases ev <;> simp only [step, request, select, work, recover, sweep, Option.orElse_none] at h
        <;> (try split at h) <;> cases h
  | _ => cases hphase

/-- What a step leaves of a run that is to be settled is with the same thread. -/
theorem Thread.Owes.step (h : th.Owes t runId)
    (hjobs : ∀ job p, th.phase? = some (job, p) → job.Known t)
    (hpasses : ∀ pass, th.pass? = some pass → pass.OwnStage t ∧
      ∀ runId ∈ pass.owed, (t.run? runId).isSome)
    (hagree : Paired (fun r s ↦ s = r) t)
    (hrecords : ∀ job message message', th = .failing job message → ev ≠ .raise message')
    (hresults : ∀ attemptId a, t.attempt? attemptId = some a → a.status.resulted = true →
      ∃ a', next.2.attempt? attemptId = some a' ∧ a'.status.resulted = true)
    (hstep : th.step d tid t ev = some next) :
    next.1.Owes next.2 runId ∨ next.2.runStatus? runId ≠ some .running := by
  cases h with
  | @worker job p a hphase hsettles hrun ha hresulted =>
      subst hrun
      refine (settling_or_settled hphase hsettles (hjobs job p hphase) hagree
        (fun message ↦ hrecords job message) hstep).imp_left fun ⟨p', hphase', hsettles'⟩ ↦ ?_
      obtain ⟨a', ha', hresulted'⟩ := hresults job.attemptId a ha hresulted
      exact .worker hphase' hsettles' rfl ha' hresulted'
  | @pass p hpass howed =>
      obtain ⟨hown, hknown⟩ := hpasses p hpass
      cases th with
      | reclaiming pass =>
          obtain rfl := Option.some.inj hpass
          cases ev with
          | next r =>
              obtain rfl := Option.some.inj hstep
              exact (Pass.owed_or_settled hagree hown hknown howed).imp_left
                fun ⟨p', hpass', howed'⟩ ↦ .pass hpass' howed'
          | _ => cases hstep
      | _ => cases hpass

/-- Whoever ends an attempt of a run has the run to settle. -/
theorem Thread.Acts.owes_ended {e : Effect} {th' : Thread} {a : AttemptRow} (hwf : WellFormed t)
    (hacts : th.Acts d tid t ev e th')
    (hjobs : ∀ job p, th.phase? = some (job, p) → job.Known t)
    (hrows : ∀ pass, th.pass? = some pass → ∀ row ∈ pass.rows, row.Known t)
    (ha : RunningIn t runId a) (hends : e.Ends a) :
    th'.Owes (e.apply t) runId := by
  obtain ⟨hmem, hrunning, s, hs, hstage, hrun⟩ := ha
  have hjob : ∀ job p, th.phase? = some (job, p) → job.attemptId = a.attemptId →
      t.attempt? job.attemptId = some a ∧ job.runId = runId := by
    intro job p hphase hid
    obtain ⟨⟨b, hb, hbStage, _⟩, ⟨s', hs', hrun'⟩, _⟩ := hjobs job p hphase
    obtain rfl := hwf.attempt_eq hb hmem hid.symm
    obtain rfl := hwf.stage_eq hs' hs (hstage.trans hbStage)
    exact ⟨hb, hrun'.symm.trans hrun⟩
  cases hacts with
  | @finish job result r =>
      obtain ⟨hattempt, hjobRun⟩ := hjob job _ rfl hends
      refine .worker rfl rfl hjobRun (attempt?_apply _ hattempt) ?_
      rw [Effect.onAttempt, if_pos hends.symm]
      rcases attemptStatus_cases result.status with hstatus | hstatus <;>
        simp [AttemptRow.finished, hstatus, AttemptStatus.resulted]
  | @fail job message r =>
      obtain ⟨hattempt, hjobRun⟩ := hjob job _ rfl hends
      refine .worker rfl rfl hjobRun (attempt?_apply _ hattempt) ?_
      rw [Effect.onAttempt, if_pos hends.symm]
      rfl
  | pass hemits =>
      cases hemits with
      | @lose reference row rows ids runIds hfenced =>
          obtain ⟨hid, hexpired⟩ := hends
          have hone : t.lapsed row.attemptId reference = 1 := by
            refine Nat.le_antisymm (hwf.attemptIds.countP_le_one ?_) ?_
            · intro x _ y _ hx hy
              simp only [Bool.and_eq_true, decide_eq_true_eq] at hx hy
              exact hx.1.trans hy.1.symm
            · exact List.countP_pos_iff.mpr ⟨a, hmem, by simpa using ⟨hid.symm, hexpired⟩⟩
          obtain ⟨b, s', hb, hs', hrun'⟩ := hrows _ rfl row List.mem_cons_self
          obtain rfl := hwf.attempt_eq hb hmem hid.symm
          obtain rfl := hwf.stage_eq hs' hs hstage
          simp only [Pass.step, hfenced, if_true,
            (markLost_commits t row.attemptId reference).exec, hone, decide_true]
          exact .pass rfl (hrun.symm.trans hrun' ▸ List.mem_cons_self)
      | release | reschedule | settle => cases hends
  | _ => cases hends

end Threads

/-! ## One statement -/

namespace World.Settles

variable {d : Deployment} {w w' : World} {l : ThreadId × Event}

theorem empty : World.Settles {} where
  owed _ _ h := by cases h
  closed _ _ h := by cases h
  carried _ h := by cases h

theorem owed_step (h : w.Settles) (hsound : w.Sound) (hstep : w.step d l = some w')
    (hruns : ∀ runId, (w.tables.run? runId).isSome → (w'.tables.run? runId).isSome) :
    ∀ tid pass, (w'.threads tid).pass? = some pass →
      ∀ runId ∈ pass.owed, (w'.tables.run? runId).isSome := by
  intro tid pass' hpass' runId howed
  refine hruns runId ?_
  by_cases htid : tid = l.1
  swap
  · rw [step_other hstep htid] at hpass'
    exact h.owed tid pass' hpass' runId howed
  subst htid
  have hgoes : ∀ pass now gone, (w.threads l.1).pass? = some pass →
      runId ∈ (pass.step now gone w.tables).1.owed → (w.tables.run? runId).isSome := by
    intro pass now gone hpass hin
    rcases Pass.owed_step hin with hold | ⟨_, row, _, _, _, rfl, rfl, _⟩
    · exact h.owed l.1 pass hpass runId hold
    · obtain ⟨a, s, _, hs, hrun⟩ := hsound.rows l.1 _ hpass row List.mem_cons_self
      obtain ⟨r, hr⟩ := hsound.wellFormed.exists_run (Table.mem_of_get? hs)
      exact Option.isSome_iff_exists.mpr ⟨r, hrun ▸ hr⟩
  rcases step_turn hstep with ⟨_, hrests⟩ | ⟨e, hacts, _, _⟩
  · rcases hrests.pass_cases hpass' with ⟨reference, rfl⟩ | ⟨pass, now, gone, hold, rfl, _⟩
    · cases howed
    · exact hgoes pass now gone hold howed
  · obtain ⟨pass, now, gone, hold, rfl, _⟩ := hacts.pass_step hpass'
    exact hgoes pass now gone hold howed

theorem closed_step (h : w.Settles) (hsound : w.Sound) (hstep : w.step d l = some w') :
    ∀ tid job, w'.threads tid = .closing job →
      ∃ a, w'.tables.attempt? job.attemptId = some a ∧ a.status ≠ .running := by
  have hended : ∀ attemptId a, w.tables.attempt? attemptId = some a → a.status ≠ .running →
      ∃ a', w'.tables.attempt? attemptId = some a' ∧ a'.status ≠ .running := by
    intro attemptId a ha hnot
    rcases step_turn hstep with ⟨hsame, _⟩ | ⟨e, _, he, happly⟩
    · exact ⟨a, by rw [show w'.tables = w.tables from hsame]; exact ha, hnot⟩
    · rw [show w'.tables = e.apply w.tables from happly]
      have hmoves := hsound.wellFormed.attemptMoves hsound.noPending he (Table.mem_of_get? ha)
      exact ⟨_, attempt?_apply e ha, fun hrunning ↦ hnot (hmoves.running hrunning)⟩
  intro tid job hclosing
  by_cases htid : tid = l.1
  · subst htid
    have hthread := step_thread hstep
    rw [hclosing] at hthread
    rcases Thread.phase_of_closing hthread with hphase | hphase
    · obtain ⟨⟨a, ha, _⟩, _⟩ := hsound.jobs l.1 job _ hphase
      refine hended job.attemptId a ha ?_
      rcases hsound.fits l.1 job _ a hphase ha with hstatus | hstatus <;> simp [hstatus]
    · obtain ⟨⟨a, ha, _⟩, _⟩ := hsound.jobs l.1 job _ hphase
      exact hended job.attemptId a ha (hsound.fits l.1 job _ a hphase ha)
  · rw [step_other hstep htid] at hclosing
    obtain ⟨a, ha, hnot⟩ := h.closed tid job hclosing
    exact hended job.attemptId a ha hnot

/-- An attempt that ended with a result keeps it. -/
theorem resulted_step (hsound : w.Sound) (hstep : w.step d l = some w') (attemptId : AttemptId)
    (a : AttemptRow) (ha : w.tables.attempt? attemptId = some a)
    (hresulted : a.status.resulted = true) :
    ∃ a', w'.tables.attempt? attemptId = some a' ∧ a'.status.resulted = true := by
  rcases step_turn hstep with ⟨hsame, _⟩ | ⟨e, _, he, happly⟩
  · exact ⟨a, by rwa [show w'.tables = w.tables from hsame], hresulted⟩
  · rw [show w'.tables = e.apply w.tables from happly]
    refine ⟨_, attempt?_apply e ha, ?_⟩
    have hmoves := hsound.wellFormed.attemptMoves hsound.noPending he (Table.mem_of_get? ha)
    generalize (e.onAttempt a).status = status at hmoves
    cases hmoves with
    | keep => exact hresulted
    | finish hrunning => simp [hrunning, AttemptStatus.resulted] at hresulted
    | lose hexpired => simp [running_of_expired hexpired, AttemptStatus.resulted] at hresulted

theorem carried_step (h : w.Settles) (hsound : w.Sound)
    (hagree : Paired (fun r s ↦ s = r) w.tables) (hrecords : w.failsToRecord l = false)
    (hstep : w.step d l = some w') {runId : RunId}
    (hrunning : w'.tables.runStatus? runId = some .running) :
    (∃ a, RunningIn w'.tables runId a) ∨ ∃ tid, (w'.threads tid).Owes w'.tables runId := by
  have hresults := resulted_step hsound hstep
  have hthread : ∀ tid, (w.threads tid).Owes w.tables runId →
      ∃ tid, (w'.threads tid).Owes w'.tables runId := by
    intro tid howes
    refine ⟨tid, ?_⟩
    by_cases htid : tid = l.1
    · subst htid
      refine (howes.step (hsound.jobs l.1) (fun pass hpass ↦ ⟨hsound.ownStage l.1 pass hpass,
        h.owed l.1 pass hpass⟩) hagree ?_ hresults
          (step_thread hstep)).resolve_right (not_not.mpr hrunning)
      intro job message message' hth hev
      simp [failsToRecord, hth, hev] at hrecords
    · rw [step_other hstep htid]
      cases howes with
      | worker hphase hsettles hrun ha hresulted =>
          obtain ⟨a', ha', hresulted'⟩ := hresults _ _ ha hresulted
          exact .worker hphase hsettles hrun ha' hresulted'
      | pass hpass howed => exact .pass hpass howed
  rcases step_turn hstep with ⟨hsame, _⟩ | ⟨e, hacts, he, happly⟩
  · have hbefore : w.tables.runStatus? runId = some .running := by
      rwa [← show w'.tables = w.tables from hsame]
    rcases h.carried runId hbefore with ⟨a, ha⟩ | ⟨tid, howes⟩
    · exact .inl ⟨a, by rwa [show w'.tables = w.tables from hsame]⟩
    · exact .inr (hthread tid howes)
  · have happly : w'.tables = e.apply w.tables := happly
    rw [happly] at hrunning
    obtain ⟨r', hr', hstatus⟩ := Option.map_eq_some_iff.mp hrunning
    obtain rfl : r'.runId = runId := Table.key_of_get? hr'
    have hmove : ∀ runId target reason now, e = .move runId target reason now →
        target ≠ .running := by
      rintro runId target reason now rfl
      exact ne_running_of_closed hacts.move_closed
    rcases running_or_claimed hsound.wellFormed he hmove (Table.mem_of_get? hr') hstatus with
      ⟨r, hr, hid, hbefore⟩ | hclaimed
    swap
    · exact .inl (by rwa [happly])
    have hbefore : w.tables.runStatus? r'.runId = some .running := by
      rw [← hid, Tables.runStatus?, hsound.wellFormed.run?_of_mem hr, Option.map_some, hbefore]
    rcases h.carried r'.runId hbefore with ⟨a, ha⟩ | ⟨tid, howes⟩
    · by_cases hends : e.Ends a
      · refine .inr ⟨l.1, ?_⟩
        rw [happly]
        exact hacts.owes_ended hsound.wellFormed (hsound.jobs l.1) (hsound.rows l.1) ha hends
      · rw [happly]
        exact .inl ⟨_, ha.apply (running_of_not_ends hsound.wellFormed hsound.noPending he ha.1
          ha.2.1 hends)⟩
    · exact .inr (hthread tid howes)

theorem step (h : w.Settles) (hsound : w.Sound) (hagree : Paired (fun r s ↦ s = r) w.tables)
    (hrecords : w.failsToRecord l = false) (hstep : w.step d l = some w') : w'.Settles where
  owed := by
    refine h.owed_step hsound hstep fun runId hsome ↦ ?_
    obtain ⟨r, hr⟩ := Option.isSome_iff_exists.mp hsome
    rcases step_turn hstep with ⟨hsame, _⟩ | ⟨e, _, _, happly⟩
    · rw [show w'.tables = w.tables from hsame]
      exact hsome
    · rw [show w'.tables = e.apply w.tables from happly]
      exact Option.isSome_iff_exists.mpr ⟨_, run?_apply e hr⟩
  closed := h.closed_step hsound hstep
  carried _ := h.carried_step hsound hagree hrecords hstep

theorem of_reachable
    (h : ReachableBy (World.step d) (fun w l ↦ w.failsToRecord l = false) {} w) : w.Settles := by
  induction h with
  | init => exact empty
  | next hs hguard hstep ih =>
      exact ih.step (.of_reachable hs) (agree_of_reachable hs) hguard hstep

end World.Settles

/-! ## Every return -/

/-- Another attempt of the stage is running. -/
def OtherRunning (t : Tables) (job : Job) : Prop :=
  ∃ a ∈ t.attempts, a.stageRunId = job.stage.stageRunId ∧ a.attemptId ≠ job.attemptId ∧
    a.status = .running

/-- When `execute_once_reporting` returns from an attempt, that attempt is not running, and the
run is `running` only if another attempt of its stage is, or if another worker, which has ended its
own attempt with a result, or a reclaim pass has still to settle the run. -/
theorem own_attempt_settled (d : Deployment) (history : List (ThreadId × Event))
    (hrecords : ∀ w l w', Takes (World.step d) {} history w l w' → w.failsToRecord l = false)
    {w w' : World} {tid : ThreadId} {r : Reading} {job : Job}
    (htakes : Takes (World.step d) {} history w (tid, .next r) w')
    (hreturns : w.threads tid = .closing job) :
    (∃ a, w'.tables.attempt? job.attemptId = some a ∧ a.status ≠ .running) ∧
      (w'.tables.runStatus? job.runId = some .running →
        OtherRunning w'.tables job ∨
          ∃ other, other ≠ tid ∧ (w'.threads other).Owes w'.tables job.runId) := by
  have hsettles : w.Settles := .of_reachable (htakes.visits_left.reachableBy hrecords)
  have hsettles' : w'.Settles := .of_reachable (htakes.visits_right.reachableBy hrecords)
  have hsound : w.Sound := .of_reachable htakes.visits_left.reachable
  have hthread := World.step_thread htakes.step_eq
  simp only [hreturns] at hthread
  obtain ⟨hidle, hsame⟩ := Prod.mk.inj (Option.some.inj hthread)
  obtain ⟨a, ha, hnot⟩ := hsettles.closed tid job hreturns
  refine ⟨⟨a, by rw [← hsame]; exact ha, hnot⟩, fun hrunning ↦ ?_⟩
  rcases hsettles'.carried job.runId hrunning with
    ⟨b, hb, hbRunning, s, hs, hstage, hrun⟩ | howes
  · rw [← hsame] at hb hs
    obtain ⟨-, ⟨s', hs', hrun'⟩, -⟩ := hsound.jobs tid job .leaving (by rw [hreturns]; rfl)
    obtain rfl := hsound.wellFormed.stage_eq_of_run hs (Table.mem_of_get? hs')
      (hrun.trans hrun'.symm)
    refine .inl ⟨b, by rwa [← hsame], hstage.symm.trans (Table.key_of_get? hs'), fun hid ↦ ?_,
      hbRunning⟩
    obtain rfl := hsound.wellFormed.attempt_eq ha hb hid
    exact hnot hbRunning
  · obtain ⟨other, hother⟩ := howes
    refine .inr ⟨other, fun heq ↦ ?_, hother⟩
    rw [heq, ← hidle] at hother
    cases hother with
    | worker hphase => cases hphase
    | pass hpass => cases hpass

/-- The plugin of worker 0 is gone, and the failure is recorded. -/
def Sample.crashed : List (ThreadId × Event) :=
  [(9, .submit (Sample.submission 1))] ++ Sample.starts 0 "a1" 0 ++ [(0, .raise "OSError: gone")] ++
    Sample.goesOn 0 4 100000

theorem own_attempt_settled_crashed :
    ∃ w w' job, Takes (World.step Sample.deployment) {} Sample.crashed w
        (0, .next { now := 100000 }) w' ∧ w.threads 0 = .closing job ∧
      ∃ a, w'.tables.attempt? job.attemptId = some a ∧ a.status ≠ .running := by
  have hends : (run (World.step Sample.deployment) {} (Sample.crashed.take 11)).any (fun w ↦
      (w.threads 0).closing?.isSome &&
        (w.step Sample.deployment (0, .next { now := 100000 })).isSome) = true := by decide +kernel
  have hall : allSteps (World.step Sample.deployment) (fun w l ↦ !w.failsToRecord l) {}
      Sample.crashed = true := by decide +kernel
  obtain ⟨w, w', htakes, hw⟩ := Takes.of_any hends
  obtain ⟨job, hjob⟩ := Option.isSome_iff_exists.mp hw
  have hclosing := Thread.closing?_eq_some.mp hjob
  refine ⟨w, w', job, htakes, hclosing, ?_⟩
  refine (own_attempt_settled Sample.deployment Sample.crashed (fun w l w' h ↦ ?_) htakes
    hclosing).1
  simpa using h.of_allSteps hall

/-- A reclaim pass takes the attempt of worker 0, which finds its run waiting; before it returns,
worker 2 has claimed the run and ended its own attempt. -/
def Sample.returnsLate : List (ThreadId × Event) :=
  Sample.resumed.take 13 ++ [(0, .beat 2100000)] ++ Sample.goesOn 0 2 2100000 ++
    Sample.starts 2 "a2" 2200000 ++ [(2, .done Sample.success)] ++ Sample.goesOn 2 1 2300000

/-- Worker 2 has still to settle the run that worker 0 leaves `running`. -/
theorem run_outlives_return :
    ¬∀ (d : Deployment) (history : List (ThreadId × Event)),
      (∀ w l w', Takes (World.step d) {} history w l w' → w.failsToRecord l = false) →
      ∀ w w' tid r job, Takes (World.step d) {} history w (tid, .next r) w' →
        w.threads tid = .closing job →
        (∃ a, w'.tables.attempt? job.attemptId = some a ∧ a.status ≠ .running) ∧
          (¬OtherRunning w'.tables job → w'.tables.runStatus? job.runId ≠ some .running) := by
  intro hclaim
  let l : ThreadId × Event := (0, .next { now := 2400000 })
  have hends : (run (World.step Sample.deployment) {} Sample.returnsLate).any (fun w ↦
      ((w.threads 0).closing?.any fun job ↦ w.tables.runStatus? job.runId = some .running &&
        w.tables.attempts.all fun a ↦ a.status ≠ .running) &&
          (w.step Sample.deployment l).isSome) = true := by decide +kernel
  have hall : allSteps (World.step Sample.deployment) (fun w l ↦ !w.failsToRecord l) {}
      (Sample.returnsLate ++ [l]) = true := by decide +kernel
  obtain ⟨w, w', htakes, hw⟩ := Takes.of_any hends
  obtain ⟨job, hjob, hw⟩ := (Option.any_eq_true _ _).mp hw
  have hclosing := Thread.closing?_eq_some.mp hjob
  simp only [Bool.and_eq_true, decide_eq_true_eq, List.all_eq_true] at hw
  have hthread := World.step_thread htakes.step_eq
  simp only [l, hclosing] at hthread
  obtain ⟨-, hsame⟩ := Prod.mk.inj (Option.some.inj hthread)
  have hclosed := hclaim Sample.deployment _ (fun w l w' h ↦ by simpa using h.of_allSteps hall)
    w w' 0 _ job htakes hclosing
  rw [← hsame] at hclosed
  exact hclosed.2 (fun ⟨a, ha, _, _, hrunning⟩ ↦ hw.2 a ha hrunning) hw.1

end ChipEvolve
