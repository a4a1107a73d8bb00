import ChipEvolve.Worker.Threads
import ChipEvolve.Store.StatusMachine

/-!
# What one statement of a thread can do

A statement either has an effect on the tables, listed in `Acts` with the
thread it leaves behind, or it has none, and then `Rests` says how the thread
moved.  For a thread that holds an attempt only the phase of its work matters:
`_run_attempt` before and after `finish_attempt`, `_record_runtime_failure`
before and after it, and the way out.
-/

namespace ChipEvolve

open Sql Machine

inductive Phase where
  | working
  | settling
  | failing
  | rechecking
  | leaving
  deriving DecidableEq, Repr

namespace Thread

/-- The attempt a thread holds and how far it is with it. -/
def phase? : Thread → Option (Job × Phase)
  | preparing job => some (job, .working)
  | executing job => some (job, .working)
  | beating job _ => some (job, .working)
  | relaying job => some (job, .working)
  | finishing job _ => some (job, .working)
  | settling job _ => some (job, .settling)
  | failing job _ => some (job, .failing)
  | rechecking job => some (job, .rechecking)
  | terminating job => some (job, .rechecking)
  | closing job => some (job, .leaving)
  | aborted job _ => some (job, .leaving)
  | _ => none

def pass? : Thread → Option Pass
  | reclaiming pass => some pass
  | _ => none

/-- What a thread on its way to a claim has read is still true. -/
def Known (t : Tables) : Thread → Prop
  | staging run => ∃ r, t.run? run.runId = some r ∧ r.taskSpec = run.taskSpec
  | resolving run stage | claiming run stage _ =>
      (∃ r, t.run? run.runId = some r ∧ r.taskSpec = run.taskSpec) ∧
        ∃ s, t.stage? stage.stageRunId = some s ∧ s.runId = run.runId
  | _ => True

end Thread

/-- How a thread with an attempt moves without an effect. -/
inductive Phase.Rests (t : Tables) (job : Job) : Phase → Phase → Prop
  | stay {p} : Rests t job p p
  | fail : Rests t job .working .failing
  | unsettled : Rests t job .settling .failing
  | refused (h : ∀ a, t.attempt? job.attemptId = some a → a.status ≠ .running) :
      Rests t job .failing .rechecking
  | leave {p} : Rests t job p .leaving

/-- How a thread moves without an effect. -/
inductive Thread.Rests (t : Tables) : Thread → Thread → Prop
  | outside {th th'} (h : th.phase? = none) (h' : th'.phase? = none) (hpass : th'.pass? = none)
      (hknown : WellFormed t → th.Known t → th'.Known t) : Rests t th th'
  | start {reference} : Rests t .idle (.ofPass (Pass.start reference t))
  | pass {p now gone} (hsame : (p.step now gone t).2 = t) :
      Rests t (.reclaiming p) (.ofPass (p.step now gone t).1)
  | phase {th th' job p p'} (h : th.phase? = some (job, p)) (h' : th'.phase? = some (job, p'))
      (hp : p.Rests t job p') : Rests t th th'
  | leave {th job} (h : th.phase? = some (job, .leaving)) : Rests t th .idle

/-- The effects of threads, each with the thread it leaves behind. -/
inductive Thread.Acts (d : Deployment) (tid : ThreadId) (t : Tables) :
    Thread → Event → Effect → Thread → Prop
  | submit {a pluginId} : Acts d tid t .idle (.submit a) (.create a pluginId) .idle
  | retry {runId stage attempt requester reason eventId now} :
      Acts d tid t .idle (.retry runId requester reason eventId now)
        (.retry runId stage attempt requester reason eventId now) .idle
  | cancel {runId r} : Acts d tid t (.cancelling runId) (.next r)
      (.move runId .cancelRequested (some cancelReason) r.now) .idle
  | precancel {runId r} : Acts d tid t (.precancelling runId) (.next r)
      (.move runId .cancelRequested (some cancelReason) r.now) (.selecting runId)
  | claim {run stage workspace r stage'} (hstage : stage'.stageRunId = stage.stageRunId) :
      Acts d tid t (.claiming run stage workspace) (.next r)
        (.claim stage' ((d.config tid).claim run.taskSpec workspace) r.fresh r.now)
        (.preparing ⟨run, stage,
          t.nextAttempt stage' ((d.config tid).claim run.taskSpec workspace) r.fresh r.now⟩)
  | attach {job p th'} (h : th' = .executing job ∨ ∃ message, th' = .failing job message) :
      Acts d tid t (.executing job) (.attach p)
        (.attach job.attemptId (d.config tid).workerId p) th'
  | beat {job now r th'} (h : th' = .executing job ∨ ∃ message, th' = .failing job message) :
      Acts d tid t (.beating job now) (.next r) (.beat job.attemptId (d.config tid).workerId
        (d.config tid).leaseSeconds now) th'
  | relay {job r} : Acts d tid t (.relaying job) (.next r)
      (.move job.runId .cancelRequested (some cancelReason) r.now) (.executing job)
  | finish {job result r} : Acts d tid t (.finishing job result) (.next r)
      (.finish job.attemptId (attemptStatus result.status) result.ending r.now)
      (.settling job result)
  | reschedule {job result r} (hretry : job.shouldRetry result = true) :
      Acts d tid t (.settling job result) (.next r)
        (.reschedule job.runId job.stage.stageRunId (result.retryReason d.str)) (.closing job)
  | settle {job result r} (hretry : job.shouldRetry result = false) :
      Acts d tid t (.settling job result) (.next r)
        (.move job.runId result.status (result.terminalReason d.str) r.now) (.closing job)
  | fail {job message r} : Acts d tid t (.failing job message) (.next r)
      (.finish job.attemptId .failed
        { exitCode := some 1, failure := some (runtimeFailure message r.evidenceError) } r.now)
      (.rechecking job)
  | terminate {job r} : Acts d tid t (.terminating job) (.next r)
      (.move job.runId .failed (some "runtime_error") r.now) (.closing job)
  | abort {job message r} : Acts d tid t (.aborted job message) (.next r)
      (.failEarly job.runId "preflight_error" message r.fresh r.now) .idle
  | escape {runId message r} : Acts d tid t (.escaped runId message) (.next r)
      (.failEarly runId "preflight_error" message r.fresh r.now) .idle
  | drop {runId runIds r} : Acts d tid t (.dropping (runId :: runIds)) (.next r)
      (.move runId .cancelled (some "cancelled before the attempt started") r.now)
      (.dropping runIds)
  | pass {p r e} (h : p.Emits r.now r.gone e) (happly : (p.step r.now r.gone t).2 = e.apply t) :
      Acts d tid t (.reclaiming p) (.next r) e (.ofPass (p.step r.now r.gone t).1)

/-- The outcome of a statement. -/
def Thread.Turn (d : Deployment) (tid : ThreadId) (t : Tables) (th : Thread) (ev : Event)
    (next : Thread × Tables) : Prop :=
  (next.2 = t ∧ th.Rests t next.1) ∨
    ∃ e, th.Acts d tid t ev e next.1 ∧ e.Enabled t ∧ next.2 = e.apply t

namespace Thread

variable {d : Deployment} {tid : ThreadId} {t : Tables} {th : Thread} {ev : Event}
  {next : Thread × Tables}

/-- A statement outside any attempt that touched nothing. -/
theorem Turn.outside {th' : Thread} (h : th.phase? = none) (h' : th'.phase? = none)
    (hpass : th'.pass? = none) (hknown : WellFormed t → th.Known t → th'.Known t) :
    Turn d tid t th ev (th', t) :=
  .inl ⟨rfl, .outside h h' hpass hknown⟩

theorem phase?_escape (runId : RunId) (e : StoreError) : (escape runId e).phase? = none := by
  unfold escape
  split <;> rfl

theorem pass?_escape (runId : RunId) (e : StoreError) : (escape runId e).pass? = none := by
  unfold escape
  split <;> rfl

theorem known_escape (runId : RunId) (e : StoreError) : (escape runId e).Known t := by
  unfold escape
  split <;> trivial

theorem Turn.escape {runId : RunId} {e : StoreError} (h : th.phase? = none) :
    Turn d tid t th ev (Thread.escape runId e, t) :=
  .outside h (phase?_escape runId e) (pass?_escape runId e) fun _ _ ↦ known_escape runId e

theorem request_turn (h : th.request d.custody t ev = some next) : Turn d tid t th ev next := by
  unfold request at h
  split at h
  · rename_i a
    obtain rfl := Option.some.inj h
    rcases submitRun_cases t d.custody a with ⟨r, hkeeps⟩ | ⟨pluginId, hcommits⟩
    · rw [hkeeps.exec]
      exact .outside rfl rfl rfl fun _ _ ↦ trivial
    · rw [hcommits.exec]
      exact .inr ⟨_, .submit, hcommits.1, rfl⟩
  · rename_i runId
    rw [(wantsCancel_keeps t runId).exec] at h
    split at h
    · obtain rfl := Option.some.inj h
      simp_all only [Prod.mk.injEq]
      exact .outside rfl rfl rfl fun _ _ ↦ trivial
    · obtain rfl := Option.some.inj h
      simp_all only [Prod.mk.injEq]
      exact .outside rfl rfl rfl fun _ _ ↦ trivial
  · rename_i runId r
    obtain rfl := Option.some.inj h
    rcases transitionRun_cases t runId .cancelRequested (some cancelReason) r.now with
      ⟨_, x, hkeeps⟩ | hcommits
    · rw [hkeeps.exec]
      exact .outside rfl rfl rfl fun _ _ ↦ trivial
    · rw [hcommits.exec]
      exact .inr ⟨_, .cancel, hcommits.1, rfl⟩
  · rename_i runId requester reason eventId now
    obtain rfl := Option.some.inj h
    rcases requestRetry_cases t runId requester reason eventId now with
      ⟨x, hkeeps⟩ | ⟨stage, attempt, hcommits⟩
    · rw [hkeeps.exec]
      exact .outside rfl rfl rfl fun _ _ ↦ trivial
    · rw [hcommits.exec]
      exact .inr ⟨_, .retry, hcommits.1, rfl⟩
  · obtain rfl := Option.some.inj h
    exact .inl ⟨rfl, .start⟩
  · rename_i pass r
    obtain rfl := Option.some.inj h
    rcases pass.step_effect r.now r.gone t with hsame | ⟨e, hemits, he, happly⟩
    · exact .inl ⟨hsame, .pass hsame⟩
    · exact .inr ⟨e, .pass hemits happly, he, happly⟩
  · cases h

theorem nextReadyStage_known (hwf : WellFormed t) {runId : RunId} {stage : StageRow}
    (h : t.nextReadyStage runId = some stage) :
    ∃ s, t.stage? stage.stageRunId = some s ∧ s.runId = runId := by
  have hmem := List.mem_of_find?_eq_some h
  unfold Tables.listStages at hmem
  rw [(List.perm_insertionSort _ _).mem_iff, List.mem_filter] at hmem
  exact ⟨stage, hwf.stage?_of_mem hmem.1, by simpa using hmem.2⟩

theorem select_turn (h : th.select (d.config tid) t ev = some next) : Turn d tid t th ev next := by
  unfold select at h
  split at h
  · obtain rfl := Option.some.inj h
    exact .outside rfl rfl rfl fun _ _ ↦ trivial
  · rename_i runId
    rw [(wantsCancel_keeps t runId).exec] at h
    split at h <;> obtain rfl := Option.some.inj h <;> simp_all only [Prod.mk.injEq]
    · exact .outside rfl rfl rfl fun _ _ ↦ trivial
    · exact .outside rfl rfl rfl fun _ _ ↦ trivial
    · exact .escape rfl
  · rename_i runId r
    rcases transitionRun_cases t runId .cancelRequested (some cancelReason) r.now with
      ⟨_, x, hkeeps⟩ | hcommits
    · rw [hkeeps.exec] at h
      cases x with
      | ok =>
          obtain rfl := Option.some.inj h
          exact .outside rfl rfl rfl fun _ _ ↦ trivial
      | error e =>
          obtain rfl := Option.some.inj h
          exact .escape rfl
    · rw [hcommits.exec] at h
      obtain rfl := Option.some.inj h
      exact .inr ⟨_, .precancel, hcommits.1, rfl⟩
  · rename_i runId r
    rw [(getRun_keeps t runId).exec] at h
    cases hrun : t.run? runId with
    | none =>
        rw [hrun] at h
        obtain rfl := Option.some.inj h
        exact .escape rfl
    | some run =>
        rw [hrun] at h
        obtain rfl := Option.some.inj h
        have hkey : run.runId = runId := Table.key_of_get? hrun
        by_cases hterminal : run.status.isTerminal = true
        · simp only [hterminal, if_true]
          exact .outside rfl rfl rfl fun _ _ ↦ trivial
        · simp only [hterminal]
          exact .outside rfl rfl rfl fun _ _ ↦ ⟨run, hkey ▸ hrun, rfl⟩
  · rename_i run r
    cases hstage : t.nextReadyStage run.runId with
    | none =>
        rw [hstage] at h
        obtain rfl := Option.some.inj h
        exact .outside rfl rfl rfl fun _ _ ↦ trivial
    | some stage =>
        rw [hstage] at h
        obtain rfl := Option.some.inj h
        exact .outside rfl rfl rfl fun hwf hknown ↦ ⟨hknown, nextReadyStage_known hwf hstage⟩
  · obtain rfl := Option.some.inj h
    exact .outside rfl rfl rfl fun _ hknown ↦ hknown
  · obtain rfl := Option.some.inj h
    exact .outside rfl rfl rfl fun _ _ ↦ trivial
  · rename_i run stage workspace r
    rcases startAttempt_cases t stage.stageRunId r.fresh
      ((d.config tid).claim run.taskSpec workspace) r.now with
      ⟨x, hkeeps, _⟩ | hkeeps | ⟨stage', hstage', hcommits⟩
    · rw [hkeeps.exec] at h
      obtain rfl := Option.some.inj h
      exact .escape rfl
    · rw [hkeeps.exec] at h
      obtain rfl := Option.some.inj h
      exact .outside rfl rfl rfl fun _ _ ↦ trivial
    · rw [hcommits.exec] at h
      obtain rfl := Option.some.inj h
      exact .inr ⟨_, .claim (Table.key_of_get? hstage'), hcommits.1, rfl⟩
  · cases h

/-- A statement of a thread with an attempt that touched nothing. -/
theorem Turn.phase {th' : Thread} {job : Job} {p p' : Phase} (h : th.phase? = some (job, p))
    (h' : th'.phase? = some (job, p')) (hp : p.Rests t job p') : Turn d tid t th ev (th', t) :=
  .inl ⟨rfl, .phase h h' hp⟩

theorem work_turn (h : th.work (d.config tid) d.str t ev = some next) :
    Turn d tid t th ev next := by
  unfold work at h
  split at h
  · obtain rfl := Option.some.inj h
    exact .phase rfl rfl .stay
  · obtain rfl := Option.some.inj h
    exact .phase rfl rfl .fail
  · obtain rfl := Option.some.inj h
    exact .phase rfl rfl .leave
  · rename_i job p
    rcases attachProcess_cases t job.attemptId (d.config tid).workerId p with
      ⟨x, hkeeps⟩ | ⟨x, hcommits⟩
    · rw [hkeeps.exec] at h
      cases x <;> obtain rfl := Option.some.inj h
      · exact .phase rfl rfl .fail
      · exact .phase rfl rfl .stay
    · rw [hcommits.exec] at h
      cases x <;> obtain rfl := Option.some.inj h
      · exact .inr ⟨_, .attach (.inr ⟨_, rfl⟩), hcommits.1, rfl⟩
      · exact .inr ⟨_, .attach (.inl rfl), hcommits.1, rfl⟩
  · rename_i job now
    obtain ⟨x, hkeeps⟩ := heartbeatCheck_keeps t job.attemptId (d.config tid).workerId
    rw [hkeeps.exec] at h
    cases x <;> obtain rfl := Option.some.inj h
    · exact .phase rfl rfl .fail
    · exact .phase rfl rfl .stay
  · rename_i job
    rw [(wantsCancel_keeps t job.runId).exec] at h
    split at h <;> obtain rfl := Option.some.inj h <;> simp_all only [Prod.mk.injEq]
    · exact .phase rfl rfl .stay
    · exact .phase rfl rfl .stay
    · exact .phase rfl rfl .fail
  · obtain rfl := Option.some.inj h
    exact .phase rfl rfl .stay
  · obtain rfl := Option.some.inj h
    exact .phase rfl rfl .fail
  · rename_i job now r
    obtain ⟨x, hcommits⟩ := heartbeatUpdate_commits t job.attemptId (d.config tid).workerId
      (d.config tid).leaseSeconds now
    rw [hcommits.exec] at h
    cases x <;> obtain rfl := Option.some.inj h
    · exact .inr ⟨_, .beat (.inr ⟨_, rfl⟩), hcommits.1, rfl⟩
    · exact .inr ⟨_, .beat (.inl rfl), hcommits.1, rfl⟩
  · rename_i job r
    rcases transitionRun_cases t job.runId .cancelRequested (some cancelReason) r.now with
      ⟨_, x, hkeeps⟩ | hcommits
    · rw [hkeeps.exec] at h
      cases x <;> obtain rfl := Option.some.inj h
      · exact .phase rfl rfl .fail
      · exact .phase rfl rfl .stay
    · rw [hcommits.exec] at h
      obtain rfl := Option.some.inj h
      exact .inr ⟨_, .relay, hcommits.1, rfl⟩
  · rename_i job result r
    rcases finishAttempt_cases t job.attemptId (attemptStatus result.status) result.ending r.now
      with ⟨_, x, hkeeps⟩ | hcommits
    · rw [hkeeps.exec] at h
      obtain rfl := Option.some.inj h
      exact .phase rfl rfl .fail
    · rw [hcommits.exec] at h
      obtain rfl := Option.some.inj h
      exact .inr ⟨_, .finish, hcommits.1, rfl⟩
  · rename_i job result r
    cases hretry : job.shouldRetry result with
    | true =>
        simp only [hretry, if_true] at h
        rcases scheduleRetry_cases t job.runId job.stage.stageRunId (result.retryReason d.str)
          with ⟨_, x, hkeeps⟩ | hcommits
        · rw [hkeeps.exec] at h
          obtain rfl := Option.some.inj h
          exact .phase rfl rfl .unsettled
        · rw [hcommits.exec] at h
          obtain rfl := Option.some.inj h
          exact .inr ⟨_, .reschedule hretry, hcommits.1, rfl⟩
    | false =>
        simp only [hretry, Bool.false_eq_true, if_false] at h
        rcases transitionRun_cases t job.runId result.status (result.terminalReason d.str) r.now
          with ⟨_, x, hkeeps⟩ | hcommits
        · rw [hkeeps.exec] at h
          cases x <;> obtain rfl := Option.some.inj h
          · exact .phase rfl rfl .unsettled
          · exact .phase rfl rfl .leave
        · rw [hcommits.exec] at h
          obtain rfl := Option.some.inj h
          exact .inr ⟨_, .settle hretry, hcommits.1, rfl⟩
  · obtain rfl := Option.some.inj h
    exact .phase rfl rfl .fail
  · obtain rfl := Option.some.inj h
    exact .phase rfl rfl .fail
  · obtain rfl := Option.some.inj h
    exact .phase rfl rfl .fail
  · obtain rfl := Option.some.inj h
    exact .phase rfl rfl .unsettled
  · cases h

/-- A refused `finish_attempt` finds its attempt no longer running. -/
theorem not_running_of_refused {attemptId : AttemptId} {e : Ending} {now : Timestamp}
    {x : StoreError} (h : Keeps (finishAttempt attemptId .failed e now) t (.error x))
    (a : AttemptRow) (ha : t.attempt? attemptId = some a) : a.status ≠ .running := by
  intro hrunning
  have happly := finishAttempt_apply t attemptId .failed e now
  rw [show finishAttempt attemptId .failed e now { db := t } = _ from h, ha] at happly
  have hallowed : attemptTransitionAllowed a.status .failed = true := by rw [hrunning]; rfl
  simp [hallowed] at happly

theorem recover_turn (h : th.recover t ev = some next) : Turn d tid t th ev next := by
  unfold recover at h
  split at h
  · rename_i job message r
    rcases finishAttempt_cases t job.attemptId .failed
      { exitCode := some 1, failure := some (runtimeFailure message r.evidenceError) } r.now
      with ⟨_, x, hkeeps⟩ | hcommits
    · rw [hkeeps.exec] at h
      obtain rfl := Option.some.inj h
      cases hinvalid : x.isInvalidTransition with
      | true => exact .phase rfl rfl (.refused (not_running_of_refused hkeeps))
      | false => exact .phase rfl rfl .leave
    · rw [hcommits.exec] at h
      obtain rfl := Option.some.inj h
      exact .inr ⟨_, .fail, hcommits.1, rfl⟩
  · obtain rfl := Option.some.inj h
    exact .phase rfl rfl .leave
  · rename_i job r
    rw [(getRun_keeps t job.runId).exec] at h
    cases hrun : t.run? job.runId with
    | none =>
        rw [hrun] at h
        obtain rfl := Option.some.inj h
        exact .phase rfl rfl .leave
    | some run =>
        rw [hrun] at h
        obtain rfl := Option.some.inj h
        by_cases hrunning : run.status = .running
        · simp only [hrunning, if_true]
          exact .phase rfl rfl .stay
        · simp only [hrunning, if_false]
          exact .phase rfl rfl .leave
  · rename_i job r
    rcases transitionRun_cases t job.runId .failed (some "runtime_error") r.now with
      ⟨_, x, hkeeps⟩ | hcommits
    · rw [hkeeps.exec] at h
      cases x with
      | ok =>
          obtain rfl := Option.some.inj h
          exact .phase rfl rfl .leave
      | error e =>
          obtain rfl := Option.some.inj h
          cases hinvalid : e.isInvalidTransition <;> exact .phase rfl rfl .leave
    · rw [hcommits.exec] at h
      obtain rfl := Option.some.inj h
      exact .inr ⟨_, .terminate, hcommits.1, rfl⟩
  · obtain rfl := Option.some.inj h
    exact .inl ⟨rfl, .leave rfl⟩
  · obtain rfl := Option.some.inj h
    exact .phase rfl rfl .stay
  · rename_i job message r
    obtain rfl := Option.some.inj h
    rcases failQueuedRun_cases t job.runId "preflight_error" message r.fresh r.now with
      ⟨_, x, hkeeps⟩ | hcommits
    · rw [hkeeps.exec]
      exact .inl ⟨rfl, .leave rfl⟩
    · rw [hcommits.exec]
      exact .inr ⟨_, .abort, hcommits.1, rfl⟩
  · rename_i runId message r
    obtain rfl := Option.some.inj h
    rcases failQueuedRun_cases t runId "preflight_error" message r.fresh r.now with
      ⟨_, x, hkeeps⟩ | hcommits
    · rw [hkeeps.exec]
      exact .outside rfl rfl rfl fun _ _ ↦ trivial
    · rw [hcommits.exec]
      exact .inr ⟨_, .escape, hcommits.1, rfl⟩
  · cases h

theorem sweep_turn (h : th.sweep t ev = some next) : Turn d tid t th ev next := by
  unfold sweep at h
  split at h
  · obtain rfl := Option.some.inj h
    exact .outside rfl rfl rfl fun _ _ ↦ trivial
  · obtain rfl := Option.some.inj h
    exact .outside rfl rfl rfl fun _ _ ↦ trivial
  · obtain rfl := Option.some.inj h
    exact .outside rfl rfl rfl fun _ _ ↦ trivial
  · obtain rfl := Option.some.inj h
    exact .outside rfl rfl rfl fun _ _ ↦ trivial
  · rename_i runId runIds r
    rcases transitionRun_cases t runId .cancelled (some "cancelled before the attempt started")
      r.now with ⟨_, x, hkeeps⟩ | hcommits
    · rw [hkeeps.exec] at h
      cases x with
      | ok =>
          obtain rfl := Option.some.inj h
          exact .outside rfl rfl rfl fun _ _ ↦ trivial
      | error e =>
          obtain rfl := Option.some.inj h
          cases hinvalid : e.isInvalidTransition <;>
            exact .outside rfl rfl rfl fun _ _ ↦ trivial
    · rw [hcommits.exec] at h
      obtain rfl := Option.some.inj h
      exact .inr ⟨_, .drop, hcommits.1, rfl⟩
  · cases h

/-- Every statement of every thread is one of these. -/
theorem turn (h : th.step d tid t ev = some next) : Turn d tid t th ev next := by
  unfold step at h
  cases hrequest : th.request d.custody t ev with
  | some x => exact request_turn (hrequest.trans (by simpa [hrequest] using h))
  | none =>
      rw [hrequest] at h
      cases hselect : th.select (d.config tid) t ev with
      | some x => exact select_turn (hselect.trans (by simpa [hselect] using h))
      | none =>
          rw [hselect] at h
          cases hwork : th.work (d.config tid) d.str t ev with
          | some x => exact work_turn (hwork.trans (by simpa [hwork] using h))
          | none =>
              rw [hwork] at h
              cases hrecover : th.recover t ev with
              | some x => exact recover_turn (hrecover.trans (by simpa [hrecover] using h))
              | none => exact sweep_turn (by simpa [hrecover] using h)

end Thread

namespace World

variable {d : Deployment} {w w' : World} {l : ThreadId × Event}

theorem step_thread (h : w.step d l = some w') :
    (w.threads l.1).step d l.1 w.tables l.2 = some (w'.threads l.1, w'.tables) := by
  obtain ⟨next, hnext, rfl⟩ := Option.map_eq_some_iff.mp h
  simpa using hnext

theorem step_turn (h : w.step d l = some w') :
    (w.threads l.1).Turn d l.1 w.tables l.2 (w'.threads l.1, w'.tables) :=
  Thread.turn (step_thread h)

theorem step_other (h : w.step d l = some w') {tid : ThreadId} (htid : tid ≠ l.1) :
    w'.threads tid = w.threads tid := by
  obtain ⟨next, hnext, rfl⟩ := Option.map_eq_some_iff.mp h
  exact Function.update_of_ne htid _ _

/-- Forget the threads: a history of statements is a history of effects. -/
theorem lifecycle {allowed : World → ThreadId × Event → Prop} {guard : Tables → Effect → Prop}
    {w₀ : World}
    (hguard : ∀ w l e th', ReachableBy (World.step d) allowed w₀ w → allowed w l →
      (w.threads l.1).Acts d l.1 w.tables l.2 e th' → guard w.tables e)
    (h : ReachableBy (World.step d) allowed w₀ w) :
    ReachableBy Effect.step guard w₀.tables w.tables := by
  refine h.simulation World.tables ?_
  intro w l w' hw hallowed hstep
  rcases step_turn hstep with ⟨hsame, _⟩ | ⟨e, hacts, he, happly⟩
  · exact .inl hsame
  · exact .inr ⟨e, hguard w l e _ hw hallowed hacts, Effect.step_eq_some.mpr ⟨he, happly⟩⟩

end World

end ChipEvolve
