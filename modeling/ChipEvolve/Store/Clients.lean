import ChipEvolve.Machine
import ChipEvolve.Store.Effects
import Mathlib.Data.List.Dedup
import Mathlib.Data.String.Basic
import Mathlib.Logic.Function.Basic

/-!
# Clients of the store

Any number of threads call the methods of the store with any arguments.  A
method that commits more than once is a small program with a program counter,
so that the statements of different threads interleave freely, and a thread
that never moves again is a process that stopped between two statements.
-/

namespace ChipEvolve

open Sql

abbrev ThreadId := Nat

/-! ## A reclaim pass -/

/-- A process that was never recorded is gone; of any other the operating system
says whether it is gone. -/
def fenceExpiredProcess (row : ExpiredAttempt) (gone : Bool) : Bool :=
  (row.processId.isNone && row.processGroupId.isNone) || gone

/-- Where `reclaim_expired_attempts` stands. -/
inductive Pass where
  | fencing (reference : Timestamp) (rows : List ExpiredAttempt) (ids : List AttemptId)
      (runIds : List RunId)
  | releasing (reference : Timestamp) (attemptId : AttemptId) (rows : List ExpiredAttempt)
      (ids : List AttemptId) (runIds : List RunId)
  | settling (ids : List AttemptId) (runIds : List RunId)
  | rescheduling (ids : List AttemptId) (runId : RunId) (stageRunId : StageRunId)
      (runIds : List RunId)
  | losing (ids : List AttemptId) (runId : RunId) (runIds : List RunId)
  | returned (ids : List AttemptId)
  | raised (e : StoreError)

namespace Pass

def start (reference : Timestamp) (t : Tables) : Pass :=
  fencing reference (t.expiredAttempts reference) [] []

/-- `sorted(run_ids)` -/
def sortedIds (runIds : List RunId) : List RunId := runIds.dedup.insertionSort (· ≤ ·)

/-- One statement of the pass. -/
def step (now : Timestamp) (gone : Bool) (t : Tables) : Pass → Pass × Tables
  | fencing _ [] ids runIds => (settling ids (sortedIds runIds), t)
  | fencing reference (row :: rows) ids runIds =>
      if fenceExpiredProcess row gone then
        match exec (markLost row.attemptId reference) t with
        | (.ok true, t') =>
            (releasing reference row.attemptId rows (ids ++ [row.attemptId]) (row.runId :: runIds),
              t')
        | (.ok false, t') => (fencing reference rows ids runIds, t')
        | (.error e, t') => (raised e, t')
      else (fencing reference rows ids runIds, t)
  | releasing reference attemptId rows ids runIds =>
      match exec (releaseResources attemptId) t with
      | (.ok _, t') => (fencing reference rows ids runIds, t')
      | (.error e, t') => (raised e, t')
  | settling ids [] => (returned ids, t)
  | settling ids (runId :: runIds) =>
      match t.resumable? runId with
      | some stageRunId => (rescheduling ids runId stageRunId runIds, t)
      | none => (losing ids runId runIds, t)
  | rescheduling ids runId stageRunId runIds =>
      match exec (scheduleRetry runId stageRunId resumeReason) t with
      | (.ok _, t') => (settling ids runIds, t')
      | (.error e, t') => (if e.isInvalidTransition then losing ids runId runIds else raised e, t')
  | losing ids runId runIds =>
      match exec (transitionRun runId .lost (some "lease_expired") now) t with
      | (.ok _, t') => (settling ids runIds, t')
      | (.error e, t') => (if e.isInvalidTransition then settling ids runIds else raised e, t')
  | returned ids => (returned ids, t)
  | raised e => (raised e, t)

/-- The effect the next statement of the pass can have. -/
inductive Emits (now : Timestamp) (gone : Bool) : Pass → Effect → Prop
  | lose {reference row rows ids runIds} (hfenced : fenceExpiredProcess row gone = true) :
      Emits now gone (.fencing reference (row :: rows) ids runIds) (.lose row.attemptId reference)
  | release {reference attemptId rows ids runIds} :
      Emits now gone (.releasing reference attemptId rows ids runIds) (.release attemptId)
  | reschedule {ids runId stageRunId runIds} :
      Emits now gone (.rescheduling ids runId stageRunId runIds)
        (.reschedule runId stageRunId resumeReason)
  | settle {ids runId runIds} :
      Emits now gone (.losing ids runId runIds) (.move runId .lost (some "lease_expired") now)

theorem step_effect (now : Timestamp) (gone : Bool) (t : Tables) (p : Pass) :
    (p.step now gone t).2 = t ∨
      ∃ e, Emits now gone p e ∧ e.Enabled t ∧ (p.step now gone t).2 = e.apply t := by
  cases p with
  | fencing reference rows ids runIds =>
      cases rows with
      | nil => exact .inl rfl
      | cons row rows =>
          by_cases hfenced : fenceExpiredProcess row gone = true
          · refine .inr ⟨_, .lose hfenced, trivial, ?_⟩
            simp only [step, hfenced, if_true, (markLost_commits t row.attemptId reference).exec]
            split <;> simp_all
          · exact .inl (by simp only [step, hfenced]; rfl)
  | releasing reference attemptId rows ids runIds => exact .inr ⟨_, .release, trivial, rfl⟩
  | settling ids runIds =>
      refine .inl ?_
      cases runIds with
      | nil => rfl
      | cons runId runIds =>
          simp only [step]
          split <;> rfl
  | rescheduling ids runId stageRunId runIds =>
      rcases scheduleRetry_cases t runId stageRunId resumeReason with ⟨_, x, hkeeps⟩ | hcommits
      · exact .inl (by simp only [step, hkeeps.exec])
      · exact .inr ⟨_, .reschedule, hcommits.1, by simp only [step, hcommits.exec]⟩
  | losing ids runId runIds =>
      rcases transitionRun_cases t runId .lost (some "lease_expired") now with
        ⟨_, r, hkeeps⟩ | hcommits
      · refine .inl ?_
        simp only [step, hkeeps.exec]
        cases r <;> rfl
      · exact .inr ⟨_, .settle, hcommits.1, by simp only [step, hcommits.exec]⟩
  | returned ids => exact .inl rfl
  | raised e => exact .inl rfl

end Pass

/-! ## Operations and threads -/

/-- A call of a method of the store, or the next statement of the method the
thread is in.  A clock reading or a generated id is an argument. -/
inductive Operation where
  | submitRun (a : Submission)
  | transitionRun (runId : RunId) (target : RuntimeStatus) (reason : Option String)
      (now : Timestamp)
  | requestCancel (runId : RunId)
  | failQueuedRun (runId : RunId) (category message eventId : String) (now : Timestamp)
  | startAttempt (stageRunId : StageRunId) (c : Claim) (attemptId : AttemptId) (now : Timestamp)
  | heartbeat (attemptId : AttemptId) (workerId : WorkerId) (leaseSeconds : Int) (now : Timestamp)
  | attachProcess (attemptId : AttemptId) (workerId : WorkerId) (p : ProcessIdentity)
  | finishAttempt (attemptId : AttemptId) (status : AttemptStatus) (e : Ending) (now : Timestamp)
  | releaseResources (attemptId : AttemptId)
  | scheduleRetry (runId : RunId) (stageRunId : StageRunId) (reason : String)
  | requestRetry (runId : RunId) (requester reason eventId : String) (now : Timestamp)
  | reclaimExpiredAttempts (reference : Timestamp)
  | resume (now : Timestamp) (gone : Bool)

/-- Where a thread stands between two statements of a method. -/
inductive Client where
  | idle
  | cancelling (runId : RunId)
  | beating (attemptId : AttemptId) (workerId : WorkerId) (leaseSeconds : Int) (now : Timestamp)
  | reclaiming (pass : Pass)

namespace Client

/-- A pass that returned or raised leaves its thread free. -/
def ofPass : Pass → Client
  | .returned _ => idle
  | .raised _ => idle
  | pass => reclaiming pass

/-- A thread makes a call, or goes on with the one it is in. -/
def step (custody : Custody) (t : Tables) : Client → Operation → Option (Client × Tables)
  | idle, .submitRun a => some (idle, (exec (submitRun custody a) t).2)
  | idle, .transitionRun runId target reason now =>
      some (idle, (exec (transitionRun runId target reason now) t).2)
  | idle, .requestCancel runId =>
      match exec (wantsCancel runId) t with
      | (.ok true, t') => some (cancelling runId, t')
      | (_, t') => some (idle, t')
  | idle, .failQueuedRun runId category message eventId now =>
      some (idle, (exec (failQueuedRun runId category message eventId now) t).2)
  | idle, .startAttempt stageRunId c attemptId now =>
      some (idle, (exec (startAttempt stageRunId c attemptId now) t).2)
  | idle, .heartbeat attemptId workerId leaseSeconds now =>
      match exec (heartbeatCheck attemptId workerId) t with
      | (.ok _, t') => some (beating attemptId workerId leaseSeconds now, t')
      | (.error _, t') => some (idle, t')
  | idle, .attachProcess attemptId workerId p =>
      some (idle, (exec (attachProcess attemptId workerId p) t).2)
  | idle, .finishAttempt attemptId status e now =>
      some (idle, (exec (finishAttempt attemptId status e now) t).2)
  | idle, .releaseResources attemptId => some (idle, (exec (releaseResources attemptId) t).2)
  | idle, .scheduleRetry runId stageRunId reason =>
      some (idle, (exec (scheduleRetry runId stageRunId reason) t).2)
  | idle, .requestRetry runId requester reason eventId now =>
      some (idle, (exec (requestRetry runId requester reason eventId now) t).2)
  | idle, .reclaimExpiredAttempts reference => some (reclaiming (Pass.start reference t), t)
  | cancelling runId, .resume now _ =>
      some (idle, (exec (transitionRun runId .cancelRequested (some cancelReason) now) t).2)
  | beating attemptId workerId leaseSeconds now, .resume _ _ =>
      some (idle, (exec (heartbeatUpdate attemptId workerId leaseSeconds now) t).2)
  | reclaiming pass, .resume now gone =>
      some (ofPass (pass.step now gone t).1, (pass.step now gone t).2)
  | _, _ => none

/-- The effect a thread's next statement can have. -/
inductive Emits : Client → Operation → Effect → Prop
  | create {a pluginId} : Emits idle (.submitRun a) (.create a pluginId)
  | move {runId target reason now} :
      Emits idle (.transitionRun runId target reason now) (.move runId target reason now)
  | failEarly {runId category message eventId now} :
      Emits idle (.failQueuedRun runId category message eventId now)
        (.failEarly runId category message eventId now)
  | claim {stage c attemptId now} :
      Emits idle (.startAttempt stage.stageRunId c attemptId now) (.claim stage c attemptId now)
  | attach {attemptId workerId p} :
      Emits idle (.attachProcess attemptId workerId p) (.attach attemptId workerId p)
  | finish {attemptId status e now} :
      Emits idle (.finishAttempt attemptId status e now) (.finish attemptId status e now)
  | release {attemptId} : Emits idle (.releaseResources attemptId) (.release attemptId)
  | reschedule {runId stageRunId reason} :
      Emits idle (.scheduleRetry runId stageRunId reason) (.reschedule runId stageRunId reason)
  | retry {runId stage attempt requester reason eventId now} :
      Emits idle (.requestRetry runId requester reason eventId now)
        (.retry runId stage attempt requester reason eventId now)
  | cancel {runId now gone} :
      Emits (cancelling runId) (.resume now gone)
        (.move runId .cancelRequested (some cancelReason) now)
  | beat {attemptId workerId leaseSeconds now now' gone} :
      Emits (beating attemptId workerId leaseSeconds now) (.resume now' gone)
        (.beat attemptId workerId leaseSeconds now)
  | pass {pass now gone e} (h : pass.Emits now gone e) :
      Emits (reclaiming pass) (.resume now gone) e

end Client

namespace Client

/-- A statement of a thread leaves the tables alone or has the effect that goes
with it. -/
theorem step_effect {custody : Custody} {t t' : Tables} {c c' : Client} {op : Operation}
    (h : c.step custody t op = some (c', t')) :
    t' = t ∨ ∃ e, Emits c op e ∧ e.Enabled t ∧ t' = e.apply t := by
  cases c with
  | idle =>
      cases op with
      | submitRun a =>
          obtain ⟨rfl, rfl⟩ := by simpa [step] using h
          rcases submitRun_cases t custody a with ⟨r, hkeeps⟩ | ⟨pluginId, hcommits⟩
          · exact .inl (by rw [hkeeps.exec])
          · exact .inr ⟨_, .create, hcommits.1, by rw [hcommits.exec]⟩
      | transitionRun runId target reason now =>
          obtain ⟨rfl, rfl⟩ := by simpa [step] using h
          rcases transitionRun_cases t runId target reason now with ⟨_, r, hkeeps⟩ | hcommits
          · exact .inl (by rw [hkeeps.exec])
          · exact .inr ⟨_, .move, hcommits.1, by rw [hcommits.exec]⟩
      | requestCancel runId =>
          refine .inl ?_
          simp only [step, (wantsCancel_keeps t runId).exec] at h
          split at h <;> simp_all
      | failQueuedRun runId category message eventId now =>
          obtain ⟨rfl, rfl⟩ := by simpa [step] using h
          rcases failQueuedRun_cases t runId category message eventId now with
            ⟨_, r, hkeeps⟩ | hcommits
          · exact .inl (by rw [hkeeps.exec])
          · exact .inr ⟨_, .failEarly, hcommits.1, by rw [hcommits.exec]⟩
      | startAttempt stageRunId c attemptId now =>
          obtain ⟨rfl, rfl⟩ := by simpa [step] using h
          rcases startAttempt_cases t stageRunId attemptId c now with
            ⟨x, hkeeps, _⟩ | hkeeps | ⟨stage, hstage, hcommits⟩
          · exact .inl (by rw [hkeeps.exec])
          · exact .inl (by rw [hkeeps.exec])
          · obtain rfl : stage.stageRunId = stageRunId := Table.key_of_get? hstage
            exact .inr ⟨_, .claim, hcommits.1, by rw [hcommits.exec]⟩
      | heartbeat attemptId workerId leaseSeconds now =>
          refine .inl ?_
          obtain ⟨r, hkeeps⟩ := heartbeatCheck_keeps t attemptId workerId
          simp only [step, hkeeps.exec] at h
          split at h <;> simp_all
      | attachProcess attemptId workerId p =>
          obtain ⟨rfl, rfl⟩ := by simpa [step] using h
          rcases attachProcess_cases t attemptId workerId p with ⟨r, hkeeps⟩ | ⟨r, hcommits⟩
          · exact .inl (by rw [hkeeps.exec])
          · exact .inr ⟨_, .attach, hcommits.1, by rw [hcommits.exec]⟩
      | finishAttempt attemptId status e now =>
          obtain ⟨rfl, rfl⟩ := by simpa [step] using h
          rcases finishAttempt_cases t attemptId status e now with ⟨_, x, hkeeps⟩ | hcommits
          · exact .inl (by rw [hkeeps.exec])
          · exact .inr ⟨_, .finish, hcommits.1, by rw [hcommits.exec]⟩
      | releaseResources attemptId =>
          obtain ⟨rfl, rfl⟩ := by simpa [step] using h
          exact .inr ⟨_, .release, trivial, rfl⟩
      | scheduleRetry runId stageRunId reason =>
          obtain ⟨rfl, rfl⟩ := by simpa [step] using h
          rcases scheduleRetry_cases t runId stageRunId reason with ⟨_, x, hkeeps⟩ | hcommits
          · exact .inl (by rw [hkeeps.exec])
          · exact .inr ⟨_, .reschedule, hcommits.1, by rw [hcommits.exec]⟩
      | requestRetry runId requester reason eventId now =>
          obtain ⟨rfl, rfl⟩ := by simpa [step] using h
          rcases requestRetry_cases t runId requester reason eventId now with
            ⟨x, hkeeps⟩ | ⟨stage, attempt, hcommits⟩
          · exact .inl (by rw [hkeeps.exec])
          · exact .inr ⟨_, .retry, hcommits.1, by rw [hcommits.exec]⟩
      | reclaimExpiredAttempts reference =>
          obtain ⟨rfl, rfl⟩ := by simpa [step] using h
          exact .inl rfl
      | resume now gone => simp [step] at h
  | cancelling runId =>
      cases op with
      | resume now gone =>
          obtain ⟨rfl, rfl⟩ := by simpa [step] using h
          rcases transitionRun_cases t runId .cancelRequested (some cancelReason) now with
            ⟨_, r, hkeeps⟩ | hcommits
          · exact .inl (by rw [hkeeps.exec])
          · exact .inr ⟨_, .cancel, hcommits.1, by rw [hcommits.exec]⟩
      | _ => simp [step] at h
  | beating attemptId workerId leaseSeconds now =>
      cases op with
      | resume now' gone =>
          obtain ⟨rfl, rfl⟩ := by simpa [step] using h
          obtain ⟨r, hcommits⟩ := heartbeatUpdate_commits t attemptId workerId leaseSeconds now
          exact .inr ⟨_, .beat, hcommits.1, by rw [hcommits.exec]⟩
      | _ => simp [step] at h
  | reclaiming pass =>
      cases op with
      | resume now gone =>
          obtain ⟨rfl, rfl⟩ := by simpa [step] using h
          rcases pass.step_effect now gone t with hsame | ⟨e, hemits, henabled, happly⟩
          · exact .inl hsame
          · exact .inr ⟨e, .pass hemits, henabled, happly⟩
      | _ => simp [step] at h

end Client

/-! ## The store and its threads -/

structure System where
  tables : Tables := {}
  clients : ThreadId → Client := fun _ ↦ .idle

namespace System

/-- The thread named in the label makes its next statement. -/
def step (custody : Custody) (s : System) (l : ThreadId × Operation) : Option System :=
  ((s.clients l.1).step custody s.tables l.2).map fun next ↦
    { tables := next.2, clients := Function.update s.clients l.1 next.1 }

theorem step_effect {custody : Custody} {s s' : System} {l : ThreadId × Operation}
    (h : s.step custody l = some s') :
    s'.tables = s.tables ∨
      ∃ e, (s.clients l.1).Emits l.2 e ∧ e.Enabled s.tables ∧ s'.tables = e.apply s.tables := by
  obtain ⟨next, hnext, rfl⟩ := Option.map_eq_some_iff.mp h
  exact Client.step_effect hnext

end System

/-! ## The lifecycle of the tables -/

open Classical in
/-- The abstract machine below every client: an effect happens when its guards
hold. -/
noncomputable def Effect.step (t : Tables) (e : Effect) : Option Tables :=
  if e.Enabled t then some (e.apply t) else none

theorem Effect.step_eq_some {t t' : Tables} {e : Effect} :
    e.step t = some t' ↔ e.Enabled t ∧ t' = e.apply t := by
  unfold Effect.step
  split <;> simp_all [eq_comm]

open Machine in
/-- Forget the threads: what a guarded history of operations does to the tables
is a history of effects, guarded by whatever the operations guarantee. -/
theorem System.lifecycle {custody : Custody} {allowed : System → ThreadId × Operation → Prop}
    {guard : Tables → Effect → Prop} {s₀ s : System}
    (hguard : ∀ s l e, ReachableBy (System.step custody) allowed s₀ s → allowed s l →
      (s.clients l.1).Emits l.2 e → guard s.tables e)
    (h : ReachableBy (System.step custody) allowed s₀ s) :
    ReachableBy Effect.step guard s₀.tables s.tables := by
  refine h.simulation System.tables ?_
  intro s l s' hs hallowed hstep
  rcases step_effect hstep with hsame | ⟨e, hemits, henabled, happly⟩
  · exact .inl hsame
  · exact .inr ⟨e, hguard s l e hs hallowed hemits, Effect.step_eq_some.mpr ⟨henabled, happly⟩⟩

/-! ## A small store

One resumable run, used to show that the hypotheses below are met and where
they are not. -/

namespace Sample

def custody : Custody := { uploadedSha256 := fun _ ↦ none, artifactSha256 := fun _ ↦ none }

def task (maxAttempts : Int) : TaskSpec :=
  { taskId := "task", projectId := "project", designId := "design", pluginId := some "plugin",
    resources := some { cpuCores := some 1, memoryBytes := some 1 }, maxAttempts := maxAttempts }

def submission (maxAttempts : Int) : Submission :=
  { task := task maxAttempts
    stageKey := "main"
    pluginVersion := "1"
    resumable := true
    runId := "run"
    stageRunId := "stage"
    now := 0 }

def claim : Claim :=
  { workerId := "worker"
    workspace := "workspace"
    leaseSeconds := 1
    resources := some { cpuCores := some 1, memoryBytes := some 1 }
    capacityCpuCores := some 4
    capacityMemoryBytes := some 4 }

end Sample

end ChipEvolve
