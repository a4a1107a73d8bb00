import ChipEvolve.Outcome
import ChipEvolve.Store.Methods

/-!
# What a commit can do to the tables

Every method of the store leaves the tables as they were or applies one effect
to them.  `Effect.Enabled` lists the guards the method has checked by then,
`Effect.apply` the statements it commits together, and the section at the end
gives one equation per method.  The results about histories are proved from
the effects and never look into a method again.
-/

namespace ChipEvolve

open Sql

inductive Effect where
  | create (a : Submission) (pluginId : String)
  | move (runId : RunId) (target : RuntimeStatus) (reason : Option String) (now : Timestamp)
  | failEarly (runId : RunId) (category message eventId : String) (now : Timestamp)
  | claim (stage : StageRow) (c : Claim) (attemptId : AttemptId) (now : Timestamp)
  | finish (attemptId : AttemptId) (status : AttemptStatus) (e : Ending) (now : Timestamp)
  | lose (attemptId : AttemptId) (reference : Timestamp)
  | release (attemptId : AttemptId)
  | beat (attemptId : AttemptId) (workerId : WorkerId) (leaseSeconds : Int) (now : Timestamp)
  | attach (attemptId : AttemptId) (workerId : WorkerId) (p : ProcessIdentity)
  | reschedule (runId : RunId) (stageRunId : StageRunId) (reason : String)
  | retry (runId : RunId) (stage : StageRow) (attempt : AttemptRow)
      (requester reason eventId : String) (now : Timestamp)

namespace Tables

/-- The row a claim of the stage adds. -/
def nextAttempt (t : Tables) (stage : StageRow) (c : Claim) (attemptId : AttemptId)
    (now : Timestamp) : AttemptRow :=
  c.attemptRow stage.stageRunId (t.maxAttemptNumber stage.stageRunId + 1) attemptId now

def insertReservations (rows : List ReservationRow) (t : Tables) : Tables :=
  { t with reservations := t.reservations ++ rows }

def updateMatching (p : AttemptRow → Bool) (f : AttemptRow → AttemptRow) (t : Tables) : Tables :=
  { t with attempts := Table.update p f t.attempts }

end Tables

/-- The reservation a claim makes, if any. -/
def Claim.reservations (c : Claim) (attemptId : AttemptId) : List ReservationRow :=
  (c.wanted.map fun w ↦ w.row attemptId).toList

namespace Effect

open Tables

def apply : Effect → Tables → Tables
  | create a pluginId, t => insertStage (a.stageRow pluginId) (insertRun a.runRow t)
  | move runId target reason now, t =>
      updateOpenStages runId (StageRow.moved target)
        (updateRun runId (RunRow.moved target reason now) t)
  | failEarly runId category message eventId now, t =>
      insertEvent (preflightEvent runId category message eventId now)
        (updateOpenStages runId (StageRow.moved .failed)
          (updateRun runId (RunRow.failedEarly category now) t))
  | claim stage c attemptId now, t =>
      updateWaitingRun stage.runId (RunRow.started now)
        (updateStage stage.stageRunId (StageRow.started now)
          (insertReservations (c.reservations attemptId)
            (insertAttempt (t.nextAttempt stage c attemptId now) t)))
  | finish attemptId status e now, t =>
      deleteReservation attemptId (updateAttempt attemptId (AttemptRow.finished status e now) t)
  | lose attemptId reference, t =>
      updateMatching (fun a ↦ a.attemptId = attemptId && a.expired reference)
        (AttemptRow.markedLost reference) t
  | release attemptId, t => deleteReservation attemptId t
  | beat attemptId workerId leaseSeconds now, t =>
      updateMatching (·.leasedBy attemptId workerId) (AttemptRow.beaten leaseSeconds now) t
  | attach attemptId workerId p, t =>
      updateMatching (·.leasedBy attemptId workerId) (AttemptRow.attached p) t
  | reschedule runId stageRunId reason, t =>
      updateRun runId (RunRow.retried reason) (updateStage stageRunId (StageRow.moved .retryWait) t)
  | retry runId stage attempt requester reason eventId now, t =>
      insertEvent (retryEvent runId stage attempt requester reason eventId now)
        (updateStage stage.stageRunId (StageRow.moved .retryWait)
          (updateRun runId (RunRow.retried (retryReason requester reason)) t))

/-- What a method has established when it commits the effect. -/
def Enabled : Effect → Tables → Prop
  | create a pluginId, t =>
      0 < a.task.maxAttempts ∧ t.refusesRun a.runRow = false ∧
        (insertRun a.runRow t).refusesStage (a.stageRow pluginId) = false
  | move runId target _ _, t =>
      ∃ row, t.run? runId = some row ∧ runTransitionAllowed row.status target = true
  | failEarly runId category message eventId now, t =>
      (category ≠ "" ∧ message ≠ "") ∧
        t.refusesEvent (preflightEvent runId category message eventId now) = false ∧
        ∃ row, t.run? runId = some row ∧ row.status.waiting = true
  | claim stage c attemptId now, t =>
      t.stage? stage.stageRunId = some stage ∧ stage.status.claimable = true ∧
        t.refusesAttempt (t.nextAttempt stage c attemptId now) = false ∧
        ∀ w, c.wanted = some w → 0 < w.memory ∧ t.overbooked w = .ok false ∧
          t.refusesReservation (w.row attemptId) = false
  | finish attemptId status _ _, t =>
      ∃ row, t.attempt? attemptId = some row ∧ attemptTransitionAllowed row.status status = true
  | reschedule runId stageRunId _, t =>
      (∃ stage, t.stage? stageRunId = some stage ∧ stage.status = .running) ∧
        ∃ run, t.run? runId = some run ∧ run.status = .running
  | retry runId stage attempt _ _ _ _, t =>
      t.stageOf? runId = some stage ∧ t.latestAttempt? stage.stageRunId = some attempt ∧
        attempt.mayRetry = true ∧
        ∃ run, t.run? runId = some run ∧ run.status = .failed ∧
          (attempt.attemptNumber : Int) < run.taskSpec.maxAttempts
  | _, _ => True

end Effect

/-! ## What each method does -/

/-- The method ends outside any transaction, with the tables it found. -/
def Keeps {α : Type} (m : StoreM α) (t : Tables) (r : Except StoreError α) : Prop :=
  m { db := t } = (r, { db := t })

/-- The method ends outside any transaction and has applied the effect. -/
def Commits {α : Type} (m : StoreM α) (t : Tables) (e : Effect) (r : Except StoreError α) : Prop :=
  e.Enabled t ∧ m { db := t } = (r, { db := e.apply t })

section Methods

theorem Keeps.exec {α : Type} {t : Tables} {m : StoreM α} {r : Except StoreError α} (h : Keeps m t r) :
    exec m t = (r, t) :=
  exec_eq_of_apply h

theorem Commits.exec {α : Type} {t : Tables} {m : StoreM α} {e : Effect} {r : Except StoreError α}
    (h : Commits m t e r) : exec m t = (r, e.apply t) :=
  exec_eq_of_apply h.2

variable (t : Tables) (runId : RunId) (stageRunId : StageRunId) (attemptId : AttemptId)

theorem transitionRun_apply (target : RuntimeStatus) (reason : Option String)
    (now : Timestamp) :
    transitionRun runId target reason now { db := t } =
      match t.run? runId with
      | none => (.error (unknownRun runId), { db := t })
      | some row =>
          if row.status = target then (.ok (), { db := t })
          else if runTransitionAllowed row.status target then
            (.ok (), { db := (Effect.move runId target reason now).apply t })
          else (.error (runMoveRefused row.status target), { db := t }) := by
  simp only [transitionRun, immediate_apply, query_bind]
  cases hrun : t.run? runId with
  | none => rfl
  | some row =>
      by_cases hsame : row.status = target
      · simp [hsame]
      · cases hallowed : runTransitionAllowed row.status target <;>
          simp [hsame, hallowed, Effect.apply]

theorem transitionRun_cases (target : RuntimeStatus) (reason : Option String)
    (now : Timestamp) :
    (¬(Effect.move runId target reason now).Enabled t ∧
        ∃ r, Keeps (transitionRun runId target reason now) t r) ∨
      Commits (transitionRun runId target reason now) t (.move runId target reason now)
        (.ok ()) := by
  simp only [Keeps, Commits, transitionRun_apply]
  cases hrun : t.run? runId with
  | none =>
      refine .inl ⟨?_, _, rfl⟩
      rintro ⟨row, hrow, _⟩
      cases hrun.symm.trans hrow
  | some row =>
      by_cases hallowed : runTransitionAllowed row.status target = true
      · have hne : row.status ≠ target := by
          rintro rfl
          exact not_allowed_self row.status hallowed
        exact .inr ⟨⟨row, hrun, hallowed⟩, (if_neg hne).trans (if_pos hallowed)⟩
      · have hrefused : ¬(Effect.move runId target reason now).Enabled t := by
          rintro ⟨row', hrow', hallowed'⟩
          obtain rfl := Option.some.inj (hrun.symm.trans hrow')
          exact hallowed hallowed'
        by_cases hsame : row.status = target
        · exact .inl ⟨hrefused, _, if_pos hsame⟩
        · exact .inl ⟨hrefused, _, (if_neg hsame).trans (if_neg hallowed)⟩

/-- A preflight failure commits its effect, or changes nothing. -/
theorem failQueuedRun_cases (category message eventId : String) (now : Timestamp) :
    (¬(Effect.failEarly runId category message eventId now).Enabled t ∧
        ∃ r, Keeps (failQueuedRun runId category message eventId now) t r) ∨
      Commits (failQueuedRun runId category message eventId now) t
        (.failEarly runId category message eventId now) (.ok true) := by
  unfold Keeps Commits failQueuedRun
  by_cases hempty : (category = "" || message = "") = true
  · refine .inl ⟨?_, _, by rw [if_pos hempty]; rfl⟩
    rintro ⟨⟨hcategory, hmessage⟩, _⟩
    simp [hcategory, hmessage] at hempty
  have hgiven : category ≠ "" ∧ message ≠ "" := by simpa using hempty
  rw [if_neg hempty, immediate_apply, query_bind]
  cases hrun : t.run? runId with
  | none =>
      refine .inl ⟨?_, _, rfl⟩
      rintro ⟨_, _, row, hrow, _⟩
      cases hrun.symm.trans hrow
  | some row =>
      cases hwaiting : row.status.waiting with
      | false =>
          refine .inl ⟨?_, _, by simp only [hwaiting]; rfl⟩
          rintro ⟨_, _, row', hrow', hwaiting'⟩
          obtain rfl := Option.some.inj (hrun.symm.trans hrow')
          cases hwaiting.symm.trans hwaiting'
      | true =>
          simp only [hwaiting, Bool.not_true, Bool.false_eq_true, if_false, execute_bind,
            executeChecked_bind]
          split
          · rename_i hrefused
            refine .inl ⟨?_, _, rfl⟩
            rintro ⟨_, hfresh, _⟩
            cases hfresh.symm.trans hrefused
          · rename_i hfresh
            exact .inr ⟨⟨hgiven, eq_false_of_ne_true hfresh, row, hrun, hwaiting⟩, rfl⟩

theorem finishAttempt_apply (status : AttemptStatus) (e : Ending) (now : Timestamp) :
    finishAttempt attemptId status e now { db := t } =
      match t.attempt? attemptId with
      | none => (.error (unknownAttempt attemptId), { db := t })
      | some row =>
          if attemptTransitionAllowed row.status status then
            (.ok (), { db := (Effect.finish attemptId status e now).apply t })
          else
            (.error (.invalidTransition ("invalid attempt transition " ++ row.status.value ++
              " -> " ++ status.value)), { db := t }) := by
  simp only [finishAttempt, immediate_apply, query_bind]
  cases hattempt : t.attempt? attemptId with
  | none => rfl
  | some row =>
      cases hallowed : attemptTransitionAllowed row.status status <;>
        simp [hallowed, Effect.apply]

theorem finishAttempt_cases (status : AttemptStatus) (e : Ending) (now : Timestamp) :
    (¬(Effect.finish attemptId status e now).Enabled t ∧
        ∃ x, Keeps (finishAttempt attemptId status e now) t (.error x)) ∨
      Commits (finishAttempt attemptId status e now) t (.finish attemptId status e now)
        (.ok ()) := by
  simp only [Keeps, Commits, finishAttempt_apply]
  cases hattempt : t.attempt? attemptId with
  | none =>
      refine .inl ⟨?_, _, rfl⟩
      rintro ⟨row, hrow, _⟩
      cases hattempt.symm.trans hrow
  | some row =>
      by_cases hallowed : attemptTransitionAllowed row.status status = true
      · exact .inr ⟨⟨row, hattempt, hallowed⟩, if_pos hallowed⟩
      · refine .inl ⟨?_, _, if_neg hallowed⟩
        rintro ⟨row', hrow', hallowed'⟩
        obtain rfl := Option.some.inj (hattempt.symm.trans hrow')
        exact hallowed hallowed'

theorem scheduleRetry_apply (reason : String) :
    scheduleRetry runId stageRunId reason { db := t } =
      match t.stage? stageRunId with
      | none => (.error (unknownStage stageRunId), { db := t })
      | some stage =>
          if stage.status = .running then
            match t.run? runId with
            | none => (.error (unknownRun runId), { db := t })
            | some run =>
                if run.status = .running then
                  (.ok (), { db := (Effect.reschedule runId stageRunId reason).apply t })
                else (.error (runMoveRefused run.status .retryWait), { db := t })
          else
            (.error (.invalidTransition ("only a running stage can be retried, not " ++
              stage.status.value)), { db := t }) := by
  simp only [scheduleRetry, immediate_apply, query_bind]
  cases hstage : t.stage? stageRunId with
  | none => rfl
  | some stage =>
      by_cases hrunning : stage.status = .running
      · cases hrun : t.run? runId with
        | none => simp [hrunning, hrun]
        | some run =>
            by_cases hok : run.status = .running
            · have hallowed : runTransitionAllowed .running .retryWait = true := by decide
              simp [hrunning, hrun, hok, hallowed, Effect.apply]
            · have hrefused : runTransitionAllowed run.status .retryWait = false := by
                rw [← Bool.not_eq_true, retryWait_allowed_iff]
                exact hok
              simp [hrunning, hrun, hok, hrefused]
      · simp [hrunning]

theorem scheduleRetry_cases (reason : String) :
    (¬(Effect.reschedule runId stageRunId reason).Enabled t ∧
        ∃ x, Keeps (scheduleRetry runId stageRunId reason) t (.error x)) ∨
      Commits (scheduleRetry runId stageRunId reason) t (.reschedule runId stageRunId reason)
        (.ok ()) := by
  simp only [Keeps, Commits, scheduleRetry_apply, Effect.Enabled]
  cases hstage : t.stage? stageRunId with
  | none => exact .inl ⟨by simp, _, rfl⟩
  | some stage =>
      by_cases hrunning : stage.status = .running
      · cases hrun : t.run? runId with
        | none => exact .inl ⟨by simp, _, if_pos hrunning⟩
        | some run =>
            by_cases hok : run.status = .running
            · exact .inr ⟨⟨⟨stage, rfl, hrunning⟩, run, rfl, hok⟩,
                (if_pos hrunning).trans (if_pos hok)⟩
            · exact .inl ⟨by simp [hok], _, (if_pos hrunning).trans (if_neg hok)⟩
      · exact .inl ⟨by simp [hrunning], _, if_neg hrunning⟩

/-- A request to retry commits its effect or raises and changes nothing. -/
theorem requestRetry_cases (requester reason eventId : String) (now : Timestamp) :
    (∃ x, Keeps (requestRetry runId requester reason eventId now) t (.error x)) ∨
      ∃ stage attempt, Commits (requestRetry runId requester reason eventId now) t
        (.retry runId stage attempt requester reason eventId now) (.ok ()) := by
  unfold Keeps Commits requestRetry
  by_cases hblank : (isBlank reason || isBlank requester) = true
  · exact .inl ⟨_, by rw [if_pos hblank]; rfl⟩
  rw [if_neg hblank, immediate_apply, query_bind]
  cases hrun : t.run? runId with
  | none => exact .inl ⟨_, rfl⟩
  | some run =>
      simp only [query_bind]
      by_cases hfailed : run.status = .failed
      swap
      · exact .inl ⟨_, by simp only [ne_eq, hfailed, not_false_eq_true, if_true]; rfl⟩
      simp only [ne_eq, hfailed, not_true_eq_false, if_false]
      cases hstage : t.stageOf? runId with
      | none => exact .inl ⟨_, rfl⟩
      | some stage =>
          cases hattempt : t.latestAttempt? stage.stageRunId with
          | none => exact .inl ⟨_, by simp only [Option.bind_some, hattempt]; rfl⟩
          | some attempt =>
              simp only [Option.bind_some, hattempt]
              cases hretry : attempt.mayRetry with
              | false => exact .inl ⟨_, rfl⟩
              | true =>
                  by_cases hbudget : run.taskSpec.maxAttempts ≤ attempt.attemptNumber
                  · exact .inl ⟨_, by rw [if_neg (by simp), if_pos hbudget]; rfl⟩
                  rw [if_neg (by simp), if_neg hbudget]
                  simp only [execute_bind, executeChecked_bind]
                  split
                  · exact .inl ⟨_, rfl⟩
                  · refine .inr ⟨stage, attempt, ⟨hstage, hattempt, hretry, run, hrun, hfailed, ?_⟩,
                      rfl⟩
                    exact lt_of_not_ge hbudget

/-- The share of a capacity is refused with an `OverflowError` only. -/
theorem isInvalidTransition_of_share {fraction : PlatformFraction} {capacity : Int}
    {x : StoreError} (h : fraction.share capacity = .error x) : x.isInvalidTransition = false := by
  unfold PlatformFraction.share at h
  split at h
  · cases h
  · split at h
    · obtain rfl := Except.error.inj h
      rfl
    · split at h
      · obtain rfl := Except.error.inj h
        rfl
      · cases h

theorem isInvalidTransition_of_budget {capacity : Int} {fraction : PlatformFraction}
    {x : StoreError} (h : budget capacity fraction = .error x) : x.isInvalidTransition = false :=
  isInvalidTransition_of_share (Except.map_eq_error.mp h)

theorem Claim.budgets_of_wanted {c : Claim} {w : Wanted} (h : c.wanted = some w) :
    ∃ cpu memory, c.capacityCpuCores = some cpu ∧ c.capacityMemoryBytes = some memory ∧
      w.cpuBudget = budget cpu c.platformFraction ∧
      w.memoryBudget = budget memory c.platformFraction := by
  unfold Claim.wanted at h
  split at h
  · rename_i cpu memory _ hcpu hmemory
    split at h
    · obtain rfl := Option.some.inj h
      exact ⟨cpu, memory, hcpu, hmemory, rfl, rfl⟩
    · cases h
  · cases h

/-- The capacity test is refused with an `OverflowError` only. -/
theorem isInvalidTransition_of_overbooked {c : Claim} {w : Wanted} (h : c.wanted = some w)
    {t : Tables} {x : StoreError} (hx : t.overbooked w = .error x) :
    x.isInvalidTransition = false := by
  obtain ⟨cpu, memory, _, _, hcpu, hmemory⟩ := c.budgets_of_wanted h
  rw [Tables.overbooked, hcpu, hmemory] at hx
  rcases Except.bind_eq_error.mp hx with hx | ⟨_, _, hx⟩
  · exact isInvalidTransition_of_budget hx
  rcases Except.bind_eq_error.mp hx with hx | ⟨_, _, hx⟩
  · exact isInvalidTransition_of_budget hx
  · cases hx

/-- The end of a claim whose row is already in: an exception, a rollback to the
tables before the row, or the commit. -/
theorem reserveClaim_cases (c : Claim) (stage : StageRow) (row : AttemptRow)
    (now : Timestamp) :
    (∃ x : StoreError, x.isInvalidTransition = false ∧
        handled (reserveClaim c stage row now { db := t.insertAttempt row, saved := some t }) =
          (.error x, { db := t })) ∨
      handled (reserveClaim c stage row now { db := t.insertAttempt row, saved := some t }) =
        (.ok none, { db := t }) ∨
      (∀ w, c.wanted = some w → 0 < w.memory ∧ t.overbooked w = .ok false ∧
          t.refusesReservation (w.row row.attemptId) = false) ∧
        handled (reserveClaim c stage row now { db := t.insertAttempt row, saved := some t }) =
          (.ok (some row), { db :=
            ((((t.insertAttempt row).insertReservations (c.reservations row.attemptId)).updateStage
              stage.stageRunId (StageRow.started now)).updateWaitingRun stage.runId
                (RunRow.started now)) }) := by
  unfold reserveClaim
  cases hwanted : c.wanted with
  | none =>
      refine .inr (.inr ⟨by simp, ?_⟩)
      simp [commitClaim, Claim.reservations, hwanted, Tables.insertReservations]
  | some w =>
      by_cases hmemory : w.memory ≤ 0
      · exact .inl ⟨_, rfl, by simp only [hmemory, if_true]; rfl⟩
      have hbooked : (t.insertAttempt row).overbooked w = t.overbooked w := rfl
      have hrefuses : (t.insertAttempt row).refusesReservation (w.row row.attemptId) =
        t.refusesReservation (w.row row.attemptId) := rfl
      simp only [hmemory, if_false, reading_bind, hbooked]
      rcases hover : t.overbooked w with x | full
      · exact .inl ⟨x, isInvalidTransition_of_overbooked hwanted hover, rfl⟩
      cases full with
      | true => exact .inr (.inl (by simp))
      | false =>
          simp only [Bool.false_eq_true, if_false, executeChecked_bind, hrefuses]
          cases hres : t.refusesReservation (w.row row.attemptId) with
          | true => exact .inl ⟨_, rfl, by simp only [if_true]; rfl⟩
          | false =>
              refine .inr (.inr ⟨?_, ?_⟩)
              · rintro w' hw'
                obtain rfl : w = w' := Option.some.inj hw'
                exact ⟨lt_of_not_ge hmemory, hover, hres⟩
              · simp [commitClaim, Claim.reservations, hwanted, Tables.insertReservations,
                  Tables.insertReservation]

/-- A claim commits its effect, or returns `None` or raises and changes nothing.
It raises `InvalidTransition` only for a stage that cannot be claimed. -/
theorem startAttempt_cases (c : Claim) (now : Timestamp) :
    (∃ x, Keeps (startAttempt stageRunId c attemptId now) t (.error x) ∧
        (x.isInvalidTransition = true →
          ∃ stage, t.stage? stageRunId = some stage ∧ stage.status.claimable = false)) ∨
      Keeps (startAttempt stageRunId c attemptId now) t (.ok none) ∨
      ∃ stage, t.stage? stageRunId = some stage ∧
        Commits (startAttempt stageRunId c attemptId now) t (.claim stage c attemptId now)
          (.ok (some (t.nextAttempt stage c attemptId now))) := by
  unfold Keeps Commits startAttempt
  by_cases hlease : c.leaseSeconds ≤ 0
  · exact .inl ⟨_, by rw [if_pos hlease]; rfl, by simp [StoreError.isInvalidTransition]⟩
  rw [if_neg hlease, immediate_apply, query_bind]
  cases hstage : t.stage? stageRunId with
  | none => exact .inl ⟨_, rfl, by simp [unknownStage, StoreError.isInvalidTransition]⟩
  | some stage =>
      cases hclaimable : stage.status.claimable with
      | false =>
          exact .inl ⟨_, by simp only [hclaimable]; rfl, fun _ ↦ ⟨stage, rfl, hclaimable⟩⟩
      | true =>
          have hkey : stage.stageRunId = stageRunId := Table.key_of_get? hstage
          have hnext : t.nextAttempt stage c attemptId now =
              c.attemptRow stageRunId (t.maxAttemptNumber stageRunId + 1) attemptId now := by
            simp only [Tables.nextAttempt, hkey]
          simp only [hclaimable, Bool.not_true, Bool.false_eq_true, if_false, query_bind,
            executeChecked_bind, ← hnext]
          cases hrow : t.refusesAttempt (t.nextAttempt stage c attemptId now) with
          | true =>
              exact .inl ⟨_, by simp only [if_true]; rfl, by simp [StoreError.isInvalidTransition]⟩
          | false =>
              simp only [Bool.false_eq_true, if_false]
              rcases reserveClaim_cases t c stage (t.nextAttempt stage c attemptId now) now with
                ⟨x, hx, herror⟩ | hnone | ⟨hwanted, hok⟩
              · exact .inl ⟨x, herror, by simp [hx]⟩
              · exact .inr (.inl hnone)
              · refine .inr (.inr ⟨stage, rfl, ⟨?_, hclaimable, hrow, hwanted⟩, hok⟩)
                rw [hkey, hstage]

/-- A stage that cannot be claimed is refused with `InvalidTransition`. -/
theorem startAttempt_refuses {c : Claim} (now : Timestamp) {stage : StageRow}
    (hlease : 0 < c.leaseSeconds) (hstage : t.stage? stageRunId = some stage)
    (hstatus : stage.status.claimable = false) :
    Keeps (startAttempt stageRunId c attemptId now) t (.error (.invalidTransition
      ("invalid stage transition " ++ stage.status.value ++ " -> running"))) := by
  unfold Keeps startAttempt
  rw [if_neg (not_le.mpr hlease), immediate_apply, query_bind, hstage]
  simp only [hstatus]
  rfl

theorem reuseRun_keeps (custody : Custody) (a : Submission) (run : RunRow) :
    ∃ r, handled (reuseRun custody a run { db := t, saved := some t }) = (r, { db := t }) := by
  unfold reuseRun
  cases hequal : equivalentTaskSpecs custody run.taskSpec a.task with
  | error e => exact ⟨_, rfl⟩
  | ok equal =>
      cases equal with
      | false => exact ⟨_, rfl⟩
      | true =>
          simp only [query_bind]
          cases hstages : t.listStages run.runId with
          | nil => exact ⟨_, rfl⟩
          | cons stage stages =>
              by_cases hversion : stage.pluginVersion = a.pluginVersion
              · exact ⟨_, by simp only [hversion, ne_eq, not_true_eq_false, if_false]; rfl⟩
              · exact ⟨_, by simp only [hversion, ne_eq, not_false_eq_true, if_true]; rfl⟩

theorem createRun_cases (a : Submission) (pluginId : String) :
    (∃ e, handled (createRun a pluginId { db := t, saved := some t }) = (.error e, { db := t })) ∨
      t.refusesRun a.runRow = false ∧
        (t.insertRun a.runRow).refusesStage (a.stageRow pluginId) = false ∧
        handled (createRun a pluginId { db := t, saved := some t }) =
          (.ok a.runRow, { db := (Effect.create a pluginId).apply t }) := by
  simp only [createRun, executeChecked_bind]
  cases hrun : t.refusesRun a.runRow with
  | true => exact .inl ⟨_, rfl⟩
  | false =>
      cases hstage : (t.insertRun a.runRow).refusesStage (a.stageRow pluginId) with
      | true => exact .inl ⟨_, rfl⟩
      | false => exact .inr ⟨rfl, rfl, rfl⟩

/-- A submission returns a run it found, creates one, or raises. -/
theorem submitRun_cases (custody : Custody) (a : Submission) :
    (∃ r, Keeps (submitRun custody a) t r) ∨
      ∃ pluginId, Commits (submitRun custody a) t (.create a pluginId) (.ok a.runRow) := by
  unfold Keeps Commits submitRun
  rw [bind_apply]
  cases hvalid : a.task.validate with
  | error message => exact .inl ⟨_, rfl⟩
  | ok u =>
      simp only [checked, pure_apply]
      cases hplugin : a.task.pluginId with
      | none => exact .inl ⟨_, rfl⟩
      | some pluginId =>
          by_cases hkey : a.idempotencyKey = some ""
          · exact .inl ⟨_, by simp only [hkey, if_true]; rfl⟩
          simp only [hkey, if_false, immediate_apply, query_bind]
          cases hfound : a.existing? t with
          | some run => exact .inl (reuseRun_keeps t custody a run)
          | none =>
              rcases createRun_cases t a pluginId with ⟨e, he⟩ | ⟨hrun, hstage, hok⟩
              · exact .inl ⟨_, he⟩
              · exact .inr ⟨pluginId, ⟨TaskSpec.maxAttempts_pos hvalid, hrun, hstage⟩, hok⟩

theorem heartbeatCheck_keeps (workerId : WorkerId) :
    ∃ r, Keeps (heartbeatCheck attemptId workerId) t r := by
  simp only [Keeps, heartbeatCheck, query_bind]
  cases hrow : t.attempt? attemptId with
  | none => exact ⟨_, rfl⟩
  | some row =>
      simp only [Sql.ite_apply]
      split
      · exact ⟨_, rfl⟩
      · split
        · exact ⟨_, rfl⟩
        · exact ⟨_, rfl⟩

/-- The `UPDATE` of a heartbeat always runs; it raises when it met no row. -/
theorem heartbeatUpdate_commits (workerId : WorkerId) (leaseSeconds : Int) (now : Timestamp) :
    ∃ r, Commits (heartbeatUpdate attemptId workerId leaseSeconds now) t
      (.beat attemptId workerId leaseSeconds now) r := by
  simp only [Commits, heartbeatUpdate, updateAttempts, executeReturning_bind, Sql.ite_apply]
  split
  · exact ⟨_, trivial, rfl⟩
  · exact ⟨_, trivial, rfl⟩

theorem attachProcess_cases (workerId : WorkerId) (p : ProcessIdentity) :
    (∃ r, Keeps (attachProcess attemptId workerId p) t r) ∨
      ∃ r, Commits (attachProcess attemptId workerId p) t (.attach attemptId workerId p) r := by
  unfold Keeps Commits attachProcess
  by_cases hpositive : (p.processId ≤ 0 || p.processGroupId ≤ 0) = true
  · exact .inl ⟨_, by rw [if_pos hpositive]; rfl⟩
  · rw [if_neg hpositive]
    simp only [updateAttempts, executeReturning_bind, Sql.ite_apply]
    split
    · exact .inr ⟨_, trivial, rfl⟩
    · exact .inr ⟨_, trivial, rfl⟩

/-- How many rows the guarded `UPDATE` of a reclaim pass meets. -/
def Tables.lapsed (t : Tables) (attemptId : AttemptId) (reference : Timestamp) : Nat :=
  t.attempts.countP fun a ↦ a.attemptId = attemptId && a.expired reference

theorem markLost_commits (reference : Timestamp) :
    Commits (markLost attemptId reference) t (.lose attemptId reference)
      (.ok (decide (t.lapsed attemptId reference = 1))) := ⟨trivial, rfl⟩

theorem getRun_keeps :
    Keeps (getRun runId) t
      (match t.run? runId with
      | none => .error (unknownRun runId)
      | some run => .ok run) := by
  simp only [Keeps, getRun, query_bind]
  cases t.run? runId <;> rfl

theorem wantsCancel_keeps :
    Keeps (wantsCancel runId) t
      (match t.run? runId with
      | none => .error (unknownRun runId)
      | some run => .ok (!(run.status.isTerminal || decide (run.status = .cancelRequested)))) := by
  simp only [Keeps, wantsCancel, getRun, bind_apply, query_apply]
  cases t.run? runId <;> rfl

end Methods

end ChipEvolve
