import ChipEvolve.Paging
import ChipEvolve.Store.WellFormed
import ChipEvolve.Worker.Threads

/-!
# Cancellations that nobody is left to carry out

`abandoned_cancellations` (`store.py`) and `_finish_abandoned_cancellations` (`worker.py`).
The list of cancelled runs is cut before the runs that still have an attempt are taken out
of it, so that runs with attempts can keep the others from being settled.
-/

namespace ChipEvolve

open Sql

/-! ## The list -/

namespace Tables

/-- The runs whose cancellation is requested, in order. -/
def cancellations (t : Tables) : List RunRow :=
  (t.runs.filter fun r ↦ r.status = .cancelRequested).insertionSort
    fun a b ↦ a.createdAt ≤ b.createdAt

/-- No attempt of the run is running. -/
def unattended (t : Tables) (r : RunRow) : Bool := !t.hasRunningAttempt r.runId

/-- The runs among them that nobody is working on. -/
def abandoned (t : Tables) : List RunId := (t.cancellations.filter t.unattended).map RunRow.runId

end Tables

def abandonedCancellations (limit : Int) : StoreM (List RunId) :=
  if !(1 ≤ limit && limit ≤ 1000) then
    raise (.runtimeStore "limit must be between 1 and 1000")
  else query fun t ↦
    (t.cancelRequestedRuns limit.toNat).filter fun runId ↦ !t.hasRunningAttempt runId

/-! ## The settling step -/

def abandonedReason : String := "cancelled before the attempt started"

/-- The loop of `_finish_abandoned_cancellations`. -/
def settleAll (now : Timestamp) :
    List RunId → Nat → Tables → Except StoreError Nat × Tables
  | [], settled, t => (.ok settled, t)
  | runId :: runIds, settled, t =>
      match exec (transitionRun runId .cancelled (some abandonedReason) now) t with
      | (.ok _, t') => settleAll now runIds (settled + 1) t'
      | (.error e, t') =>
          if e.isInvalidTransition then settleAll now runIds settled t' else (.error e, t')

def finishAbandonedCancellations (batch : Int) (now : Timestamp) (t : Tables) :
    Except StoreError Nat × Tables :=
  match exec (abandonedCancellations batch) t with
  | (.ok runIds, t') => settleAll now runIds 0 t'
  | (.error e, t') => (.error e, t')

/-! ## What is returned -/

section Selection

variable {t : Tables} {limit : Nat}

theorem exec_abandonedCancellations (hlimit : 1 ≤ limit ∧ limit ≤ 1000) :
    exec (abandonedCancellations limit) t =
      (.ok (((t.cancellations.take limit).filter t.unattended).map RunRow.runId), t) := by
  have hin : (1 ≤ (limit : Int) && (limit : Int) ≤ 1000) = true := by
    simp only [Bool.and_eq_true, decide_eq_true_eq]
    omega
  unfold abandonedCancellations
  rw [hin]
  simp only [exec, query, Bool.not_true, Bool.false_eq_true, if_false, Int.toNat_natCast,
    Tables.cancelRequestedRuns, List.filter_map]
  rfl

/-- Either all the cancelled runs that are looked at are unattended, or no other one is. -/
def Tables.CutsNone (t : Tables) (limit : Nat) : Prop :=
  (∀ r ∈ t.cancellations.take limit, t.hasRunningAttempt r.runId = false) ∨
    ∀ r ∈ t.cancellations.drop limit, t.hasRunningAttempt r.runId = true

theorem cutsNone_iff : ((t.cancellations.take limit).filter t.unattended).map RunRow.runId =
    t.abandoned.take limit ↔ t.CutsNone limit := by
  have hids : ((t.cancellations.take limit).filter t.unattended).map RunRow.runId =
      t.abandoned.take limit ↔
      (t.cancellations.take limit).filter t.unattended =
        (t.cancellations.filter t.unattended).take limit := by
    rw [Tables.abandoned, ← List.map_take]
    refine ⟨fun h ↦ ?_, congrArg _⟩
    have hlength := congrArg List.length h
    rw [List.length_map, List.length_map] at hlength
    exact Paging.filter_take_eq_iff.mpr (Paging.length_filter_take_eq_iff.mp hlength)
  rw [hids, Paging.filter_take_eq_iff]
  simp [Tables.CutsNone, Tables.unattended]

end Selection

/-! ## What is settled -/

section Settling

variable {t : Tables} {runId : RunId} {now : Timestamp} {limit : Nat}

theorem runStatus?_move_cancelled {other : RunId} {reason : Option String}
    (h : t.runStatus? runId = some .cancelled) :
    ((Effect.move other .cancelled reason now).apply t).runStatus? runId = some .cancelled := by
  obtain ⟨row, hrow, hstatus⟩ := Option.map_eq_some_iff.mp h
  rw [Tables.runStatus?, run?_apply _ hrow, Option.map_some, Option.some.injEq]
  simp only [Effect.onRun]
  split
  · rfl
  · exact hstatus

/-- A run that is cancelled stays so. -/
theorem settleAll_keeps (runIds : List RunId) (settled : Nat)
    (h : t.runStatus? runId = some .cancelled) :
    (settleAll now runIds settled t).2.runStatus? runId = some .cancelled := by
  induction runIds generalizing t settled with
  | nil => exact h
  | cons other runIds ih =>
      unfold settleAll
      rcases transitionRun_cases t other .cancelled (some abandonedReason) now with
        ⟨_, r, hkeeps⟩ | hcommits
      · rw [hkeeps.exec]
        cases r with
        | ok u => exact ih _ h
        | error e =>
            dsimp only
            split
            · exact ih _ h
            · exact h
      · rw [hcommits.exec]
        exact ih _ (runStatus?_move_cancelled h)

/-- The first run of the list is cancelled. -/
theorem settleAll_cancels {runIds : List RunId} {settled : Nat}
    (h : t.runStatus? runId = some .cancelRequested) :
    (settleAll now (runId :: runIds) settled t).2.runStatus? runId = some .cancelled := by
  obtain ⟨row, hrow, hstatus⟩ := Option.map_eq_some_iff.mp h
  have hkey : row.runId = runId := Table.key_of_get? hrow
  have hallowed : runTransitionAllowed row.status .cancelled = true := by rw [hstatus]; decide
  have hcommits := (transitionRun_cases t runId .cancelled (some abandonedReason) now).resolve_left
    fun hrefused ↦ hrefused.1 ⟨row, hrow, hallowed⟩
  unfold settleAll
  rw [hcommits.exec]
  refine settleAll_keeps runIds _ ?_
  rw [Tables.runStatus?, run?_apply _ hrow, Option.map_some, Option.some.injEq]
  simp [Effect.onRun, hkey, RunRow.moved]

theorem runStatus?_of_mem_abandoned (hids : Table.Unique RunRow.runId t.runs)
    (h : runId ∈ t.abandoned) : t.runStatus? runId = some .cancelRequested := by
  obtain ⟨row, hrow, rfl⟩ := List.mem_map.mp h
  have hmem := (List.mem_insertionSort _).mp (List.mem_of_mem_filter hrow)
  rw [Tables.runStatus?, Tables.run?, hids.get? (List.mem_of_mem_filter hmem), Option.map_some]
  simpa using List.of_mem_filter hmem

/-- For every state and every limit, the method returns the first runs of those it is about,
and the worker settles one of them if there is any, exactly if the cut takes no attended run
in place of an unattended one. -/
theorem no_cancellation_overlooked_iff (hids : Table.Unique RunRow.runId t.runs)
    (hlimit : 1 ≤ limit ∧ limit ≤ 1000) :
    ((exec (abandonedCancellations limit) t).1 = .ok (t.abandoned.take limit) ∧
        (t.abandoned ≠ [] → ∃ runId ∈ t.abandoned,
          (finishAbandonedCancellations limit now t).2.runStatus? runId = some .cancelled)) ↔
      t.CutsNone limit := by
  rw [exec_abandonedCancellations hlimit, Except.ok.injEq, cutsNone_iff, and_iff_left_iff_imp]
  intro hnone hsome
  have hreturned := cutsNone_iff.mpr hnone
  cases habandoned : t.abandoned with
  | nil => exact absurd habandoned hsome
  | cons runId rest =>
      have hmem : runId ∈ t.abandoned := habandoned ▸ List.mem_cons_self
      refine ⟨runId, List.mem_cons_self, ?_⟩
      obtain ⟨n, rfl⟩ : ∃ n, limit = n + 1 := ⟨limit - 1, by omega⟩
      unfold finishAbandonedCancellations
      rw [exec_abandonedCancellations hlimit, hreturned, habandoned, List.take_succ_cons]
      exact settleAll_cancels (runStatus?_of_mem_abandoned hids hmem)

end Settling

/-! ## An older run with an attempt -/

namespace Sample

def cancelled (runId : RunId) (createdAt : Timestamp) : RunRow where
  runId := runId
  taskId := runId
  idempotencyKey := none
  status := .cancelRequested
  taskSpec := { taskId := runId, projectId := "project", designId := "design" }
  createdAt := createdAt

/-- Two cancelled runs, the older one with an attempt that is running. -/
def overlooking : Tables where
  runs := [cancelled "older" 0, cancelled "newer" 1]
  stages :=
    [{ stageRunId := "stage", runId := "older", stageKey := "main", ordinal := 0
       pluginId := "plugin", pluginVersion := "1", status := .cancelRequested, createdAt := 0 }]
  attempts :=
    [{ attemptId := "attempt", stageRunId := "stage", attemptNumber := 1, status := .running
       workerId := "worker", startedAt := 0, workspace := "/work", leaseExpiresAt := some 9
       heartbeatAt := some 0 }]

end Sample

theorem newer_cancellation_overlooked : Table.Unique RunRow.runId Sample.overlooking.runs ∧
    Sample.overlooking.abandoned = ["newer"] ∧
    (exec (abandonedCancellations 1) Sample.overlooking).1 = .ok [] ∧
    (finishAbandonedCancellations 1 2 Sample.overlooking).2.runStatus? "newer" =
      some .cancelRequested := by
  refine ⟨?_, ?_, ?_, ?_⟩
  · unfold Table.Unique
    decide +kernel
  all_goals decide +kernel

theorem no_cancellation_overlooked_sample :
    (exec (abandonedCancellations 2) Sample.overlooking).1 =
        .ok (Sample.overlooking.abandoned.take 2) ∧
      (Sample.overlooking.abandoned ≠ [] → ∃ runId ∈ Sample.overlooking.abandoned,
        (finishAbandonedCancellations 2 2 Sample.overlooking).2.runStatus? runId =
          some .cancelled) := by
  have hlimit : 1 ≤ 2 ∧ 2 ≤ 1000 := by omega
  refine (no_cancellation_overlooked_iff ?_ hlimit).mpr (.inr ?_)
  · unfold Table.Unique
    decide +kernel
  · decide +kernel

end ChipEvolve
