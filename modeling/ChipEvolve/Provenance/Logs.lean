import ChipEvolve.Provenance.Index

/-!
# The logs of a run, page by page

`LogQuery.run` (`log_query.py`) applies one offset and one limit to the log of every attempt
and joins what it reads.  A resumed attempt works in the workspace of the attempt before it
(`execute_once_reporting`, `runtime.py`), so attempts can have one log file between them.
-/

namespace ChipEvolve.Provenance

open Paging

/-- Where the next page starts; an empty page is the last. -/
def LogView.next (v : LogView) : Option Int :=
  if v.content = [] then none else some (v.offset + v.maxBytes)

namespace RunDetail

variable (d : RunDetail) (files : String → Option Bytes)

def workspaces : List String := d.attempts.map fun (_, a) ↦ a.attempt.workspace

/-- The logs of the attempts, one for each, where `files` are the log files of the workspaces. -/
def attemptLogs : List Bytes := d.workspaces.map fun w ↦ (files w).getD []

/-- The log files of the attempts in order, each once. -/
def wholeLog : Bytes := d.workspaces.eraseDups.flatMap fun w ↦ (files w).getD []

/-- For each attempt whose log is not empty, the workspace it is in. -/
def loggedIn : List String := d.workspaces.filter fun w ↦ !((files w).getD []).isEmpty

/-- What an attempt has opened is the log file of its workspace. -/
def Shelved (x : Records) : Prop := ∀ p ∈ d.attempts,
  x.opened p.2.attempt.attemptId logFilename = files p.2.attempt.workspace

end RunDetail

section Pages

variable {q : LogQuery} {runId : RunId} {d : RunDetail} {files : String → Option Bytes} {n : Nat}

theorem logs_eq (hd : q.store.runDetail runId = .ok d) (hfiles : d.Shelved files q.store)
    (hn : 0 < n) (hmax : n ≤ q.maxBytes) (o : Nat) :
    q.run runId o (some (n : Int)) = .ok
      { run := runId, offset := o, maxBytes := n
        content := slices n o (d.attemptLogs files) } := by
  have hlimit : 0 < (n : Int) ∧ (n : Int) ≤ q.maxBytes := by omega
  have hoffset : ¬(o : Int) < 0 := by omega
  have hchunks : (d.attempts.filterMap fun p ↦
      (q.store.opened p.2.attempt.attemptId logFilename).map fun bytes ↦ chunkOf bytes o n).flatten =
        slices n o (d.attemptLogs files) := by
    unfold slices RunDetail.attemptLogs RunDetail.workspaces
    rw [List.flatMap_map, List.flatMap_map]
    unfold RunDetail.Shelved at hfiles
    generalize d.attempts = attempts at hfiles ⊢
    induction attempts with
    | nil => rfl
    | cons p attempts ih =>
        rw [List.forall_mem_cons] at hfiles
        rw [List.filterMap_cons, List.flatMap_cons, ← ih hfiles.2, hfiles.1]
        cases files p.2.attempt.workspace <;> simp [chunkOf]
  unfold LogQuery.run raiseIf
  simp only [Option.getD_some, if_neg hoffset, if_neg (not_not.mpr hlimit), hd, bind, Except.bind,
    pure, Except.pure]
  rw [hchunks]

/-- Reading to the end gives as many bytes as the attempts have, and where the logs fit the very
bytes. -/
theorem reads_eq (hd : q.store.runDetail runId = .ok d) (hfiles : d.Shelved files q.store)
    (hn : 0 < n) (hmax : n ≤ q.maxBytes) {o : Nat} {views : List LogView}
    (h : Reads (fun offset view ↦ q.run runId offset (some (n : Int)) = .ok view) LogView.next
      (o : Int) views) :
    (views.flatMap LogView.content).length = (rests o (d.attemptLogs files)).length ∧
      (Fits n (d.attemptLogs files) →
        views.flatMap LogView.content = rests o (d.attemptLogs files)) := by
  generalize hs : (o : Int) = s at h
  induction h generalizing o with
  | last hanswer hnext =>
      subst hs
      rw [logs_eq hd hfiles hn hmax] at hanswer
      obtain rfl := Except.ok.inj hanswer
      have hempty : slices n o (d.attemptLogs files) = [] := by
        by_contra hne
        rw [LogView.next, if_neg hne] at hnext
        cases hnext
      simp [hempty, (slices_eq_nil_iff hn).mp hempty]
  | @more s next view rest hanswer hnext _ ih =>
      subst hs
      rw [logs_eq hd hfiles hn hmax] at hanswer
      obtain rfl := Except.ok.inj hanswer
      have hs : ((o + n : Nat) : Int) = next := by
        unfold LogView.next at hnext
        split at hnext
        · cases hnext
        · exact Option.some.inj hnext
      obtain ⟨hlength, hfits⟩ := ih hs
      rw [List.flatMap_cons]
      refine ⟨?_, fun h ↦ ?_⟩
      · rw [List.length_append, hlength, length_rests n o]
      · rw [hfits h, ← rests_eq_append h]

/-- Paging comes to an end. -/
theorem exists_reads (hd : q.store.runDetail runId = .ok d) (hfiles : d.Shelved files q.store)
    (hn : 0 < n) (hmax : n ≤ q.maxBytes) (o : Nat) :
    ∃ views, Reads (fun offset view ↦ q.run runId offset (some (n : Int)) = .ok view) LogView.next
      (o : Int) views := by
  induction hk : (rests o (d.attemptLogs files)).length using Nat.strong_induction_on
    generalizing o with
  | _ k ih =>
      have hanswer := logs_eq hd hfiles hn hmax o
      by_cases hempty : slices n o (d.attemptLogs files) = []
      · exact ⟨_, .last hanswer (if_pos hempty)⟩
      · have hpage := List.length_pos_iff.mpr hempty
        have hrests := length_rests n o (d.attemptLogs files)
        obtain ⟨views, hviews⟩ := ih _ (by omega) (o + n) rfl
        exact ⟨_, .more hanswer (if_neg hempty) hviews⟩

/-- Paging reads at most a page at a time and each byte once exactly where one attempt at most
has a log that is not empty, or each such log is a file of its own and a page holds them all. -/
theorem log_pages_exact_iff (hd : q.store.runDetail runId = .ok d) (hfiles : d.Shelved files q.store)
    (hn : 0 < n) (hmax : n ≤ q.maxBytes) :
    ((∀ (offset : Nat) (view : LogView), q.run runId offset (some (n : Int)) = .ok view →
        view.content.length ≤ n) ∧
      ∃ views, Reads (fun offset view ↦ q.run runId offset (some (n : Int)) = .ok view)
        LogView.next 0 views ∧ views.flatMap LogView.content = d.wholeLog files) ↔
      (d.loggedIn files).length ≤ 1 ∨
        (d.loggedIn files).Nodup ∧ (d.wholeLog files).length ≤ n := by
  have hflatten : (d.attemptLogs files).flatten =
      d.workspaces.flatMap fun w ↦ (files w).getD [] := List.flatMap_def.symm
  have honce : d.wholeLog files = (d.attemptLogs files).flatten ↔ (d.loggedIn files).Nodup := by
    rw [hflatten]
    exact flatMap_eraseDups_eq_iff
  have hlogged : ((d.attemptLogs files).filter fun l ↦ !l.isEmpty).length =
      (d.loggedIn files).length := by
    rw [RunDetail.attemptLogs, List.filter_map, List.length_map]
    rfl
  have hpages : (∀ (offset : Nat) (view : LogView),
      q.run runId offset (some (n : Int)) = .ok view → view.content.length ≤ n) ↔
        Fits n (d.attemptLogs files) := by
    constructor
    · intro h
      exact fits_of_length_le hn (h 0 _ (logs_eq hd hfiles hn hmax 0))
    · intro h offset view hview
      rw [logs_eq hd hfiles hn hmax] at hview
      obtain rfl := Except.ok.inj hview
      exact length_slices_le h offset
  rw [hpages]
  constructor
  · rintro ⟨hfits, views, hviews, hwhole⟩
    have hread := (reads_eq hd hfiles hn hmax hviews).2 hfits
    rw [hwhole, rests_zero] at hread
    rw [Fits, ← hread, hlogged] at hfits
    exact hfits.symm.imp id fun h ↦ ⟨honce.mp hread, h⟩
  · intro h
    have hnodup : (d.loggedIn files).Nodup := by
      rcases h with hone | h
      · generalize d.loggedIn files = logged at hone ⊢
        rcases logged with _ | ⟨w, _ | _⟩
        · exact List.nodup_nil
        · exact List.nodup_singleton w
        · simp at hone
      · exact h.1
    have hwhole := honce.mpr hnodup
    have hfits : Fits n (d.attemptLogs files) := by
      rw [Fits, ← hwhole, hlogged]
      exact h.symm.imp And.right id
    obtain ⟨views, hviews⟩ := exists_reads hd hfiles hn hmax 0
    refine ⟨hfits, views, hviews, ?_⟩
    rw [(reads_eq hd hfiles hn hmax hviews).2 hfits, rests_zero, hwhole]

end Pages

/-! ## A run with two attempts -/

namespace Sample

def loggedRun : RunRow where
  runId := "run"
  taskId := "task"
  idempotencyKey := none
  status := .running
  taskSpec := { taskId := "task", projectId := "project", designId := "design" }
  createdAt := 0

def loggedStage : StageRow where
  stageRunId := "stage"
  runId := "run"
  stageKey := "main"
  ordinal := 0
  pluginId := "plugin"
  pluginVersion := "1"
  status := .running
  createdAt := 0

def loggedAttempt (number : Nat) (attemptId workspace : String) : AttemptRow where
  attemptId := attemptId
  stageRunId := "stage"
  attemptNumber := number
  status := .failed
  workspace := workspace
  workerId := "worker"
  leaseExpiresAt := none
  heartbeatAt := none
  startedAt := 0

def logFiles : String → Option Bytes
  | "/work/1" => some [1, 2, 3]
  | "/work/2" => some [4, 5, 6]
  | _ => none

def logged : Records where
  system :=
    { tables := { runs := [loggedRun], stages := [loggedStage]
                  attempts := [loggedAttempt 1 "a1" "/work/1", loggedAttempt 2 "a2" "/work/2"] } }
  opened attemptId _ := logFiles (if attemptId = "a1" then "/work/1" else "/work/2")

def query : LogQuery := { store := logged }

def loggedDetail : RunDetail where
  run := loggedRun
  stages := (logged.tables.listStages "run").map fun s ↦ logged.stageDetail (logged.describeStage s)

/-- The first page of two bytes has four, and they are not the first four. -/
theorem log_page_exceeds_limit :
    ¬((∀ (offset : Nat) (view : LogView), query.run "run" offset (some (2 : Nat)) = .ok view →
        view.content.length ≤ 2) ∧
      ∃ views, Reads (fun offset view ↦ query.run "run" offset (some (2 : Nat)) = .ok view)
        LogView.next 0 views ∧ views.flatMap LogView.content = [1, 2, 3, 4, 5, 6]) := by
  rintro ⟨hbounded, -⟩
  have hpage : query.run "run" (0 : Nat) (some (2 : Nat)) =
      .ok { run := "run", offset := 0, maxBytes := 2, content := [1, 2, 4, 5] } := rfl
  exact absurd (hbounded 0 _ hpage) (by decide)

theorem log_pages_exact_whole :
    (∀ (offset : Nat) (view : LogView), query.run "run" offset (some (6 : Nat)) = .ok view →
        view.content.length ≤ 6) ∧
      ∃ views, Reads (fun offset view ↦ query.run "run" offset (some (6 : Nat)) = .ok view)
        LogView.next 0 views ∧ views.flatMap LogView.content = [1, 2, 3, 4, 5, 6] := by
  have hd : query.store.runDetail "run" = .ok loggedDetail :=
    Records.runDetail_eq_ok.mpr ⟨loggedRun, rfl, rfl⟩
  have hshelved : loggedDetail.Shelved logFiles query.store := by
    unfold RunDetail.Shelved
    decide +kernel
  exact (log_pages_exact_iff hd hshelved (by decide) (by decide)).mpr
    (.inr ⟨by decide +kernel, by decide +kernel⟩)

end Sample

end ChipEvolve.Provenance
