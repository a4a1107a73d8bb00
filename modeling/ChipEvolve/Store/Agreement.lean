import ChipEvolve.Store.StatusMachine

/-!
# A run and its stage never disagree

The two statuses are written by separate statements.  As long as every retry is
scheduled on a stage of its own run they are always equal, so the queue query
and the claim look at the same thing.
-/

namespace ChipEvolve

open Machine Sql

/-- Every call of `schedule_retry` names a stage of its run. -/
def retriesOwnStage (s : System) (l : ThreadId × Operation) : Bool :=
  match l.2 with
  | .scheduleRetry runId stageRunId _ =>
      (s.tables.stage? stageRunId).all fun stage ↦ stage.runId = runId
  | _ => true

/-- The guard the same condition puts on effects. -/
def ReschedulesOwnStage (t : Tables) (e : Effect) : Prop :=
  ∀ runId stageRunId reason, e = .reschedule runId stageRunId reason →
    ∀ stage, t.stage? stageRunId = some stage → stage.runId = runId

/-! ## A reclaim pass reschedules the stage it looked up -/

def Pass.OwnStage (t : Tables) : Pass → Prop
  | .rescheduling _ runId stageRunId _ =>
      ∃ stage, t.stage? stageRunId = some stage ∧ stage.runId = runId
  | _ => True

def Client.OwnStage (t : Tables) : Client → Prop
  | .reclaiming pass => pass.OwnStage t
  | _ => True

theorem resumable?_stage {t : Tables} (hwf : WellFormed t) {runId : RunId}
    {stageRunId : StageRunId} (h : t.resumable? runId = some stageRunId) :
    ∃ stage, t.stage? stageRunId = some stage ∧ stage.runId = runId := by
  unfold Tables.resumable? at h
  split at h
  · rename_i run stage _ hstage
    split at h
    · obtain rfl := Option.some.inj h
      exact ⟨stage, hwf.stage?_of_mem (Table.mem_of_get? hstage), Table.key_of_get? hstage⟩
    · cases h
  · cases h

theorem Pass.ownStage_step {t : Tables} (hwf : WellFormed t) (now : Timestamp) (gone : Bool)
    (p : Pass) : (p.step now gone t).1.OwnStage (p.step now gone t).2 := by
  cases p with
  | settling ids runIds =>
      cases runIds with
      | nil => trivial
      | cons runId runIds =>
          simp only [step]
          split
          · rename_i stageRunId hstage
            exact resumable?_stage hwf hstage
          · trivial
  | fencing reference rows ids runIds =>
      cases rows with
      | nil => trivial
      | cons row rows =>
          simp only [step]
          split
          · split <;> trivial
          · trivial
  | releasing | returned | raised => trivial
  | rescheduling | losing =>
      simp only [step]
      split
      · trivial
      · split <;> trivial

theorem Client.OwnStage.apply {t : Tables} {c : Client} (h : c.OwnStage t) (e : Effect) :
    c.OwnStage (e.apply t) := by
  cases c with
  | reclaiming pass =>
      cases pass with
      | rescheduling ids runId stageRunId runIds =>
          obtain ⟨stage, hstage, hrun⟩ := h
          exact ⟨e.onStage stage, stage?_apply e hstage, by simpa using hrun⟩
      | _ => trivial
  | _ => trivial

theorem Client.ownStage_step {custody : Custody} {t t' : Tables} (hwf : WellFormed t)
    {c c' : Client} {op : Operation} (h : c.step custody t op = some (c', t')) :
    c'.OwnStage t' := by
  cases c with
  | reclaiming pass =>
      cases op with
      | resume now gone =>
          obtain ⟨rfl, rfl⟩ := by simpa [step] using h
          have hpass := pass.ownStage_step hwf now gone
          cases hnext : (pass.step now gone t).1 with
          | rescheduling ids runId stageRunId runIds => rwa [hnext] at hpass
          | _ => trivial
      | _ => simp [step] at h
  | idle =>
      cases op with
      | requestCancel | heartbeat =>
          simp only [step] at h
          split at h <;> cases h <;> trivial
      | resume => simp [step] at h
      | _ => cases h; trivial
  | cancelling | beating =>
      cases op with
      | resume => cases h; trivial
      | _ => simp [step] at h

theorem System.wellFormed {custody : Custody} {allowed : System → ThreadId × Operation → Prop}
    {s : System} (h : ReachableBy (System.step custody) allowed {} s) : WellFormed s.tables := by
  have hreach : ReachableBy Effect.step (fun _ _ ↦ True) {} s.tables :=
    System.lifecycle (fun _ _ _ _ _ _ ↦ trivial) h
  exact wellFormed_of_reachable hreach

theorem System.ownStages {custody : Custody} {allowed : System → ThreadId × Operation → Prop}
    {s : System} (h : ReachableBy (System.step custody) allowed {} s) (tid : ThreadId) :
    (s.clients tid).OwnStage s.tables := by
  induction h with
  | init => trivial
  | @next s s' l hs _ hstep ih =>
      obtain ⟨next, hnext, rfl⟩ := Option.map_eq_some_iff.mp hstep
      by_cases htid : tid = l.1
      · subst htid
        simpa using Client.ownStage_step (System.wellFormed hs) hnext
      · simp only [Function.update_of_ne htid]
        rcases Client.step_effect hnext with hsame | ⟨e, _, _, happly⟩
        · rw [hsame]
          exact ih
        · rw [happly]
          exact ih.apply e

theorem System.lifecycle_ownStage {custody : Custody} {s : System}
    (h : ReachableBy (System.step custody) (fun s l ↦ retriesOwnStage s l = true) {} s) :
    ReachableBy Effect.step ReschedulesOwnStage {} s.tables := by
  refine System.lifecycle ?_ h
  rintro s ⟨tid, op⟩ e hs hallowed hemits runId stageRunId reason rfl stage hstage
  have hown := System.ownStages hs tid
  simp only at hemits
  generalize s.clients tid = c at hemits hown
  cases hemits with
  | reschedule => simpa [retriesOwnStage, hstage] using hallowed
  | pass hpass =>
      cases hpass with
      | reschedule =>
          obtain ⟨stage', hstage', hrun⟩ := hown
          rwa [Option.some.inj (hstage.symm.trans hstage')]

/-! ## The statuses are equal -/

theorem Moves.agree {t : Tables} {r : RunRow} {s : StageRow} {e : Effect}
    {r' s' : RuntimeStatus} (hwf : WellFormed t) (hs : s ∈ t.stages) (hrun : s.runId = r.runId)
    (hown : ReschedulesOwnStage t e) (he : e.Enabled t) (h : Moves t r s e r' s')
    (hinv : s.status = r.status) : s' = r' := by
  cases h with
  | keep => exact hinv
  | move hallowed =>
      have hlive : s.settled = false := by
        rw [StageRow.settled, hinv, not_terminal_of_transition hallowed]
      simp [hlive]
  | fail hwaiting =>
      have hlive : s.settled = false := by
        rw [StageRow.settled, hinv]
        revert hwaiting
        cases r.status <;> decide
      simp [hlive]
  | claim hclaimable =>
      rw [hinv] at hclaimable
      simp [waiting_of_claimable hclaimable]
  | reschedule => rfl
  | rescheduleRun _ hne =>
      obtain ⟨⟨stage, hstage, _⟩, _⟩ := he
      have hstageRun := hown _ _ _ rfl stage hstage
      obtain rfl := hwf.stage_eq_of_run (Table.mem_of_get? hstage) hs (hstageRun.trans hrun.symm)
      exact absurd (Table.key_of_get? hstage).symm hne
  | rescheduleStage hne =>
      have hstageRun := hown _ _ _ rfl s (hwf.stage?_of_mem hs)
      exact absurd (hstageRun.symm.trans hrun) hne
  | retry => rfl

theorem agree_of_reachable {t : Tables} (h : ReachableBy Effect.step ReschedulesOwnStage {} t) :
    WellFormed t ∧ Paired (fun r s ↦ s = r) t :=
  paired_of_reachable (P := fun r s ↦ s = r) rfl
    (fun _ _ _ _ _ _ hwf _ hs hrun hown he hmoves hinv ↦ hmoves.agree hwf hs hrun hown he hinv) h

/-! ## The queue and the claim -/

/-- Some page of `runnable_runs` lists the run. -/
def Listed (t : Tables) (runId : RunId) : Prop :=
  ∃ limit offset ids, (exec (runnableRuns limit offset) t).1 = .ok ids ∧ runId ∈ ids

/-- `start_attempt` does not refuse the stage. -/
def Accepted (t : Tables) (stageRunId : StageRunId) (c : Claim) (attemptId : AttemptId)
    (now : Timestamp) : Prop :=
  ∀ message, (exec (startAttempt stageRunId c attemptId now) t).1 ≠
    .error (.invalidTransition message)

/-- The pages together list every runnable run. -/
theorem listed_iff {t : Tables} {runId : RunId} :
    Listed t runId ↔ ∃ r ∈ t.runs, r.runId = runId ∧ t.isRunnable r = true := by
  have hmem : ∀ r, r ∈ t.runnable ↔ r ∈ t.runs ∧ t.isRunnable r = true := by
    intro r
    unfold Tables.runnable
    rw [(List.perm_insertionSort _ _).mem_iff, List.mem_filter]
  constructor
  · rintro ⟨limit, offset, ids, hids, hrun⟩
    unfold runnableRuns at hids
    split at hids
    · cases hids
    · obtain rfl := Except.ok.inj hids
      obtain ⟨r, hr, rfl⟩ := List.mem_map.mp hrun
      obtain ⟨hruns, hrunnable⟩ := (hmem r).mp (List.mem_of_mem_drop (List.mem_of_mem_take hr))
      exact ⟨r, hruns, rfl, hrunnable⟩
  · rintro ⟨r, hr, rfl, hrunnable⟩
    obtain ⟨i, hi, hget⟩ := List.mem_iff_getElem.mp ((hmem r).mpr ⟨hr, hrunnable⟩)
    refine ⟨1, i, [r.runId], ?_, List.mem_singleton_self _⟩
    have hpage : (t.runnable.drop i).take 1 = [r] := by
      rw [List.drop_eq_getElem_cons hi, hget]
      rfl
    have hbounds : (!(decide ((1 : Int) ≤ 1) && decide ((1 : Int) ≤ 1000)) ||
        decide ((i : Int) < 0)) = false := by
      simp
    unfold runnableRuns
    rw [hbounds]
    exact congrArg (fun page ↦ Except.ok (page.map RunRow.runId)) hpage

theorem accepted_iff {t : Tables} {stage : StageRow} {c : Claim} (hlease : 0 < c.leaseSeconds)
    (hstage : t.stage? stage.stageRunId = some stage) (attemptId : AttemptId) (now : Timestamp) :
    Accepted t stage.stageRunId c attemptId now ↔ stage.status.claimable = true := by
  constructor
  · intro haccepted
    by_contra hstatus
    have hrefused := startAttempt_refuses t stage.stageRunId attemptId now hlease hstage
      (by simpa using hstatus)
    exact haccepted _ (congrArg Prod.fst hrefused.exec)
  · intro hclaimable message herror
    rcases startAttempt_cases t stage.stageRunId attemptId c now with
      ⟨x, hkeeps, hx⟩ | hkeeps | ⟨_, _, hcommits⟩
    · rw [hkeeps.exec] at herror
      obtain rfl := Except.error.inj herror
      obtain ⟨stage', hstage', hstatus⟩ := hx rfl
      obtain rfl := Option.some.inj (hstage.symm.trans hstage')
      rw [hclaimable] at hstatus
      cases hstatus
    · rw [hkeeps.exec] at herror
      cases herror
    · rw [hcommits.exec] at herror
      cases herror

theorem isRunnable_iff_of_agree {t : Tables} (hwf : WellFormed t)
    (hpaired : Paired (fun r s ↦ s = r) t) {r : RunRow} (hr : r ∈ t.runs) :
    t.isRunnable r = true ↔ r.status.claimable = true := by
  obtain ⟨stage, hstage⟩ := hwf.exists_stage (hwf.run?_of_mem hr)
  have hmem : stage ∈ t.stages := Table.mem_of_get? hstage
  have hrun : stage.runId = r.runId := Table.key_of_get? hstage
  simp only [Tables.isRunnable, Bool.and_eq_true, List.any_eq_true]
  constructor
  · rintro ⟨_, s, hs, hmatch⟩
    obtain ⟨hsrun, hclaimable⟩ : s.runId = r.runId ∧ s.status.claimable = true := by
      simpa using hmatch
    rwa [← hpaired r hr s hs hsrun]
  · intro hclaimable
    refine ⟨by simp [waiting_of_claimable hclaimable], stage, hmem, ?_⟩
    simpa [hrun, hpaired r hr stage hmem hrun] using hclaimable

/-- In every state a run has one stage and their statuses are equal; so the
queue lists the run, and a claim of the stage is accepted, exactly when both are
`queued` or `retry_wait`. -/
theorem run_and_stage_agree (custody : Custody) (history : List (ThreadId × Operation))
    (hretries : ∀ s l s', Takes (System.step custody) {} history s l s' →
      retriesOwnStage s l = true)
    {s : System} (hs : Visits (System.step custody) {} history s) {runId : RunId} {run : RunRow}
    (hrun : s.tables.run? runId = some run) :
    ∃ stage, s.tables.stageOf? runId = some stage ∧
      (∀ other ∈ s.tables.stages, other.runId = runId → other = stage) ∧
      stage.status = run.status ∧
      (Listed s.tables runId ↔
        run.status.claimable = true ∧ stage.status.claimable = true) ∧
      ∀ c attemptId now, 0 < c.leaseSeconds →
        (Accepted s.tables stage.stageRunId c attemptId now ↔
          run.status.claimable = true ∧ stage.status.claimable = true) := by
  obtain ⟨hwf, hpaired⟩ := agree_of_reachable (System.lifecycle_ownStage (hs.reachableBy hretries))
  obtain ⟨stage, hstage⟩ := hwf.exists_stage hrun
  have hrunMem : run ∈ s.tables.runs := Table.mem_of_get? hrun
  have hstageMem : stage ∈ s.tables.stages := Table.mem_of_get? hstage
  have hrunKey : run.runId = runId := Table.key_of_get? hrun
  have hstageKey : stage.runId = runId := Table.key_of_get? hstage
  have hagree : stage.status = run.status :=
    hpaired run hrunMem stage hstageMem (hstageKey.trans hrunKey.symm)
  refine ⟨stage, hstage, ?_, hagree, ?_, ?_⟩
  · intro other hother hkey
    exact hwf.stage_eq_of_run hother hstageMem (hkey.trans hstageKey.symm)
  · rw [hagree, and_self, listed_iff, ← isRunnable_iff_of_agree hwf hpaired hrunMem]
    constructor
    · rintro ⟨r, hr, hkey, hrunnable⟩
      rwa [hwf.run_eq hrun hr hkey]
    · exact fun hrunnable ↦ ⟨run, hrunMem, hrunKey, hrunnable⟩
  · intro c attemptId now hlease
    rw [accepted_iff hlease (hwf.stage?_of_mem hstageMem), hagree, and_self]

/-- The sample run is claimed and then retried. -/
def Sample.retried : List (ThreadId × Operation) :=
  [(0, .submitRun (Sample.submission 2)), (0, .startAttempt "stage" Sample.claim "a1" 0),
    (0, .scheduleRetry "run" "stage" "again")]

theorem run_and_stage_agree_retried :
    ∃ (s : System) (r : RunRow) (stage : StageRow), s.tables.run? "run" = some r ∧
      r.status = .retryWait ∧ s.tables.stageOf? "run" = some stage ∧ stage.status = r.status ∧
      Listed s.tables "run" := by
  have hown : allSteps (System.step Sample.custody) retriesOwnStage {} Sample.retried = true := by
    decide +kernel
  have hends : (run (System.step Sample.custody) {} Sample.retried).any (fun s ↦
      (s.tables.run? "run").any fun r ↦ r.status = .retryWait) = true := by decide +kernel
  obtain ⟨s, hs, hany⟩ := Visits.of_any hends
  obtain ⟨r, hr, hstatus⟩ := (Option.any_eq_true _ _).mp hany
  have hretryWait : r.status = .retryWait := by simpa using hstatus
  obtain ⟨stage, hstage, _, hagree, hlisted, _⟩ :=
    run_and_stage_agree Sample.custody Sample.retried (fun _ _ _ h ↦ h.of_allSteps hown) hs hr
  refine ⟨s, r, stage, hr, hretryWait, hstage, hagree, hlisted.mpr ?_⟩
  rw [hagree, hretryWait]
  exact ⟨rfl, rfl⟩

end ChipEvolve
