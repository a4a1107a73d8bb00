import ChipEvolve.Store.Clients

/-!
# Effects row by row, and the shape every reachable store has

An effect rewrites each row on its own and then appends rows.  It never writes
the columns that identify a row, so the shape of the tables only changes where
a run is created or an attempt is claimed: ids are unique, every run has one
stage, and the attempts of a stage are numbered from one without gaps.
-/

namespace ChipEvolve

namespace Effect

def onRun : Effect → RunRow → RunRow
  | move runId target reason now, r =>
      if r.runId = runId then r.moved target reason now else r
  | failEarly runId category _ _ now, r =>
      if r.runId = runId then r.failedEarly category now else r
  | claim stage _ _ now, r =>
      if r.runId = stage.runId && r.status.waiting then r.started now else r
  | reschedule runId _ reason, r => if r.runId = runId then r.retried reason else r
  | retry runId _ _ requester reason _ _, r =>
      if r.runId = runId then r.retried (retryReason requester reason) else r
  | _, r => r

def onStage : Effect → StageRow → StageRow
  | move runId target _ _, s => if s.runId = runId && !s.settled then s.moved target else s
  | failEarly runId _ _ _ _, s => if s.runId = runId && !s.settled then s.moved .failed else s
  | claim stage _ _ now, s => if s.stageRunId = stage.stageRunId then s.started now else s
  | reschedule _ stageRunId _, s => if s.stageRunId = stageRunId then s.moved .retryWait else s
  | retry _ stage _ _ _ _ _, s =>
      if s.stageRunId = stage.stageRunId then s.moved .retryWait else s
  | _, s => s

def onAttempt : Effect → AttemptRow → AttemptRow
  | finish attemptId status e now, a =>
      if a.attemptId = attemptId then a.finished status e now else a
  | lose attemptId reference, a =>
      if a.attemptId = attemptId && a.expired reference then a.markedLost reference else a
  | beat attemptId workerId leaseSeconds now, a =>
      if a.leasedBy attemptId workerId then a.beaten leaseSeconds now else a
  | attach attemptId workerId p, a => if a.leasedBy attemptId workerId then a.attached p else a
  | _, a => a

def newRuns : Effect → List RunRow
  | create a _ => [a.runRow]
  | _ => []

def newStages : Effect → List StageRow
  | create a pluginId => [a.stageRow pluginId]
  | _ => []

def newAttempts : Effect → Tables → List AttemptRow
  | claim stage c attemptId now, t => [t.nextAttempt stage c attemptId now]
  | _, _ => []

theorem runs_apply (e : Effect) (t : Tables) :
    (e.apply t).runs = t.runs.map e.onRun ++ e.newRuns := by
  cases e with
  | move | failEarly | claim | reschedule | retry =>
      refine (List.map_congr_left fun r _ ↦ ?_).trans (List.append_nil _).symm
      simp only [onRun, decide_eq_true_eq]
  | create a => exact congrArg (· ++ [a.runRow]) (List.map_id'' (fun _ ↦ rfl) t.runs).symm
  | _ => exact ((List.append_nil _).trans (List.map_id'' (fun _ ↦ rfl) t.runs)).symm

theorem stages_apply (e : Effect) (t : Tables) :
    (e.apply t).stages = t.stages.map e.onStage ++ e.newStages := by
  cases e with
  | move | failEarly | claim | reschedule | retry =>
      refine (List.map_congr_left fun s _ ↦ ?_).trans (List.append_nil _).symm
      simp only [onStage, decide_eq_true_eq]
  | create a pluginId =>
      exact congrArg (· ++ [a.stageRow pluginId]) (List.map_id'' (fun _ ↦ rfl) t.stages).symm
  | _ => exact ((List.append_nil _).trans (List.map_id'' (fun _ ↦ rfl) t.stages)).symm

theorem attempts_apply (e : Effect) (t : Tables) :
    (e.apply t).attempts = t.attempts.map e.onAttempt ++ e.newAttempts t := by
  cases e with
  | finish | lose | beat | attach =>
      refine (List.map_congr_left fun a _ ↦ ?_).trans (List.append_nil _).symm
      simp only [onAttempt, decide_eq_true_eq]
  | claim stage c attemptId now =>
      exact congrArg (· ++ [t.nextAttempt stage c attemptId now])
        (List.map_id'' (fun _ ↦ rfl) t.attempts).symm
  | _ => exact ((List.append_nil _).trans (List.map_id'' (fun _ ↦ rfl) t.attempts)).symm

/-! ## Columns no effect writes -/

@[simp] theorem onRun_runId (e : Effect) (r : RunRow) : (e.onRun r).runId = r.runId := by
  cases e <;> simp only [onRun] <;> split <;> rfl

@[simp] theorem onRun_taskSpec (e : Effect) (r : RunRow) : (e.onRun r).taskSpec = r.taskSpec := by
  cases e <;> simp only [onRun] <;> split <;> rfl

@[simp] theorem onStage_stageRunId (e : Effect) (s : StageRow) :
    (e.onStage s).stageRunId = s.stageRunId := by
  cases e <;> simp only [onStage] <;> split <;> rfl

@[simp] theorem onStage_runId (e : Effect) (s : StageRow) : (e.onStage s).runId = s.runId := by
  cases e <;> simp only [onStage] <;> split <;> rfl

@[simp] theorem onAttempt_attemptId (e : Effect) (a : AttemptRow) :
    (e.onAttempt a).attemptId = a.attemptId := by
  cases e <;> simp only [onAttempt] <;> split <;> rfl

@[simp] theorem onAttempt_stageRunId (e : Effect) (a : AttemptRow) :
    (e.onAttempt a).stageRunId = a.stageRunId := by
  cases e <;> simp only [onAttempt] <;> split <;> rfl

theorem onAttempt_workerId (e : Effect) (a : AttemptRow) :
    (e.onAttempt a).workerId = a.workerId := by
  cases e <;> simp only [onAttempt] <;> split <;> rfl

@[simp] theorem onAttempt_attemptNumber (e : Effect) (a : AttemptRow) :
    (e.onAttempt a).attemptNumber = a.attemptNumber := by
  cases e <;> simp only [onAttempt] <;> split <;> rfl

end Effect

/-! ## Lookups after an effect -/

section Lookups

namespace Tables

variable {t : Tables}

/-- A stage is added under an id that no stage has. -/
theorem fresh_of_refusesStage {run : RunRow} {row : StageRow}
    (h : (t.insertRun run).refusesStage row = false) :
    ∀ s ∈ t.stages, s.stageRunId ≠ row.stageRunId := by
  intro s hs heq
  simp only [refusesStage, Bool.or_eq_false_iff, List.any_eq_false] at h
  exact h.1 s hs (by simp [heq])

/-- An attempt is added under an id that no attempt has. -/
theorem fresh_of_refusesAttempt {row : AttemptRow} (h : t.refusesAttempt row = false) :
    ∀ a ∈ t.attempts, a.attemptId ≠ row.attemptId := by
  intro a ha heq
  simp only [refusesAttempt, List.any_eq_false] at h
  exact h a ha (by simp [heq])

end Tables

theorem stage?_fresh {t : Tables} {a : Submission} {pluginId : String}
    (he : (Effect.create a pluginId).Enabled t) : t.stage? a.stageRunId = none :=
  Table.get?_eq_none_iff.mpr (Tables.fresh_of_refusesStage he.2.2)

theorem attempt?_fresh {t : Tables} {stage : StageRow} {c : Claim} {attemptId : AttemptId}
    {now : Timestamp} (he : (Effect.claim stage c attemptId now).Enabled t) :
    t.attempt? attemptId = none :=
  Table.get?_eq_none_iff.mpr (Tables.fresh_of_refusesAttempt he.2.2.1)

variable {t : Tables} (e : Effect)

theorem run?_apply {runId : RunId} {r : RunRow} (h : t.run? runId = some r) :
    (e.apply t).run? runId = some (e.onRun r) := by
  unfold Tables.run? at h ⊢
  rw [e.runs_apply]
  apply Table.get?_append_of_some
  rw [Table.get?_map e.onRun_runId, h]
  rfl

theorem stage?_apply {stageRunId : StageRunId} {s : StageRow} (h : t.stage? stageRunId = some s) :
    (e.apply t).stage? stageRunId = some (e.onStage s) := by
  unfold Tables.stage? at h ⊢
  rw [e.stages_apply]
  apply Table.get?_append_of_some
  rw [Table.get?_map e.onStage_stageRunId, h]
  rfl

theorem attempt?_apply {attemptId : AttemptId} {a : AttemptRow}
    (h : t.attempt? attemptId = some a) :
    (e.apply t).attempt? attemptId = some (e.onAttempt a) := by
  unfold Tables.attempt? at h ⊢
  rw [e.attempts_apply]
  apply Table.get?_append_of_some
  rw [Table.get?_map e.onAttempt_attemptId, h]
  rfl

theorem attemptsOf_apply (stageRunId : StageRunId) :
    (e.apply t).attemptsOf stageRunId =
      (t.attemptsOf stageRunId).map e.onAttempt ++
        (e.newAttempts t).filter fun a ↦ a.stageRunId = stageRunId := by
  unfold Tables.attemptsOf
  rw [e.attempts_apply, List.filter_append, List.filter_map]
  congr 3
  funext a
  simp

end Lookups

/-! ## The shape of the tables -/

/-- What the schema and the methods guarantee about the identifying columns. -/
structure WellFormed (t : Tables) : Prop where
  runIds : Table.Unique RunRow.runId t.runs
  stageIds : Table.Unique StageRow.stageRunId t.stages
  stageRuns : t.stages.map StageRow.runId = t.runs.map RunRow.runId
  attemptIds : Table.Unique AttemptRow.attemptId t.attempts
  attemptStages : ∀ a ∈ t.attempts, a.stageRunId ∈ t.stages.map StageRow.stageRunId
  numbered : ∀ stageRunId, (t.attemptsOf stageRunId).map AttemptRow.attemptNumber =
    List.range' 1 (t.attemptsOf stageRunId).length
  maxAttempts : ∀ r ∈ t.runs, 0 < r.taskSpec.maxAttempts

namespace WellFormed

variable {t : Tables}

theorem empty : WellFormed {} where
  runIds := List.nodup_nil
  stageIds := List.nodup_nil
  stageRuns := rfl
  attemptIds := List.nodup_nil
  attemptStages := by simp
  numbered := fun _ ↦ rfl
  maxAttempts := by simp

/-- The shape is a property of the identifying columns alone. -/
theorem of_columns {t' : Tables} (h : WellFormed t)
    (hruns : t'.runs.map (fun r ↦ (r.runId, r.taskSpec)) =
      t.runs.map fun r ↦ (r.runId, r.taskSpec))
    (hstages : t'.stages.map (fun s ↦ (s.stageRunId, s.runId)) =
      t.stages.map fun s ↦ (s.stageRunId, s.runId))
    (hattempts : t'.attempts.map (fun a ↦ (a.attemptId, a.stageRunId, a.attemptNumber)) =
      t.attempts.map fun a ↦ (a.attemptId, a.stageRunId, a.attemptNumber)) :
    WellFormed t' := by
  have hrunIds : t'.runs.map RunRow.runId = t.runs.map RunRow.runId := by
    simpa [Function.comp_def] using congrArg (List.map Prod.fst) hruns
  have hstageIds : t'.stages.map StageRow.stageRunId = t.stages.map StageRow.stageRunId := by
    simpa [Function.comp_def] using congrArg (List.map Prod.fst) hstages
  have hstageRuns : t'.stages.map StageRow.runId = t.stages.map StageRow.runId := by
    simpa [Function.comp_def] using congrArg (List.map Prod.snd) hstages
  have hattemptIds : t'.attempts.map AttemptRow.attemptId = t.attempts.map AttemptRow.attemptId := by
    simpa [Function.comp_def] using congrArg (List.map Prod.fst) hattempts
  have hattemptStages :
      t'.attempts.map AttemptRow.stageRunId = t.attempts.map AttemptRow.stageRunId := by
    simpa [Function.comp_def] using congrArg (List.map fun a ↦ a.2.1) hattempts
  have hnumbers (stageRunId : StageRunId) :
      (t'.attemptsOf stageRunId).map AttemptRow.attemptNumber =
        (t.attemptsOf stageRunId).map AttemptRow.attemptNumber := by
    have hfilter := congrArg (fun rows ↦
      (rows.filter fun a : AttemptId × StageRunId × Nat ↦ a.2.1 = stageRunId).map
        fun a ↦ a.2.2) hattempts
    simpa [List.filter_map, Function.comp_def, Tables.attemptsOf] using hfilter
  refine ⟨?_, ?_, ?_, ?_, ?_, ?_, ?_⟩
  · exact (congrArg List.Nodup hrunIds).mpr h.runIds
  · exact (congrArg List.Nodup hstageIds).mpr h.stageIds
  · rw [hstageRuns, hrunIds]
    exact h.stageRuns
  · exact (congrArg List.Nodup hattemptIds).mpr h.attemptIds
  · intro a ha
    have hmem : a.stageRunId ∈ t'.attempts.map AttemptRow.stageRunId := List.mem_map_of_mem ha
    rw [hattemptStages] at hmem
    obtain ⟨b, hb, hab⟩ := List.mem_map.mp hmem
    rw [hstageIds, ← hab]
    exact h.attemptStages b hb
  · intro stageRunId
    have hlength := congrArg List.length (hnumbers stageRunId)
    rw [List.length_map, List.length_map] at hlength
    rw [hnumbers, hlength]
    exact h.numbered stageRunId
  · intro r hr
    have hmem : (r.runId, r.taskSpec) ∈ t'.runs.map fun r ↦ (r.runId, r.taskSpec) :=
      List.mem_map_of_mem (f := fun r : RunRow ↦ (r.runId, r.taskSpec)) hr
    rw [hruns] at hmem
    obtain ⟨q, hq, hqr⟩ := List.mem_map.mp hmem
    have hspec : q.taskSpec = r.taskSpec := congrArg Prod.snd hqr
    rw [← hspec]
    exact h.maxAttempts q hq

/-- An effect that appends nothing keeps the shape. -/
theorem rewritten (h : WellFormed t) (e : Effect) {t' : Tables}
    (hruns : t'.runs = t.runs.map e.onRun) (hstages : t'.stages = t.stages.map e.onStage)
    (hattempts : t'.attempts = t.attempts.map e.onAttempt) : WellFormed t' := by
  refine h.of_columns ?_ ?_ ?_
  · rw [hruns]
    exact Table.map_map_of_keeps fun r ↦ by simp
  · rw [hstages]
    exact Table.map_map_of_keeps fun s ↦ by simp
  · rw [hattempts]
    exact Table.map_map_of_keeps fun a ↦ by simp

theorem foldr_max_range' (n b : Nat) : (List.range' 1 n).foldr max b = max n b := by
  induction n generalizing b with
  | zero => simp
  | succ n ih =>
      rw [List.range'_concat, List.foldr_append, ih]
      simp only [List.foldr_cons, List.foldr_nil]
      omega

theorem maxAttemptNumber_eq (h : WellFormed t) (stageRunId : StageRunId) :
    t.maxAttemptNumber stageRunId = (t.attemptsOf stageRunId).length := by
  unfold Tables.maxAttemptNumber
  rw [h.numbered, foldr_max_range', Nat.max_zero]

theorem created (h : WellFormed t) {a : Submission} {pluginId : String}
    (he : (Effect.create a pluginId).Enabled t) :
    WellFormed ((Effect.create a pluginId).apply t) := by
  obtain ⟨hmax, hrun, hstage⟩ := he
  have hfreshRun : ∀ r ∈ t.runs, r.runId ≠ a.runId := by
    intro r hr heq
    simp only [Tables.refusesRun, List.any_eq_false] at hrun
    exact hrun r hr (by simp [heq, Submission.runRow])
  have hfreshStage := Tables.fresh_of_refusesStage hstage
  refine ⟨?_, ?_, ?_, h.attemptIds, ?_, h.numbered, ?_⟩
  · exact h.runIds.append hfreshRun
  · exact h.stageIds.append hfreshStage
  · change (t.stages ++ [a.stageRow pluginId]).map StageRow.runId =
      (t.runs ++ [a.runRow]).map RunRow.runId
    rw [List.map_append, List.map_append, h.stageRuns]
    rfl
  · intro attempt hattempt
    change attempt.stageRunId ∈ (t.stages ++ [a.stageRow pluginId]).map StageRow.stageRunId
    rw [List.map_append]
    exact List.mem_append_left _ (h.attemptStages attempt hattempt)
  · intro r hr
    rcases List.mem_append.mp hr with hr | hr
    · exact h.maxAttempts r hr
    · obtain rfl := List.mem_singleton.mp hr
      exact hmax

/-- The attempt a claim adds, before the claim moves its stage and run. -/
theorem inserted (h : WellFormed t) {row : AttemptRow} (hrow : t.refusesAttempt row = false)
    (hstage : row.stageRunId ∈ t.stages.map StageRow.stageRunId)
    (hnumber : row.attemptNumber = t.maxAttemptNumber row.stageRunId + 1) :
    WellFormed (t.insertAttempt row) := by
  have hfresh := Tables.fresh_of_refusesAttempt hrow
  refine ⟨h.runIds, h.stageIds, h.stageRuns, h.attemptIds.append hfresh, ?_, ?_, h.maxAttempts⟩
  · intro a ha
    rcases List.mem_append.mp ha with ha | ha
    · exact h.attemptStages a ha
    · obtain rfl := List.mem_singleton.mp ha
      exact hstage
  · intro stageRunId
    have hof : (t.insertAttempt row).attemptsOf stageRunId =
        t.attemptsOf stageRunId ++ if row.stageRunId = stageRunId then [row] else [] := by
      simp only [Tables.attemptsOf, Tables.insertAttempt, List.filter_append]
      congr 1
      by_cases heq : row.stageRunId = stageRunId <;> simp [heq]
    rw [hof]
    by_cases heq : row.stageRunId = stageRunId
    · subst heq
      rw [if_pos rfl, List.map_append, h.numbered, List.length_append, List.length_singleton,
        List.range'_concat]
      simp [hnumber, h.maxAttemptNumber_eq, Nat.add_comm]
    · rw [if_neg heq, List.append_nil]
      exact h.numbered stageRunId

theorem apply (h : WellFormed t) {e : Effect} (he : e.Enabled t) : WellFormed (e.apply t) := by
  cases e with
  | create a pluginId => exact h.created he
  | claim stage c attemptId now =>
      obtain ⟨hstage, _, hrow, _⟩ := he
      have hmem : stage.stageRunId ∈ t.stages.map StageRow.stageRunId :=
        List.mem_map_of_mem (Table.mem_of_get? hstage)
      have hinserted : WellFormed (t.insertAttempt (t.nextAttempt stage c attemptId now)) :=
        h.inserted hrow hmem rfl
      exact hinserted.rewritten (.claim stage c attemptId now)
        (by rw [Effect.runs_apply]; exact List.append_nil _)
        (by rw [Effect.stages_apply]; exact List.append_nil _)
        (by rw [Effect.attempts_apply]; simp [Effect.newAttempts, Tables.insertAttempt]; rfl)
  | _ =>
      exact h.rewritten _ ((Effect.runs_apply _ t).trans (List.append_nil _))
        ((Effect.stages_apply _ t).trans (List.append_nil _))
        ((Effect.attempts_apply _ t).trans (List.append_nil _))

/-! ## Rows and their keys -/

theorem stageRunIds (h : WellFormed t) : Table.Unique StageRow.runId t.stages := by
  unfold Table.Unique
  rw [h.stageRuns]
  exact h.runIds

theorem run?_of_mem (h : WellFormed t) {r : RunRow} (hr : r ∈ t.runs) :
    t.run? r.runId = some r :=
  h.runIds.get? hr

theorem run_eq (h : WellFormed t) {r row : RunRow} {runId : RunId}
    (hrow : t.run? runId = some row) (hr : r ∈ t.runs) (hkey : r.runId = runId) : row = r :=
  h.runIds.eq_of_key (Table.mem_of_get? hrow) hr ((Table.key_of_get? hrow).trans hkey.symm)

theorem stage_eq (h : WellFormed t) {s row : StageRow} {stageRunId : StageRunId}
    (hrow : t.stage? stageRunId = some row) (hs : s ∈ t.stages)
    (hkey : s.stageRunId = stageRunId) : row = s :=
  h.stageIds.eq_of_key (Table.mem_of_get? hrow) hs ((Table.key_of_get? hrow).trans hkey.symm)

/-- Two stages of one run are the same stage. -/
theorem stage_eq_of_run (h : WellFormed t) {s s' : StageRow} (hs : s ∈ t.stages)
    (hs' : s' ∈ t.stages) (hrun : s.runId = s'.runId) : s = s' :=
  h.stageRunIds.eq_of_key hs hs' hrun

theorem attempt_eq (h : WellFormed t) {a row : AttemptRow} {attemptId : AttemptId}
    (hrow : t.attempt? attemptId = some row) (ha : a ∈ t.attempts)
    (hkey : a.attemptId = attemptId) : row = a :=
  h.attemptIds.eq_of_key (Table.mem_of_get? hrow) ha ((Table.key_of_get? hrow).trans hkey.symm)

theorem stageOf?_of_mem (h : WellFormed t) {s : StageRow} (hs : s ∈ t.stages) :
    t.stageOf? s.runId = some s :=
  h.stageRunIds.get? hs

theorem stage?_of_mem (h : WellFormed t) {s : StageRow} (hs : s ∈ t.stages) :
    t.stage? s.stageRunId = some s :=
  h.stageIds.get? hs

theorem attempt?_of_mem (h : WellFormed t) {a : AttemptRow} (ha : a ∈ t.attempts) :
    t.attempt? a.attemptId = some a :=
  h.attemptIds.get? ha

/-- Every run has its stage. -/
theorem exists_stage (h : WellFormed t) {runId : RunId} {r : RunRow}
    (hr : t.run? runId = some r) : ∃ s, t.stageOf? runId = some s := by
  apply Option.isSome_iff_exists.mp
  unfold Tables.stageOf?
  rw [Table.get?_isSome_iff, h.stageRuns, ← Table.get?_isSome_iff]
  exact Option.isSome_iff_exists.mpr ⟨r, hr⟩

/-- Every stage has its run. -/
theorem exists_run (h : WellFormed t) {s : StageRow} (hs : s ∈ t.stages) :
    ∃ r, t.run? s.runId = some r := by
  apply Option.isSome_iff_exists.mp
  unfold Tables.run?
  rw [Table.get?_isSome_iff, ← h.stageRuns]
  exact List.mem_map_of_mem hs

/-- A run and its stage after an effect come from a run and its stage before it,
or were created by it. -/
theorem pair_cases (h : WellFormed t) {e : Effect} (he : e.Enabled t) {r' : RunRow}
    {s' : StageRow} (hr' : r' ∈ (e.apply t).runs) (hs' : s' ∈ (e.apply t).stages)
    (hrun : s'.runId = r'.runId) :
    (∃ r ∈ t.runs, ∃ s ∈ t.stages, s.runId = r.runId ∧ r' = e.onRun r ∧ s' = e.onStage s) ∨
      ∃ a pluginId, e = .create a pluginId ∧ r' = a.runRow ∧ s' = a.stageRow pluginId := by
  rw [e.runs_apply, List.mem_append, List.mem_map] at hr'
  rw [e.stages_apply, List.mem_append, List.mem_map] at hs'
  have hfresh : ∀ a pluginId, e = .create a pluginId → ∀ r ∈ t.runs, r.runId ≠ a.runId := by
    rintro a pluginId rfl r hr heq
    obtain ⟨_, hrefuses, _⟩ := he
    simp only [Tables.refusesRun, List.any_eq_false] at hrefuses
    exact hrefuses r hr (by simp [heq, Submission.runRow])
  rcases hr' with ⟨r, hr, rfl⟩ | hr' <;> rcases hs' with ⟨s, hs, rfl⟩ | hs'
  · exact .inl ⟨r, hr, s, hs, by simpa using hrun, rfl, rfl⟩
  · cases e with
    | create a pluginId =>
        obtain rfl := List.mem_singleton.mp hs'
        rw [Effect.onRun_runId] at hrun
        exact absurd hrun.symm (hfresh a pluginId rfl r hr)
    | _ => simp [Effect.newStages] at hs'
  · cases e with
    | create a pluginId =>
        obtain rfl := List.mem_singleton.mp hr'
        obtain ⟨r, hr⟩ := h.exists_run hs
        have hkey : r.runId = s.runId := Table.key_of_get? hr
        rw [Effect.onStage_runId] at hrun
        exact absurd (hkey.trans hrun)
          (hfresh a pluginId rfl r (Table.mem_of_get? hr))
    | _ => simp [Effect.newRuns] at hr'
  · cases e with
    | create a pluginId =>
        exact .inr ⟨a, pluginId, rfl, List.mem_singleton.mp hr', List.mem_singleton.mp hs'⟩
    | _ => simp [Effect.newRuns] at hr'

end WellFormed

open Machine in
/-- Every store reached by effects is well formed. -/
theorem wellFormed_of_reachable {guard : Tables → Effect → Prop} {t : Tables}
    (h : ReachableBy Effect.step guard {} t) : WellFormed t := by
  refine h.invariant WellFormed.empty ?_
  intro t e t' ht _ hstep
  obtain ⟨henabled, rfl⟩ := Effect.step_eq_some.mp hstep
  exact ht.apply henabled

end ChipEvolve
