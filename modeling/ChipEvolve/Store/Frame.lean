import ChipEvolve.Store.WellFormed

/-!
# The rows of one run

Every effect writes the rows of one run: its row, its stages, their attempts and its events.
-/

namespace ChipEvolve

structure RunRows where
  run : Option RunRow
  stages : List StageRow
  attempts : List AttemptRow
  events : List EventRow

namespace Tables

/-- The stage is one of the run's. -/
def hasStage (t : Tables) (runId : RunId) (stageRunId : StageRunId) : Bool :=
  t.stages.any fun s ↦ s.runId = runId && s.stageRunId = stageRunId

/-- The attempt is one of the run's. -/
def hasAttempt (t : Tables) (runId : RunId) (attemptId : AttemptId) : Bool :=
  t.attempts.any fun a ↦ a.attemptId = attemptId && t.hasStage runId a.stageRunId

def runRows (t : Tables) (runId : RunId) : RunRows where
  run := t.run? runId
  stages := t.stages.filter fun s ↦ s.runId = runId
  attempts := t.attempts.filter fun a ↦ t.hasStage runId a.stageRunId
  events := t.events.filter fun e ↦ e.runId = runId

end Tables

namespace Effect

def newEvents : Effect → List EventRow
  | failEarly runId category message eventId now =>
      [preflightEvent runId category message eventId now]
  | retry runId stage attempt requester reason eventId now =>
      [retryEvent runId stage attempt requester reason eventId now]
  | _ => []

theorem events_apply (e : Effect) (t : Tables) : (e.apply t).events = t.events ++ e.newEvents := by
  cases e with
  | failEarly | retry => rfl
  | _ => exact (List.append_nil _).symm

/-- The rows that an effect writes are among those of this run. -/
def Concerns (t : Tables) (runId : RunId) : Effect → Prop
  | create a _ => a.runId = runId
  | move id _ _ _ | failEarly id _ _ _ _ | retry id _ _ _ _ _ _ => id = runId
  | claim stage _ _ _ => stage.runId = runId
  | reschedule id stageRunId _ => id = runId ∨ t.hasStage runId stageRunId = true
  | finish attemptId _ _ _ | lose attemptId _ | beat attemptId _ _ _ | attach attemptId _ _ =>
      t.hasAttempt runId attemptId = true
  | release _ => False

end Effect

variable {t : Tables} {e : Effect} {runId : RunId}

theorem Table.filter_rewritten {α : Type*} {rows new : List α} {p : α → Bool} {f : α → α}
    (hkeep : ∀ r ∈ rows, p (f r) = p r) (hsame : ∀ r ∈ rows, p r = true → f r = r)
    (hnew : ∀ r ∈ new, p r = false) : (rows.map f ++ new).filter p = rows.filter p := by
  have hnone : new.filter p = [] := List.filter_eq_nil_iff.mpr fun r hr ↦ by simp [hnew r hr]
  rw [List.filter_append, hnone, List.append_nil]
  induction rows with
  | nil => rfl
  | cons r rows ih =>
      have hrest := ih (fun q hq ↦ hkeep q (List.mem_cons_of_mem r hq))
        fun q hq ↦ hsame q (List.mem_cons_of_mem r hq)
      rw [List.map_cons, List.filter_cons, List.filter_cons, hkeep r List.mem_cons_self, hrest]
      cases hp : p r with
      | false => rfl
      | true => rw [if_pos rfl, if_pos rfl, hsame r List.mem_cons_self hp]

namespace Tables

theorem hasStage_of_mem {s : StageRow} (hs : s ∈ t.stages) :
    t.hasStage s.runId s.stageRunId = true :=
  List.any_eq_true.mpr ⟨s, hs, by simp⟩

theorem hasStage_iff {stageRunId : StageRunId} : t.hasStage runId stageRunId = true ↔
    ∃ s ∈ t.stages, s.runId = runId ∧ s.stageRunId = stageRunId := by
  simp [hasStage]

theorem hasAttempt_iff {attemptId : AttemptId} : t.hasAttempt runId attemptId = true ↔
    ∃ a ∈ t.attempts, a.attemptId = attemptId ∧ t.hasStage runId a.stageRunId = true := by
  simp [hasAttempt]

theorem hasAttempt_eq (t : Tables) (runId : RunId) (attemptId : AttemptId) :
    t.hasAttempt runId attemptId =
      (t.runRows runId).attempts.any fun a ↦ a.attemptId = attemptId := by
  unfold hasAttempt runRows
  rw [List.any_filter]
  exact congrArg t.attempts.any (funext fun a ↦ Bool.and_comm _ _)

/-- An attempt is one run's only. -/
theorem run_eq_of_hasAttempt (hwell : WellFormed t) {runId' : RunId} {attemptId : AttemptId}
    (h : t.hasAttempt runId attemptId = true) (h' : t.hasAttempt runId' attemptId = true) :
    runId = runId' := by
  obtain ⟨a, ha, hid, hstage⟩ := hasAttempt_iff.mp h
  obtain ⟨a', ha', hid', hstage'⟩ := hasAttempt_iff.mp h'
  obtain rfl := hwell.attemptIds.eq_of_key ha ha' (hid.trans hid'.symm)
  obtain ⟨s, hs, hrun, hof⟩ := hasStage_iff.mp hstage
  obtain ⟨s', hs', hrun', hof'⟩ := hasStage_iff.mp hstage'
  obtain rfl := hwell.stageIds.eq_of_key hs hs' (hof.trans hof'.symm)
  exact hrun.symm.trans hrun'

end Tables

namespace Effect

theorem onRun_of_not_concerns (henabled : e.Enabled t) (hnot : ¬e.Concerns t runId) {r : RunRow}
    (hr : r.runId = runId) : e.onRun r = r := by
  cases e with
  | move | failEarly | retry => exact if_neg fun heq ↦ hnot (heq.symm.trans hr)
  | reschedule => exact if_neg fun heq ↦ hnot (.inl (heq.symm.trans hr))
  | claim =>
      refine if_neg fun hboth ↦ hnot ?_
      simp only [Bool.and_eq_true, decide_eq_true_eq] at hboth
      exact hboth.1.symm.trans hr
  | _ => rfl

theorem onStage_of_not_concerns (hwell : WellFormed t) (henabled : e.Enabled t)
    (hnot : ¬e.Concerns t runId) {s : StageRow} (hs : s ∈ t.stages) (hrun : s.runId = runId) :
    e.onStage s = s := by
  cases e with
  | move | failEarly =>
      refine if_neg fun hboth ↦ hnot ?_
      simp only [Bool.and_eq_true, decide_eq_true_eq] at hboth
      exact hboth.1.symm.trans hrun
  | claim stage =>
      refine if_neg fun heq ↦ hnot ?_
      have hsame := hwell.stage_eq henabled.1 hs heq
      exact (congrArg StageRow.runId hsame).trans hrun
  | reschedule id stageRunId =>
      refine if_neg fun heq ↦ hnot (.inr ?_)
      rw [← heq, ← hrun]
      exact Tables.hasStage_of_mem hs
  | retry id stage =>
      refine if_neg fun heq ↦ hnot ?_
      have hsame := hwell.stageIds.eq_of_key (Table.mem_of_get? henabled.1) hs heq.symm
      exact (Table.key_of_get? henabled.1).symm.trans
        ((congrArg StageRow.runId hsame).trans hrun)
  | _ => rfl

theorem onAttempt_of_not_concerns (hnot : ¬e.Concerns t runId) {a : AttemptRow}
    (ha : a ∈ t.attempts) (hrun : t.hasStage runId a.stageRunId = true) : e.onAttempt a = a := by
  have hof : ∀ {attemptId : AttemptId}, a.attemptId = attemptId →
      t.hasAttempt runId attemptId = true := fun heq ↦
    Tables.hasAttempt_iff.mpr ⟨a, ha, heq, hrun⟩
  cases e with
  | finish => exact if_neg fun heq ↦ hnot (hof heq)
  | lose =>
      refine if_neg fun hboth ↦ hnot (hof ?_)
      simp only [Bool.and_eq_true, decide_eq_true_eq] at hboth
      exact hboth.1
  | beat | attach =>
      refine if_neg fun hleased ↦ hnot (hof ?_)
      simp only [AttemptRow.leasedBy, Bool.and_eq_true, decide_eq_true_eq] at hleased
      exact hleased.1.1
  | _ => rfl

theorem newEvents_of_not_concerns (hnot : ¬e.Concerns t runId) {ev : EventRow}
    (hev : ev ∈ e.newEvents) : ev.runId ≠ runId := by
  cases e with
  | failEarly | retry =>
      obtain rfl := List.mem_singleton.mp hev
      exact hnot
  | _ => cases hev

theorem hasStage_apply (hnot : ¬e.Concerns t runId) (stageRunId : StageRunId) :
    (e.apply t).hasStage runId stageRunId = t.hasStage runId stageRunId := by
  have hnew : (e.newStages.any fun s ↦ s.runId = runId && s.stageRunId = stageRunId) = false := by
    cases e with
    | create a pluginId =>
        have hother : a.runId ≠ runId := hnot
        simp [newStages, Submission.stageRow, hother]
    | _ => rfl
  unfold Tables.hasStage
  rw [e.stages_apply, List.any_append, hnew, Bool.or_false, List.any_map]
  simp only [Function.comp_def, onStage_runId, onStage_stageRunId]

theorem newAttempts_of_not_concerns (hwell : WellFormed t) (henabled : e.Enabled t)
    (hnot : ¬e.Concerns t runId) {a : AttemptRow} (ha : a ∈ e.newAttempts t) :
    t.hasStage runId a.stageRunId = false := by
  cases e with
  | claim stage c attemptId now =>
      obtain rfl := List.mem_singleton.mp ha
      refine eq_false_of_ne_true fun hhas ↦ hnot ?_
      obtain ⟨s, hs, hboth⟩ := List.any_eq_true.mp hhas
      simp only [Bool.and_eq_true, decide_eq_true_eq] at hboth
      exact (congrArg StageRow.runId (hwell.stage_eq henabled.1 hs hboth.2)).trans hboth.1
  | _ => cases ha

/-- An effect leaves the rows of every run but one as they are. -/
theorem runRows_apply (hwell : WellFormed t) (henabled : e.Enabled t)
    (hnot : ¬e.Concerns t runId) : (e.apply t).runRows runId = t.runRows runId := by
  have hrun : (e.apply t).run? runId = t.run? runId := by
    have hnew : Table.get? RunRow.runId runId e.newRuns = none := by
      cases e with
      | create a pluginId =>
          exact Table.get?_eq_none_iff.mpr fun r hr heq ↦
            hnot ((congrArg RunRow.runId (List.mem_singleton.mp hr)).symm.trans heq)
      | _ => rfl
    unfold Tables.run?
    rw [e.runs_apply, Table.get?_append, Table.get?_map e.onRun_runId, hnew, Option.or_none]
    cases hfound : Table.get? RunRow.runId runId t.runs with
    | none => rfl
    | some r =>
        exact congrArg some (onRun_of_not_concerns henabled hnot (Table.key_of_get? hfound))
  have hstages : (e.apply t).stages.filter (fun s ↦ s.runId = runId) =
      t.stages.filter fun s ↦ s.runId = runId := by
    rw [e.stages_apply]
    refine Table.filter_rewritten (fun s _ ↦ by rw [onStage_runId]) (fun s hs hp ↦ ?_)
      fun s hs ↦ ?_
    · exact onStage_of_not_concerns hwell henabled hnot hs (of_decide_eq_true hp)
    · cases e with
      | create a pluginId =>
          obtain rfl := List.mem_singleton.mp hs
          exact decide_eq_false hnot
      | _ => cases hs
  have hattempts : (e.apply t).attempts.filter
      (fun a ↦ (e.apply t).hasStage runId a.stageRunId) =
        t.attempts.filter fun a ↦ t.hasStage runId a.stageRunId := by
    simp only [hasStage_apply hnot]
    rw [e.attempts_apply]
    exact Table.filter_rewritten (fun a _ ↦ by rw [onAttempt_stageRunId])
      (fun a ha hp ↦ onAttempt_of_not_concerns hnot ha hp)
      fun a ha ↦ newAttempts_of_not_concerns hwell henabled hnot ha
  have hevents : (e.apply t).events.filter (fun ev ↦ ev.runId = runId) =
      t.events.filter fun ev ↦ ev.runId = runId := by
    have hnone : e.newEvents.filter (fun ev ↦ ev.runId = runId) = [] :=
      List.filter_eq_nil_iff.mpr fun ev hev ↦ by
        simpa using newEvents_of_not_concerns hnot hev
    rw [e.events_apply, List.filter_append, hnone, List.append_nil]
  unfold Tables.runRows
  rw [hrun, hstages, hattempts, hevents]

/-- What a run has, it keeps. -/
theorem hasAttempt_apply_of {attemptId : AttemptId} (h : t.hasAttempt runId attemptId = true) :
    (e.apply t).hasAttempt runId attemptId = true := by
  obtain ⟨a, ha, hid, hstage⟩ := Tables.hasAttempt_iff.mp h
  obtain ⟨s, hs, hrun, hof⟩ := Tables.hasStage_iff.mp hstage
  refine Tables.hasAttempt_iff.mpr ⟨e.onAttempt a, ?_, by simpa using hid, ?_⟩
  · rw [e.attempts_apply]
    exact List.mem_append_left _ (List.mem_map_of_mem ha)
  · refine Tables.hasStage_iff.mpr ⟨e.onStage s, ?_, by simpa using hrun, by simpa using hof⟩
    rw [e.stages_apply]
    exact List.mem_append_left _ (List.mem_map_of_mem hs)

end Effect

end ChipEvolve
