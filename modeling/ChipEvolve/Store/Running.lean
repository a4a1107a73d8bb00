import ChipEvolve.Store.StatusMachine

/-!
# Running attempts

Which attempts of a run are running, and which effects end one.
-/

namespace ChipEvolve

/-- A running attempt of the run. -/
def RunningIn (t : Tables) (runId : RunId) (a : AttemptRow) : Prop :=
  a ∈ t.attempts ∧ a.status = .running ∧
    ∃ s ∈ t.stages, s.stageRunId = a.stageRunId ∧ s.runId = runId

variable {t : Tables} {e : Effect} {runId : RunId} {a : AttemptRow}

theorem RunningIn.apply (h : RunningIn t runId a) (hstill : (e.onAttempt a).status = .running) :
    RunningIn (e.apply t) runId (e.onAttempt a) := by
  obtain ⟨ha, _, s, hs, hstage, hrun⟩ := h
  refine ⟨?_, hstill, e.onStage s, ?_, by simpa using hstage, by simpa using hrun⟩
  · rw [e.attempts_apply]
    exact List.mem_append_left _ (List.mem_map_of_mem ha)
  · rw [e.stages_apply]
    exact List.mem_append_left _ (List.mem_map_of_mem hs)

/-- The effect ends the attempt. -/
def Effect.Ends (a : AttemptRow) : Effect → Prop
  | finish attemptId _ _ _ => attemptId = a.attemptId
  | lose attemptId reference => attemptId = a.attemptId ∧ a.expired reference = true
  | _ => False

theorem running_of_not_ends (hwf : WellFormed t) (hpending : NoPending t) (he : e.Enabled t)
    (ha : a ∈ t.attempts) (hrunning : a.status = .running) (hnot : ¬e.Ends a) :
    (e.onAttempt a).status = .running := by
  have hmoves := hwf.attemptMoves hpending he ha
  generalize (e.onAttempt a).status = status at hmoves
  cases hmoves with
  | keep => exact hrunning
  | finish => exact absurd rfl hnot
  | lose hexpired => exact absurd ⟨rfl, hexpired⟩ hnot

theorem Effect.Ends.not_running (hwf : WellFormed t) (hpending : NoPending t) (he : e.Enabled t)
    (ha : a ∈ t.attempts) (hends : e.Ends a) : (e.onAttempt a).status ≠ .running := by
  cases e with
  | finish =>
      obtain rfl := hends
      obtain ⟨row, hrow, hallowed⟩ := he
      obtain rfl := hwf.attempt_eq hrow ha rfl
      simpa [Effect.onAttempt, AttemptRow.finished] using
        (attempt_transition_from_running (hpending row ha) hallowed).2.1
  | lose =>
      obtain ⟨rfl, hexpired⟩ := hends
      simp [Effect.onAttempt, hexpired, AttemptRow.markedLost]
  | _ => cases hends

theorem Effect.Ends.attemptId_eq {b : AttemptRow} (ha : e.Ends a) (hb : e.Ends b) :
    b.attemptId = a.attemptId := by
  cases e with
  | finish => exact hb.symm.trans ha
  | lose => exact hb.1.symm.trans ha.1
  | _ => cases ha

theorem Effect.Ends.frame (h : e.Ends a) (t : Tables) :
    (e.apply t).runs = t.runs ∧ (e.apply t).stages = t.stages := by
  cases e with
  | finish | lose => exact ⟨rfl, rfl⟩
  | _ => cases h

/-- A stage belongs to the same run before and after an effect. -/
theorem runId_eq_of_apply (hwf : WellFormed t) (he : e.Enabled t) {s s' : StageRow}
    (hs : s ∈ t.stages) (hs' : s' ∈ (e.apply t).stages) (hid : s'.stageRunId = s.stageRunId) :
    s'.runId = s.runId := by
  have hmem : e.onStage s ∈ (e.apply t).stages := by
    rw [e.stages_apply]
    exact List.mem_append_left _ (List.mem_map_of_mem hs)
  have heq := (hwf.apply he).stageIds.eq_of_key hs' hmem (by simpa using hid)
  rw [heq, Effect.onStage_runId]

/-- An attempt that runs after an effect ran before it and did not end, or has
just been claimed. -/
theorem RunningIn.of_apply (hwf : WellFormed t) (hpending : NoPending t) (he : e.Enabled t)
    {a' : AttemptRow} (h : RunningIn (e.apply t) runId a') :
    (∃ a, RunningIn t runId a ∧ ¬e.Ends a ∧ a' = e.onAttempt a) ∨
      ∃ stage c attemptId now, e = .claim stage c attemptId now ∧
        a' = t.nextAttempt stage c attemptId now ∧ stage.runId = runId := by
  obtain ⟨ha', hrunning, s', hs', hstage, hrun⟩ := h
  rcases attempt_cases ha' with ⟨a, ha, rfl⟩ | ⟨stage, c, attemptId, now, rfl, rfl⟩
  · refine .inl ⟨a, ?_, fun hends ↦ hends.not_running hwf hpending he ha hrunning, rfl⟩
    obtain ⟨s, hs, hsid⟩ := List.mem_map.mp (hwf.attemptStages a ha)
    have hsame := runId_eq_of_apply hwf he hs hs' (by rw [hstage, hsid]; simp)
    exact ⟨ha, (hwf.attemptMoves hpending he ha).running hrunning, s, hs, hsid,
      hsame.symm.trans hrun⟩
  · refine .inr ⟨stage, c, attemptId, now, rfl, rfl, ?_⟩
    have hsame := runId_eq_of_apply hwf he (Table.mem_of_get? he.1) hs' hstage
    exact hsame.symm.trans hrun

/-- An attempt that ended does not run after the effect, under its id. -/
theorem Effect.Ends.not_runningIn (hwf : WellFormed t) (hpending : NoPending t) (he : e.Enabled t)
    (ha : a ∈ t.attempts) (hends : e.Ends a) {a' : AttemptRow} (h : RunningIn (e.apply t) runId a') :
    a'.attemptId ≠ a.attemptId := by
  intro hid
  rcases h.of_apply hwf hpending he with ⟨b, hb, hnot, rfl⟩ | ⟨_, _, _, _, rfl, _⟩
  · rw [Effect.onAttempt_attemptId] at hid
    obtain rfl := hwf.attemptIds.eq_of_key hb.1 ha hid
    exact hnot hends
  · cases hends

end ChipEvolve
