import ChipEvolve.Store.WellFormed

/-!
# What a run's row says about its end

`ended_at` and `terminal_reason` of a run, which every method that writes the status of a
run sets in its own way: `request_retry` leaves `ended_at` as it was, and `transition_run`
without a reason leaves the one an earlier operation wrote.  Where neither happens, the two
columns tell the truth about the run.
-/

namespace ChipEvolve

open Machine

/-! ## The columns -/

/-- `ended_at` is set exactly if the run has ended. -/
def RunRow.Dated (r : RunRow) : Prop := r.endedAt.isSome = r.status.isTerminal

namespace Effect

/-- The reason that an effect writes into the row of a run. -/
def reasonFor (runId : RunId) : Effect → Option String
  | move id _ reason _ => if id = runId then reason else none
  | failEarly id category _ _ _ => if id = runId then some category else none
  | reschedule id _ reason => if id = runId then some reason else none
  | retry id _ _ requester reason _ _ =>
      if id = runId then some (retryReason requester reason) else none
  | _ => none

/-- The effect does not take a run back that has ended, and does not end without a reason a
run that has one. -/
def KeepsRecord (t : Tables) : Effect → Prop
  | retry .. => False
  | move runId target none _ =>
      target.isTerminal = true → ∀ r ∈ t.runs, r.runId = runId → r.terminalReason = none
  | _ => True

end Effect

/-- What an effect may do to the row of a run: one that ended stays as it is, and one that ends
now has no reason or the one that the effect writes. -/
structure RunRow.Settles (e : Effect) (r r' : RunRow) : Prop where
  stays : r.status.isTerminal = true → r' = r
  ends : r.status.isTerminal = false → r'.status.isTerminal = true →
    r'.terminalReason = none ∨ r'.terminalReason = e.reasonFor r.runId

section Step

variable {t : Tables} {e : Effect} {r : RunRow}

theorem RunRow.dated_moved {target : RuntimeStatus} {reason : Option String} {now : Timestamp}
    (h : r.Dated) (hallowed : runTransitionAllowed r.status target = true) :
    (r.moved target reason now).Dated := by
  have hopen := not_terminal_of_transition hallowed
  unfold Dated at h ⊢
  cases hterminal : target.isTerminal with
  | true => simp [moved, hterminal]
  | false => simp [moved, hterminal, h, hopen]

/-- One effect keeps `ended_at` in step with the status. -/
theorem dated_onRun (hwf : WellFormed t) (he : e.Enabled t) (hkeeps : e.KeepsRecord t)
    (hr : r ∈ t.runs) (h : r.Dated) : (e.onRun r).Dated := by
  cases e with
  | move runId target reason now =>
      obtain ⟨row, hrow, hallowed⟩ := he
      by_cases hid : r.runId = runId
      · subst hid
        obtain rfl := hwf.run_eq hrow hr rfl
        simp only [Effect.onRun, if_true]
        exact RunRow.dated_moved h hallowed
      · simpa only [Effect.onRun, if_neg hid] using h
  | failEarly runId category message eventId now =>
      simp only [Effect.onRun]
      split
      · rfl
      · exact h
  | claim stage c attemptId now =>
      simp only [Effect.onRun]
      split
      · next hwaiting =>
          have hopen : r.status.isTerminal = false := by
            cases hstatus : r.status <;> simp_all [RuntimeStatus.waiting] <;> rfl
          rw [RunRow.Dated, hopen] at h
          exact h
      · exact h
  | reschedule runId stageRunId reason =>
      obtain ⟨_, row, hrow, hrunning⟩ := he
      by_cases hid : r.runId = runId
      · subst hid
        obtain rfl := hwf.run_eq hrow hr rfl
        rw [RunRow.Dated, hrunning] at h
        simp only [Effect.onRun, if_true]
        exact h
      · simpa only [Effect.onRun, if_neg hid] using h
  | retry => exact hkeeps.elim
  | _ => exact h

/-- One effect writes a reason when it ends a run, or finds none. -/
theorem settles_onRun (hwf : WellFormed t) (he : e.Enabled t) (hkeeps : e.KeepsRecord t)
    (hr : r ∈ t.runs) : r.Settles e (e.onRun r) := by
  have hsame : e.onRun r = r → r.Settles e (e.onRun r) := fun h ↦
    ⟨fun _ ↦ h, fun hopen hended ↦ by rw [h, hopen] at hended; cases hended⟩
  cases e with
  | move runId target reason now =>
      obtain ⟨row, hrow, hallowed⟩ := he
      by_cases hid : r.runId = runId
      · subst hid
        obtain rfl := hwf.run_eq hrow hr rfl
        refine ⟨fun hended ↦ ?_, fun _ hended ↦ ?_⟩
        · rw [not_terminal_of_transition hallowed] at hended
          cases hended
        · cases reason with
          | some reason => exact .inr (by simp [Effect.onRun, Effect.reasonFor, RunRow.moved])
          | none =>
              have htarget : target.isTerminal = true := by
                simpa [Effect.onRun, RunRow.moved] using hended
              exact .inl (by simp [Effect.onRun, RunRow.moved, hkeeps htarget row hr rfl])
      · exact hsame (by simp only [Effect.onRun, if_neg hid])
  | failEarly runId category message eventId now =>
      obtain ⟨_, _, row, hrow, hwaiting⟩ := he
      by_cases hid : r.runId = runId
      · subst hid
        obtain rfl := hwf.run_eq hrow hr rfl
        refine ⟨fun hended ↦ ?_, fun _ _ ↦ .inr ?_⟩
        · rw [terminal_not_waiting hended] at hwaiting
          cases hwaiting
        · simp [Effect.onRun, Effect.reasonFor, RunRow.failedEarly]
      · exact hsame (by simp only [Effect.onRun, if_neg hid])
  | claim stage c attemptId now =>
      by_cases hwaiting : (r.runId = stage.runId && r.status.waiting) = true
      · refine ⟨fun hended ↦ ?_, fun _ hended ↦ ?_⟩
        · rw [terminal_not_waiting hended, Bool.and_false] at hwaiting
          cases hwaiting
        · simp only [Effect.onRun, hwaiting, if_true, RunRow.started] at hended
          cases hended
      · exact hsame (by simp only [Effect.onRun, if_neg hwaiting])
  | reschedule runId stageRunId reason =>
      obtain ⟨_, row, hrow, hrunning⟩ := he
      by_cases hid : r.runId = runId
      · subst hid
        obtain rfl := hwf.run_eq hrow hr rfl
        refine ⟨fun hended ↦ ?_, fun _ hended ↦ ?_⟩
        · rw [hrunning] at hended
          cases hended
        · simp only [Effect.onRun, if_true, RunRow.retried] at hended
          cases hended
      · exact hsame (by simp only [Effect.onRun, if_neg hid])
  | retry => exact hkeeps.elim
  | _ => exact hsame rfl

end Step

/-! ## Histories -/

/-- Whatever the step commits keeps the record. -/
def System.KeepsRecord (s : System) (l : ThreadId × Operation) : Prop :=
  ∀ e, (s.clients l.1).Emits l.2 e → e.Enabled s.tables → e.KeepsRecord s.tables

/-- What the last step did to every run: a new run has not ended, one that had ended has not
changed, and one that has ended now has no reason or the one this operation wrote. -/
def System.Explains (s : System) (l : ThreadId × Operation) (s' : System) : Prop :=
  ∀ r' ∈ s'.tables.runs, r'.status.isTerminal = true →
    ∃ r ∈ s.tables.runs, r.runId = r'.runId ∧
      (r' = r ∨ r.status.isTerminal = false ∧ (r'.terminalReason = none ∨
        ∃ e, (s.clients l.1).Emits l.2 e ∧ s'.tables = e.apply s.tables ∧
          r'.terminalReason = e.reasonFor r'.runId))

/-- The tables are well formed and every run is dated by its end. -/
structure InRecord (t : Tables) : Prop where
  wellFormed : WellFormed t
  dated : ∀ r ∈ t.runs, r.Dated

theorem InRecord.step {t : Tables} (h : InRecord t) {e : Effect} (he : e.Enabled t)
    (hkeeps : e.KeepsRecord t) : InRecord (e.apply t) := by
  refine ⟨h.wellFormed.apply he, fun r' hr' ↦ ?_⟩
  rw [e.runs_apply] at hr'
  rcases List.mem_append.mp hr' with hold | hnew
  · obtain ⟨r, hr, rfl⟩ := List.mem_map.mp hold
    exact dated_onRun h.wellFormed he hkeeps hr (h.dated r hr)
  · cases e with
    | create a pluginId =>
        obtain rfl := List.mem_singleton.mp hnew
        rfl
    | _ => cases hnew

theorem System.explains_of_step {custody : Custody} {s s' : System} {l : ThreadId × Operation}
    (hwf : WellFormed s.tables) (hkeeps : s.KeepsRecord l) (hstep : s.step custody l = some s') :
    s.Explains l s' := by
  intro r' hr' hended
  rcases step_effect hstep with hsame | ⟨e, hemits, he, happly⟩
  · rw [hsame] at hr'
    exact ⟨r', hr', rfl, .inl rfl⟩
  · rw [happly, e.runs_apply] at hr'
    rcases List.mem_append.mp hr' with hold | hnew
    · obtain ⟨r, hr, rfl⟩ := List.mem_map.mp hold
      have hsettles := settles_onRun hwf he (hkeeps e hemits he) hr
      refine ⟨r, hr, (e.onRun_runId r).symm, ?_⟩
      cases hbefore : r.status.isTerminal with
      | true => exact .inl (hsettles.stays hbefore)
      | false =>
          refine .inr ⟨rfl, (hsettles.ends hbefore hended).imp id fun hreason ↦ ?_⟩
          exact ⟨e, hemits, happly, by rw [e.onRun_runId]; exact hreason⟩
    · cases e with
      | create a pluginId =>
          obtain rfl := List.mem_singleton.mp hnew
          cases hended
      | _ => cases hnew

/-- In every history that takes no run back that has ended, and ends no run without a reason
that has one, `ended_at` says whether a run has ended, and the reason of a run that has was
written by the operation that ended it, or there is none. -/
theorem run_record_truthful {custody : Custody} {s : System}
    (h : ReachableBy (System.step custody) System.KeepsRecord {} s) :
    (∀ r ∈ s.tables.runs, r.Dated) ∧ ∀ l s', s.KeepsRecord l → s.step custody l = some s' →
      s.Explains l s' := by
  have hrecord : InRecord s.tables := by
    refine h.invariant (P := fun s ↦ InRecord s.tables) ⟨WellFormed.empty, by simp⟩ ?_
    intro s l s' h hkeeps hstep
    rcases System.step_effect hstep with hsame | ⟨e, hemits, he, happly⟩
    · exact hsame ▸ h
    · exact happly ▸ h.step he (hkeeps e hemits he)
  exact ⟨hrecord.dated, fun l s' hkeeps hstep ↦
    System.explains_of_step hrecord.wellFormed hkeeps hstep⟩

/-- A call of another method than `request_retry`, and no transition without a reason. -/
def Operation.reasoned : Operation → Bool
  | requestRetry .. | transitionRun _ _ none _ => false
  | _ => true

theorem System.keepsRecord_of_reasoned {s : System} {l : ThreadId × Operation}
    (h : l.2.reasoned = true) : s.KeepsRecord l := by
  obtain ⟨tid, op⟩ := l
  intro e hemits _
  dsimp only at h hemits
  generalize s.clients tid = c at hemits
  cases hemits with
  | @move _ _ reason _ =>
      cases reason with
      | none => cases h
      | some reason => trivial
  | retry => cases h
  | pass hpass => cases hpass <;> trivial
  | _ => trivial

/-! ## A run that succeeds after a retry -/

namespace Sample

/-- The first attempt fails, the stage goes back to the queue, and the second one succeeds. -/
def succeedsLater : List (ThreadId × Operation) :=
  [(0, .submitRun (submission 2)), (0, .startAttempt "stage" claim "a1" 0),
    (0, .finishAttempt "a1" .failed {} 1), (0, .scheduleRetry "run" "stage" "retrying: tool_error"),
    (0, .startAttempt "stage" claim "a2" 2), (0, .finishAttempt "a2" .succeeded {} 3),
    (0, .transitionRun "run" .succeeded none 4)]

/-- The run fails for good, and an operator has it tried again. -/
def retriedLater : List (ThreadId × Operation) :=
  [(0, .submitRun (submission 2)), (0, .startAttempt "stage" claim "a1" 0),
    (0, .finishAttempt "a1" .failed { failure := some [("retryable", .bool true)] } 1),
    (0, .transitionRun "run" .failed (some "tool_error") 2),
    (0, .requestRetry "run" "operator" "again" "event" 3)]

def failsOnce : List (ThreadId × Operation) :=
  [(0, .submitRun (submission 2)), (0, .startAttempt "stage" claim "a1" 0),
    (0, .finishAttempt "a1" .failed {} 1)]

end Sample

/-- A run that succeeds keeps the reason of its retry, and one that waits for a retry keeps the
time at which it failed. -/
theorem run_record_stale :
    (∃ s, Visits (System.step Sample.custody) {} Sample.succeedsLater s ∧
      ∃ r ∈ s.tables.runs, r.status = .succeeded ∧
        r.terminalReason = some "retrying: tool_error") ∧
    ∃ s, Visits (System.step Sample.custody) {} Sample.retriedLater s ∧
      ∃ r ∈ s.tables.runs, r.status = .retryWait ∧ r.endedAt = some 2 := by
  constructor
  · have hends : (run (System.step Sample.custody) {} Sample.succeedsLater).any (fun s ↦
        s.tables.runs.any fun r ↦ r.status = .succeeded &&
          r.terminalReason = some "retrying: tool_error") = true := by decide +kernel
    obtain ⟨s, hs, hstale⟩ := Visits.of_any hends
    exact ⟨s, hs, by simpa using hstale⟩
  · have hends : (run (System.step Sample.custody) {} Sample.retriedLater).any (fun s ↦
        s.tables.runs.any fun r ↦ r.status = .retryWait && r.endedAt = some 2) = true := by
      decide +kernel
    obtain ⟨s, hs, hstale⟩ := Visits.of_any hends
    exact ⟨s, hs, by simpa using hstale⟩

theorem run_record_truthful_sample : ∃ s s',
    System.step Sample.custody s (0, .transitionRun "run" .failed (some "tool_error") 2) = some s' ∧
      s.Explains (0, .transitionRun "run" .failed (some "tool_error") 2) s' := by
  have hends : (run (System.step Sample.custody) {} Sample.failsOnce).any (fun s ↦
      (System.step Sample.custody s
        (0, .transitionRun "run" .failed (some "tool_error") 2)).isSome) = true := by decide +kernel
  obtain ⟨s, hs, hlive⟩ := Visits.of_any hends
  obtain ⟨s', hstep⟩ := Option.isSome_iff_exists.mp hlive
  have hreach : ReachableBy (System.step Sample.custody) System.KeepsRecord {} s :=
    hs.reachableBy fun s l _ htakes ↦ System.keepsRecord_of_reasoned
      (List.all_eq_true.mp (show Sample.failsOnce.all (fun l ↦ l.2.reasoned) = true by decide) l
        htakes.mem)
  exact ⟨s, s', hstep, (run_record_truthful hreach).2 _ s'
    (System.keepsRecord_of_reasoned rfl) hstep⟩

end ChipEvolve
