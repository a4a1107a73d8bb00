import ChipEvolve.Store.WellFormed

/-!
# The run status machine over whole histories

Six methods write the status of a run, each with its own statement.  `Moves`
says once what any of them does to a run together with its stage.  From it
follows what holds over whole histories: which statuses are final, the one way
out of `failed`, what follows a requested cancellation, and that an attempt
that ended is never written again.
-/

namespace ChipEvolve

open Machine RuntimeStatus

/-! ## A run and its stage in one step -/

/-- What an effect does to the statuses of a run and of its stage. -/
inductive Moves (t : Tables) (r : RunRow) (s : StageRow) :
    Effect → RuntimeStatus → RuntimeStatus → Prop
  | keep {e} : Moves t r s e r.status s.status
  | move {target reason now} (hallowed : runTransitionAllowed r.status target = true) :
      Moves t r s (.move r.runId target reason now) target (if s.settled then s.status else target)
  | fail {category message eventId now} (hwaiting : r.status.waiting = true) :
      Moves t r s (.failEarly r.runId category message eventId now) failed
        (if s.settled then s.status else failed)
  | claim {c attemptId now} (hclaimable : s.status.claimable = true) :
      Moves t r s (.claim s c attemptId now) (if r.status.waiting then running else r.status) running
  | reschedule {reason} (hr : r.status = running) (hs : s.status = running) :
      Moves t r s (.reschedule r.runId s.stageRunId reason) retryWait retryWait
  | rescheduleRun {stageRunId reason} (hr : r.status = running) (hs : stageRunId ≠ s.stageRunId) :
      Moves t r s (.reschedule r.runId stageRunId reason) retryWait s.status
  | rescheduleStage {runId reason} (hr : runId ≠ r.runId) (hs : s.status = running) :
      Moves t r s (.reschedule runId s.stageRunId reason) r.status retryWait
  | retry {attempt requester reason eventId now} (hr : r.status = failed)
      (hlatest : t.latestAttempt? s.stageRunId = some attempt) (hretry : attempt.mayRetry = true)
      (hbudget : (attempt.attemptNumber : Int) < r.taskSpec.maxAttempts) :
      Moves t r s (.retry r.runId s attempt requester reason eventId now) retryWait retryWait

theorem Moves.keep_of {t : Tables} {r : RunRow} {s : StageRow} {e : Effect}
    (hr : (e.onRun r).status = r.status) (hs : (e.onStage s).status = s.status) :
    Moves t r s e (e.onRun r).status (e.onStage s).status := by
  rw [hr, hs]
  exact .keep

/-- Every effect treats a run and its stage in one of these ways. -/
theorem WellFormed.moves {t : Tables} (hwf : WellFormed t) {e : Effect} (he : e.Enabled t)
    {r : RunRow} {s : StageRow} (hr : r ∈ t.runs) (hs : s ∈ t.stages) (hrun : s.runId = r.runId) :
    Moves t r s e (e.onRun r).status (e.onStage s).status := by
  cases e with
  | move runId target reason now =>
      obtain ⟨row, hrow, hallowed⟩ := he
      by_cases hid : r.runId = runId
      · subst hid
        obtain rfl := hwf.run_eq hrow hr rfl
        have hr' : ((Effect.move row.runId target reason now).onRun row).status = target := by
          simp [Effect.onRun, RunRow.moved]
        have hs' : ((Effect.move row.runId target reason now).onStage s).status =
            if s.settled then s.status else target := by
          cases hsettled : s.settled <;> simp [Effect.onStage, hrun, hsettled, StageRow.moved]
        rw [hr', hs']
        exact .move hallowed
      · have hid' : s.runId ≠ runId := hrun ▸ hid
        exact .keep_of (by simp [Effect.onRun, hid]) (by simp [Effect.onStage, hid'])
  | failEarly runId category message eventId now =>
      obtain ⟨_, _, row, hrow, hwaiting⟩ := he
      by_cases hid : r.runId = runId
      · subst hid
        obtain rfl := hwf.run_eq hrow hr rfl
        have hr' : ((Effect.failEarly row.runId category message eventId now).onRun row).status =
            failed := by simp [Effect.onRun, RunRow.failedEarly]
        have hs' : ((Effect.failEarly row.runId category message eventId now).onStage s).status =
            if s.settled then s.status else failed := by
          cases hsettled : s.settled <;> simp [Effect.onStage, hrun, hsettled, StageRow.moved]
        rw [hr', hs']
        exact .fail hwaiting
      · have hid' : s.runId ≠ runId := hrun ▸ hid
        exact .keep_of (by simp [Effect.onRun, hid]) (by simp [Effect.onStage, hid'])
  | claim stage c attemptId now =>
      obtain ⟨hstage, hclaimable, _, _⟩ := he
      by_cases hid : s.stageRunId = stage.stageRunId
      · obtain rfl := hwf.stage_eq hstage hs hid
        have hr' : ((Effect.claim stage c attemptId now).onRun r).status =
            if r.status.waiting then running else r.status := by
          cases hwaiting : r.status.waiting <;> simp [Effect.onRun, hrun, hwaiting, RunRow.started]
        have hs' : ((Effect.claim stage c attemptId now).onStage stage).status = running := by
          simp [Effect.onStage, StageRow.started]
        rw [hr', hs']
        exact .claim hclaimable
      · have hid' : r.runId ≠ stage.runId := by
          intro heq
          exact hid (congrArg StageRow.stageRunId
            (hwf.stage_eq_of_run hs (Table.mem_of_get? hstage) (hrun.trans heq)))
        exact .keep_of (by simp [Effect.onRun, hid']) (by simp [Effect.onStage, hid])
  | reschedule runId stageRunId reason =>
      obtain ⟨⟨stage, hstage, hstageRunning⟩, row, hrow, hrowRunning⟩ := he
      by_cases hid : r.runId = runId
      · subst hid
        obtain rfl := hwf.run_eq hrow hr rfl
        have hr' : ((Effect.reschedule row.runId stageRunId reason).onRun row).status =
            retryWait := by simp [Effect.onRun, RunRow.retried]
        by_cases hid' : s.stageRunId = stageRunId
        · subst hid'
          obtain rfl := hwf.stage_eq hstage hs rfl
          have hs' : ((Effect.reschedule row.runId stage.stageRunId reason).onStage stage).status =
              retryWait := by simp [Effect.onStage, StageRow.moved]
          rw [hr', hs']
          exact .reschedule hrowRunning hstageRunning
        · have hs' : ((Effect.reschedule row.runId stageRunId reason).onStage s).status =
              s.status := by simp [Effect.onStage, hid']
          rw [hr', hs']
          exact .rescheduleRun hrowRunning (Ne.symm hid')
      · have hr' : ((Effect.reschedule runId stageRunId reason).onRun r).status = r.status := by
          simp [Effect.onRun, hid]
        by_cases hid' : s.stageRunId = stageRunId
        · subst hid'
          obtain rfl := hwf.stage_eq hstage hs rfl
          have hs' : ((Effect.reschedule runId stage.stageRunId reason).onStage stage).status =
              retryWait := by simp [Effect.onStage, StageRow.moved]
          rw [hr', hs']
          exact .rescheduleStage (Ne.symm hid) hstageRunning
        · exact .keep_of hr' (by simp [Effect.onStage, hid'])
  | retry runId stage attempt requester reason eventId now =>
      obtain ⟨hstage, hlatest, hretry, row, hrow, hfailed, hbudget⟩ := he
      have hstageMem : stage ∈ t.stages := Table.mem_of_get? hstage
      have hstageRun : stage.runId = runId := Table.key_of_get? hstage
      by_cases hid : r.runId = runId
      · subst hid
        obtain rfl := hwf.run_eq hrow hr rfl
        obtain rfl := hwf.stage_eq_of_run hs hstageMem (hrun.trans hstageRun.symm)
        have hr' : ((Effect.retry row.runId s attempt requester reason eventId now).onRun
            row).status = retryWait := by simp [Effect.onRun, RunRow.retried]
        have hs' : ((Effect.retry row.runId s attempt requester reason eventId now).onStage
            s).status = retryWait := by simp [Effect.onStage, StageRow.moved]
        rw [hr', hs']
        exact .retry hfailed hlatest hretry hbudget
      · have hid' : s.stageRunId ≠ stage.stageRunId := by
          intro heq
          obtain rfl := hwf.stageIds.eq_of_key hs hstageMem heq
          exact hid (hrun.symm.trans hstageRun)
        exact .keep_of (by simp [Effect.onRun, hid]) (by simp [Effect.onStage, hid'])
  | _ => exact .keep

/-! ## An attempt in one step -/

/-- What an effect does to the status of an attempt. -/
inductive AttemptMoves (a : AttemptRow) : Effect → AttemptStatus → Prop
  | keep {e} : AttemptMoves a e a.status
  | finish {status ending now} (hrunning : a.status = .running) (hstatus : status ≠ .running)
      (hpending : status ≠ .pending) : AttemptMoves a (.finish a.attemptId status ending now) status
  | lose {reference} (hexpired : a.expired reference = true) :
      AttemptMoves a (.lose a.attemptId reference) .lost

theorem running_of_expired {a : AttemptRow} {reference : Timestamp}
    (h : a.expired reference = true) : a.status = .running := by
  unfold AttemptRow.expired at h
  simpa using (Bool.and_eq_true_iff.mp h).1

/-- No attempt is ever pending: a claim inserts it running. -/
def NoPending (t : Tables) : Prop := ∀ a ∈ t.attempts, a.status ≠ .pending

theorem WellFormed.attemptMoves {t : Tables} (hwf : WellFormed t) (hpending : NoPending t)
    {e : Effect} (he : e.Enabled t) {a : AttemptRow} (ha : a ∈ t.attempts) :
    AttemptMoves a e (e.onAttempt a).status := by
  cases e with
  | finish attemptId status ending now =>
      obtain ⟨row, hrow, hallowed⟩ := he
      by_cases hid : a.attemptId = attemptId
      · subst hid
        obtain rfl := hwf.attempt_eq hrow ha rfl
        obtain ⟨hrunning, hstatus, hnotPending⟩ :=
          attempt_transition_from_running (hpending row ha) hallowed
        simpa [Effect.onAttempt, AttemptRow.finished] using
          AttemptMoves.finish hrunning hstatus hnotPending
      · simpa [Effect.onAttempt, hid] using AttemptMoves.keep
  | lose attemptId reference =>
      by_cases hmeets : (a.attemptId = attemptId && a.expired reference) = true
      · obtain ⟨rfl, hexpired⟩ : a.attemptId = attemptId ∧ a.expired reference = true := by
          simpa using hmeets
        simpa [Effect.onAttempt, hexpired, AttemptRow.markedLost] using AttemptMoves.lose hexpired
      · simpa only [Effect.onAttempt, if_neg hmeets] using AttemptMoves.keep
  | beat attemptId workerId leaseSeconds now =>
      cases hleased : a.leasedBy attemptId workerId <;>
        simpa [Effect.onAttempt, hleased, AttemptRow.beaten] using AttemptMoves.keep
  | attach attemptId workerId p =>
      cases hleased : a.leasedBy attemptId workerId <;>
        simpa [Effect.onAttempt, hleased, AttemptRow.attached] using AttemptMoves.keep
  | _ => exact .keep

theorem AttemptMoves.ne_pending {a : AttemptRow} {e : Effect} {status : AttemptStatus}
    (h : AttemptMoves a e status) (ha : a.status ≠ .pending) : status ≠ .pending := by
  cases h with
  | keep => exact ha
  | finish _ _ hpending => exact hpending
  | lose => decide

theorem AttemptMoves.running {a : AttemptRow} {e : Effect} {status : AttemptStatus}
    (h : AttemptMoves a e status) (hstatus : status = .running) : a.status = .running := by
  cases h with
  | keep => exact hstatus
  | finish hrunning => exact hrunning
  | lose => cases hstatus

/-- An attempt after an effect was there before it or has just been claimed. -/
theorem attempt_cases {t : Tables} {e : Effect} {a' : AttemptRow}
    (ha' : a' ∈ (e.apply t).attempts) :
    (∃ a ∈ t.attempts, a' = e.onAttempt a) ∨
      ∃ stage c attemptId now, e = .claim stage c attemptId now ∧
        a' = t.nextAttempt stage c attemptId now := by
  rw [e.attempts_apply, List.mem_append, List.mem_map] at ha'
  rcases ha' with ⟨a, ha, rfl⟩ | hnew
  · exact .inl ⟨a, ha, rfl⟩
  · cases e with
    | claim stage c attemptId now =>
        exact .inr ⟨stage, c, attemptId, now, rfl, List.mem_singleton.mp hnew⟩
    | _ => cases hnew

theorem NoPending.apply {t : Tables} (h : NoPending t) (hwf : WellFormed t) {e : Effect}
    (he : e.Enabled t) : NoPending (e.apply t) := by
  intro a' ha'
  rcases attempt_cases ha' with ⟨a, ha, rfl⟩ | ⟨_, _, _, _, _, rfl⟩
  · exact (hwf.attemptMoves h he ha).ne_pending (h a ha)
  · exact AttemptStatus.noConfusion

/-! ## Runs and stages close together -/

/-- A status no claim can follow: terminal, or a requested cancellation. -/
def RuntimeStatus.closed (status : RuntimeStatus) : Bool :=
  status.isTerminal || status = cancelRequested

theorem closed_of_terminal {status : RuntimeStatus} (h : status.isTerminal = true) :
    status.closed = true := by
  simp [RuntimeStatus.closed, h]

theorem not_closed_of_claimable {status : RuntimeStatus} (h : status.claimable = true) :
    status.closed = false := by
  cases status <;> first | rfl | exact absurd h (by decide)

theorem ne_running_of_closed {status : RuntimeStatus} (h : status.closed = true) :
    status ≠ running := by
  rintro rfl
  cases h

theorem not_waiting_of_closed {status : RuntimeStatus} (h : status.closed = true) :
    status.waiting = false := by
  cases status <;> first | rfl | exact absurd h (by decide)

theorem waiting_or_running_of_not_closed {status : RuntimeStatus} (h : status.closed = false) :
    status.waiting = true ∨ status = running := by
  cases status <;> first | exact .inl rfl | exact .inr rfl | exact absurd h (by decide)

/-- When a run or its stage is closed, both are and with the same status.  This
much holds even when a retry is scheduled on a stage of another run. -/
def CloseAlike (r s : RuntimeStatus) : Prop := r.closed = true ∨ s.closed = true → s = r

namespace CloseAlike

variable {r s : RuntimeStatus}

theorem run_open (h : CloseAlike r s) (hs : s.closed = false) : r.closed = false := by
  by_contra hr
  rw [h (.inl (by simpa using hr))] at hs
  exact hr hs

theorem stage_open (h : CloseAlike r s) (hr : r.closed = false) : s.closed = false := by
  by_contra hs
  rw [← h (.inr (by simpa using hs))] at hr
  exact hs hr

theorem of_open (hr : r.closed = false) (hs : s.closed = false) : CloseAlike r s := by
  rintro (h | h) <;> simp_all

theorem moved (h : CloseAlike r s) (hlive : r.isTerminal = false) (target : RuntimeStatus) :
    CloseAlike target (if s.isTerminal then s else target) := by
  intro _
  cases hs : s.isTerminal with
  | false => simp
  | true =>
      have heq := h (.inr (closed_of_terminal hs))
      rw [heq, hlive] at hs
      cases hs

end CloseAlike

theorem Moves.closeAlike {t : Tables} {r : RunRow} {s : StageRow} {e : Effect}
    {r' s' : RuntimeStatus} (h : Moves t r s e r' s') (hinv : CloseAlike r.status s.status) :
    CloseAlike r' s' := by
  cases h with
  | keep => exact hinv
  | move hallowed => exact hinv.moved (not_terminal_of_transition hallowed) _
  | fail hwaiting =>
      have hlive : r.status.isTerminal = false := by
        by_contra hterminal
        rw [terminal_not_waiting (by simpa using hterminal)] at hwaiting
        cases hwaiting
      exact hinv.moved hlive _
  | claim hclaimable =>
      have hopen := hinv.run_open (not_closed_of_claimable hclaimable)
      rcases waiting_or_running_of_not_closed hopen with hwaiting | hrunning
      · rw [hwaiting]
        exact fun _ ↦ rfl
      · rw [hrunning]
        exact fun _ ↦ rfl
  | reschedule => exact fun _ ↦ rfl
  | rescheduleRun hr => exact .of_open rfl (hinv.stage_open (by rw [hr]; rfl))
  | rescheduleStage _ hs => exact .of_open (hinv.run_open (by rw [hs]; rfl)) rfl
  | retry => exact fun _ ↦ rfl

/-- The relation between a run's status and its stage's, over whole tables. -/
def Paired (P : RuntimeStatus → RuntimeStatus → Prop) (t : Tables) : Prop :=
  ∀ r ∈ t.runs, ∀ s ∈ t.stages, s.runId = r.runId → P r.status s.status

/-- A relation that holds at creation and that guarded effects keep, holds of
every run and its stage in every reachable store. -/
theorem paired_of_reachable {P : RuntimeStatus → RuntimeStatus → Prop}
    {guard : Tables → Effect → Prop} (hcreate : P queued queued)
    (hkeep : ∀ t r s e r' s', WellFormed t → r ∈ t.runs → s ∈ t.stages → s.runId = r.runId →
      guard t e → e.Enabled t → Moves t r s e r' s' → P r.status s.status → P r' s')
    {t : Tables} (h : ReachableBy Effect.step guard {} t) : WellFormed t ∧ Paired P t := by
  refine h.invariant (P := fun t ↦ WellFormed t ∧ Paired P t)
    ⟨WellFormed.empty, by simp [Paired]⟩ ?_
  rintro t e t' ⟨hwf, hpaired⟩ hguard hstep
  obtain ⟨henabled, rfl⟩ := Effect.step_eq_some.mp hstep
  refine ⟨hwf.apply henabled, ?_⟩
  intro r' hr' s' hs' hrun'
  rcases hwf.pair_cases henabled hr' hs' hrun' with
    ⟨r, hr, s, hs, hrun, rfl, rfl⟩ | ⟨a, pluginId, rfl, rfl, rfl⟩
  · exact hkeep t r s e _ _ hwf hr hs hrun hguard henabled (hwf.moves henabled hr hs hrun)
      (hpaired r hr s hs hrun)
  · exact hcreate

theorem closeAlike_of_reachable {guard : Tables → Effect → Prop} {t : Tables}
    (h : ReachableBy Effect.step guard {} t) : WellFormed t ∧ Paired CloseAlike t :=
  paired_of_reachable (fun _ ↦ rfl)
    (fun _ _ _ _ _ _ _ _ _ _ _ _ hmoves hinv ↦ hmoves.closeAlike hinv) h

/-! ## The law of one step -/

/-- The statuses that are never left. -/
def RuntimeStatus.final (status : RuntimeStatus) : Bool :=
  status = succeeded || status = cancelled || status = timedOut || status = lost

/-- An attempt that ended. -/
def AttemptStatus.ended (status : AttemptStatus) : Bool :=
  status = .succeeded || status = .failed || status = .lost

/-- What one statement may do to a run. -/
structure RunLaw (t : Tables) (op : Operation) (t' : Tables) (r r' : RunRow) : Prop where
  final : r.status.final = true → r'.status = r.status
  /-- Only `request_retry` leaves `failed`, for a recorded retryable failure and
  with an attempt left in the budget. -/
  failed : r.status = .failed → r'.status ≠ .failed →
    (∃ requester reason eventId now, op = .requestRetry r.runId requester reason eventId now) ∧
      ∃ stage attempt failure, t.stageOf? r.runId = some stage ∧
        t.latestAttempt? stage.stageRunId = some attempt ∧ attempt.failure = some failure ∧
        retryable failure = true ∧ (attempt.attemptNumber : Int) < r.taskSpec.maxAttempts
  /-- A requested cancellation admits no new attempt and ends one of three ways. -/
  cancelRequested : r.status = .cancelRequested →
    (r'.status = .cancelRequested ∨ r'.status = .cancelled ∨ r'.status = .failed ∨
      r'.status = .lost) ∧
    ∀ stage, t.stageOf? r.runId = some stage →
      (t'.attemptsOf stage.stageRunId).length = (t.attemptsOf stage.stageRunId).length
  /-- Every other change is an edge of the table or the start of an attempt. -/
  edge : r.status ≠ .failed → r'.status ≠ r.status →
    runTransitionAllowed r.status r'.status = true ∨
      r.status.waiting = true ∧ r'.status = .running ∧
        ∃ stageRunId c attemptId now, op = .startAttempt stageRunId c attemptId now

/-- What one statement may do to the runs and the attempts. -/
structure StepLaw (t : Tables) (op : Operation) (t' : Tables) : Prop where
  runs : ∀ runId r, t.run? runId = some r → ∃ r', t'.run? runId = some r' ∧ RunLaw t op t' r r'
  attempts : ∀ attemptId a, t.attempt? attemptId = some a → a.status.ended = true →
    t'.attempt? attemptId = some a

/-- What any number of statements leaves as it is. -/
structure Lasting (t t' : Tables) : Prop where
  runs : ∀ runId r, t.run? runId = some r → r.status.final = true →
    ∃ r', t'.run? runId = some r' ∧ r'.status = r.status
  attempts : ∀ attemptId a, t.attempt? attemptId = some a → a.status.ended = true →
    t'.attempt? attemptId = some a

namespace Lasting

theorem refl (t : Tables) : Lasting t t where
  runs _ r hr _ := ⟨r, hr, rfl⟩
  attempts _ _ ha _ := ha

theorem trans {t₁ t₂ t₃ : Tables} (h : Lasting t₁ t₂) (h' : Lasting t₂ t₃) : Lasting t₁ t₃ where
  runs runId r hr hfinal := by
    obtain ⟨r', hr', hstatus⟩ := h.runs runId r hr hfinal
    obtain ⟨r'', hr'', hstatus'⟩ := h'.runs runId r' hr' (by rw [hstatus]; exact hfinal)
    exact ⟨r'', hr'', hstatus'.trans hstatus⟩
  attempts attemptId a ha hended := h'.attempts attemptId a (h.attempts attemptId a ha hended) hended

end Lasting

theorem StepLaw.lasting {t t' : Tables} {op : Operation} (h : StepLaw t op t') : Lasting t t' where
  runs runId r hr hfinal := by
    obtain ⟨r', hr', hlaw⟩ := h.runs runId r hr
    exact ⟨r', hr', hlaw.final hfinal⟩
  attempts := h.attempts

/-! ## The law holds -/

/-- An attempt that ended is past every statement that writes attempts. -/
theorem onAttempt_of_ended {t : Tables} (hwf : WellFormed t) {e : Effect} (he : e.Enabled t)
    {a : AttemptRow} (ha : a ∈ t.attempts) (hended : a.status.ended = true) :
    e.onAttempt a = a := by
  have hrunning : a.status ≠ .running := by
    intro heq
    rw [heq] at hended
    exact absurd hended (by decide)
  cases e with
  | finish attemptId status ending now =>
      obtain ⟨row, hrow, hallowed⟩ := he
      by_cases hid : a.attemptId = attemptId
      · obtain rfl := hwf.attempt_eq hrow ha hid
        exfalso
        revert hended hallowed
        cases row.status <;> cases status <;> decide
      · simp [Effect.onAttempt, hid]
  | lose attemptId reference => simp [Effect.onAttempt, AttemptRow.expired, hrunning]
  | beat attemptId workerId leaseSeconds now =>
      simp [Effect.onAttempt, AttemptRow.leasedBy, hrunning]
  | attach attemptId workerId p => simp [Effect.onAttempt, AttemptRow.leasedBy, hrunning]
  | _ => rfl

theorem mayRetry_iff {a : AttemptRow} :
    a.mayRetry = true ↔ ∃ f, a.failure = some f ∧ f.isEmpty = false ∧ retryable f = true := by
  unfold AttemptRow.mayRetry
  cases a.failure <;> simp

section Law

variable {t : Tables} {e : Effect} {r : RunRow} {s : StageRow} {r' s' : RuntimeStatus}

theorem Moves.final (h : Moves t r s e r' s') (hfinal : r.status.final = true) :
    r' = r.status := by
  have hterminal : r.status.isTerminal = true := by
    revert hfinal
    cases r.status <;> decide
  cases h with
  | keep | rescheduleStage => rfl
  | move hallowed =>
      rw [not_terminal_of_transition hallowed] at hterminal
      cases hterminal
  | fail hwaiting =>
      rw [terminal_not_waiting hterminal] at hwaiting
      cases hwaiting
  | claim => simp [terminal_not_waiting hterminal]
  | reschedule hr | rescheduleRun hr | retry hr =>
      rw [hr] at hfinal
      exact absurd hfinal (by decide)

/-- The one way out of `failed`. -/
theorem Moves.failed (h : Moves t r s e r' s') (hfailed : r.status = .failed)
    (hne : r' ≠ .failed) :
    ∃ attempt requester reason eventId now,
      e = .retry r.runId s attempt requester reason eventId now ∧
        t.latestAttempt? s.stageRunId = some attempt ∧ attempt.mayRetry = true ∧
        (attempt.attemptNumber : Int) < r.taskSpec.maxAttempts := by
  cases h with
  | keep | rescheduleStage => exact absurd hfailed hne
  | move hallowed =>
      rw [hfailed] at hallowed
      exact absurd (not_terminal_of_transition hallowed) (by decide)
  | fail => exact absurd rfl hne
  | claim =>
      rw [hfailed] at hne
      exact absurd rfl hne
  | reschedule hr | rescheduleRun hr =>
      rw [hr] at hfailed
      cases hfailed
  | retry _ hlatest hretry hbudget => exact ⟨_, _, _, _, _, rfl, hlatest, hretry, hbudget⟩

theorem Moves.cancelRequested (h : Moves t r s e r' s') (hcancel : r.status = .cancelRequested) :
    r' = .cancelRequested ∨ r' = .cancelled ∨ r' = .failed ∨ r' = .lost := by
  cases h with
  | keep | rescheduleStage => exact .inl hcancel
  | move hallowed =>
      rw [hcancel, runTransitionAllowed_iff] at hallowed
      refine .inr ?_
      simpa [RuntimeStatus.transitions] using hallowed
  | fail => exact .inr (.inr (.inl rfl))
  | claim =>
      rw [hcancel]
      exact .inl rfl
  | reschedule hr | rescheduleRun hr | retry hr =>
      rw [hr] at hcancel
      cases hcancel

theorem Moves.edge (h : Moves t r s e r' s') (hnot : r.status ≠ .failed) (hne : r' ≠ r.status) :
    runTransitionAllowed r.status r' = true ∨
      r.status.waiting = true ∧ r' = .running ∧
        ∃ c attemptId now, e = .claim s c attemptId now := by
  cases h with
  | keep | rescheduleStage => exact absurd rfl hne
  | move hallowed => exact .inl hallowed
  | fail hwaiting =>
      refine .inl ?_
      revert hwaiting
      cases r.status <;> decide
  | claim =>
      cases hwaiting : r.status.waiting with
      | false => simp [hwaiting] at hne
      | true => exact .inr ⟨rfl, by simp, _, _, _, rfl⟩
  | reschedule hr | rescheduleRun hr => exact .inl (by rw [hr]; decide)
  | retry hr => exact absurd hr hnot

/-- No attempt is added to a stage whose run has a requested cancellation. -/
theorem length_attemptsOf_of_cancelRequested (hwf : WellFormed t) (he : e.Enabled t)
    (hs : s ∈ t.stages) (hcancel : s.status = .cancelRequested) :
    ((e.apply t).attemptsOf s.stageRunId).length = (t.attemptsOf s.stageRunId).length := by
  rw [attemptsOf_apply]
  cases e with
  | claim stage c attemptId now =>
      obtain ⟨hstage, hclaimable, _, _⟩ := he
      have hne : stage.stageRunId ≠ s.stageRunId := by
        intro heq
        obtain rfl := hwf.stage_eq hstage hs heq.symm
        rw [hcancel] at hclaimable
        exact absurd hclaimable (by decide)
      simp [Effect.newAttempts, Tables.nextAttempt, Claim.attemptRow, hne]
  | _ => simp [Effect.newAttempts]

theorem runLaw_of_emits (hwf : WellFormed t) (hinv : CloseAlike r.status s.status)
    (he : e.Enabled t) (hr : r ∈ t.runs) (hs : s ∈ t.stages) (hrun : s.runId = r.runId)
    {c : Client} {op : Operation} (hemits : c.Emits op e) :
    RunLaw t op (e.apply t) r (e.onRun r) := by
  have hmoves := hwf.moves he hr hs hrun
  have hstage : t.stageOf? r.runId = some s := hrun ▸ hwf.stageOf?_of_mem hs
  refine ⟨hmoves.final, ?_, ?_, ?_⟩
  · intro hfailed hne
    obtain ⟨attempt, requester, reason, eventId, now, rfl, hlatest, hretry, hbudget⟩ :=
      hmoves.failed hfailed hne
    obtain ⟨f, hf, _, hretryable⟩ := mayRetry_iff.mp hretry
    refine ⟨?_, s, attempt, f, hstage, hlatest, hf, hretryable, hbudget⟩
    cases hemits with
    | retry => exact ⟨_, _, _, _, rfl⟩
    | pass hpass => cases hpass
  · intro hcancel
    refine ⟨hmoves.cancelRequested hcancel, ?_⟩
    intro stage hstage'
    obtain rfl : s = stage := Option.some.inj (hstage.symm.trans hstage')
    have hclosed : r.status.closed = true := by rw [hcancel]; rfl
    exact length_attemptsOf_of_cancelRequested hwf he hs ((hinv (.inl hclosed)).trans hcancel)
  · intro hnot hne
    rcases hmoves.edge hnot hne with hallowed | ⟨hwaiting, hrunning, c', attemptId, now, rfl⟩
    · exact .inl hallowed
    · refine .inr ⟨hwaiting, hrunning, ?_⟩
      cases hemits with
      | claim => exact ⟨_, _, _, _, rfl⟩
      | pass hpass => cases hpass

end Law

theorem StepLaw.unchanged (t : Tables) (op : Operation) : StepLaw t op t where
  runs _ r hr := by
    refine ⟨r, hr, fun _ ↦ rfl, ?_, ?_, ?_⟩
    · intro hfailed hne
      exact absurd hfailed hne
    · exact fun hcancel ↦ ⟨.inl hcancel, fun _ _ ↦ rfl⟩
    · exact fun _ hne ↦ absurd rfl hne
  attempts _ _ ha _ := ha

/-- Every step from a reachable state obeys the law. -/
theorem System.stepLaw {custody : Custody} {s s' : System} {l : ThreadId × Operation}
    (hs : ReachableBy (System.step custody) (fun _ _ ↦ True) {} s)
    (hstep : s.step custody l = some s') : StepLaw s.tables l.2 s'.tables := by
  have hreach : ReachableBy Effect.step (fun _ _ ↦ True) {} s.tables :=
    System.lifecycle (fun _ _ _ _ _ _ ↦ trivial) hs
  obtain ⟨hwf, hpaired⟩ := closeAlike_of_reachable hreach
  rcases System.step_effect hstep with hsame | ⟨e, hemits, he, happly⟩
  · rw [hsame]
    exact .unchanged _ _
  rw [happly]
  constructor
  · intro runId r hr
    obtain ⟨stage, hstage⟩ := hwf.exists_stage hr
    have hrun : stage.runId = r.runId :=
      (Table.key_of_get? hstage).trans (Table.key_of_get? hr).symm
    have hrMem : r ∈ s.tables.runs := Table.mem_of_get? hr
    have hsMem : stage ∈ s.tables.stages := Table.mem_of_get? hstage
    exact ⟨e.onRun r, run?_apply e hr,
      runLaw_of_emits hwf (hpaired r hrMem stage hsMem hrun) he hrMem hsMem hrun hemits⟩
  · intro attemptId a ha hended
    rw [attempt?_apply e ha, onAttempt_of_ended hwf he (Table.mem_of_get? ha) hended]

/-- The status machine of a run, for every history of store operations by any
number of threads with any arguments: each step obeys the law, and what the law
calls final stays so for the rest of the history. -/
theorem run_status_machine (custody : Custody) (history : List (ThreadId × Operation)) :
    (∀ s l s', Takes (System.step custody) {} history s l s' →
      StepLaw s.tables l.2 s'.tables) ∧
    ∀ earlier later s s', earlier ++ later <+: history →
      run (System.step custody) {} earlier = some s →
      run (System.step custody) s later = some s' → Lasting s.tables s'.tables := by
  constructor
  · intro s l s' htakes
    exact System.stepLaw htakes.visits_left.reachable htakes.step_eq
  · intro earlier later s s' _ hearlier hlater
    have hreach : ReachableBy (System.step custody) (fun _ _ ↦ True) {} s :=
      ReachableBy.init.run hearlier
    refine hreach.run_rel (R := fun s s' ↦ Lasting s.tables s'.tables) ?_ ?_ ?_ hlater
    · exact fun s ↦ .refl s.tables
    · exact fun _ _ _ h h' ↦ h.trans h'
    · exact fun _ _ _ hs hstep ↦ (System.stepLaw hs hstep).lasting

end ChipEvolve
