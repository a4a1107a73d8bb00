import ChipEvolve.Exclusive
import ChipEvolve.Store.Running
import ChipEvolve.Worker.Fencing

/-!
# One attempt of a stage at a time

`start_attempt` looks only at the status of the stage, so mutual exclusion rests
on who may put a stage back.  A run is held by its running attempt or by the
thread that still has to settle it: the worker that finished the attempt, or
the pass that marked it `lost`.  A run that waits or has failed is held by
nobody.  The one statement that breaks this is a worker failing the run after
its attempt was taken away.
-/

namespace ChipEvolve

open Machine Sql

/-- A worker whose attempt is `lost` moves the run to `failed`. -/
def World.failsReclaimed (w : World) (l : ThreadId × Event) : Bool :=
  match w.threads l.1, l.2 with
  | .terminating job, .next _ =>
      w.tables.isLost job.attemptId &&
        (w.tables.runStatus? job.runId).any fun status ↦ runTransitionAllowed status .failed
  | _, _ => false

/-! ## Holders of a run -/

def Phase.settles : Phase → Bool
  | settling | failing | rechecking => true
  | _ => false

/-- The runs a pass has still to settle. -/
def Pass.owed : Pass → List RunId
  | fencing _ _ _ runIds => runIds
  | releasing _ _ _ _ runIds => runIds
  | settling _ runIds => runIds
  | rescheduling _ runId _ runIds => runId :: runIds
  | losing _ runId runIds => runId :: runIds
  | _ => []

/-- A pass settles each run once. -/
def Pass.Distinct : Pass → Prop
  | fencing _ _ _ _ | releasing _ _ _ _ _ => True
  | pass => pass.owed.Nodup

/-- The attempt ended with a result. -/
def AttemptStatus.resulted (status : AttemptStatus) : Bool :=
  status = .succeeded || status = .failed

/-- The thread has still to settle the run. -/
inductive Thread.Owes (t : Tables) (runId : RunId) (th : Thread) : Prop
  | worker {job p a} (hphase : th.phase? = some (job, p)) (hsettles : p.settles = true)
      (hrun : job.runId = runId) (ha : t.attempt? job.attemptId = some a)
      (hresulted : a.status.resulted = true)
  | pass {p} (hpass : th.pass? = some p) (howed : runId ∈ p.owed)

abbrev Holder := AttemptId ⊕ ThreadId

def World.Holds (w : World) (runId : RunId) : Holder → Prop
  | .inl attemptId => ∃ a, RunningIn w.tables runId a ∧ a.attemptId = attemptId
  | .inr tid => (w.threads tid).Owes w.tables runId

/-- Nobody works on the run: it waits, has failed, or does not exist. -/
def Free (t : Tables) (runId : RunId) : Prop :=
  ∀ r, t.run? runId = some r → r.status.waiting = true ∨ r.status = .failed

/-- What the threads together keep, besides what each of them knows. -/
structure World.Excludes (w : World) : Prop where
  sound : w.Sound
  distinct : ∀ tid pass, (w.threads tid).pass? = some pass → pass.Distinct
  exclusive : Exclusive w.Holds (Free w.tables)

/-! ## Which effects free a run -/

def Effect.Frees (runId : RunId) : Effect → Prop
  | move runId' target _ _ => runId' = runId ∧ (target.waiting = true ∨ target = .failed)
  | reschedule runId' _ _ => runId' = runId
  | _ => False

theorem Free.of_apply {t : Tables} (hwf : WellFormed t) {e : Effect} (he : e.Enabled t)
    {runId : RunId} (h : Free (e.apply t) runId) : Free t runId ∨ e.Frees runId := by
  by_cases hfrees : e.Frees runId
  · exact .inr hfrees
  refine .inl fun r hr ↦ ?_
  have hkey : r.runId = runId := Table.key_of_get? hr
  have hafter := h _ (run?_apply e hr)
  cases e with
  | move runId' target reason now =>
      by_cases hid : r.runId = runId'
      · simp only [Effect.onRun, hid, if_true] at hafter
        exact absurd ⟨hid.symm.trans hkey, hafter⟩ hfrees
      · simpa only [Effect.onRun, if_neg hid] using hafter
  | failEarly runId' category message eventId now =>
      by_cases hid : r.runId = runId'
      · obtain ⟨_, _, row, hrow, hwaiting⟩ := he
        obtain rfl := hwf.run_eq hrow (Table.mem_of_get? hr) hid
        exact .inl hwaiting
      · simpa only [Effect.onRun, if_neg hid] using hafter
  | claim stage c attemptId now =>
      by_cases hmeets : (r.runId = stage.runId && r.status.waiting) = true
      · exact .inl (Bool.and_eq_true_iff.mp hmeets).2
      · simpa only [Effect.onRun, if_neg hmeets] using hafter
  | reschedule runId' stageRunId reason =>
      have hid : r.runId ≠ runId' := fun hid ↦ hfrees (hid.symm.trans hkey)
      simpa only [Effect.onRun, if_neg hid] using hafter
  | retry runId' stage attempt requester reason eventId now =>
      by_cases hid : r.runId = runId'
      · obtain ⟨_, _, _, row, hrow, hfailed, _⟩ := he
        obtain rfl := hwf.run_eq hrow (Table.mem_of_get? hr) hid
        exact .inr hfailed
      · simpa only [Effect.onRun, if_neg hid] using hafter
  | _ => exact hafter

/-! ## What a pass owes -/

namespace Pass

variable {now : Timestamp} {gone : Bool} {t : Tables} {p : Pass} {runId : RunId}

/-- A pass comes to owe a run only by marking an attempt of it. -/
theorem owed_step (h : runId ∈ (p.step now gone t).1.owed) :
    runId ∈ p.owed ∨ ∃ reference row rows ids runIds, p = .fencing reference (row :: rows) ids runIds ∧
      row.runId = runId ∧ 0 < t.lapsed row.attemptId reference ∧
      (p.step now gone t).2 = (Effect.lose row.attemptId reference).apply t := by
  cases p with
  | fencing reference rows ids runIds =>
      cases rows with
      | nil =>
          refine .inl ?_
          simpa [step, owed, sortedIds, (List.perm_insertionSort _ _).mem_iff] using h
      | cons row rows =>
          by_cases hfenced : fenceExpiredProcess row gone = true
          · simp only [step, hfenced, if_true, (markLost_commits t row.attemptId reference).exec]
              at h ⊢
            by_cases hone : t.lapsed row.attemptId reference = 1
            · simp only [hone, decide_true, owed, List.mem_cons] at h ⊢
              rcases h with rfl | hold
              · exact .inr ⟨reference, row, rows, ids, runIds, rfl, rfl, by omega, rfl⟩
              · exact .inl hold
            · simp only [hone, decide_false] at h
              exact .inl h
          · simp only [step, hfenced] at h
            exact .inl h
  | releasing => exact .inl h
  | settling ids runIds =>
      refine .inl ?_
      cases runIds with
      | nil => cases h
      | cons runId' runIds =>
          simp only [step] at h
          split at h <;> exact h
  | rescheduling | losing =>
      refine .inl ?_
      simp only [step] at h
      split at h
      · exact List.mem_cons_of_mem _ h
      · split at h <;> simp_all [owed]
  | returned | raised => cases h

theorem Distinct.step (hdistinct : p.Distinct) : (p.step now gone t).1.Distinct := by
  cases p with
  | fencing reference rows ids runIds =>
      cases rows with
      | nil => exact (List.perm_insertionSort _ _).nodup_iff.mpr (List.nodup_dedup runIds)
      | cons row rows =>
          simp only [step]
          split
          · split <;> first | trivial | exact List.nodup_nil
          · trivial
  | releasing => trivial
  | settling ids runIds =>
      cases runIds with
      | nil => exact List.nodup_nil
      | cons runId' runIds =>
          simp only [step]
          split <;> exact hdistinct
  | rescheduling | losing =>
      simp only [step]
      split
      · exact (List.nodup_cons.mp hdistinct).2
      · split <;> first | exact hdistinct | exact (List.nodup_cons.mp hdistinct).2 | exact List.nodup_nil
  | returned | raised => exact List.nodup_nil

end Pass

/-- A mark that meets its row changes the tables. -/
theorem lose_apply_ne {t : Tables} {attemptId : AttemptId} {reference : Timestamp}
    (h : 0 < t.lapsed attemptId reference) : (Effect.lose attemptId reference).apply t ≠ t := by
  intro hsame
  obtain ⟨a, ha, hmeets⟩ := List.countP_pos_iff.mp h
  have hmem : a ∈ ((Effect.lose attemptId reference).apply t).attempts := by rwa [hsame]
  obtain ⟨b, hb, rfl⟩ | ⟨_, _, _, _, heq, _⟩ := attempt_cases hmem
  · by_cases hhit : (b.attemptId = attemptId && b.expired reference) = true
    · have hrunning := running_of_expired (Bool.and_eq_true_iff.mp hmeets).2
      rw [Effect.onAttempt, if_pos hhit] at hrunning
      cases hrunning
    · rw [Effect.onAttempt, if_neg hhit] at hmeets
      exact hhit hmeets
  · cases heq

/-! ## The thread that moves -/

namespace Thread

variable {t : Tables} {th th' : Thread} {runId : RunId}

theorem not_owes_of_leaving {job : Job} (h : th.phase? = some (job, .leaving)) :
    ¬th.Owes t runId := by
  intro howes
  cases howes with
  | worker hphase hsettles =>
      obtain ⟨_, rfl⟩ := Prod.mk.inj (Option.some.inj (h.symm.trans hphase))
      cases hsettles
  | pass hpass => simp [pass?_of_phase? h] at hpass

/-- A statement without effect gives its thread nothing to settle. -/
theorem Rests.owes (h : th.Rests t th')
    (hfits : ∀ job p a, th.phase? = some (job, p) → t.attempt? job.attemptId = some a →
      p.Fits a.status) (howes : th'.Owes t runId) : th.Owes t runId := by
  cases howes with
  | @worker job p' a hphase hsettles hrun ha hresulted =>
      obtain ⟨p, hold, hp⟩ := h.job hphase
      refine .worker hold ?_ hrun ha hresulted
      cases hp with
      | stay => exact hsettles
      | fail =>
          have hfit := hfits job .working a hold ha
          rcases hfit with hstatus | hstatus <;> simp [hstatus, AttemptStatus.resulted] at hresulted
      | unsettled | refused => rfl
      | leave => cases hsettles
  | pass hpass howed =>
      rcases h.pass_cases hpass with ⟨reference, rfl⟩ | ⟨pass, now, gone, hold, rfl, hsame⟩
      · cases howed
      · rcases Pass.owed_step howed with hin | ⟨_, row, _, _, _, _, _, hlapsed, happly⟩
        · exact .pass hold hin
        · exact absurd (happly.symm.trans hsame) (lose_apply_ne hlapsed)

variable {d : Deployment} {tid : ThreadId} {ev : Event} {e : Effect}

/-- A statement with an effect gives its thread nothing to settle, unless it ends a
running attempt of the run. -/
theorem Acts.owes (hacts : th.Acts d tid t ev e th') (he : e.Enabled t) (hwf : WellFormed t)
    (hpending : NoPending t)
    (hjobs : ∀ job p, th.phase? = some (job, p) → job.Known t)
    (hfits : ∀ job p a, th.phase? = some (job, p) → t.attempt? job.attemptId = some a →
      p.Fits a.status)
    (hrows : ∀ pass, th.pass? = some pass → ∀ row ∈ pass.rows, row.Known t)
    (howes : th'.Owes (e.apply t) runId) :
    th.Owes t runId ∨ ∃ a, RunningIn t runId a ∧ e.Ends a := by
  cases howes with
  | @worker job p' a' hphase hsettles hrun ha' hresulted =>
      rcases hacts.job hphase with ⟨p, hold, hp⟩ | ⟨_, _, _, _, _, _, _, rfl, _⟩
      swap
      · cases hsettles
      obtain ⟨⟨a, ha, hstage, _⟩, ⟨s, hs, hsrun⟩, _⟩ := hjobs job p hold
      have hamem := Table.mem_of_get? ha
      have hid : a.attemptId = job.attemptId := Table.key_of_get? ha
      obtain rfl := Option.some.inj ((attempt?_apply e ha).symm.trans ha')
      have hends : (∃ status ending now, e = .finish job.attemptId status ending now) →
          ∃ a, RunningIn t runId a ∧ e.Ends a := by
        rintro ⟨status, ending, now, rfl⟩
        obtain ⟨row, hrow, hallowed⟩ := he
        obtain rfl := Option.some.inj (hrow.symm.trans ha)
        refine ⟨row, ⟨hamem, (attempt_transition_from_running (hpending row hamem) hallowed).1,
          s, Table.mem_of_get? hs, ?_, hsrun.trans hrun⟩, hid.symm⟩
        rw [hstage]
        exact Table.key_of_get? hs
      cases hp with
      | work hother hp' =>
          have hfit := hfits job .working a hold ha
          have hafter : (e.onAttempt a).status = .running ∨ (e.onAttempt a).status = .lost :=
            Phase.Fits.apply (p := .working) hwf hpending he hamem hfit (by rwa [hid])
          rcases hafter with hstatus | hstatus <;>
            simp [hstatus, AttemptStatus.resulted] at hresulted
      | finish => exact .inr (hends ⟨_, _, _, rfl⟩)
      | fail => exact .inr (hends ⟨_, _, _, rfl⟩)
      | leave => cases hsettles
  | pass hpass howed =>
      obtain ⟨pass, now, gone, hold, rfl, happly, hemits⟩ := hacts.pass_step hpass
      rcases Pass.owed_step howed with hin | ⟨reference, row, rows, ids, runIds, rfl, hrow, hlapsed, _⟩
      · exact .inl (.pass hold hin)
      · obtain ⟨a, ha, hmeets⟩ := List.countP_pos_iff.mp hlapsed
        obtain ⟨hid, hexpired⟩ : a.attemptId = row.attemptId ∧ a.expired reference = true := by
          simpa using hmeets
        obtain ⟨b, s, hb, hs, hsrun⟩ := hrows _ hold row List.mem_cons_self
        obtain rfl := hwf.attempt_eq hb ha hid
        refine .inr ⟨b, ⟨ha, running_of_expired hexpired, s, Table.mem_of_get? hs,
          Table.key_of_get? hs, hsrun.trans hrow⟩, ?_⟩
        cases hemits
        exact ⟨hid.symm, hexpired⟩

theorem owes_of_resulted {job : Job} {p : Phase} (hphase : th.phase? = some (job, p))
    (hsettles : p.settles = true) (hjob : job.Known t)
    (hresulted : ∀ a, t.attempt? job.attemptId = some a → a.status.resulted = true) :
    th.Owes t job.runId := by
  obtain ⟨⟨a, ha, _⟩, _, _⟩ := hjob
  exact .worker hphase hsettles rfl ha (hresulted a ha)

/-- Whoever frees a run had it to settle, and is done with it. -/
theorem Acts.frees (hacts : th.Acts d tid t ev e th') (he : e.Enabled t) (hpending : NoPending t)
    (hjobs : ∀ job p, th.phase? = some (job, p) → job.Known t)
    (hfits : ∀ job p a, th.phase? = some (job, p) → t.attempt? job.attemptId = some a →
      p.Fits a.status)
    (hdistinct : ∀ pass, th.pass? = some pass → pass.Distinct)
    (hguard : ∀ job r, th = .terminating job → ev = .next r →
      (t.runStatus? job.runId).any (runTransitionAllowed · .failed) = true →
      t.isLost job.attemptId = false)
    (hfrees : e.Frees runId) : th.Owes t runId ∧ ¬th'.Owes (e.apply t) runId := by
  cases hacts with
  | @reschedule job result r =>
      obtain rfl := hfrees
      refine ⟨owes_of_resulted rfl rfl (hjobs _ _ rfl) fun a ha ↦ ?_, not_owes_of_leaving rfl⟩
      have hfit := hfits job .settling a rfl ha
      rcases hfit with hstatus | hstatus <;> simp [hstatus, AttemptStatus.resulted]
  | @settle job result r =>
      obtain ⟨rfl, _⟩ := hfrees
      refine ⟨owes_of_resulted rfl rfl (hjobs _ _ rfl) fun a ha ↦ ?_, not_owes_of_leaving rfl⟩
      have hfit := hfits job .settling a rfl ha
      rcases hfit with hstatus | hstatus <;> simp [hstatus, AttemptStatus.resulted]
  | @terminate job r =>
      obtain ⟨rfl, _⟩ := hfrees
      refine ⟨owes_of_resulted rfl rfl (hjobs _ _ rfl) fun a ha ↦ ?_, not_owes_of_leaving rfl⟩
      have hnotRunning : a.status ≠ .running := hfits job .rechecking a rfl ha
      have hnotPending := hpending a (Table.mem_of_get? ha)
      have hnotLost : a.status ≠ .lost := by
        simpa [Tables.isLost, ha] using hguard job r rfl rfl (move_enabled_iff.mp he)
      cases hstatus : a.status <;> simp_all [AttemptStatus.resulted]
  | @pass p r e hemits happly =>
      cases hemits with
      | lose | release => cases hfrees
      | @reschedule ids runId' stageRunId runIds =>
          obtain rfl := hfrees
          refine ⟨.pass rfl List.mem_cons_self, ?_⟩
          have hnotin := (List.nodup_cons.mp (hdistinct _ rfl)).1
          rcases scheduleRetry_cases t runId' stageRunId resumeReason with ⟨hnot, _⟩ | hcommits
          · exact absurd he hnot
          · simp only [Pass.step, hcommits.exec, ofPass]
            intro howes
            cases howes with
            | worker hphase => cases hphase
            | pass hpass howed =>
                obtain rfl := Option.some.inj hpass
                exact hnotin howed
      | settle =>
          obtain ⟨_, htarget | htarget⟩ := hfrees <;> cases htarget
  | cancel | precancel | relay | drop => obtain ⟨_, htarget | htarget⟩ := hfrees <;> cases htarget
  | submit | retry | claim | attach | beat | finish | fail | abort | escape => cases hfrees

end Thread

/-! ## One statement -/

namespace World

variable {d : Deployment} {w w' : World} {l : ThreadId × Event} {e : Effect} {runId : RunId}

/-- What another thread owes after an effect it owed before. -/
theorem owes_of_other (hsound : w.Sound) (hstep : w.step d l = some w')
    (hacts : (w.threads l.1).Acts d l.1 w.tables l.2 e (w'.threads l.1))
    (he : e.Enabled w.tables) {tid : ThreadId} (htid : tid ≠ l.1)
    (howes : (w'.threads tid).Owes (e.apply w.tables) runId) :
    (w.threads tid).Owes w.tables runId := by
  rw [step_other hstep htid] at howes
  cases howes with
  | pass hpass howed => exact .pass hpass howed
  | @worker job p a' hphase hsettles hrun ha' hresulted =>
      obtain ⟨⟨a, ha, _⟩, _, _⟩ := hsound.jobs tid job p hphase
      obtain rfl := Option.some.inj ((attempt?_apply e ha).symm.trans ha')
      refine .worker hphase hsettles hrun ha ?_
      have hmoves := hsound.wellFormed.attemptMoves hsound.noPending he (Table.mem_of_get? ha)
      generalize (e.onAttempt a).status = status at hmoves hresulted
      cases hmoves with
      | keep => exact hresulted
      | finish =>
          obtain ⟨job', q, hphase', hid⟩ := hacts.holds
          exact absurd (hsound.owners tid l.1 job job' p q hphase hphase'
            ((Table.key_of_get? ha).symm.trans hid.symm)) htid
      | lose => cases hresulted

/-- An attempt that holds a run after an effect held it before, or has just been
claimed. -/
theorem holds_attempt_of_apply (hsound : w.Sound) (he : e.Enabled w.tables)
    (happly : w'.tables = e.apply w.tables) {attemptId : AttemptId}
    (h : w'.Holds runId (.inl attemptId)) :
    w.Holds runId (.inl attemptId) ∨
      ∃ stage c now, e = .claim stage c attemptId now ∧ stage.runId = runId := by
  obtain ⟨a', ha', rfl⟩ := h
  rw [happly] at ha'
  rcases ha'.of_apply hsound.wellFormed hsound.noPending he with
    ⟨a, ha, _, rfl⟩ | ⟨stage, c, attemptId, now, rfl, rfl, hrun⟩
  · exact .inl ⟨a, ha, (e.onAttempt_attemptId a).symm⟩
  · exact .inr ⟨stage, c, now, rfl, hrun⟩

/-- Threads schedule retries on the stage of their own run, so runs and stages
agree. -/
theorem agree_of_reachable {allowed : World → ThreadId × Event → Prop}
    (h : ReachableBy (World.step d) allowed {} w) : Paired (fun r s ↦ s = r) w.tables := by
  have hreach : ReachableBy Effect.step ReschedulesOwnStage {} w.tables := by
    refine World.lifecycle ?_ h
    rintro w ⟨tid, ev⟩ e th' hw _ hacts runId stageRunId reason rfl stage hstage
    have hsound : w.Sound := .of_reachable hw
    simp only at hacts
    generalize hth : w.threads tid = th at hacts
    cases hacts with
    | @reschedule job =>
        obtain ⟨_, ⟨s, hs, hrun⟩, _⟩ := hsound.jobs tid job .settling (by rw [hth]; rfl)
        rwa [Option.some.inj (hstage.symm.trans hs)]
    | pass hemits =>
        cases hemits with
        | reschedule =>
            obtain ⟨s, hs, hrun⟩ := hsound.ownStage tid _ (by rw [hth]; rfl)
            rwa [Option.some.inj (hstage.symm.trans hs)]
  exact (ChipEvolve.agree_of_reachable hreach).2

/-- A run whose stage can be claimed is free until then, and held afterwards. -/
theorem free_of_claim {t : Tables} (hwf : WellFormed t) (hagree : Paired (fun r s ↦ s = r) t)
    {stage : StageRow} {c : Claim} {attemptId : AttemptId} {now : Timestamp}
    (he : (Effect.claim stage c attemptId now).Enabled t) :
    Free t stage.runId ∧ ¬Free ((Effect.claim stage c attemptId now).apply t) stage.runId := by
  obtain ⟨hstage, hclaimable, _⟩ := he
  have hmem := Table.mem_of_get? hstage
  obtain ⟨r, hr⟩ := hwf.exists_run hmem
  have hkey : r.runId = stage.runId := Table.key_of_get? hr
  have hsame := hagree r (Table.mem_of_get? hr) stage hmem hkey.symm
  have hwaiting : r.status.waiting = true := waiting_of_claimable (hsame ▸ hclaimable)
  refine ⟨fun r' hr' ↦ ?_, fun hfree ↦ ?_⟩
  · obtain rfl := Option.some.inj (hr.symm.trans hr')
    exact .inl hwaiting
  · have hafter := hfree _ (run?_apply _ hr)
    simp only [Effect.onRun, hkey, hwaiting, decide_true, Bool.and_self, if_true] at hafter
    rcases hafter with hafter | hafter <;> cases hafter

namespace Excludes

theorem empty : World.Excludes {} where
  sound := .empty
  distinct _ _ h := by cases h
  exclusive := by
    refine ⟨fun {_ x _} hx ↦ ?_, fun {_ x} hx ↦ ?_⟩ <;>
    · cases x with
      | inl =>
          obtain ⟨_, hrunning, _⟩ := hx
          cases hrunning.1
      | inr => cases hx with
        | worker hphase => cases hphase
        | pass hpass => cases hpass

theorem exclusive_rest (h : w.Excludes) (hstep : w.step d l = some w')
    (hsame : w'.tables = w.tables)
    (hrests : (w.threads l.1).Rests w.tables (w'.threads l.1)) :
    Exclusive w'.Holds (Free w'.tables) := by
  refine h.exclusive.handover (.inr l.1) (fun k x hx ↦ .inl ?_) fun k hfree ↦ .inl ?_
  · cases x with
    | inl attemptId => simpa only [Holds, hsame] using hx
    | inr tid =>
        simp only [Holds, hsame] at hx ⊢
        by_cases htid : tid = l.1
        · subst htid
          exact hrests.owes (h.sound.fits l.1) hx
        · rwa [step_other hstep htid] at hx
  · rwa [hsame] at hfree

/-- A thread that moves with an effect other than a claim. -/
theorem exclusive_act (h : w.Excludes) (hstep : w.step d l = some w')
    (hguard : w.failsReclaimed l = false)
    (hacts : (w.threads l.1).Acts d l.1 w.tables l.2 e (w'.threads l.1))
    (he : e.Enabled w.tables) (happly : w'.tables = e.apply w.tables)
    (hclaim : ∀ stage c attemptId now, e ≠ .claim stage c attemptId now) :
    Exclusive w'.Holds (Free w'.tables) := by
  have hwf := h.sound.wellFormed
  have hpending := h.sound.noPending
  refine h.exclusive.handover (.inr l.1) (fun k x hx ↦ ?_) fun k hfree ↦ ?_
  · cases x with
    | inl attemptId =>
        rcases holds_attempt_of_apply h.sound he happly hx with hold | ⟨_, _, _, rfl, _⟩
        · exact .inl hold
        · exact absurd rfl (hclaim _ _ _ _)
    | inr tid =>
        simp only [Holds, happly] at hx
        by_cases htid : tid = l.1
        · subst htid
          rcases hacts.owes he hwf hpending (h.sound.jobs l.1) (h.sound.fits l.1) (h.sound.rows l.1)
            hx with hold | ⟨a, ha, hends⟩
          · exact .inl hold
          · refine .inr ⟨rfl, .inl a.attemptId, ⟨a, ha, rfl⟩, ?_⟩
            rintro ⟨a', ha', hid⟩
            rw [happly] at ha'
            exact hends.not_runningIn hwf hpending he ha.1 ha' hid
        · exact .inl (owes_of_other h.sound hstep hacts he htid hx)
  · rw [happly] at hfree
    rcases hfree.of_apply hwf he with hold | hfrees
    · exact .inl hold
    · refine .inr ?_
      simp only [Holds, happly]
      refine hacts.frees he hpending (h.sound.jobs l.1) (h.sound.fits l.1) (h.distinct l.1) ?_ hfrees
      intro job r hth hev hallowed
      simpa [failsReclaimed, hth, hev, hallowed] using hguard

/-- A claim finds the run free and holds it. -/
theorem exclusive_claim (h : w.Excludes) (hagree : Paired (fun r s ↦ s = r) w.tables)
    (hstep : w.step d l = some w') {stage : StageRow} {c : Claim} {attemptId : AttemptId}
    {now : Timestamp}
    (hacts : (w.threads l.1).Acts d l.1 w.tables l.2 (.claim stage c attemptId now)
      (w'.threads l.1))
    (he : (Effect.claim stage c attemptId now).Enabled w.tables)
    (happly : w'.tables = (Effect.claim stage c attemptId now).apply w.tables) :
    Exclusive w'.Holds (Free w'.tables) := by
  have hwf := h.sound.wellFormed
  have hpending := h.sound.noPending
  obtain ⟨hfree, hheld⟩ := free_of_claim hwf hagree he
  refine h.exclusive.enter (.inl attemptId) hfree (fun k x hx ↦ ?_) fun k hfree' ↦ ?_
  · cases x with
    | inl attemptId' =>
        rcases holds_attempt_of_apply h.sound he happly hx with hold | ⟨_, _, _, heq, hrun⟩
        · exact .inl hold
        · cases heq
          exact .inr ⟨hrun.symm, rfl⟩
    | inr tid =>
        refine .inl ?_
        simp only [Holds, happly] at hx
        by_cases htid : tid = l.1
        · subst htid
          rcases hacts.owes he hwf hpending (h.sound.jobs l.1) (h.sound.fits l.1) (h.sound.rows l.1)
            hx with hold | ⟨a, _, hends⟩
          · exact hold
          · cases hends
        · exact owes_of_other h.sound hstep hacts he htid hx
  · rw [happly] at hfree'
    refine ⟨?_, fun hk ↦ hheld (hk ▸ hfree')⟩
    rcases hfree'.of_apply hwf he with hold | hfrees
    · exact hold
    · cases hfrees

theorem step (h : w.Excludes) (hagree : Paired (fun r s ↦ s = r) w.tables)
    (hstep : w.step d l = some w') (hguard : w.failsReclaimed l = false) : w'.Excludes := by
  refine ⟨h.sound.step hstep, ?_, ?_⟩
  · intro tid pass' hpass'
    by_cases htid : tid = l.1
    · subst htid
      rcases step_turn hstep with ⟨_, hrests⟩ | ⟨e, hacts, _, _⟩
      · rcases hrests.pass_cases hpass' with ⟨reference, rfl⟩ | ⟨pass, now, gone, hold, rfl, _⟩
        · trivial
        · exact (h.distinct l.1 pass hold).step
      · obtain ⟨pass, now, gone, hold, rfl, _⟩ := hacts.pass_step hpass'
        exact (h.distinct l.1 pass hold).step
    · rw [step_other hstep htid] at hpass'
      exact h.distinct tid pass' hpass'
  · rcases step_turn hstep with ⟨hsame, hrests⟩ | ⟨e, hacts, he, happly⟩
    · exact h.exclusive_rest hstep hsame hrests
    · cases e with
      | claim stage c attemptId now => exact h.exclusive_claim hagree hstep hacts he happly
      | _ => exact h.exclusive_act hstep hguard hacts he happly (by simp)

theorem of_reachable (h : ReachableBy (World.step d) (fun w l ↦ w.failsReclaimed l = false) {} w) :
    w.Excludes := by
  induction h with
  | init => exact empty
  | next hs hguard hstep ih => exact ih.step (agree_of_reachable hs) hstep hguard

end Excludes

end World

/-! ## Over a whole history -/

/-- Every stage has at most one running attempt. -/
def OneRunning (t : Tables) : Prop :=
  ∀ s ∈ t.stages, ((t.attemptsOf s.stageRunId).countP fun a ↦ a.status = .running) ≤ 1

theorem World.Excludes.oneRunning {w : World} (h : w.Excludes) : OneRunning w.tables := by
  intro s hs
  rw [Tables.attemptsOf, List.countP_filter]
  refine h.sound.wellFormed.attemptIds.countP_le_one ?_
  intro a ha b hb hpa hpb
  obtain ⟨haRunning, haStage⟩ : a.status = .running ∧ a.stageRunId = s.stageRunId := by
    simpa using hpa
  obtain ⟨hbRunning, hbStage⟩ : b.status = .running ∧ b.stageRunId = s.stageRunId := by
    simpa using hpb
  have haHolds : w.Holds s.runId (.inl a.attemptId) :=
    ⟨a, ⟨ha, haRunning, s, hs, haStage.symm, rfl⟩, rfl⟩
  have hbHolds : w.Holds s.runId (.inl b.attemptId) :=
    ⟨b, ⟨hb, hbRunning, s, hs, hbStage.symm, rfl⟩, rfl⟩
  exact Sum.inl.inj (h.exclusive.unique haHolds hbHolds)

/-- In a history without a worker that fails the run of an attempt it has lost, no
stage ever has two running attempts. -/
theorem attempts_exclude_each_other (d : Deployment) (history : List (ThreadId × Event))
    (hnone : ∀ w l w', Takes (World.step d) {} history w l w' → w.failsReclaimed l = false)
    (w : World) (hw : Visits (World.step d) {} history w) : OneRunning w.tables :=
  (World.Excludes.of_reachable (hw.reachableBy hnone)).oneRunning

/-- Worker 0 loses its lease and a reclaim pass puts the run back for worker 2. -/
def Sample.resumed : List (ThreadId × Event) :=
  [(9, .submit (Sample.submission 3))] ++ Sample.starts 0 "a1" 0 ++ Sample.reclaims 1 5 2000000 ++
    Sample.starts 2 "a2" 2000000

theorem attempts_exclude_each_other_resumed :
    (run (World.step Sample.deployment) {} Sample.resumed).isSome = true ∧
      ∀ w, Visits (World.step Sample.deployment) {} Sample.resumed w → OneRunning w.tables := by
  refine ⟨by decide +kernel, attempts_exclude_each_other Sample.deployment Sample.resumed ?_⟩
  have hnone : allSteps (World.step Sample.deployment) (fun w l ↦ !w.failsReclaimed l) {}
      Sample.resumed = true := by decide +kernel
  intro w l w' htakes
  simpa using htakes.of_allSteps hnone

/-- The pass stops after it has marked the attempt of worker 0, worker 0 fails the
run, a user asks for a retry that worker 2 takes, and only then the pass puts the
run back, for worker 3. -/
def Sample.doubled (maxAttempts : Int) : List (ThreadId × Event) :=
  [(9, .submit (Sample.submission maxAttempts))] ++ Sample.starts 0 "a1" 0 ++
    Sample.reclaims 1 4 2000000 ++ [(0, .beat 2100000)] ++ Sample.goesOn 0 3 2100000 ++
    [(8, .retry "run" "user" "again" "event" 2200000)] ++ Sample.starts 2 "a2" 2300000 ++
    Sample.goesOn 1 1 2400000 ++ Sample.starts 3 "a3" 2400000

theorem two_attempts_running :
    ¬∀ (d : Deployment) (history : List (ThreadId × Event)) w,
      Visits (World.step d) {} history w → OneRunning w.tables := by
  intro hclaim
  have hends : (run (World.step Sample.deployment) {} (Sample.doubled 3)).any (fun w ↦
      w.tables.stages.any fun s ↦
        ((w.tables.attemptsOf s.stageRunId).countP fun a ↦ a.status = .running) = 2) = true := by
    decide +kernel
  obtain ⟨w, hw, htwo⟩ := Visits.of_any hends
  obtain ⟨s, hs, hcount⟩ : ∃ s ∈ w.tables.stages,
      ((w.tables.attemptsOf s.stageRunId).countP fun a ↦ a.status = .running) = 2 := by
    simpa using htwo
  have hone := hclaim Sample.deployment _ w hw s hs
  omega

end ChipEvolve
