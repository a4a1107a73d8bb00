import ChipEvolve.Worker.Turns
import ChipEvolve.Store.Agreement

/-!
# What the threads know

A thread that holds an attempt knows its row, its stage and its run, no two
threads hold the same attempt, and how far the thread is says which statuses
the attempt can have: only the thread itself ends it, or a reclaim pass marks it
`lost`.
-/

namespace ChipEvolve

open Machine

/-- The row of the attempt, and the stage and the run it belongs to. -/
structure Job.Known (t : Tables) (job : Job) : Prop where
  attempt : ∃ a, t.attempt? job.attemptId = some a ∧ a.stageRunId = job.stage.stageRunId ∧
    a.attemptNumber = job.attempt.attemptNumber
  stage : ∃ s, t.stage? job.stage.stageRunId = some s ∧ s.runId = job.runId
  run : ∃ r, t.run? job.runId = some r ∧ r.taskSpec = job.run.taskSpec

/-- The statuses an attempt can have in each phase. -/
def Phase.Fits : Phase → AttemptStatus → Prop
  | working, status => status = .running ∨ status = .lost
  | settling, status => status = .succeeded ∨ status = .failed
  | rechecking, status => status ≠ .running
  | _, _ => True

def ExpiredAttempt.Known (t : Tables) (row : ExpiredAttempt) : Prop :=
  ∃ a s, t.attempt? row.attemptId = some a ∧ t.stage? a.stageRunId = some s ∧ s.runId = row.runId

/-- The rows a pass has still to look at. -/
def Pass.rows : Pass → List ExpiredAttempt
  | fencing _ rows _ _ => rows
  | releasing _ _ rows _ _ => rows
  | _ => []

/-- What holds of all threads together. -/
structure World.Sound (w : World) : Prop where
  wellFormed : WellFormed w.tables
  noPending : NoPending w.tables
  known : ∀ tid, (w.threads tid).Known w.tables
  jobs : ∀ tid job p, (w.threads tid).phase? = some (job, p) → job.Known w.tables
  fits : ∀ tid job p a, (w.threads tid).phase? = some (job, p) →
    w.tables.attempt? job.attemptId = some a → p.Fits a.status
  owners : ∀ tid tid' job job' p p', (w.threads tid).phase? = some (job, p) →
    (w.threads tid').phase? = some (job', p') → job.attemptId = job'.attemptId → tid = tid'
  rows : ∀ tid pass, (w.threads tid).pass? = some pass → ∀ row ∈ pass.rows, row.Known w.tables
  ownStage : ∀ tid pass, (w.threads tid).pass? = some pass → pass.OwnStage w.tables

/-! ## Effects of other threads -/

section Stable

variable {t : Tables} (e : Effect)

theorem Thread.Known.apply {th : Thread} (h : th.Known t) : th.Known (e.apply t) := by
  cases th with
  | staging run =>
      obtain ⟨r, hr, hspec⟩ := h
      exact ⟨_, run?_apply e hr, by simpa using hspec⟩
  | resolving run stage | claiming run stage =>
      obtain ⟨⟨r, hr, hspec⟩, s, hs, hrun⟩ := h
      exact ⟨⟨_, run?_apply e hr, by simpa using hspec⟩, _, stage?_apply e hs, by simpa using hrun⟩
  | _ => trivial

theorem Job.Known.apply {job : Job} (h : job.Known t) : job.Known (e.apply t) := by
  obtain ⟨⟨a, ha, hstage, hnumber⟩, ⟨s, hs, hrun⟩, r, hr, hspec⟩ := h
  exact ⟨⟨_, attempt?_apply e ha, by simpa using hstage, by simpa using hnumber⟩,
    ⟨_, stage?_apply e hs, by simpa using hrun⟩, _, run?_apply e hr, by simpa using hspec⟩

theorem ExpiredAttempt.Known.apply {row : ExpiredAttempt} (h : row.Known t) :
    row.Known (e.apply t) := by
  obtain ⟨a, s, ha, hs, hrun⟩ := h
  exact ⟨_, _, attempt?_apply e ha, by simpa using stage?_apply e hs, by simpa using hrun⟩

theorem Pass.OwnStage.apply {pass : Pass} (h : pass.OwnStage t) : pass.OwnStage (e.apply t) :=
  Client.OwnStage.apply (c := .reclaiming pass) h e

end Stable

/-- Only the end of the attempt itself takes its status out of a phase. -/
theorem Phase.Fits.apply {t : Tables} (hwf : WellFormed t) (hpending : NoPending t) {e : Effect}
    (he : e.Enabled t) {a : AttemptRow} (ha : a ∈ t.attempts) {p : Phase} (h : p.Fits a.status)
    (hother : ∀ status ending now, e ≠ .finish a.attemptId status ending now) :
    p.Fits (e.onAttempt a).status := by
  have hmoves := hwf.attemptMoves hpending he ha
  generalize (e.onAttempt a).status = status at hmoves
  cases hmoves with
  | keep => exact h
  | finish => exact absurd rfl (hother _ _ _)
  | lose hexpired =>
      have hrunning := running_of_expired hexpired
      cases p with
      | working => exact .inr rfl
      | settling => simp [Phase.Fits, hrunning] at h
      | rechecking => simp [Phase.Fits]
      | failing | leaving => trivial

/-! ## The thread that moves -/

theorem Thread.phase?_ofPass (pass : Pass) : (Thread.ofPass pass).phase? = none := by
  cases pass <;> rfl

theorem Thread.known_ofPass (t : Tables) (pass : Pass) : (Thread.ofPass pass).Known t := by
  cases pass <;> trivial

theorem Thread.pass?_ofPass {pass pass' : Pass} (h : (Thread.ofPass pass).pass? = some pass') :
    pass' = pass := by
  cases pass <;> simp_all [Thread.ofPass, Thread.pass?]

theorem Thread.pass?_of_phase? {th : Thread} {held : Job × Phase} (h : th.phase? = some held) :
    th.pass? = none := by
  cases th <;> first | rfl | cases h

theorem Pass.rows_step (now : Timestamp) (gone : Bool) (t : Tables) (p : Pass) :
    ∀ row ∈ (p.step now gone t).1.rows, row ∈ p.rows := by
  intro row hrow
  cases p with
  | fencing reference rows ids runIds =>
      cases rows with
      | nil => cases hrow
      | cons first rows =>
          simp only [step] at hrow
          split at hrow
          · split at hrow
            · exact List.mem_cons_of_mem _ hrow
            · exact List.mem_cons_of_mem _ hrow
            · cases hrow
          · exact List.mem_cons_of_mem _ hrow
  | releasing => exact hrow
  | settling ids runIds =>
      cases runIds with
      | nil => cases hrow
      | cons runId runIds =>
          simp only [step] at hrow
          split at hrow <;> cases hrow
  | rescheduling | losing =>
      simp only [step] at hrow
      split at hrow
      · cases hrow
      · split at hrow <;> cases hrow
  | returned | raised => cases hrow

theorem Pass.start_known {t : Tables} (hwf : WellFormed t) (reference : Timestamp) :
    ∀ row ∈ (Pass.start reference t).rows, row.Known t := by
  intro row hrow
  obtain ⟨a, ha, hsome⟩ := List.mem_filterMap.mp hrow
  obtain ⟨s, hs, rfl⟩ := Option.map_eq_some_iff.mp hsome
  exact ⟨a, s, hwf.attempt?_of_mem (List.mem_filter.mp ha).1, hs, rfl⟩

theorem Thread.Rests.job {t : Tables} {th th' : Thread} (h : th.Rests t th') {job : Job}
    {p' : Phase} (hjob : th'.phase? = some (job, p')) :
    ∃ p, th.phase? = some (job, p) ∧ p.Rests t job p' := by
  cases h with
  | outside _ h' => simp [h'] at hjob
  | start | pass => simp [phase?_ofPass] at hjob
  | phase h h' hp =>
      obtain ⟨rfl, rfl⟩ := Prod.mk.inj (Option.some.inj (h'.symm.trans hjob))
      exact ⟨_, h, hp⟩
  | leave => cases hjob

theorem Thread.Rests.known {t : Tables} (hwf : WellFormed t) {th th' : Thread}
    (h : th.Rests t th') (hknown : th.Known t) : th'.Known t := by
  cases h with
  | outside _ _ _ hnext => exact hnext hwf hknown
  | start | pass => exact known_ofPass t _
  | phase _ h' => cases th' <;> trivial
  | leave => trivial

/-- A pass after a statement without effect: it just started, or went on. -/
theorem Thread.Rests.pass_cases {t : Tables} {th th' : Thread} (h : th.Rests t th') {pass' : Pass}
    (hpass : th'.pass? = some pass') :
    (∃ reference, pass' = Pass.start reference t) ∨
      ∃ pass now gone, th.pass? = some pass ∧ pass' = (pass.step now gone t).1 ∧
        (pass.step now gone t).2 = t := by
  cases h with
  | outside _ _ hnone => simp [hnone] at hpass
  | start => exact .inl ⟨_, pass?_ofPass hpass⟩
  | pass hsame => exact .inr ⟨_, _, _, rfl, pass?_ofPass hpass, hsame⟩
  | phase _ h' => simp [pass?_of_phase? h'] at hpass
  | leave => cases hpass

/-- How a thread with an attempt moves with an effect. -/
inductive Phase.Acts (job : Job) : Phase → Effect → Phase → Prop
  | work {e p'} (hother : ∀ status ending now, e ≠ .finish job.attemptId status ending now)
      (h : p' = .working ∨ p' = .failing) : Acts job .working e p'
  | finish {status ending now} (h : status = .succeeded ∨ status = .failed) :
      Acts job .working (.finish job.attemptId status ending now) .settling
  | fail {ending now} : Acts job .failing (.finish job.attemptId .failed ending now) .rechecking
  | leave {p e} : Acts job p e .leaving

theorem attemptStatus_cases (status : RuntimeStatus) :
    attemptStatus status = .succeeded ∨ attemptStatus status = .failed := by
  cases status <;> first | exact .inl rfl | exact .inr rfl

theorem Thread.Acts.job {d : Deployment} {tid : ThreadId} {t : Tables} {th th' : Thread}
    {ev : Event} {e : Effect} (h : th.Acts d tid t ev e th') {job : Job} {p' : Phase}
    (hjob : th'.phase? = some (job, p')) :
    (∃ p, th.phase? = some (job, p) ∧ p.Acts job e p') ∨
      ∃ stage c attemptId now, e = .claim stage c attemptId now ∧
        job.attempt = t.nextAttempt stage c attemptId now ∧
        stage.stageRunId = job.stage.stageRunId ∧ p' = .working ∧
        ∃ workspace, th = .claiming job.run job.stage workspace := by
  cases h with
  | submit | retry | cancel | precancel | abort | escape | drop => cases hjob
  | pass => simp [phase?_ofPass] at hjob
  | claim hstage =>
      obtain ⟨rfl, rfl⟩ := Prod.mk.inj (Option.some.inj hjob)
      exact .inr ⟨_, _, _, _, rfl, rfl, hstage, rfl, _, rfl⟩
  | attach h | beat h =>
      refine .inl ⟨.working, ?_⟩
      rcases h with rfl | ⟨message, rfl⟩
      · obtain ⟨rfl, rfl⟩ := Prod.mk.inj (Option.some.inj hjob)
        exact ⟨rfl, .work (by simp) (.inl rfl)⟩
      · obtain ⟨rfl, rfl⟩ := Prod.mk.inj (Option.some.inj hjob)
        exact ⟨rfl, .work (by simp) (.inr rfl)⟩
  | relay =>
      obtain ⟨rfl, rfl⟩ := Prod.mk.inj (Option.some.inj hjob)
      exact .inl ⟨.working, rfl, .work (by simp) (.inl rfl)⟩
  | finish =>
      obtain ⟨rfl, rfl⟩ := Prod.mk.inj (Option.some.inj hjob)
      exact .inl ⟨.working, rfl, .finish (attemptStatus_cases _)⟩
  | reschedule | settle | terminate =>
      obtain ⟨rfl, rfl⟩ := Prod.mk.inj (Option.some.inj hjob)
      exact .inl ⟨_, rfl, .leave⟩
  | fail =>
      obtain ⟨rfl, rfl⟩ := Prod.mk.inj (Option.some.inj hjob)
      exact .inl ⟨.failing, rfl, .fail⟩

/-- Only the thread that holds an attempt finishes it. -/
theorem Thread.Acts.holds {d : Deployment} {tid : ThreadId} {t : Tables} {th th' : Thread}
    {ev : Event} {attemptId : AttemptId} {status : AttemptStatus} {ending : Ending}
    {now : Timestamp} (h : th.Acts d tid t ev (.finish attemptId status ending now) th') :
    ∃ job p, th.phase? = some (job, p) ∧ job.attemptId = attemptId := by
  cases h with
  | finish => exact ⟨_, _, rfl, rfl⟩
  | fail => exact ⟨_, _, rfl, rfl⟩
  | pass hemits => cases hemits

/-- A thread moves a run only to a terminal status, or requests its cancellation. -/
theorem Thread.Acts.move_closed {d : Deployment} {tid : ThreadId} {t : Tables}
    {th th' : Thread} {ev : Event} {runId : RunId} {target : RuntimeStatus}
    {reason : Option String} {now : Timestamp}
    (h : th.Acts d tid t ev (.move runId target reason now) th') : target.closed = true := by
  cases h with
  | cancel | precancel | relay | terminate | drop => rfl
  | @settle _ result =>
      rcases result.statusValid with hstatus | hstatus | hstatus | hstatus <;> rw [hstatus] <;> rfl
  | pass hemits =>
      cases hemits
      rfl

theorem Thread.Acts.pass_step {d : Deployment} {tid : ThreadId} {t : Tables} {th th' : Thread}
    {ev : Event} {e : Effect} (h : th.Acts d tid t ev e th') {pass' : Pass}
    (hpass : th'.pass? = some pass') :
    ∃ pass now gone, th.pass? = some pass ∧ pass' = (pass.step now gone t).1 ∧
      (pass.step now gone t).2 = e.apply t ∧ pass.Emits now gone e := by
  cases h with
  | pass hemits happly => exact ⟨_, _, _, rfl, pass?_ofPass hpass, happly, hemits⟩
  | attach h | beat h => rcases h with rfl | ⟨_, rfl⟩ <;> cases hpass
  | _ => cases hpass

theorem Thread.Acts.known {d : Deployment} {tid : ThreadId} {t : Tables} {th th' : Thread}
    {ev : Event} {e : Effect} (h : th.Acts d tid t ev e th') (t' : Tables) : th'.Known t' := by
  cases h with
  | pass => exact known_ofPass t' _
  | attach h | beat h => rcases h with rfl | ⟨_, rfl⟩ <;> trivial
  | _ => trivial

/-! ## Every world is sound -/

namespace World.Sound

variable {d : Deployment} {w w' : World} {l : ThreadId × Event}

theorem empty : World.Sound {} where
  wellFormed := WellFormed.empty
  noPending := by simp [NoPending]
  known _ := trivial
  jobs _ _ _ h := by cases h
  fits _ _ _ _ h := by cases h
  owners _ _ _ _ _ _ h := by cases h
  rows _ _ h := by cases h
  ownStage _ _ h := by cases h

theorem fits_of_rests {t : Tables} {job : Job} {p p' : Phase} {a : AttemptRow}
    (h : p.Rests t job p') (ha : t.attempt? job.attemptId = some a) (hfits : p.Fits a.status) :
    p'.Fits a.status := by
  cases h with
  | stay => exact hfits
  | fail | unsettled | leave => trivial
  | refused hrefused => exact hrefused a ha

/-- A statement without effect keeps everything the threads know. -/
theorem rest (h : w.Sound) (hstep : w.step d l = some w') (hsame : w'.tables = w.tables)
    (hrests : (w.threads l.1).Rests w.tables (w'.threads l.1)) : w'.Sound := by
  have hphase : ∀ tid job p', (w'.threads tid).phase? = some (job, p') →
      ∃ p, (w.threads tid).phase? = some (job, p) ∧ p.Rests w.tables job p' := by
    intro tid job p' hjob
    by_cases htid : tid = l.1
    · subst htid
      exact hrests.job hjob
    · rw [step_other hstep htid] at hjob
      exact ⟨p', hjob, .stay⟩
  have hpass : ∀ tid pass', (w'.threads tid).pass? = some pass' →
      (w.threads tid).pass? = some pass' ∨ (∃ reference, pass' = Pass.start reference w.tables) ∨
        ∃ pass now gone, (w.threads tid).pass? = some pass ∧
          pass' = (pass.step now gone w.tables).1 ∧ (pass.step now gone w.tables).2 = w.tables := by
    intro tid pass' hpass'
    by_cases htid : tid = l.1
    · subst htid
      exact .inr (hrests.pass_cases hpass')
    · rw [step_other hstep htid] at hpass'
      exact .inl hpass'
  refine ⟨?_, ?_, ?_, ?_, ?_, ?_, ?_, ?_⟩
  · rw [hsame]
    exact h.wellFormed
  · rw [hsame]
    exact h.noPending
  · intro tid
    rw [hsame]
    by_cases htid : tid = l.1
    · subst htid
      exact hrests.known h.wellFormed (h.known l.1)
    · rw [step_other hstep htid]
      exact h.known tid
  · intro tid job p' hjob
    obtain ⟨p, hold, _⟩ := hphase tid job p' hjob
    rw [hsame]
    exact h.jobs tid job p hold
  · intro tid job p' a hjob ha
    obtain ⟨p, hold, hp⟩ := hphase tid job p' hjob
    rw [hsame] at ha
    exact fits_of_rests hp ha (h.fits tid job p a hold ha)
  · intro tid tid' job job' p p' hjob hjob' heq
    obtain ⟨q, hold, _⟩ := hphase tid job p hjob
    obtain ⟨q', hold', _⟩ := hphase tid' job' p' hjob'
    exact h.owners tid tid' job job' q q' hold hold' heq
  · intro tid pass' hpass' row hrow
    rw [hsame]
    rcases hpass tid pass' hpass' with hold | ⟨reference, rfl⟩ | ⟨pass, now, gone, hold, rfl, _⟩
    · exact h.rows tid pass' hold row hrow
    · exact Pass.start_known h.wellFormed reference row hrow
    · exact h.rows tid pass hold row (Pass.rows_step now gone w.tables pass row hrow)
  · intro tid pass' hpass'
    rw [hsame]
    rcases hpass tid pass' hpass' with hold | ⟨reference, rfl⟩ | ⟨pass, now, gone, hold, rfl, htables⟩
    · exact h.ownStage tid pass' hold
    · trivial
    · have hown := pass.ownStage_step h.wellFormed now gone
      rwa [htables] at hown

/-- The attempt a claim adds is the one its thread holds. -/
theorem attempt?_claimed {t : Tables} (hwf : WellFormed t) {stage : StageRow} {c : Claim}
    {attemptId : AttemptId} {now : Timestamp}
    (he : (Effect.claim stage c attemptId now).Enabled t) :
    ((Effect.claim stage c attemptId now).apply t).attempt? attemptId =
      some (t.nextAttempt stage c attemptId now) := by
  have hmem : t.nextAttempt stage c attemptId now ∈
      ((Effect.claim stage c attemptId now).apply t).attempts := by
    rw [Effect.attempts_apply]
    exact List.mem_append_right _ (List.mem_singleton_self _)
  exact (hwf.apply he).attempt?_of_mem hmem

variable {e : Effect}

/-- Where the attempts the threads hold after an effect come from. -/
theorem held_cases (hstep : w.step d l = some w')
    (hacts : (w.threads l.1).Acts d l.1 w.tables l.2 e (w'.threads l.1)) {tid : ThreadId}
    {job : Job} {p' : Phase} (hjob : (w'.threads tid).phase? = some (job, p')) :
    (tid ≠ l.1 ∧ (w.threads tid).phase? = some (job, p')) ∨
      (tid = l.1 ∧ ∃ p, (w.threads tid).phase? = some (job, p) ∧ p.Acts job e p') ∨
      (tid = l.1 ∧ ∃ stage c attemptId now, e = .claim stage c attemptId now ∧
        job.attempt = w.tables.nextAttempt stage c attemptId now ∧
        stage.stageRunId = job.stage.stageRunId ∧ p' = .working ∧
        ∃ workspace, w.threads tid = .claiming job.run job.stage workspace) := by
  by_cases htid : tid = l.1
  · subst htid
    rcases hacts.job hjob with hold | hclaim
    · exact .inr (.inl ⟨rfl, hold⟩)
    · exact .inr (.inr ⟨rfl, hclaim⟩)
  · rw [step_other hstep htid] at hjob
    exact .inl ⟨htid, hjob⟩

theorem fits_of_acts (hwf : WellFormed w.tables) (hpending : NoPending w.tables)
    (he : e.Enabled w.tables) {job : Job} {p p' : Phase} (h : p.Acts job e p') {a : AttemptRow}
    (ha : a ∈ w.tables.attempts) (hid : a.attemptId = job.attemptId) (hfits : p.Fits a.status) :
    p'.Fits (e.onAttempt a).status := by
  cases h with
  | work hother hp' =>
      rcases hp' with rfl | rfl
      · exact hfits.apply hwf hpending he ha (by rwa [hid])
      · trivial
  | finish hstatus => simpa [Effect.onAttempt, hid, AttemptRow.finished, Phase.Fits] using hstatus
  | fail => simp [Effect.onAttempt, hid, AttemptRow.finished, Phase.Fits]
  | leave => trivial

/-- A statement with an effect keeps everything the threads know. -/
theorem act (h : w.Sound) (hstep : w.step d l = some w')
    (hacts : (w.threads l.1).Acts d l.1 w.tables l.2 e (w'.threads l.1))
    (he : e.Enabled w.tables) (happly : w'.tables = e.apply w.tables) : w'.Sound := by
  have hold : ∀ tid job p', (w'.threads tid).phase? = some (job, p') →
      (∃ p, (w.threads tid).phase? = some (job, p)) ∨
        tid = l.1 ∧ w.tables.attempt? job.attemptId = none := by
    intro tid job p' hjob
    rcases held_cases hstep hacts hjob with
      ⟨_, hother⟩ | ⟨_, p, hown, _⟩ | ⟨htid, stage, c, attemptId, now, rfl, hattempt, _⟩
    · exact .inl ⟨p', hother⟩
    · exact .inl ⟨p, hown⟩
    · refine .inr ⟨htid, ?_⟩
      rw [Job.attemptId, hattempt]
      exact attempt?_fresh he
  refine ⟨?_, ?_, ?_, ?_, ?_, ?_, ?_, ?_⟩
  · rw [happly]
    exact h.wellFormed.apply he
  · rw [happly]
    exact h.noPending.apply h.wellFormed he
  · intro tid
    by_cases htid : tid = l.1
    · subst htid
      exact hacts.known _
    · rw [step_other hstep htid, happly]
      exact (h.known tid).apply e
  · intro tid job p' hjob
    rw [happly]
    rcases held_cases hstep hacts hjob with
      ⟨_, hother⟩ | ⟨_, p, hown, _⟩ |
        ⟨htid, stage, c, attemptId, now, rfl, hattempt, hstage, _, workspace, hclaiming⟩
    · exact (h.jobs tid job p' hother).apply e
    · exact (h.jobs tid job p hown).apply e
    · have hknown := h.known tid
      rw [hclaiming] at hknown
      obtain ⟨⟨r, hr, hspec⟩, s, hs, hrun⟩ := hknown
      have hclaimed := attempt?_claimed h.wellFormed he
      rw [← hattempt] at hclaimed
      have hid : job.attemptId = attemptId := by rw [Job.attemptId, hattempt]; rfl
      refine ⟨⟨job.attempt, by rw [hid]; exact hclaimed, ?_, rfl⟩, ⟨_, stage?_apply _ hs, ?_⟩, _,
        run?_apply _ hr, by simpa using hspec⟩
      · rw [hattempt]
        exact hstage
      · rw [Effect.onStage_runId]
        exact hrun
  · intro tid job p' a' hjob ha'
    rw [happly] at ha'
    rcases held_cases hstep hacts hjob with
      ⟨htid, hother⟩ | ⟨_, p, hown, hp⟩ | ⟨_, stage, c, attemptId, now, rfl, hattempt, _, rfl, _⟩
    · obtain ⟨⟨a, ha, _⟩, _, _⟩ := h.jobs tid job p' hother
      obtain rfl := Option.some.inj ((attempt?_apply e ha).symm.trans ha')
      have hid : a.attemptId = job.attemptId := Table.key_of_get? ha
      refine (h.fits tid job p' a hother ha).apply h.wellFormed h.noPending he
        (Table.mem_of_get? ha) ?_
      rintro status ending now rfl
      obtain ⟨job', q, hjob', hid'⟩ := hacts.holds
      exact htid (h.owners tid l.1 job job' p' q hother hjob' (hid.symm.trans hid'.symm))
    · obtain ⟨⟨a, ha, _⟩, _, _⟩ := h.jobs tid job p hown
      obtain rfl := Option.some.inj ((attempt?_apply e ha).symm.trans ha')
      exact fits_of_acts h.wellFormed h.noPending he hp (Table.mem_of_get? ha)
        (Table.key_of_get? ha) (h.fits tid job p a hown ha)
    · rw [Job.attemptId, hattempt] at ha'
      obtain rfl := Option.some.inj ((attempt?_claimed h.wellFormed he).symm.trans ha')
      exact .inl rfl
  · intro tid tid' job job' p p' hjob hjob' heq
    rcases hold tid job p hjob with ⟨q, hq⟩ | ⟨htid, hnone⟩ <;>
      rcases hold tid' job' p' hjob' with ⟨q', hq'⟩ | ⟨htid', hnone'⟩
    · exact h.owners tid tid' job job' q q' hq hq' heq
    · obtain ⟨⟨a, ha, _⟩, _, _⟩ := h.jobs tid job q hq
      rw [heq, hnone'] at ha
      cases ha
    · obtain ⟨⟨a, ha, _⟩, _, _⟩ := h.jobs tid' job' q' hq'
      rw [← heq, hnone] at ha
      cases ha
    · exact htid.trans htid'.symm
  · intro tid pass' hpass' row hrow
    rw [happly]
    by_cases htid : tid = l.1
    · subst htid
      obtain ⟨pass, now, gone, hpass, rfl, _, _⟩ := hacts.pass_step hpass'
      exact (h.rows l.1 pass hpass row (Pass.rows_step now gone w.tables pass row hrow)).apply e
    · rw [step_other hstep htid] at hpass'
      exact (h.rows tid pass' hpass' row hrow).apply e
  · intro tid pass' hpass'
    rw [happly]
    by_cases htid : tid = l.1
    · subst htid
      obtain ⟨pass, now, gone, hpass, rfl, htables, _⟩ := hacts.pass_step hpass'
      have hown := pass.ownStage_step h.wellFormed now gone
      rwa [htables] at hown
    · rw [step_other hstep htid] at hpass'
      exact (h.ownStage tid pass' hpass').apply e

theorem step (h : w.Sound) (hstep : w.step d l = some w') : w'.Sound := by
  rcases step_turn hstep with ⟨hsame, hrests⟩ | ⟨e, hacts, he, happly⟩
  · exact h.rest hstep hsame hrests
  · exact h.act hstep hacts he happly

/-- Every reachable world is sound. -/
theorem of_reachable {allowed : World → ThreadId × Event → Prop}
    (h : ReachableBy (World.step d) allowed {} w) : w.Sound :=
  h.invariant empty fun _ _ _ hw _ hstep ↦ hw.step hstep

end World.Sound

end ChipEvolve
