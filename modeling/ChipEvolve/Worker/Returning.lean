import ChipEvolve.Worker.Serving

/-!
# What a worker that has returned leaves

`serve_forever` waits for its pool, so the attempts that the worker has claimed have ended when
it returns or raises.  The exceptions are two: an exception between the claim and
`_run_attempt` other than an `OSError` of `mkdir`, and one that is raised while a failure is
recorded.
-/

namespace ChipEvolve

open Machine Sql

/-- The exception leaves the attempt as it is. -/
def Thread.abandons : Thread → Event → Bool
  | preparing _, .raise _ | failing _ _, .raise _ => true
  | _, _ => false

def Server.abandons (s : Server) : ServerEvent → Bool
  | .call tid ev => (s.world.threads tid).abandons ev
  | _ => false

/-! ## Holding an attempt until it has ended -/

namespace Thread

variable {d : Deployment} {tid : ThreadId} {t : Tables} {th : Thread} {ev : Event} {job : Job}
  {p : Phase} {next : Thread × Tables}

/-- A thread in `_run_attempt` goes on to settle the attempt, or to record a failure. -/
theorem phase?_of_working (hphase : th.phase? = some (job, .working))
    (habandons : th.abandons ev = false) (hstep : th.step d tid t ev = some next) :
    ∃ p, next.1.phase? = some (job, p) ∧ p ≠ .leaving := by
  cases th with
  | preparing | executing | beating | relaying | finishing =>
      obtain ⟨rfl, -⟩ := Prod.mk.inj (Option.some.inj hphase)
      cases ev <;>
        simp only [step, request, select, work, recover, sweep, Option.orElse_none] at hstep <;>
        (try split at hstep) <;> cases hstep <;>
        first | exact ⟨_, rfl, by decide⟩ | cases habandons
  | settling | failing | rechecking | terminating | closing | aborted =>
      cases (Prod.mk.inj (Option.some.inj hphase)).2
  | _ => cases hphase

/-- A failure is recorded unless the attempt has ended already. -/
theorem phase?_of_failing (hphase : th.phase? = some (job, .failing))
    (habandons : th.abandons ev = false) (hstep : th.step d tid t ev = some next) :
    (∃ p, next.1.phase? = some (job, p) ∧ p ≠ .leaving) ∨
      ∀ a, t.attempt? job.attemptId = some a → a.status ≠ .running := by
  cases th with
  | failing job' message =>
      obtain ⟨rfl, -⟩ := Prod.mk.inj (Option.some.inj hphase)
      cases ev with
      | next r =>
          simp only [step, request, select, work, recover, Option.orElse_none] at hstep
          rcases finishAttempt_cases t job'.attemptId .failed
            { exitCode := some 1, failure := some (runtimeFailure message r.evidenceError) } r.now
            with ⟨hnot, x, hkeeps⟩ | hcommits
          · refine .inr fun a ha hrunning ↦ hnot ⟨a, ha, ?_⟩
            rw [hrunning]
            rfl
          · rw [hcommits.exec] at hstep
            cases hstep
            exact .inl ⟨_, rfl, by decide⟩
      | raise => cases habandons
      | _ => cases hstep
  | preparing | executing | beating | relaying | finishing | settling | rechecking | terminating |
      closing | aborted =>
      cases (Prod.mk.inj (Option.some.inj hphase)).2
  | _ => cases hphase

/-- A thread holds its attempt until it has ended. -/
theorem holds_or_ended (hphase : th.phase? = some (job, p)) (hp : p ≠ .leaving)
    (hfits : ∀ a, t.attempt? job.attemptId = some a → p.Fits a.status)
    (habandons : th.abandons ev = false) (hstep : th.step d tid t ev = some next) :
    (∃ p, next.1.phase? = some (job, p) ∧ p ≠ .leaving) ∨
      ∀ a, t.attempt? job.attemptId = some a → a.status ≠ .running := by
  cases p with
  | working => exact .inl (phase?_of_working hphase habandons hstep)
  | failing => exact phase?_of_failing hphase habandons hstep
  | settling =>
      refine .inr fun a ha hrunning ↦ ?_
      rcases hfits a ha with hstatus | hstatus <;> rw [hrunning] at hstatus <;> cases hstatus
  | rechecking => exact .inr fun a ha ↦ hfits a ha
  | leaving => exact absurd rfl hp

end Thread

/-! ## Every step -/

/-- The running attempts of a worker are in the hands of its threads, except for those that were
there when it started. -/
def World.Attended (members : List ThreadId) (workerId : WorkerId) (old : List AttemptRow)
    (w : World) : Prop :=
  ∀ a ∈ w.tables.attempts, a.status = .running → a.workerId = workerId →
    (∃ b ∈ old, b.attemptId = a.attemptId) ∨ ∃ tid ∈ members, ∃ job p,
      (w.threads tid).phase? = some (job, p) ∧ p ≠ .leaving ∧ job.attemptId = a.attemptId

namespace World.Attended

variable {d : Deployment} {members : List ThreadId} {workerId : WorkerId} {old : List AttemptRow}
  {w w' : World} {l : ThreadId × Event}

theorem start : World.Attended members workerId w.tables.attempts w :=
  fun a ha _ _ ↦ .inl ⟨a, ha, rfl⟩

/-- A running attempt stays in the hands it is in. -/
theorem keep (h : w.Attended members workerId old) (hsound : w.Sound)
    (habandons : l.1 ∈ members → (w.threads l.1).abandons l.2 = false)
    (hstep : w.step d l = some w') {a : AttemptRow} (ha : a ∈ w.tables.attempts)
    (hrunning : a.status = .running) (hworker : a.workerId = workerId) :
    (∃ b ∈ old, b.attemptId = a.attemptId) ∨ ∃ tid ∈ members, ∃ job p,
      (w'.threads tid).phase? = some (job, p) ∧ p ≠ .leaving ∧ job.attemptId = a.attemptId := by
  rcases h a ha hrunning hworker with hold | ⟨tid, htid, job, p, hphase, hp, hid⟩
  · exact .inl hold
  refine .inr ⟨tid, htid, job, ?_⟩
  by_cases heq : tid = l.1
  · subst heq
    have hattempt : w.tables.attempt? job.attemptId = some a :=
      hid ▸ hsound.wellFormed.attempt?_of_mem ha
    rcases Thread.holds_or_ended hphase hp (fun a' ↦ hsound.fits _ job p a' hphase)
      (habandons htid) (World.step_thread hstep) with ⟨p', hphase', hp'⟩ | hended
    · exact ⟨p', hphase', hp', hid⟩
    · exact absurd hrunning (hended a hattempt)
  · rw [World.step_other hstep heq]
    exact ⟨p, hphase, hp, hid⟩

theorem step (h : w.Attended members workerId old) (hsound : w.Sound)
    (habandons : l.1 ∈ members → (w.threads l.1).abandons l.2 = false)
    (hclaims : (w.threads l.1).run? ≠ none → (d.config l.1).workerId = workerId → l.1 ∈ members)
    (hstep : w.step d l = some w') : w'.Attended members workerId old := by
  intro a ha hrunning hworker
  rcases World.step_turn hstep with ⟨hsame, _⟩ | ⟨e, hacts, he, happly⟩
  · rw [show w'.tables = w.tables from hsame] at ha
    exact h.keep hsound habandons hstep ha hrunning hworker
  rw [show w'.tables = e.apply w.tables from happly] at ha
  rcases attempt_cases ha with ⟨b, hb, rfl⟩ | ⟨stage, c, attemptId, now, rfl, rfl⟩
  · rw [e.onAttempt_workerId] at hworker
    rw [e.onAttempt_attemptId]
    have hmoves := hsound.wellFormed.attemptMoves hsound.noPending he hb
    exact h.keep hsound habandons hstep hb (hmoves.running hrunning) hworker
  · simp only at hacts
    generalize hthread : w.threads l.1 = th at hacts hclaims
    generalize l.2 = ev at hacts
    generalize hnext : w'.threads l.1 = th' at hacts
    cases hacts with
    | @claim run s workspace r =>
        let job : Job := ⟨run, s, w.tables.nextAttempt stage
          ((d.config l.1).claim run.taskSpec workspace) r.fresh r.now⟩
        refine .inr ⟨l.1, hclaims (Option.some_ne_none _) hworker, job, .working, ?_, by decide,
          rfl⟩
        rw [hnext]
        rfl
    | pass hemits => cases hemits

end World.Attended

/-! ## The worker -/

namespace Server

variable {d : Deployment} {p : Pool} {s s' : Server} {ev : ServerEvent}

/-- A step of the worker or of anything around it is at most one statement of a thread. -/
theorem step_world (hstep : s.step d p ev = some s') :
    s'.world = s.world ∨ ∃ tid ev', s.world.step d (tid, ev') = some s'.world ∧
      (tid ∈ p.threads → s.abandons ev = (s.world.threads tid).abandons ev') := by
  cases step_turn hstep with
  | stop | goes | leave | exit | submit | discard => exact .inl rfl
  | loop hworld => exact .inr ⟨p.main, _, hworld, fun hmem ↦ absurd hmem p.apart⟩
  | @take tid _ _ _ _ _ hworld =>
      exact .inr ⟨tid, _, hworld, fun _ ↦ by cases s.world.threads tid <;> rfl⟩
  | call _ _ hworld => exact .inr ⟨_, _, hworld, fun _ ↦ rfl⟩
  | other _ hpool hworld => exact .inr ⟨_, _, hworld, fun hmem ↦ absurd hmem hpool⟩

end Server

/-- When `serve_forever` has returned or raised, every running attempt of its worker id was there
before it began. -/
theorem serve_forever_ends_attempts (d : Deployment) (p : Pool) {w : World}
    (hw : ReachableBy (World.step d) (fun _ _ ↦ True) {} w)
    (hmain : w.threads p.main = .idle) (hidle : ∀ tid ∈ p.threads, w.threads tid = .idle)
    {workerId : WorkerId}
    (hown : ∀ tid, (d.config tid).workerId = workerId → tid = p.main ∨ tid ∈ p.threads)
    {s : Server}
    (h : ReachableBy (Server.step d p) (fun s ev ↦ s.abandons ev = false) { world := w } s)
    {raised : Bool} (hreturned : s.serving = .returned raised) :
    ∀ a ∈ s.world.tables.attempts, a.status = .running → a.workerId = workerId →
      ∃ b ∈ w.tables.attempts, b.attemptId = a.attemptId := by
  have hboth : ReachableBy (World.step d) (fun _ _ ↦ True) {} s.world ∧ s.Sound p ∧
      s.world.Attended p.threads workerId w.tables.attempts := by
    refine h.invariant (P := fun s ↦ ReachableBy (World.step d) (fun _ _ ↦ True) {} s.world ∧
      s.Sound p ∧ s.world.Attended p.threads workerId w.tables.attempts)
      ⟨hw, .start hmain hidle, .start⟩ fun s ev s' ⟨hreach, hsound, hattended⟩ habandons hstep ↦ ?_
    refine (and_left_comm.mp ⟨hsound.step hstep, ?_⟩)
    rcases Server.step_world hstep with hsame | ⟨tid, ev', hworld, hguard⟩
    · rw [hsame]
      exact ⟨hreach, hattended⟩
    · refine ⟨hreach.next trivial hworld, hattended.step (.of_reachable hreach)
        (fun htid ↦ (hguard htid).symm.trans habandons) (fun hrun hid ↦ ?_) hworld⟩
      rcases hown tid hid with rfl | htid
      · exact absurd hsound.main hrun
      · exact htid
  obtain ⟨_, hsound, hattended⟩ := hboth
  intro a ha hrunning hworker
  rcases hattended a ha hrunning hworker with hold | ⟨tid, htid, job, ph, hphase, _, _⟩
  · exact hold
  · rw [(hsound.orderly.returns raised hreturned).2.2 tid htid] at hphase
    cases hphase

namespace Sample

theorem returned_of_hasServed {s : Server} (h : hasServed s = true) :
    s.serving = .returned false := by
  unfold hasServed at h
  split at h
  · next raised hreturned =>
      rw [Bool.and_eq_true, Bool.not_eq_true'] at h
      rw [hreturned, h.1]
  · cases h

theorem serve_forever_ends_attempts_served :
    ∃ s, hasServed s = true ∧
      ∀ a ∈ s.world.tables.attempts, a.workerId = "server" → a.status ≠ .running := by
  obtain ⟨s, hvisits, hserved⟩ := Visits.of_any run_served
  have hall : allSteps (Server.step serving pool) (fun s ev ↦ !s.abandons ev)
      { world := waiting } served = true := by
    decide +kernel
  have hreach : ReachableBy (Server.step serving pool) (fun s ev ↦ s.abandons ev = false)
      { world := waiting } s :=
    hvisits.reachableBy fun s ev s' htakes ↦ by simpa using htakes.of_allSteps hall
  have hwaiting : ReachableBy (World.step serving) (fun _ _ ↦ True) {} waiting :=
    .next .init trivial (rfl : World.step serving {} (9, .submit (submission 1)) = some waiting)
  have hidle : ∀ tid ∈ pool.threads, waiting.threads tid = .idle := by
    intro tid htid
    obtain rfl := List.mem_singleton.mp htid
    rfl
  have hown : ∀ tid, (serving.config tid).workerId = "server" →
      tid = pool.main ∨ tid ∈ pool.threads := by
    intro tid hserver
    have hsmall : tid ≤ 1 := by
      by_contra hlarge
      have hother : (serving.config tid).workerId = "other" := if_neg hlarge
      rw [hother] at hserver
      exact absurd hserver (by decide)
    rcases Nat.le_one_iff_eq_zero_or_eq_one.mp hsmall with rfl | rfl
    · exact .inr (List.mem_singleton_self 0)
    · exact .inl rfl
  refine ⟨s, hserved, fun a ha hworker hrunning ↦ ?_⟩
  obtain ⟨b, hb, _⟩ := serve_forever_ends_attempts serving pool hwaiting rfl hidle hown hreach
    (returned_of_hasServed hserved) a ha hrunning hworker
  exact absurd hb List.not_mem_nil

end Sample

end ChipEvolve
