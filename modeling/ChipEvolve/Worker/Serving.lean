import ChipEvolve.Crew
import ChipEvolve.Worker.Cycle

/-!
# A worker that serves

`RuntimeWorker.serve_forever` and `_run_async` (`worker.py`): one thread looks after leases,
abandoned cancellations and the queue, and a pool of threads executes the runs that it picks.
The stop event may be set at any time, an exception may leave the loop between two of its calls,
and the threads of other processes go on meanwhile.  What `touch` writes and how long the loop
sleeps is left out.
-/

namespace ChipEvolve

open Machine Sql

/-! ## The loop and its pool -/

/-- The thread that runs `serve_forever`, and those of its `ThreadPoolExecutor`. -/
structure Pool where
  main : ThreadId
  threads : List ThreadId
  batch : Nat
  nodup : threads.Nodup
  apart : main ∉ threads
  size : threads.length = batch
  positive : 1 ≤ batch

/-- Where `serve_forever` stands between two of its calls.  The `with` block waits for the pool
before the function returns or raises. -/
inductive Serving where
  | checking
  | reclaiming
  | sweeping
  | scanning (page : List RunId) (offset : Nat)
  | leaving (raised : Bool)
  | returned (raised : Bool)

/-- The loop has not ended. -/
def Serving.loops : Serving → Bool
  | leaving _ | returned _ => false
  | _ => true

structure Server where
  world : World
  crew : Crew ThreadId RunId := {}
  stopping : Bool := false
  serving : Serving := .checking

inductive ServerEvent where
  | stop
  | serve (reference : Timestamp)
  | maintain (r : Reading)
  | fail
  | take (tid : ThreadId)
  | call (tid : ThreadId) (ev : Event)
  | discard (tid : ThreadId)
  | other (tid : ThreadId) (ev : Event)

namespace Thread

def isIdle : Thread → Bool
  | idle => true
  | _ => false

/-- The next statement raises out of `reclaim_expired_attempts` or
`_finish_abandoned_cancellations`. -/
def raises (t : Tables) (r : Reading) : Thread → Bool
  | reclaiming pass =>
      match (pass.step r.now r.gone t).1 with
      | .raised _ => true
      | _ => false
  | dropping (runId :: _) =>
      match (exec (transitionRun runId .cancelled (some "cancelled before the attempt started")
          r.now) t).1 with
      | .ok _ => false
      | .error e => !e.isInvalidTransition
  | _ => false

theorem isIdle_iff {th : Thread} : th.isIdle = true ↔ th = idle := by
  cases th <;> simp [isIdle]

end Thread

namespace Server

/-- The next statement of `serve_forever` outside the calls it makes. -/
def serve (d : Deployment) (p : Pool) (reference : Timestamp) (s : Server) : Option Server :=
  match s.serving with
  | .checking =>
      if s.stopping && s.crew.active.isEmpty then some { s with serving := .leaving false }
      else (s.world.step d (p.main, .reclaim reference)).map fun world ↦
        { s with world := world, serving := .reclaiming }
  | .reclaiming =>
      if 1000 < p.batch then some { s with serving := .leaving true }
      else (s.world.step d (p.main, .sweep p.batch)).map fun world ↦
        { s with world := world, serving := .sweeping }
  | .sweeping => some { s with serving := if s.stopping then .checking else .scanning [] 0 }
  | .scanning [] offset =>
      match (exec (runnableRuns pageSize offset) s.world.tables).1 with
      | .ok [] => some { s with serving := .checking }
      | .ok page => some { s with serving := .scanning page (offset + page.length) }
      | .error _ => some { s with serving := .leaving true }
  | .scanning (runId :: rest) offset =>
      if p.batch ≤ s.crew.active.length ∨ runId ∈ s.crew.active then
        some { s with serving := .scanning rest offset }
      else some { s with crew := s.crew.submit runId, serving := .scanning rest offset }
  | .leaving raised =>
      if s.crew.submitted.isEmpty && p.threads.all fun tid ↦ (s.crew.held tid).isNone then
        some { s with serving := .returned raised }
      else none
  | .returned _ => none

def step (d : Deployment) (p : Pool) (s : Server) : ServerEvent → Option Server
  | .stop => some { s with stopping := true }
  | .serve reference => if (s.world.threads p.main).isIdle then s.serve d p reference else none
  | .maintain r =>
      if (s.world.threads p.main).isIdle then none
      else (s.world.step d (p.main, .next r)).map fun world ↦
        { s with
          world := world
          serving := if (s.world.threads p.main).raises s.world.tables r then .leaving true
            else s.serving }
  | .fail =>
      if (s.world.threads p.main).isIdle && s.serving.loops then
        some { s with serving := .leaving true }
      else none
  | .take tid =>
      if tid ∈ p.threads then
        (s.crew.take tid).bind fun taken ↦
          (s.world.step d (tid, .execute taken.1 false)).map fun world ↦
            { s with world := world, crew := taken.2 }
      else none
  | .call tid ev =>
      if tid ∈ p.threads ∧ (s.world.threads tid).isIdle = false then
        (s.world.step d (tid, ev)).map fun world ↦ { s with world := world }
      else none
  | .discard tid =>
      if tid ∈ p.threads ∧ (s.world.threads tid).isIdle = true then
        (s.crew.discard tid).map fun crew ↦ { s with crew := crew }
      else none
  | .other tid ev =>
      if tid = p.main ∨ tid ∈ p.threads then none
      else (s.world.step d (tid, ev)).map fun world ↦ { s with world := world }

end Server

/-! ## One step -/

/-- The stop event is set, and the queue is not being read. -/
def Server.Drains (s : Server) : Prop :=
  s.stopping = true ∧ ∀ page offset, s.serving ≠ .scanning page offset

/-- The loop stays where it is or goes on, or an exception leaves it. -/
structure Server.Opens (s : Server) (serving : Serving) : Prop where
  place : serving = s.serving ∨ serving.loops = true ∨ serving = .leaving true
  drains : s.Drains → ∀ page offset, serving ≠ .scanning page offset

/-- What a step does. -/
inductive Server.Turn (d : Deployment) (p : Pool) (s : Server) : ServerEvent → Server → Prop
  | stop : Turn d p s .stop { s with stopping := true }
  | goes {ev serving} (hopens : s.Opens serving) : Turn d p s ev { s with serving := serving }
  | loop {ev ev' w serving} (hworld : s.world.step d (p.main, ev') = some w)
      (hquiet : (s.world.threads p.main).run? = none → (w.threads p.main).run? = none)
      (hopens : s.Opens serving) : Turn d p s ev { s with world := w, serving := serving }
  | leave {ev} (hstopping : s.stopping = true) (hnone : s.crew.active = []) :
      Turn d p s ev { s with serving := .leaving false }
  | exit {ev raised} (hleaving : s.serving = .leaving raised) (hsubmitted : s.crew.submitted = [])
      (hheld : ∀ tid ∈ p.threads, s.crew.held tid = none) :
      Turn d p s ev { s with serving := .returned raised }
  | submit {ev runId rest offset} (hscanning : s.serving = .scanning (runId :: rest) offset)
      (hroom : s.crew.active.length < p.batch) (hnew : runId ∉ s.crew.active) :
      Turn d p s ev { s with crew := s.crew.submit runId, serving := .scanning rest offset }
  | take {tid runId crew w} (htid : tid ∈ p.threads) (htake : s.crew.take tid = some (runId, crew))
      (hworld : s.world.step d (tid, .execute runId false) = some w) :
      Turn d p s (.take tid) { s with world := w, crew := crew }
  | call {tid ev w} (htid : tid ∈ p.threads) (hbusy : s.world.threads tid ≠ .idle)
      (hworld : s.world.step d (tid, ev) = some w) :
      Turn d p s (.call tid ev) { s with world := w }
  | discard {tid crew} (htid : tid ∈ p.threads) (hidle : s.world.threads tid = .idle)
      (hdiscard : s.crew.discard tid = some crew) : Turn d p s (.discard tid) { s with crew := crew }
  | other {tid ev w} (hmain : tid ≠ p.main) (hpool : tid ∉ p.threads)
      (hworld : s.world.step d (tid, ev) = some w) :
      Turn d p s (.other tid ev) { s with world := w }

namespace Thread

variable {d : Deployment} {tid : ThreadId} {t t' : Tables} {th th' : Thread} {r : Reading}

theorem run?_ofPass (pass : Pass) : (ofPass pass).run? = none := by
  cases pass <;> rfl

/-- A pass over leases or cancellations executes no run. -/
theorem run?_maintain (hrun : th.run? = none) (hstep : th.step d tid t (.next r) = some (th', t')) :
    th'.run? = none := by
  cases th with
  | cancelling runId =>
      cases hstep
      rfl
  | reclaiming pass =>
      cases hstep
      exact run?_ofPass _
  | probing runIds abandoned =>
      cases runIds <;> cases hstep <;> rfl
  | dropping runIds =>
      cases runIds with
      | nil =>
          cases hstep
          rfl
      | cons runId rest =>
          simp only [step, request, select, work, recover, sweep, Option.orElse_none] at hstep
          split at hstep <;> cases hstep
          · rfl
          · split <;> rfl
  | idle => cases hstep
  | _ => cases hrun

end Thread

namespace Server

variable {d : Deployment} {p : Pool} {s s' : Server}

theorem Opens.quiet {serving : Serving}
    (hplace : serving = s.serving ∨ serving.loops = true ∨ serving = .leaving true)
    (hnot : ∀ page offset, serving ≠ .scanning page offset) : s.Opens serving :=
  ⟨hplace, fun _ ↦ hnot⟩

theorem serve_turn {reference : Timestamp} (hidle : s.world.threads p.main = .idle)
    (hstep : s.serve d p reference = some s') : Turn d p s (.serve reference) s' := by
  unfold serve at hstep
  split at hstep
  · split at hstep
    · next hstop =>
        obtain rfl := Option.some.inj hstep
        rw [Bool.and_eq_true, List.isEmpty_iff] at hstop
        exact .leave hstop.1 hstop.2
    · obtain ⟨w, hw, rfl⟩ := Option.map_eq_some_iff.mp hstep
      refine .loop hw (fun _ ↦ ?_) (.quiet (.inr (.inl rfl)) (by nofun))
      have hthread := World.step_thread hw
      simp only [hidle] at hthread
      rw [← (Prod.mk.inj (Option.some.inj hthread)).1]
      exact Thread.run?_ofPass _
  · split at hstep
    · obtain rfl := Option.some.inj hstep
      exact .goes (.quiet (.inr (.inr rfl)) (by nofun))
    · obtain ⟨w, hw, rfl⟩ := Option.map_eq_some_iff.mp hstep
      refine .loop hw (fun _ ↦ ?_) (.quiet (.inr (.inl rfl)) (by nofun))
      have hthread := World.step_thread hw
      simp only [hidle] at hthread
      rw [← (Prod.mk.inj (Option.some.inj hthread)).1]
      rfl
  · obtain rfl := Option.some.inj hstep
    refine .goes ⟨.inr (.inl ?_), fun hdrains page offset ↦ ?_⟩
    · split <;> rfl
    · rw [if_pos hdrains.1]
      exact Serving.noConfusion
  · next hscanning =>
      have hopens : ∀ {serving : Serving}, serving.loops = true ∨ serving = .leaving true →
          s.Opens serving := fun hplace ↦
        ⟨.inr hplace, fun hdrains ↦ absurd hscanning (hdrains.2 _ _)⟩
      split at hstep
      · obtain rfl := Option.some.inj hstep
        exact .goes (hopens (.inl rfl))
      · obtain rfl := Option.some.inj hstep
        exact .goes (hopens (.inl rfl))
      · obtain rfl := Option.some.inj hstep
        exact .goes (hopens (.inr rfl))
  · next hscanning =>
      split at hstep
      · obtain rfl := Option.some.inj hstep
        exact .goes ⟨.inr (.inl rfl), fun hdrains ↦ absurd hscanning (hdrains.2 _ _)⟩
      · next hroom =>
          obtain rfl := Option.some.inj hstep
          rw [not_or, Nat.not_le] at hroom
          exact .submit hscanning hroom.1 hroom.2
  · next hleaving =>
      split at hstep
      · next hdone =>
          obtain rfl := Option.some.inj hstep
          rw [Bool.and_eq_true, List.isEmpty_iff, List.all_eq_true] at hdone
          exact .exit hleaving hdone.1 fun tid htid ↦ Option.isNone_iff_eq_none.mp (hdone.2 tid htid)
      · cases hstep
  · cases hstep

theorem step_turn {ev : ServerEvent} (hstep : s.step d p ev = some s') : Turn d p s ev s' := by
  cases ev with
  | stop =>
      obtain rfl := Option.some.inj hstep
      exact .stop
  | serve reference =>
      simp only [step] at hstep
      split at hstep
      · next hidle => exact serve_turn (Thread.isIdle_iff.mp hidle) hstep
      · cases hstep
  | maintain r =>
      simp only [step] at hstep
      split at hstep
      · cases hstep
      · obtain ⟨w, hw, rfl⟩ := Option.map_eq_some_iff.mp hstep
        refine .loop hw (fun hrun ↦ Thread.run?_maintain hrun (World.step_thread hw)) ?_
        split
        · exact .quiet (.inr (.inr rfl)) (by nofun)
        · exact ⟨.inl rfl, fun hdrains ↦ hdrains.2⟩
  | fail =>
      simp only [step] at hstep
      split at hstep
      · obtain rfl := Option.some.inj hstep
        exact .goes (.quiet (.inr (.inr rfl)) (by nofun))
      · cases hstep
  | take tid =>
      simp only [step] at hstep
      split at hstep
      · next htid =>
          obtain ⟨⟨runId, crew⟩, htake, hstep⟩ := Option.bind_eq_some_iff.mp hstep
          obtain ⟨w, hw, rfl⟩ := Option.map_eq_some_iff.mp hstep
          exact .take htid htake hw
      · cases hstep
  | call tid ev =>
      simp only [step] at hstep
      split at hstep
      · next hbusy =>
          obtain ⟨w, hw, rfl⟩ := Option.map_eq_some_iff.mp hstep
          refine .call hbusy.1 (fun hidle ↦ ?_) hw
          rw [Thread.isIdle_iff.mpr hidle] at hbusy
          cases hbusy.2
      · cases hstep
  | discard tid =>
      simp only [step] at hstep
      split at hstep
      · next hidle =>
          obtain ⟨crew, hcrew, rfl⟩ := Option.map_eq_some_iff.mp hstep
          exact .discard hidle.1 (Thread.isIdle_iff.mp hidle.2) hcrew
      · cases hstep
  | other tid ev =>
      simp only [step] at hstep
      split at hstep
      · cases hstep
      · next hother =>
          obtain ⟨w, hw, rfl⟩ := Option.map_eq_some_iff.mp hstep
          rw [not_or] at hother
          exact .other hother.1 hother.2 hw

end Server

/-! ## What the loop keeps -/

/-- The pool executes the active runs, each in one thread, and the loop looks after none. -/
structure Server.Sound (p : Pool) (s : Server) : Prop where
  accounted : s.crew.Accounted p.threads p.batch
  resting : ∀ tid ∈ p.threads, s.crew.held tid = none → s.world.threads tid = .idle
  busy : ∀ tid ∈ p.threads, ∀ runId, s.crew.held tid = some runId →
    s.world.threads tid = .idle ∨ (s.world.threads tid).run? = some runId
  main : (s.world.threads p.main).run? = none
  left : s.serving = .leaving false → s.stopping = true ∧ s.crew.active = []
  returned : ∀ raised, s.serving = .returned raised → (raised = false → s.stopping = true) ∧
    s.crew.submitted = [] ∧ ∀ tid ∈ p.threads, s.crew.held tid = none

namespace Server.Sound

variable {d : Deployment} {p : Pool} {s s' : Server} {w : World} {tid : ThreadId} {ev : Event}

theorem start (hmain : w.threads p.main = .idle)
    (hidle : ∀ tid ∈ p.threads, w.threads tid = .idle) : Server.Sound p { world := w } where
  accounted := .empty
  resting tid htid _ := hidle tid htid
  busy tid htid _ _ := .inl (hidle tid htid)
  main := by
    rw [hmain]
    rfl
  left := nofun
  returned := nofun

/-- A statement of a thread of another process. -/
theorem other (h : s.Sound p) (hmain : tid ≠ p.main) (hpool : tid ∉ p.threads)
    (hstep : s.world.step d (tid, ev) = some w) : Server.Sound p { s with world := w } := by
  have hsame : ∀ tid' ∈ p.threads, w.threads tid' = s.world.threads tid' := fun tid' htid' ↦
    World.step_other hstep fun (heq : tid' = tid) ↦ hpool (heq ▸ htid')
  refine ⟨h.accounted, fun tid' htid' hheld ↦ ?_, fun tid' htid' runId hheld ↦ ?_, ?_, h.left,
    h.returned⟩
  · rw [hsame tid' htid']
    exact h.resting tid' htid' hheld
  · rw [hsame tid' htid']
    exact h.busy tid' htid' runId hheld
  · rw [World.step_other hstep hmain.symm]
    exact h.main

/-- The loop goes on to another place. -/
theorem goes (h : s.Sound p) {serving : Serving} (hopens : s.Opens serving) :
    Server.Sound p { s with serving := serving } := by
  refine ⟨h.accounted, h.resting, h.busy, h.main, ?_, ?_⟩
  · rintro rfl
    rcases hopens.place with hsame | hloops | heq
    · exact h.left hsame.symm
    · cases hloops
    · cases heq
  · rintro raised rfl
    rcases hopens.place with hsame | hloops | heq
    · exact h.returned raised hsame.symm
    · cases hloops
    · cases heq

/-- A statement of the thread of the loop. -/
theorem maintain (h : s.Sound p) (hstep : s.world.step d (p.main, ev) = some w)
    (hrun : (w.threads p.main).run? = none) : Server.Sound p { s with world := w } := by
  have hsame : ∀ tid ∈ p.threads, w.threads tid = s.world.threads tid := fun tid htid ↦
    World.step_other hstep fun (heq : tid = p.main) ↦ p.apart (heq ▸ htid)
  refine ⟨h.accounted, fun tid htid hheld ↦ ?_, fun tid htid runId hheld ↦ ?_, hrun, h.left,
    h.returned⟩
  · rw [hsame tid htid]
    exact h.resting tid htid hheld
  · rw [hsame tid htid]
    exact h.busy tid htid runId hheld

/-- A run is given to the pool. -/
theorem submit (h : s.Sound p) {runId : RunId} {rest : List RunId} {offset : Nat}
    (hroom : s.crew.active.length < p.batch) (hnew : runId ∉ s.crew.active) :
    Server.Sound p { s with crew := s.crew.submit runId, serving := .scanning rest offset } where
  accounted := h.accounted.submit hroom hnew
  resting := h.resting
  busy := h.busy
  main := h.main
  left := nofun
  returned := nofun

theorem take (h : s.Sound p) (htid : tid ∈ p.threads) {runId : RunId} {crew : Crew ThreadId RunId}
    (htake : s.crew.take tid = some (runId, crew))
    (hstep : s.world.step d (tid, .execute runId false) = some w) :
    Server.Sound p { s with world := w, crew := crew } := by
  have haccounted := h.accounted.take p.nodup htid htake
  unfold Crew.take at htake
  split at htake
  · next k rest hheld hsubmitted =>
      obtain ⟨rfl, rfl⟩ := Prod.mk.inj (Option.some.inj htake)
      have hthread := World.step_thread hstep
      simp only [h.resting tid htid hheld] at hthread
      obtain ⟨hselecting, _⟩ := Prod.mk.inj (Option.some.inj hthread)
      have hother : ∀ tid', tid' ≠ tid → w.threads tid' = s.world.threads tid' := fun _ hne ↦
        World.step_other hstep hne
      have hmain : p.main ≠ tid := fun heq ↦ p.apart (heq ▸ htid)
      refine ⟨haccounted, fun tid' htid' hnone ↦ ?_, fun tid' htid' runId hsome ↦ ?_, ?_,
        fun hserving ↦ ?_, fun raised hserving ↦ ?_⟩
      · change Function.update s.crew.held tid (some k) tid' = none at hnone
        change w.threads tid' = .idle
        by_cases heq : tid' = tid
        · subst heq
          rw [Function.update_self] at hnone
          cases hnone
        · rw [Function.update_of_ne heq] at hnone
          rw [hother tid' heq]
          exact h.resting tid' htid' hnone
      · change Function.update s.crew.held tid (some k) tid' = some runId at hsome
        change w.threads tid' = .idle ∨ (w.threads tid').run? = some runId
        by_cases heq : tid' = tid
        · subst heq
          rw [Function.update_self] at hsome
          refine .inr ?_
          rw [← hselecting, ← hsome]
          rfl
        · rw [Function.update_of_ne heq] at hsome
          rw [hother tid' heq]
          exact h.busy tid' htid' runId hsome
      · change (w.threads p.main).run? = none
        rw [hother p.main hmain]
        exact h.main
      · exact h.left hserving
      · have hnone := (h.returned raised hserving).2.1
        rw [hsubmitted] at hnone
        cases hnone
  · cases htake

/-- A thread of the pool goes on with its run. -/
theorem call (h : s.Sound p) (htid : tid ∈ p.threads) (hbusy : s.world.threads tid ≠ .idle)
    (hstep : s.world.step d (tid, ev) = some w) : Server.Sound p { s with world := w } := by
  have hother : ∀ tid', tid' ≠ tid → w.threads tid' = s.world.threads tid' := fun _ hne ↦
    World.step_other hstep hne
  have hmain : p.main ≠ tid := fun heq ↦ p.apart (heq ▸ htid)
  refine ⟨h.accounted, fun tid' htid' hnone ↦ ?_, fun tid' htid' runId hsome ↦ ?_, ?_, h.left,
    h.returned⟩
  · change w.threads tid' = .idle
    by_cases heq : tid' = tid
    · subst heq
      exact absurd (h.resting tid' htid hnone) hbusy
    · rw [hother tid' heq]
      exact h.resting tid' htid' hnone
  · change w.threads tid' = .idle ∨ (w.threads tid').run? = some runId
    by_cases heq : tid' = tid
    · subst heq
      have hrun := (h.busy tid' htid' runId hsome).resolve_left hbusy
      exact Thread.run?_step hrun (World.step_thread hstep)
    · rw [hother tid' heq]
      exact h.busy tid' htid' runId hsome
  · change (w.threads p.main).run? = none
    rw [hother p.main hmain]
    exact h.main

theorem discard (h : s.Sound p) (htid : tid ∈ p.threads) (hidle : s.world.threads tid = .idle)
    {crew : Crew ThreadId RunId} (hdiscard : s.crew.discard tid = some crew) :
    Server.Sound p { s with crew := crew } := by
  have haccounted := h.accounted.discard p.nodup htid hdiscard
  obtain ⟨runId, hheld, rfl⟩ := Option.map_eq_some_iff.mp hdiscard
  refine ⟨haccounted, fun tid' htid' hnone ↦ ?_, fun tid' htid' runId' hsome ↦ ?_, h.main,
    fun hserving ↦ ?_, fun raised hserving ↦ ?_⟩
  · change Function.update s.crew.held tid none tid' = none at hnone
    by_cases heq : tid' = tid
    · exact heq ▸ hidle
    · rw [Function.update_of_ne heq] at hnone
      exact h.resting tid' htid' hnone
  · change Function.update s.crew.held tid none tid' = some runId' at hsome
    by_cases heq : tid' = tid
    · exact .inl (heq ▸ hidle)
    · rw [Function.update_of_ne heq] at hsome
      exact h.busy tid' htid' runId' hsome
  · obtain ⟨hstopping, hnone⟩ := h.left hserving
    exact ⟨hstopping, by simp [hnone]⟩
  · have hnone := (h.returned raised hserving).2.2 tid htid
    rw [hheld] at hnone
    cases hnone

theorem step {ev : ServerEvent} (h : s.Sound p) (hstep : s.step d p ev = some s') :
    s'.Sound p := by
  cases Server.step_turn hstep with
  | stop =>
      exact ⟨h.accounted, h.resting, h.busy, h.main, fun hleft ↦ ⟨rfl, (h.left hleft).2⟩,
        fun raised hreturned ↦ ⟨fun _ ↦ rfl, (h.returned raised hreturned).2⟩⟩
  | goes hopens => exact h.goes hopens
  | loop hworld hquiet hopens =>
      exact Server.Sound.goes (h.maintain hworld (hquiet h.main)) ⟨hopens.place, hopens.drains⟩
  | leave hstopping hnone =>
      exact ⟨h.accounted, h.resting, h.busy, h.main, fun _ ↦ ⟨hstopping, hnone⟩, nofun⟩
  | exit hleaving hsubmitted hheld =>
      refine ⟨h.accounted, h.resting, h.busy, h.main, nofun, fun raised heq ↦ ?_⟩
      obtain rfl := Serving.returned.inj heq
      refine ⟨fun hraised ↦ ?_, hsubmitted, hheld⟩
      subst hraised
      exact (h.left hleaving).1
  | submit _ hroom hnew => exact h.submit hroom hnew
  | take htid htake hworld => exact h.take htid htake hworld
  | call htid hbusy hworld => exact h.call htid hbusy hworld
  | discard htid hidle hdiscard => exact h.discard htid hidle hdiscard
  | other hmain hpool hworld => exact h.other hmain hpool hworld

theorem of_reachable {guard : Server → ServerEvent → Prop} (hmain : w.threads p.main = .idle)
    (hidle : ∀ tid ∈ p.threads, w.threads tid = .idle)
    (h : ReachableBy (Server.step d p) guard { world := w } s) : s.Sound p :=
  h.invariant (start hmain hidle) fun _ _ _ hs _ hstep ↦ hs.step hstep

/-- A busy thread of the pool executes the run it holds. -/
theorem run_held (h : s.Sound p) (htid : tid ∈ p.threads) {runId : RunId}
    (hrun : (s.world.threads tid).run? = some runId) : s.crew.held tid = some runId := by
  have hbusy : s.world.threads tid ≠ .idle := by
    intro hidle
    rw [hidle] at hrun
    cases hrun
  cases hheld : s.crew.held tid with
  | none => exact absurd (h.resting tid htid hheld) hbusy
  | some other =>
      have hother := (h.busy tid htid other hheld).resolve_left hbusy
      exact hother.symm.trans hrun

end Server.Sound

/-! ## After the stop event -/

/-- No run is given to the pool any more. -/
theorem Server.Drains.step {d : Deployment} {p : Pool} {s s' : Server} {ev : ServerEvent}
    (h : s.Drains) (hstep : s.step d p ev = some s') :
    s'.Drains ∧ s'.crew.active ⊆ s.crew.active := by
  cases Server.step_turn hstep with
  | stop => exact ⟨⟨rfl, h.2⟩, List.Subset.refl _⟩
  | goes hopens | loop _ _ hopens => exact ⟨⟨h.1, hopens.drains h⟩, List.Subset.refl _⟩
  | leave | exit => exact ⟨⟨h.1, by nofun⟩, List.Subset.refl _⟩
  | submit hscanning => exact absurd hscanning (h.2 _ _)
  | @take tid runId crew w _ htake =>
      refine ⟨h, ?_⟩
      change crew.active ⊆ s.crew.active
      rw [Crew.active_of_take htake]
      exact List.Subset.refl _
  | call | other => exact ⟨h, List.Subset.refl _⟩
  | discard _ _ hdiscard => exact ⟨h, Crew.active_of_discard hdiscard⟩

/-! ## The whole run of a worker -/

/-- What holds whenever the worker is looked at. -/
structure Server.Orderly (p : Pool) (s : Server) : Prop where
  distinct : s.crew.active.Nodup
  bounded : s.crew.active.length ≤ p.batch
  apart : ∀ tid ∈ p.threads, s.world.threads tid ≠ .idle → ∃ runId ∈ s.crew.active,
    (s.world.threads tid).run? = some runId ∧
      ∀ tid' ∈ p.threads, (s.world.threads tid').run? = some runId → tid' = tid
  returns : ∀ raised, s.serving = .returned raised → (raised = false → s.stopping = true) ∧
    s.crew.submitted = [] ∧ ∀ tid ∈ p.threads, s.world.threads tid = .idle

theorem Server.Sound.orderly {p : Pool} {s : Server} (h : s.Sound p) : s.Orderly p where
  distinct := h.accounted.nodup
  bounded := h.accounted.bounded
  apart := by
    intro tid htid hbusy
    cases hheld : s.crew.held tid with
    | none => exact absurd (h.resting tid htid hheld) hbusy
    | some runId =>
        refine ⟨runId, h.accounted.mem_active htid hheld,
          (h.busy tid htid runId hheld).resolve_left hbusy, fun tid' htid' hrun ↦ ?_⟩
        exact h.accounted.holder_unique p.nodup htid htid' hheld (h.run_held htid' hrun)
  returns := by
    intro raised hreturned
    obtain ⟨hstopping, hsubmitted, hnone⟩ := h.returned raised hreturned
    exact ⟨hstopping, hsubmitted, fun tid htid ↦ h.resting tid htid (hnone tid htid)⟩

/-- The threads of the pool execute at most `batch` runs and no run twice at a time; once the stop
event is set and the scan it falls into is over, no other run is begun; and when `serve_forever`
has returned, or an exception has left it, no thread of the pool is at work. -/
theorem serve_forever_orderly (d : Deployment) (p : Pool) {w : World}
    (hmain : w.threads p.main = .idle) (hidle : ∀ tid ∈ p.threads, w.threads tid = .idle)
    {s : Server} (h : ReachableBy (Server.step d p) (fun _ _ ↦ True) { world := w } s) :
    s.Orderly p ∧ (s.Drains → ∀ s', ReachableBy (Server.step d p) (fun _ _ ↦ True) s s' →
      s'.Drains ∧ s'.crew.active ⊆ s.crew.active) := by
  refine ⟨(Server.Sound.of_reachable hmain hidle h).orderly, fun hdrains s' hs' ↦ ?_⟩
  refine hs'.invariant (P := fun s' ↦ s'.Drains ∧ s'.crew.active ⊆ s.crew.active)
    ⟨hdrains, List.Subset.refl _⟩ fun u ev u' hu _ hstep ↦ ?_
  obtain ⟨hdrains', hsubset⟩ := hu.1.step hstep
  exact ⟨hdrains', List.Subset.trans hsubset hu.2⟩

namespace Sample

/-- Threads 0 and 1 are those of one process. -/
def serving : Deployment :=
  { deployment with config := fun tid ↦
      { config tid with workerId := if tid ≤ 1 then "server" else "other" } }

def pool : Pool where
  main := 1
  threads := [0]
  batch := 1
  nodup := List.nodup_singleton 0
  apart := by decide
  size := rfl
  positive := Nat.le_refl 1

/-- A run waits in the queue. -/
def waiting : World :=
  ((World.step serving {} (9, .submit (submission 1))).getD {})

def reading : Reading := { now := 0, fresh := "a1" }

/-- The worker finds the run and executes it, its plugin is gone, and the worker is stopped. -/
def served : List ServerEvent :=
  [.serve 0, .maintain reading, .maintain reading, .serve 0, .maintain reading, .maintain reading,
    .serve 0, .serve 0, .serve 0, .take 0, .call 0 (.next reading), .call 0 (.next reading),
    .call 0 (.resolved true), .call 0 (.next reading), .call 0 (.next reading),
    .call 0 (.raise "OSError: gone"), .call 0 (.next reading), .call 0 (.next reading),
    .call 0 (.next reading), .call 0 (.next reading), .discard 0, .stop, .serve 0, .serve 0,
    .serve 0]

/-- The function has returned, and an attempt was made. -/
def hasServed (s : Server) : Bool :=
  match s.serving with
  | .returned raised => !raised && !s.world.tables.attempts.isEmpty
  | _ => false

theorem run_served : (run (Server.step serving pool) { world := waiting } served).any hasServed =
    true := by
  decide +kernel

theorem serve_forever_orderly_served :
    ∃ s, hasServed s = true ∧ s.Orderly pool := by
  obtain ⟨s, hvisits, hserved⟩ := Visits.of_any run_served
  refine ⟨s, hserved, (serve_forever_orderly serving pool (w := waiting) rfl ?_ hvisits.reachable).1⟩
  intro tid htid
  obtain rfl := List.mem_singleton.mp htid
  rfl

end Sample

end ChipEvolve
