import ChipEvolve.Guardian.Accounting
import ChipEvolve.Guardian.Ending

/-!
# One command under the guardian

`ProcessGuardian.run` (`runtime/guardian.py`), from the start of the process to the outcome, next
to the processes of the host, a clock and the thread that reads the output.
-/

namespace ChipEvolve.Guardian

open Machine

/-- What `run` is called with: a deadline, which it refuses unless it is positive, the limits, and
whether it can be cancelled. -/
structure Command where
  timeoutSeconds : ℚ
  limits : Option ResourceRequest := none
  cancellable : Bool := true
  timeout_pos : 0 < timeoutSeconds

def drainBatch : ℕ := 32

def finalDrainBatch : ℕ := 128

def telemetryQueueSize : ℕ := 256

/-! ## The output -/

/-- The lines in the log, those in the queue, how many found it full, those that were drained from
it for the observer, and whether the log says that the last of them were not. -/
structure Telemetry where
  log : List String := []
  lines : List String := []
  dropped : ℕ := 0
  drained : List String := []
  truncated : Bool := false

namespace Telemetry

/-- One line of `_read_output`. -/
def readOutput (line : String) (t : Telemetry) : Telemetry :=
  if t.lines.length < telemetryQueueSize then
    { t with log := t.log ++ [line], lines := t.lines ++ [line] }
  else { t with log := t.log ++ [line], dropped := t.dropped + 1 }

/-- `_drain` -/
def drain (maxLines : ℕ) (t : Telemetry) : Telemetry :=
  { t with
    lines := t.lines.drop maxLines
    drained := t.drained ++ t.lines.take maxLines }

/-- The last `_drain`; a whole batch leaves a note in the log.  The reader is not followed beyond
it. -/
def finalDrain (t : Telemetry) : Telemetry :=
  { t.drain finalDrainBatch with
    truncated := (t.lines.take finalDrainBatch).length = finalDrainBatch }

end Telemetry

/-! ## The outcome -/

structure Outcome where
  timedOut : Bool := false
  cancelled : Bool := false
  exceeded : Option String := none
  peak : Measured := ⟨0, 0, 0⟩

/-- What a measurement says against the limits, if any are declared. -/
def Command.breach (c : Command) (fixed general : ℚ → String) (m : Measured) : Option String :=
  (c.limits.filter ResourceRequest.declared).bind (breachValues fixed general m)

/-- The larger of each two. -/
def peak (a b : Measured) : Measured where
  processes := max a.processes b.processes
  cpuSeconds := max a.cpuSeconds b.cpuSeconds
  memoryBytes := max a.memoryBytes b.memoryBytes

def Outcome.measure (o : Outcome) (exceeded : Option String) (m : Measured) : Outcome :=
  { o with exceeded := exceeded, peak := Guardian.peak o.peak m }

/-! ## The supervisor -/

/-- What follows `_terminate_tree` or `_kill_tree`. -/
inductive After where
  | settle
  | reap
  | reraise
  | abort
  deriving DecidableEq

inductive Phase where
  | starting
  | polling
  | draining
  | asking
  | timing
  | metering
  | measuring
  | sleeping (wake : ℚ)
  | ending (e : Ending) (after : After)
  | waiting (deadline : ℚ)
  | reaping (aborted : Bool)
  | joining
  | returned
  | raised

namespace Phase

/-- `_terminate_tree(process)`, and what comes after it. -/
def terminate (after : After) : Phase := ending .terminateTree after

/-- Where an exception leads that strikes in `_terminate_tree` or `_kill_tree`: the loop handles
it. -/
def handler : After → Phase
  | .settle => terminate .reraise
  | .reap | .reraise | .abort => raised

/-- The reader has been started, and the log is open. -/
def reads : Phase → Bool
  | starting | ending _ .abort | reaping true | returned | raised => false
  | _ => true

/-- Where an exception leads that is not one of the observer. -/
def interrupted : Phase → Option Phase
  | starting => some (terminate .abort)
  | polling | draining | asking | timing | metering | measuring | sleeping _ =>
      some (terminate .reraise)
  | ending _ after => some (handler after)
  | waiting _ | reaping _ | joining => some raised
  | returned | raised => none

end Phase

structure Guarded where
  host : Host
  clock : ℚ
  started : ℚ
  nextMeasurement : ℚ
  phase : Phase := .starting
  outcome : Outcome := {}
  telemetry : Telemetry := {}

inductive GuardEvent where
  | host (e : HostEvent)
  | tick (clock : ℚ)
  | output (line : String)
  | go (pick : ℕ)
  | asked (cancel : Bool)
  | measured (m : Measured)
  | interrupt

namespace Guarded

section Step

variable (g : ProcessGuardian) (c : Command) (fixed general : ℚ → String) (own root : ℕ)

/-- The process has been started. -/
def start (host : Host) (clock : ℚ) : Guarded where
  host := host
  clock := clock
  started := clock
  nextMeasurement := clock

/-- `process.wait(timeout=self.terminate_grace)` begins. -/
def settle (s : Guarded) (host : Host) : Guarded :=
  { s with host := host, phase := .waiting (s.clock + g.terminateGrace) }

/-- After `_terminate_tree` or `_kill_tree`. -/
def afterwards (s : Guarded) (host : Host) : After → Guarded
  | .settle => s.settle g host
  | .reap => { s with host := host, phase := .reaping false }
  | .reraise => { s with host := host, phase := .raised }
  | .abort => { s with host := host, phase := .reaping true }

/-- One step of `_terminate_tree` or `_kill_tree`. -/
def proceed (s : Guarded) (after : After) : Ending × Host → Guarded
  | (.done, host) => s.afterwards g host after
  | (.failed, host) => { s with host := host, phase := .handler after }
  | (e, host) => { s with host := host, phase := .ending e after }

/-- `time.sleep(self.poll_interval)` begins. -/
def sleep (s : Guarded) : Guarded := { s with phase := .sleeping (s.clock + g.pollInterval) }

/-- The next thing `run` does by itself. -/
def go (pick : ℕ) (s : Guarded) : Option Guarded :=
  match s.phase with
  | .starting => some { s with phase := .polling }
  | .polling =>
      some (if (s.host.poll root).1 then s.settle g (s.host.poll root).2
        else { s with host := (s.host.poll root).2, phase := .draining })
  | .draining => some { s with telemetry := s.telemetry.drain drainBatch, phase := .asking }
  | .timing =>
      some (if c.timeoutSeconds ≤ s.clock - s.started then
          { s with outcome := { s.outcome with timedOut := true }, phase := .terminate .settle }
        else { s with phase := .metering })
  | .metering =>
      some (if s.nextMeasurement ≤ s.clock then
          { s with nextMeasurement := s.clock + g.measureInterval, phase := .measuring }
        else s.sleep g)
  | .sleeping wake => if wake ≤ s.clock then some { s with phase := .polling } else none
  | .ending e after =>
      (e.step g own root s.clock pick s.host).map (s.proceed g after)
  | .waiting deadline =>
      if (s.host.poll root).1 then some { s with host := (s.host.poll root).2, phase := .joining }
      else if deadline ≤ s.clock then
        some { s with host := (s.host.poll root).2, phase := .ending (.killTree root) .reap }
      else none
  | .reaping aborted =>
      if (s.host.poll root).1 then
        some { s with
          host := (s.host.poll root).2
          phase := if aborted then .raised else .joining }
      else none
  | .joining => some { s with telemetry := s.telemetry.finalDrain, phase := .returned }
  | _ => none

def step (s : Guarded) : GuardEvent → Option Guarded
  | .host e => (s.host.step own root e).map fun host ↦ { s with host := host }
  | .tick clock => if s.clock ≤ clock then some { s with clock := clock } else none
  | .output line =>
      if s.phase.reads then some { s with telemetry := s.telemetry.readOutput line } else none
  | .go pick => s.go g c own root pick
  | .asked cancel =>
      match s.phase with
      | .asking =>
          some (if cancel && c.cancellable then
              { s with
                outcome := { s.outcome with cancelled := true }
                phase := .terminate .settle }
            else { s with phase := .timing })
      | _ => none
  | .measured m =>
      match s.phase with
      | .measuring =>
          let exceeded := c.breach fixed general m
          let s := { s with outcome := s.outcome.measure exceeded m }
          some (if exceeded.isSome then { s with phase := .terminate .settle } else s.sleep g)
      | _ => none
  | .interrupt => s.phase.interrupted.map fun phase ↦ { s with phase := phase }

end Step

/-! ## The cases of a step -/

variable {g : ProcessGuardian} {c : Command} {fixed general : ℚ → String} {own root : ℕ}
  {s s' : Guarded} {ev : GuardEvent}

inductive Turn (g : ProcessGuardian) (c : Command) (fixed general : ℚ → String) (own root : ℕ)
    (s : Guarded) : GuardEvent → Guarded → Prop
  | host {e : HostEvent} {host : Host} (hhost : s.host.step own root e = some host) :
      Turn g c fixed general own root s (.host e) { s with host := host }
  | tick {clock : ℚ} (hclock : s.clock ≤ clock) :
      Turn g c fixed general own root s (.tick clock) { s with clock := clock }
  | output {line : String} (hreads : s.phase.reads = true) :
      Turn g c fixed general own root s (.output line)
        { s with telemetry := s.telemetry.readOutput line }
  | begin {pick : ℕ} (hphase : s.phase = .starting) :
      Turn g c fixed general own root s (.go pick) { s with phase := .polling }
  | exited {pick : ℕ} (hphase : s.phase = .polling) (hexited : (s.host.poll root).1 = true) :
      Turn g c fixed general own root s (.go pick) (s.settle g (s.host.poll root).2)
  | runs {pick : ℕ} (hphase : s.phase = .polling) (hexited : (s.host.poll root).1 = false) :
      Turn g c fixed general own root s (.go pick)
        { s with host := (s.host.poll root).2, phase := .draining }
  | drain {pick : ℕ} (hphase : s.phase = .draining) :
      Turn g c fixed general own root s (.go pick)
        { s with telemetry := s.telemetry.drain drainBatch, phase := .asking }
  | late {pick : ℕ} (hphase : s.phase = .timing) (hlate : c.timeoutSeconds ≤ s.clock - s.started) :
      Turn g c fixed general own root s (.go pick)
        { s with outcome := { s.outcome with timedOut := true }, phase := .terminate .settle }
  | early {pick : ℕ} (hphase : s.phase = .timing)
      (hearly : s.clock - s.started < c.timeoutSeconds) :
      Turn g c fixed general own root s (.go pick) { s with phase := .metering }
  | meter {pick : ℕ} (hphase : s.phase = .metering) :
      Turn g c fixed general own root s (.go pick)
        { s with nextMeasurement := s.clock + g.measureInterval, phase := .measuring }
  | undue {pick : ℕ} (hphase : s.phase = .metering) :
      Turn g c fixed general own root s (.go pick) (s.sleep g)
  | wake {pick : ℕ} {wake : ℚ} (hphase : s.phase = .sleeping wake) (hwake : wake ≤ s.clock) :
      Turn g c fixed general own root s (.go pick) { s with phase := .polling }
  | proceed {pick : ℕ} {e : Ending} {after : After} {next : Ending × Host}
      (hphase : s.phase = .ending e after)
      (hnext : e.step g own root s.clock pick s.host = some next) :
      Turn g c fixed general own root s (.go pick) (s.proceed g after next)
  | join {pick : ℕ} {deadline : ℚ} (hphase : s.phase = .waiting deadline)
      (hexited : (s.host.poll root).1 = true) :
      Turn g c fixed general own root s (.go pick)
        { s with host := (s.host.poll root).2, phase := .joining }
  | overstay {pick : ℕ} {deadline : ℚ} (hphase : s.phase = .waiting deadline) :
      Turn g c fixed general own root s (.go pick)
        { s with host := (s.host.poll root).2, phase := .ending (.killTree root) .reap }
  | reap {pick : ℕ} {aborted : Bool} (hphase : s.phase = .reaping aborted)
      (hexited : (s.host.poll root).1 = true) :
      Turn g c fixed general own root s (.go pick)
        { s with
          host := (s.host.poll root).2
          phase := if aborted then .raised else .joining }
  | finish {pick : ℕ} (hphase : s.phase = .joining) :
      Turn g c fixed general own root s (.go pick)
        { s with telemetry := s.telemetry.finalDrain, phase := .returned }
  | cancel (hphase : s.phase = .asking) (hcancellable : c.cancellable = true) :
      Turn g c fixed general own root s (.asked true)
        { s with outcome := { s.outcome with cancelled := true }, phase := .terminate .settle }
  | persist {cancel : Bool} (hphase : s.phase = .asking)
      (hcancel : (cancel && c.cancellable) = false) :
      Turn g c fixed general own root s (.asked cancel) { s with phase := .timing }
  | exceed {m : Measured} (hphase : s.phase = .measuring)
      (hbreach : (c.breach fixed general m).isSome = true) :
      Turn g c fixed general own root s (.measured m)
        { s with
          outcome := s.outcome.measure (c.breach fixed general m) m
          phase := .terminate .settle }
  | within {m : Measured} (hphase : s.phase = .measuring)
      (hbreach : c.breach fixed general m = none) :
      Turn g c fixed general own root s (.measured m)
        ({ s with outcome := s.outcome.measure none m }.sleep g)
  | interrupt {phase : Phase} (hphase : s.phase.interrupted = some phase) :
      Turn g c fixed general own root s .interrupt { s with phase := phase }

theorem go_turn {pick : ℕ} (hgo : s.go g c own root pick = some s') :
    Turn g c fixed general own root s (.go pick) s' := by
  unfold go at hgo
  split at hgo
  · next hphase =>
      cases hgo
      exact .begin hphase
  · next hphase =>
      cases hgo
      split
      · next hexited => exact .exited hphase hexited
      · next hexited => exact .runs hphase (Bool.not_eq_true _ ▸ hexited)
  · next hphase =>
      cases hgo
      exact .drain hphase
  · next hphase =>
      cases hgo
      split
      · next hlate => exact .late hphase hlate
      · next hlate => exact .early hphase (not_le.mp hlate)
  · next hphase =>
      cases hgo
      split
      · exact .meter hphase
      · exact .undue hphase
  · next hphase =>
      split at hgo
      · next hwake =>
          cases hgo
          exact .wake hphase hwake
      · cases hgo
  · next hphase =>
      obtain ⟨next, hnext, rfl⟩ := Option.map_eq_some_iff.mp hgo
      exact .proceed hphase hnext
  · next hphase =>
      split at hgo
      · next hexited =>
          cases hgo
          exact .join hphase hexited
      · split at hgo <;> cases hgo
        exact .overstay hphase
  · next hphase =>
      split at hgo
      · next hexited =>
          cases hgo
          exact .reap hphase hexited
      · cases hgo
  · next hphase =>
      cases hgo
      exact .finish hphase
  · cases hgo

theorem step_turn (hstep : s.step g c fixed general own root ev = some s') :
    Turn g c fixed general own root s ev s' := by
  cases ev with
  | host e =>
      obtain ⟨host, hhost, rfl⟩ := Option.map_eq_some_iff.mp hstep
      exact .host hhost
  | tick clock =>
      simp only [step, Option.ite_none_right_eq_some, Option.some.injEq] at hstep
      obtain ⟨hclock, rfl⟩ := hstep
      exact .tick hclock
  | output line =>
      simp only [step, Option.ite_none_right_eq_some, Option.some.injEq] at hstep
      obtain ⟨hreads, rfl⟩ := hstep
      exact .output hreads
  | go pick => exact go_turn hstep
  | asked cancel =>
      simp only [step] at hstep
      split at hstep
      · next hphase =>
          cases hstep
          split
          · next hcancel =>
              obtain ⟨rfl, hcancellable⟩ := Bool.and_eq_true_iff.mp hcancel
              exact .cancel hphase hcancellable
          · next hcancel => exact .persist hphase (Bool.not_eq_true _ ▸ hcancel)
      · cases hstep
  | measured m =>
      simp only [step] at hstep
      split at hstep
      · next hphase =>
          cases hstep
          split
          · next hbreach => exact .exceed hphase hbreach
          · next hbreach =>
              have hnone := Option.not_isSome_iff_eq_none.mp hbreach
              rw [hnone]
              exact .within hphase hnone
      · cases hstep
  | interrupt =>
      obtain ⟨phase, hphase, rfl⟩ := Option.map_eq_some_iff.mp hstep
      exact .interrupt hphase

end Guarded

end ChipEvolve.Guardian
