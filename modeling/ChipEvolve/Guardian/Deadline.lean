import ChipEvolve.Guardian.Cleanup
import Mathlib.Tactic.Linarith

/-!
# The deadline, the limits and the output

What a run of `ProcessGuardian.run` shows: how often it can go round before the deadline ends it,
what its outcome says, and which lines of the output the observer was given.
-/

namespace ChipEvolve.Guardian

open Machine

namespace GuardEvent

/-- One round of the loop asks once whether to cancel. -/
def isAsked : GuardEvent → Bool
  | .asked _ => true
  | _ => false

def written? : GuardEvent → Option String
  | .output line => some line
  | _ => none

def measured? : GuardEvent → Option Measured
  | .measured m => some m
  | _ => none

end GuardEvent

/-- The rounds of the loop. -/
def rounds (events : List GuardEvent) : ℕ := events.countP GuardEvent.isAsked

def written (events : List GuardEvent) : List String := events.filterMap GuardEvent.written?

def measurements (events : List GuardEvent) : List Measured :=
  events.filterMap GuardEvent.measured?

theorem rounds_concat (events : List GuardEvent) (ev : GuardEvent) :
    rounds (events ++ [ev]) = rounds events + if ev.isAsked then 1 else 0 := by
  simp [rounds, List.countP_append, List.countP_singleton]

theorem written_concat (events : List GuardEvent) (ev : GuardEvent) :
    written (events ++ [ev]) = written events ++ ev.written?.toList := by
  rw [written, List.filterMap_append]
  cases ev <;> rfl

theorem measurements_concat (events : List GuardEvent) (ev : GuardEvent) :
    measurements (events ++ [ev]) = measurements events ++ ev.measured?.toList := by
  rw [measurements, List.filterMap_append]
  cases ev <;> rfl

/-- How many reasons the outcome gives for a termination. -/
def Outcome.reasons (o : Outcome) : ℕ :=
  o.timedOut.toNat + o.cancelled.toNat + o.exceeded.isSome.toNat

theorem Outcome.reasons_eq_zero {o : Outcome} (h : o.reasons = 0) :
    o.timedOut = false ∧ o.cancelled = false ∧ o.exceeded = none := by
  obtain ⟨timedOut, cancelled, exceeded, _⟩ := o
  cases timedOut <;> cases cancelled <;> cases exceeded <;> simp_all [Outcome.reasons]

/-! ## The output -/

/-- The log is complete, and the observer and the queue have its lines in order, but for the ones
that found the queue full. -/
structure Telemetry.Kept (written : List String) (t : Telemetry) : Prop where
  log : t.log = written
  inOrder : (t.drained ++ t.lines).Sublist written
  lost : written.length = (t.drained ++ t.lines).length + t.dropped

namespace Telemetry.Kept

variable {lines : List String} {line : String} {t : Telemetry} {n : ℕ}

theorem readOutput (h : t.Kept lines) : (t.readOutput line).Kept (lines ++ [line]) := by
  unfold Telemetry.readOutput
  split
  · exact
      { log := congrArg (· ++ [line]) h.log
        inOrder := by
          rw [← List.append_assoc]
          exact h.inOrder.append (List.Sublist.refl _)
        lost := by
          have := h.lost
          simp only [List.length_append, List.length_singleton] at this ⊢
          omega }
  · exact
      { log := congrArg (· ++ [line]) h.log
        inOrder := h.inOrder.trans (List.sublist_append_left _ _)
        lost := by
          have := h.lost
          simp only [List.length_append, List.length_singleton] at this ⊢
          omega }

theorem append_drain : (t.drain n).drained ++ (t.drain n).lines = t.drained ++ t.lines := by
  simp [Telemetry.drain]

theorem drain (h : t.Kept lines) : (t.drain n).Kept lines where
  log := h.log
  inOrder := by
    rw [append_drain]
    exact h.inOrder
  lost := by
    rw [append_drain]
    exact h.lost

theorem finalDrain (h : t.Kept lines) : t.finalDrain.Kept lines := by
  obtain ⟨hlog, hinOrder, hlost⟩ := h.drain (n := finalDrainBatch)
  exact ⟨hlog, hinOrder, hlost⟩

/-- Where the queue was never full, nothing is missing. -/
theorem eq_of_dropped (h : t.Kept lines) (hdropped : t.dropped = 0) :
    t.drained ++ t.lines = lines :=
  h.inOrder.eq_of_length (by have := h.lost; omega)

end Telemetry.Kept

theorem Telemetry.lines_finalDrain {t : Telemetry} (h : t.finalDrain.truncated = false) :
    t.finalDrain.lines = [] := by
  simp only [finalDrain, List.length_take, decide_eq_false_iff_not] at h
  exact List.drop_eq_nil_of_le (by omega)

namespace Phase

/-- How many of the rounds that were begun the loop has not slept after, while it runs. -/
def owed : Phase → Option ℚ
  | starting | polling | draining | asking | sleeping _ => some 0
  | timing | metering | measuring => some 1
  | _ => none

/-- The deadline was not reached in the last round that looked at the clock. -/
def inTime : Phase → Bool
  | starting | polling | draining | asking | sleeping _ | metering | measuring => true
  | _ => false

/-- What the clock shows when the loop goes on. -/
def reached (clock : ℚ) : Phase → ℚ
  | sleeping wake => wake
  | _ => clock

/-- How many lines may have been drained beyond those of the rounds that were begun. -/
def ahead : Phase → ℕ
  | starting | polling | draining | timing | metering | measuring | sleeping _ => 0
  | returned => drainBatch + finalDrainBatch
  | _ => drainBatch

theorem reached_mono {phase : Phase} {a b : ℚ} (h : a ≤ b) : phase.reached a ≤ phase.reached b := by
  cases phase with
  | sleeping wake => exact le_refl wake
  | _ => exact h

theorem inTime_of_owed {phase : Phase} (h : phase.inTime = true) : phase.owed.isSome = true := by
  cases phase <;> first | rfl | cases h

theorem owed_handler {after : After} : (handler after).owed = none := by
  cases after <;> rfl

theorem ahead_handler {after : After} : (handler after).ahead = drainBatch := by
  cases after <;> rfl

theorem ahead_interrupted {phase next : Phase} (h : phase.interrupted = some next) :
    phase.ahead ≤ drainBatch ∧ next.ahead = drainBatch := by
  unfold interrupted at h
  split at h <;> cases h <;>
    first
    | exact ⟨Nat.zero_le _, rfl⟩
    | exact ⟨Nat.le_refl _, rfl⟩
    | exact ⟨Nat.le_refl _, ahead_handler⟩

/-- The command's process is no longer waited for. -/
def joined : Phase → Bool
  | joining | returned => true
  | _ => false

theorem joined_handler {after : After} : (handler after).joined = false := by
  cases after <;> rfl

theorem joined_interrupted {phase next : Phase} (h : phase.interrupted = some next) :
    next.joined = false := by
  unfold interrupted at h
  split at h <;> cases h <;> first | rfl | exact joined_handler

theorem owed_interrupted {phase next : Phase} (h : phase.interrupted = some next) :
    next.owed = none := by
  unfold interrupted at h
  split at h <;> cases h <;> first | rfl | exact owed_handler

end Phase

namespace Guarded

variable {g : ProcessGuardian} {c : Command} {fixed general : ℚ → String} {own root : ℕ}
  {s s' : Guarded} {ev : GuardEvent} {events : List GuardEvent}

/-- Ending a tree changes the host and the phase. -/
theorem frame_proceed {after : After} {next : Ending × Host} :
    (s.proceed g after next).clock = s.clock ∧ (s.proceed g after next).started = s.started ∧
      (s.proceed g after next).outcome = s.outcome ∧
        (s.proceed g after next).telemetry = s.telemetry := by
  unfold proceed
  split
  · cases after <;> exact ⟨rfl, rfl, rfl, rfl⟩
  · exact ⟨rfl, rfl, rfl, rfl⟩
  · exact ⟨rfl, rfl, rfl, rfl⟩

theorem kept_step (h : s.telemetry.Kept (written events))
    (hstep : s.step g c fixed general own root ev = some s') :
    s'.telemetry.Kept (written (events ++ [ev])) := by
  rw [written_concat]
  cases step_turn hstep with
  | output => exact h.readOutput
  | drain => simpa [GuardEvent.written?] using h.drain
  | finish => simpa [GuardEvent.written?] using h.finalDrain
  | proceed =>
      rw [frame_proceed.2.2.2]
      simpa [GuardEvent.written?] using h
  | _ => simpa [GuardEvent.written?, settle, sleep] using h

/-! ## The rounds -/

theorem owed_proceed {after : After} {next : Ending × Host} :
    (s.proceed g after next).phase.owed = none := by
  unfold proceed
  split
  · cases after <;> rfl
  · exact Phase.owed_handler
  · rfl

/-- The loop sleeps once in each of its rounds, and goes to sleep before the deadline only; `n` is
the number of rounds that were begun. -/
structure Paced (g : ProcessGuardian) (c : Command) (n : ℚ) (s : Guarded) : Prop where
  clock : s.started ≤ s.clock
  bound : (n - 2) * g.pollInterval < c.timeoutSeconds
  slept : ∀ k, s.phase.owed = some k →
    (n - k) * g.pollInterval ≤ s.phase.reached s.clock - s.started
  inTime : s.phase.inTime = true → (n - 1) * g.pollInterval < c.timeoutSeconds

namespace Paced

variable {n : ℚ}

theorem start (host : Host) (clock : ℚ) : (Guarded.start host clock).Paced g c 0 where
  clock := le_refl clock
  bound := by linarith [g.poll_pos, c.timeout_pos]
  slept := by
    rintro k ⟨⟩
    simp [Guarded.start, Phase.reached]
  inTime := fun _ ↦ by linarith [g.poll_pos, c.timeout_pos]

theorem leave (h : s.Paced g c n) (hclock : s'.clock = s.clock) (hstarted : s'.started = s.started)
    (howed : s'.phase.owed = none) : s'.Paced g c n where
  clock := by
    rw [hclock, hstarted]
    exact h.clock
  bound := h.bound
  slept := fun k hk ↦ by cases howed.symm.trans hk
  inTime := by
    intro hinTime
    have := Phase.inTime_of_owed hinTime
    rw [howed] at this
    cases this

/-- Within a round. -/
theorem move (h : s.Paced g c n) (hclock : s'.clock = s.clock) (hstarted : s'.started = s.started)
    (howed : s'.phase.owed = s.phase.owed)
    (hreached : s'.phase.reached s.clock = s.phase.reached s.clock)
    (hinTime : s.phase.inTime = true) : s'.Paced g c n where
  clock := by
    rw [hclock, hstarted]
    exact h.clock
  bound := h.bound
  slept := by
    intro k hk
    rw [hclock, hstarted, hreached]
    exact h.slept k (howed ▸ hk)
  inTime := fun _ ↦ h.inTime hinTime

theorem sleep (h : s.Paced g c n) (howed : s.phase.owed = some 1)
    (hreached : s.phase.reached s.clock = s.clock) (hinTime : s.phase.inTime = true) :
    (s.sleep g).Paced g c n where
  clock := h.clock
  bound := h.bound
  slept := by
    rintro k ⟨⟩
    have hslept := h.slept 1 howed
    rw [hreached] at hslept
    simp only [Guarded.sleep, Phase.reached]
    linarith
  inTime := fun _ ↦ h.inTime hinTime

/-- A round begins: the loop has slept after the one before. -/
theorem ask (h : s.Paced g c n) (hphase : s.phase = .asking) (hstarted : s'.started = s.started)
    (hclock : s'.clock = s.clock) (howed : ∀ k, s'.phase.owed = some k → k = 1 ∧
      s'.phase.reached s'.clock = s'.clock) (hinTime : s'.phase.inTime = false) :
    s'.Paced g c (n + 1) where
  clock := by
    rw [hclock, hstarted]
    exact h.clock
  bound := by linarith [h.inTime (congrArg Phase.inTime hphase)]
  slept := by
    intro k hk
    obtain ⟨rfl, hreached⟩ := howed k hk
    have hslept := h.slept 0 (congrArg Phase.owed hphase)
    simp only [hphase, Phase.reached] at hslept
    rw [hreached, hclock, hstarted]
    linarith
  inTime := fun htrue ↦ by cases hinTime.symm.trans htrue

theorem step (h : s.Paced g c n) (hstep : s.step g c fixed general own root ev = some s') :
    s'.Paced g c (if ev.isAsked then n + 1 else n) := by
  cases step_turn hstep with
  | host | output => exact ⟨h.clock, h.bound, h.slept, h.inTime⟩
  | tick hclock =>
      refine ⟨h.clock.trans hclock, h.bound, fun k hk ↦ ?_, h.inTime⟩
      have hreached := @Phase.reached_mono s.phase _ _ hclock
      exact (h.slept k hk).trans (by linarith)
  | begin hphase | runs hphase | drain hphase | meter hphase =>
      exact h.move rfl rfl (congrArg Phase.owed hphase).symm
        (congrArg (Phase.reached s.clock) hphase).symm (congrArg Phase.inTime hphase)
  | wake hphase hwake =>
      refine ⟨h.clock, h.bound, ?_, fun _ ↦ h.inTime (congrArg Phase.inTime hphase)⟩
      rintro k ⟨⟩
      have hslept := h.slept 0 (congrArg Phase.owed hphase)
      simp only [hphase, Phase.reached] at hslept
      exact hslept.trans (sub_le_sub_right hwake _)
  | early hphase hearly =>
      have hslept := h.slept 1 (congrArg Phase.owed hphase)
      simp only [hphase, Phase.reached] at hslept
      refine ⟨h.clock, h.bound, ?_, fun _ ↦ hslept.trans_lt hearly⟩
      rintro k ⟨⟩
      exact hslept
  | undue hphase =>
      exact h.sleep (congrArg Phase.owed hphase) (congrArg (Phase.reached s.clock) hphase)
        (congrArg Phase.inTime hphase)
  | within hphase =>
      have hsleep := h.sleep (congrArg Phase.owed hphase)
        (congrArg (Phase.reached s.clock) hphase) (congrArg Phase.inTime hphase)
      exact ⟨hsleep.clock, hsleep.bound, hsleep.slept, hsleep.inTime⟩
  | cancel hphase =>
      exact h.ask hphase rfl rfl (fun k hk ↦ by cases hk) rfl
  | persist hphase =>
      refine h.ask hphase rfl rfl (fun k hk ↦ ?_) rfl
      obtain rfl := Option.some.inj hk
      exact ⟨rfl, rfl⟩
  | proceed =>
      exact h.leave frame_proceed.1 frame_proceed.2.1 owed_proceed
  | reap =>
      refine h.leave rfl rfl ?_
      split <;> rfl
  | interrupt hphase => exact h.leave rfl rfl (Phase.owed_interrupted hphase)
  | exited | late | join | overstay | finish | exceed => exact h.leave rfl rfl rfl

end Paced

theorem ahead_proceed {after : After} {next : Ending × Host} :
    (s.proceed g after next).phase.ahead = drainBatch := by
  unfold proceed
  split
  · cases after <;> rfl
  · exact Phase.ahead_handler
  · rfl

/-- A round drains one batch, and the end of the run another. -/
theorem drained_step {n : ℕ} (h : s.telemetry.drained.length ≤ drainBatch * n + s.phase.ahead)
    (hstep : s.step g c fixed general own root ev = some s') :
    s'.telemetry.drained.length ≤
      drainBatch * (if ev.isAsked then n + 1 else n) + s'.phase.ahead := by
  have htake : ∀ k, (s.telemetry.drain k).drained.length ≤ s.telemetry.drained.length + k := by
    intro k
    simp only [Telemetry.drain, List.length_append, List.length_take]
    omega
  cases step_turn hstep with
  | host | tick => exact h
  | output =>
      simp only [Telemetry.readOutput]
      split <;> exact h
  | drain hphase =>
      rw [hphase] at h
      exact (htake drainBatch).trans (Nat.add_le_add_right h _)
  | finish hphase =>
      rw [hphase] at h
      exact (htake finalDrainBatch).trans (Nat.add_le_add_right h _)
  | proceed hphase =>
      rw [hphase] at h
      rw [frame_proceed.2.2.2, ahead_proceed]
      exact h
  | interrupt hphase =>
      obtain ⟨hbefore, hafter⟩ := Phase.ahead_interrupted hphase
      exact h.trans (Nat.add_le_add_left (hafter ▸ hbefore) _)
  | cancel hphase | persist hphase =>
      simp only [hphase, Phase.ahead, GuardEvent.isAsked, Phase.terminate] at h ⊢
      exact h.trans (Nat.le_add_right _ _)
  | begin hphase | runs hphase | early hphase | meter hphase | undue hphase | wake hphase
  | within hphase | join hphase | overstay hphase =>
      rw [hphase] at h
      exact h
  | reap hphase =>
      rw [hphase] at h
      exact h.trans (Nat.add_le_add_left (by split <;> exact Nat.le_refl _) _)
  | exited hphase | late hphase | exceed hphase =>
      rw [hphase] at h
      exact h.trans (Nat.add_le_add_left (Nat.zero_le _) _)

/-! ## The outcome -/

/-- What the outcome says after these events. -/
structure Truthful (c : Command) (fixed general : ℚ → String) (events : List GuardEvent)
    (s : Guarded) : Prop where
  late : s.outcome.timedOut = true → c.timeoutSeconds ≤ s.clock - s.started
  cancelled : s.outcome.cancelled = true ↔ c.cancellable = true ∧ .asked true ∈ events
  exceeded : s.outcome.exceeded =
    (measurements events).getLast?.bind (c.breach fixed general)
  earlier : ∀ m ∈ (measurements events).dropLast, c.breach fixed general m = none
  peak : s.outcome.peak = (measurements events).foldl Guardian.peak ⟨0, 0, 0⟩
  single : s.outcome.reasons ≤ 1
  quiet : s.phase.owed.isSome = true → s.outcome.reasons = 0

namespace Truthful

theorem start (host : Host) (clock : ℚ) :
    (Guarded.start host clock).Truthful c fixed general [] where
  late := nofun
  cancelled := iff_of_false nofun fun h ↦ List.not_mem_nil h.2
  exceeded := rfl
  earlier := List.forall_mem_nil _
  peak := rfl
  single := Nat.zero_le 1
  quiet := fun _ ↦ rfl

/-- A step that leaves the outcome alone. -/
theorem keep (h : s.Truthful c fixed general events) (houtcome : s'.outcome = s.outcome)
    (hclock : s.clock - s.started ≤ s'.clock - s'.started) (hmeasured : ev.measured? = none)
    (hasked : ev = .asked true → c.cancellable = false)
    (howed : s'.phase.owed.isSome = true → s.phase.owed.isSome = true) :
    s'.Truthful c fixed general (events ++ [ev]) where
  late := by
    rw [houtcome]
    exact fun hlate ↦ (h.late hlate).trans hclock
  cancelled := by
    rw [houtcome, h.cancelled, List.mem_append, List.mem_singleton]
    refine and_congr_right fun hcancellable ↦ ⟨.inl, fun hmem ↦ hmem.resolve_right fun heq ↦ ?_⟩
    rw [hasked heq.symm] at hcancellable
    cases hcancellable
  exceeded := by
    rw [houtcome, measurements_concat, hmeasured]
    simpa using h.exceeded
  earlier := by
    rw [measurements_concat, hmeasured]
    simpa using h.earlier
  peak := by
    rw [houtcome, measurements_concat, hmeasured]
    simpa using h.peak
  single := houtcome ▸ h.single
  quiet := fun hloops ↦ houtcome ▸ h.quiet (howed hloops)

/-- While the loop runs, no measurement was past a limit. -/
theorem within_limits (h : s.Truthful c fixed general events)
    (hloops : s.phase.owed.isSome = true) :
    ∀ m ∈ measurements events, c.breach fixed general m = none := by
  obtain ⟨_, _, hexceeded⟩ := Outcome.reasons_eq_zero (h.quiet hloops)
  intro m hm
  rcases List.eq_nil_or_concat (measurements events) with hnil | ⟨before, last, hconcat⟩
  · rw [hnil] at hm
    cases hm
  · have hlast := h.exceeded.symm.trans hexceeded
    have hearlier := h.earlier
    rw [hconcat] at hm hlast hearlier
    simp only [List.concat_eq_append, List.getLast?_concat, List.dropLast_concat,
      Option.bind_some] at hlast hearlier hm
    rcases List.mem_append.mp hm with hm | hm
    · exact hearlier m hm
    · rwa [List.mem_singleton.mp hm]

theorem measure (h : s.Truthful c fixed general events) (hloops : s.phase.owed.isSome = true)
    {m : Measured} (houtcome : s'.outcome = s.outcome.measure (c.breach fixed general m) m)
    (howed : (c.breach fixed general m).isSome = true → s'.phase.owed = none) :
    s'.Truthful c fixed general (events ++ [.measured m]) := by
  obtain ⟨htimedOut, hcancelled, _⟩ := Outcome.reasons_eq_zero (h.quiet hloops)
  have hconcat : measurements (events ++ [.measured m]) = measurements events ++ [m] :=
    measurements_concat events (.measured m)
  have hreasons : s'.outcome.reasons = (c.breach fixed general m).isSome.toNat := by
    rw [houtcome]
    simp [Outcome.reasons, Outcome.measure, htimedOut, hcancelled]
  exact
    { late := by
        rw [houtcome]
        intro hlate
        cases htimedOut.symm.trans hlate
      cancelled := by
        rw [houtcome]
        simpa [Outcome.measure] using h.cancelled
      exceeded := by
        rw [houtcome, hconcat, List.getLast?_concat]
        rfl
      earlier := by
        rw [hconcat, List.dropLast_concat]
        exact h.within_limits hloops
      peak := by
        rw [houtcome, hconcat, List.foldl_concat, ← h.peak]
        rfl
      single := by
        rw [hreasons]
        exact Bool.toNat_le _
      quiet := by
        intro hloops'
        rw [hreasons]
        cases hbreach : (c.breach fixed general m).isSome with
        | false => rfl
        | true =>
            rw [howed hbreach] at hloops'
            cases hloops' }

theorem expire (h : s.Truthful c fixed general events) (hphase : s.phase = .timing)
    (hlate : c.timeoutSeconds ≤ s.clock - s.started) (pick : ℕ) :
    Truthful c fixed general (events ++ [.go pick])
      { s with outcome := { s.outcome with timedOut := true }, phase := .terminate .settle } := by
  have hloops := congrArg (fun phase ↦ phase.owed.isSome) hphase
  obtain ⟨_, hcancelled, hexceeded⟩ := Outcome.reasons_eq_zero (h.quiet hloops)
  have hkeep : Truthful c fixed general (events ++ [.go pick])
      { s with phase := .terminate .settle } :=
    h.keep rfl (le_refl _) rfl nofun nofun
  exact
    { late := fun _ ↦ hlate
      cancelled := hkeep.cancelled
      exceeded := hkeep.exceeded
      earlier := hkeep.earlier
      peak := hkeep.peak
      single := by simp [Outcome.reasons, hcancelled, hexceeded]
      quiet := nofun }

theorem cancel (h : s.Truthful c fixed general events) (hphase : s.phase = .asking)
    (hcancellable : c.cancellable = true) :
    Truthful c fixed general (events ++ [.asked true])
      { s with outcome := { s.outcome with cancelled := true }, phase := .terminate .settle } := by
  have hloops := congrArg (fun phase ↦ phase.owed.isSome) hphase
  obtain ⟨htimedOut, _, hexceeded⟩ := Outcome.reasons_eq_zero (h.quiet hloops)
  have hconcat : measurements (events ++ [.asked true]) = measurements events := by
    rw [measurements_concat]
    exact List.append_nil _
  exact
    { late := h.late
      cancelled := iff_of_true rfl
        ⟨hcancellable, List.mem_append_right _ (List.mem_singleton_self _)⟩
      exceeded := hconcat ▸ h.exceeded
      earlier := hconcat ▸ h.earlier
      peak := hconcat ▸ h.peak
      single := by simp [Outcome.reasons, htimedOut, hexceeded]
      quiet := nofun }

theorem step (h : s.Truthful c fixed general events)
    (hstep : s.step g c fixed general own root ev = some s') :
    s'.Truthful c fixed general (events ++ [ev]) := by
  cases step_turn hstep with
  | host | output => exact h.keep rfl (le_refl _) rfl nofun id
  | tick hclock => exact h.keep rfl (sub_le_sub_right hclock _) rfl nofun id
  | begin hphase | runs hphase | drain hphase | wake hphase | early hphase | meter hphase
  | undue hphase =>
      exact h.keep rfl (le_refl _) rfl nofun fun _ ↦ congrArg (fun phase ↦ phase.owed.isSome) hphase
  | exited | join | overstay | finish => exact h.keep rfl (le_refl _) rfl nofun nofun
  | interrupt hphase =>
      refine h.keep rfl (le_refl _) rfl nofun fun hloops ↦ ?_
      rw [Phase.owed_interrupted hphase] at hloops
      cases hloops
  | proceed =>
      obtain ⟨hclock, hstarted, houtcome, _⟩ := @frame_proceed g s _ _
      refine h.keep houtcome (by rw [hclock, hstarted]) rfl nofun fun hloops ↦ ?_
      rw [owed_proceed] at hloops
      cases hloops
  | reap =>
      refine h.keep rfl (le_refl _) rfl nofun fun hloops ↦ ?_
      split at hloops <;> cases hloops
  | exceed hphase =>
      exact h.measure (congrArg (fun phase ↦ phase.owed.isSome) hphase) rfl fun _ ↦ rfl
  | within hphase hbreach =>
      refine h.measure (congrArg (fun phase ↦ phase.owed.isSome) hphase) ?_ fun hsome ↦ ?_
      · rw [hbreach]
        rfl
      · rw [hbreach] at hsome
        cases hsome
  | persist hphase hcancel =>
      refine h.keep rfl (le_refl _) rfl (fun heq ↦ ?_) fun _ ↦
        congrArg (fun phase ↦ phase.owed.isSome) hphase
      obtain rfl := GuardEvent.asked.inj heq
      simpa using hcancel
  | late hphase hlate => exact h.expire hphase hlate _
  | cancel hphase hcancellable => exact h.cancel hphase hcancellable

end Truthful

/-! ## The end of the run -/

theorem joined_proceed {after : After} {next : Ending × Host} :
    (s.proceed g after next).phase.joined = false := by
  unfold proceed
  split
  · cases after <;> rfl
  · exact Phase.joined_handler
  · rfl

/-- The command's process has been waited for when the outcome is put together. -/
structure Reaped (own root : ℕ) (s : Guarded) : Prop where
  wellFormed : s.host.WellFormed own
  given : root ∈ s.host.given
  gone : s.phase.joined = true → root ∉ s.host.pids

theorem Reaped.step (h : s.Reaped own root)
    (hstep : s.step g c fixed general own root ev = some s') : s'.Reaped own root := by
  obtain ⟨hlater, hwell⟩ := host_of_step h.wellFormed hstep
  refine ⟨hwell, hlater.given h.given, fun hjoined hroot ↦ ?_⟩
  cases step_turn hstep with
  | host => exact h.gone hjoined (hlater.listed root h.given hroot)
  | tick | output => exact h.gone hjoined hroot
  | finish hphase => exact h.gone (congrArg Phase.joined hphase) hroot
  | join _ hexited | reap _ hexited => exact Host.not_mem_of_poll h.wellFormed.nodup hexited hroot
  | proceed =>
      rw [joined_proceed] at hjoined
      cases hjoined
  | interrupt hphase =>
      rw [Phase.joined_interrupted hphase] at hjoined
      cases hjoined
  | _ => cases hjoined

/-- The final drain empties the queue, or the log says otherwise. -/
def Emptied (s : Guarded) : Prop :=
  s.phase = .returned → s.telemetry.truncated = false → s.telemetry.lines = []

theorem Emptied.step (h : s.Emptied) (hstep : s.step g c fixed general own root ev = some s') :
    s'.Emptied := by
  intro hphase htruncated
  cases step_turn hstep with
  | host | tick => exact h hphase htruncated
  | output hreads =>
      rw [show s.phase = .returned from hphase] at hreads
      cases hreads
  | finish => exact Telemetry.lines_finalDrain htruncated
  | proceed => cases joined_proceed.symm.trans (congrArg Phase.joined hphase)
  | reap =>
      simp only at hphase
      split at hphase <;> cases hphase
  | interrupt hinterrupted =>
      cases (Phase.joined_interrupted hinterrupted).symm.trans (congrArg Phase.joined hphase)
  | _ => cases hphase

/-- What `run` shows when it has returned, after these events. -/
structure Accounts (g : ProcessGuardian) (c : Command) (fixed general : ℚ → String) (root : ℕ)
    (events : List GuardEvent) (s : Guarded) : Prop where
  rounds : ((rounds events : ℚ) - 2) * g.pollInterval < c.timeoutSeconds
  drained : s.telemetry.drained.length ≤ drainBatch * (Guardian.rounds events + 1) + finalDrainBatch
  telemetry : s.telemetry.Kept (written events)
  queued : s.telemetry.dropped = 0 → s.telemetry.drained ++ s.telemetry.lines = written events
  complete : s.phase = .returned → s.telemetry.dropped = 0 → s.telemetry.truncated = false →
    s.telemetry.drained = written events
  outcome : s.Truthful c fixed general events
  reaped : s.phase = .returned → root ∉ s.host.pids

end Guarded

namespace Sample

end Sample

end ChipEvolve.Guardian
