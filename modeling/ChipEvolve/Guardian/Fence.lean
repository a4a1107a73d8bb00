import ChipEvolve.Machine
import ChipEvolve.Store.Methods
import Mathlib.Data.Finset.Basic
import Mathlib.Logic.Function.Basic

/-!
# The fence around an expired attempt

`fence_expired_process` and `_alive` (`runtime/process_fence.py`) as a program
of single observations.  Between any two of them the processes of the host may
fork, exit, be waited for or leave their group.  What a signal does to a process
is among the things that may happen: a process may outlive any of them.
-/

namespace ChipEvolve

open Machine

/-! ## The program -/

/-- The calls of `_alive`, in the order of the text. -/
inductive FenceCheck
  | first
  | refused
  | polling
  | last
  deriving DecidableEq

/-- Where `fence_expired_process` stands. -/
inductive Fence
  | reading (check : FenceCheck)
  | probing (check : FenceCheck)
  | terminating
  | waiting
  | killing
  | returned (gone : Bool)
  | raised
  deriving DecidableEq

/-- What a process shows of itself in `/proc/{pid}/stat`. -/
structure ProcessStat where
  zombie : Bool
  startTicks : Int

namespace Fence

/-- What the function does with an answer of `_alive`. -/
def answered (alive : Bool) : FenceCheck → Fence
  | .first => if alive then terminating else returned true
  | .refused => returned !alive
  | .polling => if alive then waiting else returned true
  | .last => returned !alive

/-- `_alive(row)` begins. -/
def ask (row : ExpiredAttempt) (check : FenceCheck) : Fence :=
  if row.processId.isNone && row.processGroupId.isNone then answered false check
  else if row.processId.isSome && row.processStartTicks.isSome then reading check
  else probing check

def start (row : ExpiredAttempt) : Fence := ask row .first

/-- The file shows the recorded process, and not as a zombie. -/
def shows (row : ExpiredAttempt) (stat : Option ProcessStat) : Bool :=
  stat.any fun s ↦ !s.zombie && some s.startTicks = row.processStartTicks

/-- One observation or signal.  `stat` is what the file of the recorded process holds, `killpg`
whether a signal to the recorded group is accepted, and `late` whether the deadline is past. -/
def step (row : ExpiredAttempt) (stat : Option ProcessStat) (killpg late : Bool) : Fence → Fence
  | reading check => if shows row stat then probing check else answered false check
  | probing check => if row.processGroupId.isNone then raised else answered killpg check
  | terminating => if killpg then waiting else ask row .refused
  | waiting => if late then killing else ask row .polling
  | killing => ask row .last
  | returned gone => returned gone
  | raised => raised

/-- The next step sends a signal that may end a process. -/
def signals : Fence → Bool
  | terminating | killing => true
  | _ => false

end Fence

/-! ## The processes of the host -/

/-- A process, with its group, whether the caller may signal it, and whether the caller can read
its `stat` file: the name in it may be bytes that no text has. -/
structure GroupProcess where
  group : Int
  startTicks : Int
  zombie : Bool := false
  signalable : Bool := true
  readable : Bool := true

structure Processes where
  pids : Finset Int
  proc : Int → GroupProcess

/-- What happens to the processes of the host. -/
inductive ProcessEvent
  | fork (parent child startTicks : Int)
  | exit (pid : Int)
  | reap (pid : Int)
  | regroup (pid group : Int)
  | setuid (pid : Int) (signalable : Bool)
  | rename (pid : Int) (readable : Bool)

namespace Processes

/-- A process of the group that has not exited. -/
def LiveIn (w : Processes) (group pid : Int) : Prop :=
  pid ∈ w.pids ∧ (w.proc pid).group = group ∧ (w.proc pid).zombie = false

instance (w : Processes) (group pid : Int) : Decidable (w.LiveIn group pid) :=
  inferInstanceAs (Decidable (_ ∧ _ ∧ _))

/-- No live process is a member of the group. -/
def Gone (w : Processes) (group : Int) : Prop := ∀ pid ∈ w.pids, ¬w.LiveIn group pid

instance (w : Processes) (group : Int) : Decidable (w.Gone group) :=
  inferInstanceAs (Decidable (∀ pid ∈ w.pids, _))

/-- `/proc/{pid}/stat`, when it is there and its text can be read. -/
def stat (w : Processes) (pid : Int) : Option ProcessStat :=
  if pid ∈ w.pids ∧ (w.proc pid).readable = true then
    some ⟨(w.proc pid).zombie, (w.proc pid).startTicks⟩
  else none

/-- `os.killpg` finds a process of the group that the caller may signal. -/
def killpg (w : Processes) (group : Int) : Bool :=
  decide (∃ pid ∈ w.pids, (w.proc pid).group = group ∧ (w.proc pid).signalable = true)

def modify (w : Processes) (pid : Int) (f : GroupProcess → GroupProcess) : Processes :=
  ⟨w.pids, Function.update w.proc pid (f (w.proc pid))⟩

/-- One event, while the number `reserved` is not used again; a child is new and is what its
parent is. -/
def step (reserved : Int) (w : Processes) : ProcessEvent → Option Processes
  | .fork parent child startTicks =>
      if parent ∈ w.pids ∧ (w.proc parent).zombie = false ∧ child ∉ w.pids ∧ child ≠ reserved then
        some ⟨insert child w.pids, Function.update w.proc child
          { w.proc parent with startTicks := startTicks }⟩
      else none
  | .exit pid => if pid ∈ w.pids then some (w.modify pid ({ · with zombie := true })) else none
  | .reap pid =>
      if pid ∈ w.pids ∧ (w.proc pid).zombie = true then some ⟨w.pids.erase pid, w.proc⟩ else none
  | .regroup pid group =>
      if pid ∈ w.pids then some (w.modify pid ({ · with group := group })) else none
  | .setuid pid signalable =>
      if pid ∈ w.pids then some (w.modify pid ({ · with signalable := signalable })) else none
  | .rename pid readable =>
      if pid ∈ w.pids then some (w.modify pid ({ · with readable := readable })) else none

variable {w w' : Processes} {pid : Int} {e : ProcessEvent}

/-- The recorded number belongs to the recorded process. -/
def Identified (pid startTicks : Int) (w : Processes) : Prop :=
  pid ∈ w.pids → (w.proc pid).startTicks = startTicks

instance (pid startTicks : Int) (w : Processes) : Decidable (w.Identified pid startTicks) :=
  inferInstanceAs (Decidable (_ → _))

theorem modify_identified {startTicks other : Int} {f : GroupProcess → GroupProcess}
    (hf : ∀ q, (f q).startTicks = q.startTicks) (h : w.Identified pid startTicks) :
    (w.modify other f).Identified pid startTicks := by
  intro hpid
  change (Function.update w.proc other (f (w.proc other)) pid).startTicks = startTicks
  by_cases hother : pid = other
  · subst hother
    rw [Function.update_self, hf]
    exact h hpid
  · rw [Function.update_of_ne hother]
    exact h hpid

theorem step_identified {startTicks : Int} (h : w.Identified pid startTicks)
    (hstep : w.step pid e = some w') : w'.Identified pid startTicks := by
  cases e with
  | fork parent child ticks =>
      simp only [step, Option.ite_none_right_eq_some, Option.some.injEq] at hstep
      obtain ⟨⟨_, _, _, hne⟩, rfl⟩ := hstep
      intro hpid
      have hold : pid ∈ w.pids := Finset.mem_of_mem_insert_of_ne hpid hne.symm
      simpa [Function.update_of_ne hne.symm] using h hold
  | exit p | regroup p group | setuid p signalable | rename p readable =>
      simp only [step, Option.ite_none_right_eq_some, Option.some.injEq] at hstep
      obtain ⟨_, rfl⟩ := hstep
      exact modify_identified (fun _ ↦ rfl) h
  | reap p =>
      simp only [step, Option.ite_none_right_eq_some, Option.some.injEq] at hstep
      obtain ⟨_, rfl⟩ := hstep
      exact fun hpid ↦ h (Finset.mem_of_mem_erase hpid)

end Processes

/-! ## The fence among the processes -/

/-- The columns of a row that recorded its process. -/
structure RecordedProcess where
  pid : Int
  group : Int
  startTicks : Int

/-- An expired attempt with the process it recorded. -/
def RecordedProcess.row (p : RecordedProcess) (attemptId : AttemptId) (runId : RunId) :
    ExpiredAttempt :=
  ⟨attemptId, some p.pid, some p.group, some p.startTicks, runId⟩

/-- The processes, and where the fence around one of them stands. -/
structure Watch where
  host : Processes
  fence : Fence

inductive WatchStep
  | event (e : ProcessEvent)
  | observe (late : Bool)

namespace Watch

/-- The host moves, or the fence makes its next observation of it. -/
def step (p : RecordedProcess) (row : ExpiredAttempt) (s : Watch) : WatchStep → Option Watch
  | .event e => (s.host.step p.pid e).map fun host ↦ { s with host := host }
  | .observe late =>
      some { s with fence := s.fence.step row (s.host.stat p.pid) (s.host.killpg p.group) late }

/-- What the fence looks at next does not mislead it: while the group has a live member, the file
of the recorded process shows that alive, or the group takes a signal. -/
def Reliable (p : RecordedProcess) (host : Processes) : Fence → Prop
  | .reading _ => ¬host.Gone p.group → p.pid ∈ host.pids ∧ (host.proc p.pid).zombie = false ∧
      (host.proc p.pid).readable = true
  | .probing _ => ¬host.Gone p.group → host.killpg p.group = true
  | _ => True

instance (p : RecordedProcess) (host : Processes) : DecidablePred (Reliable p host)
  | .reading _ => inferInstanceAs (Decidable (_ → _))
  | .probing _ => inferInstanceAs (Decidable (_ → _))
  | .terminating | .waiting | .killing | .returned _ | .raised => inferInstanceAs (Decidable True)

/-- An observation is made while what it looks at is reliable. -/
def Trusted (p : RecordedProcess) (s : Watch) : WatchStep → Prop
  | .event _ => True
  | .observe _ => Reliable p s.host s.fence

instance (p : RecordedProcess) (s : Watch) : DecidablePred (s.Trusted p)
  | .event _ => inferInstanceAs (Decidable True)
  | .observe _ => inferInstanceAs (Decidable (Reliable p s.host s.fence))

/-- If the step brings the answer yes, the group is gone at that moment. -/
def Truthful (p : RecordedProcess) (s s' : Watch) : Prop :=
  s.fence ≠ .returned true → s'.fence = .returned true → s'.host.Gone p.group

variable {p : RecordedProcess} {attemptId : AttemptId} {runId : RunId} {s s' : Watch}
  {host : Processes} {l : WatchStep}

theorem ask_row (p : RecordedProcess) (check : FenceCheck) :
    Fence.ask (p.row attemptId runId) check = .reading check := rfl

/-- A process that is found dead is the end of every check. -/
theorem answered_false (check : FenceCheck) : Fence.answered false check = .returned true := by
  cases check <;> rfl

theorem answered_true (check : FenceCheck) : Fence.answered true check ≠ .returned true := by
  cases check <;> nofun

/-- The file shows the recorded process exactly when that is live and can be read. -/
theorem shows_iff (attemptId : AttemptId) (runId : RunId)
    (hidentified : host.Identified p.pid p.startTicks) :
    Fence.shows (p.row attemptId runId) (host.stat p.pid) = true ↔
      p.pid ∈ host.pids ∧ (host.proc p.pid).zombie = false ∧
        (host.proc p.pid).readable = true := by
  by_cases hpid : p.pid ∈ host.pids
  · have hticks := hidentified hpid
    cases hreadable : (host.proc p.pid).readable <;>
      simp [Fence.shows, Processes.stat, hpid, hreadable, hticks, RecordedProcess.row]
  · simp [Fence.shows, Processes.stat, hpid]

/-- An observation is truthful exactly when it is trusted. -/
theorem observe_truthful_iff (hidentified : s.host.Identified p.pid p.startTicks) (late : Bool)
    (hstep : s.step p (p.row attemptId runId) (.observe late) = some s') :
    Truthful p s s' ↔ s.Trusted p (.observe late) := by
  obtain rfl := Option.some.inj hstep
  obtain ⟨host, fence⟩ := s
  simp only [Truthful, Trusted, Reliable]
  cases fence with
  | reading check =>
      rw [← shows_iff attemptId runId hidentified]
      by_cases hshows : Fence.shows (p.row attemptId runId) (host.stat p.pid) = true
      · simp [Fence.step, hshows]
      · simp [Fence.step, hshows, answered_false]
  | probing check =>
      have hgroup : (p.row attemptId runId).processGroupId.isNone = false := rfl
      cases host.killpg p.group with
      | true => simp [Fence.step, hgroup, answered_true]
      | false => simp [Fence.step, hgroup, answered_false]
  | terminating => cases host.killpg p.group <;> simp [Fence.step, ask_row]
  | waiting => cases late <;> simp [Fence.step, ask_row]
  | killing => simp [Fence.step, ask_row]
  | returned gone => cases gone <;> simp [Fence.step]
  | raised => simp [Fence.step]

theorem step_truthful_iff (hidentified : s.host.Identified p.pid p.startTicks)
    (hstep : s.step p (p.row attemptId runId) l = some s') :
    Truthful p s s' ↔ s.Trusted p l := by
  cases l with
  | observe late => exact observe_truthful_iff hidentified late hstep
  | event e =>
      obtain ⟨host, _, rfl⟩ := Option.map_eq_some_iff.mp hstep
      exact iff_of_true (fun hbefore hafter ↦ absurd hafter hbefore) trivial

theorem step_identified (hidentified : s.host.Identified p.pid p.startTicks)
    (hstep : s.step p (p.row attemptId runId) l = some s') :
    s'.host.Identified p.pid p.startTicks := by
  cases l with
  | observe late =>
      obtain rfl := Option.some.inj hstep
      exact hidentified
  | event e =>
      obtain ⟨host, hhost, rfl⟩ := Option.map_eq_some_iff.mp hstep
      exact Processes.step_identified hidentified hhost

end Watch

/-- In any history of the processes, the fence answers yes only at moments at which the group is
gone, exactly when every read and every probe that it makes is trusted. -/
theorem fence_true_only_when_gone (p : RecordedProcess) (attemptId : AttemptId) (runId : RunId)
    (host : Processes) (hidentified : host.Identified p.pid p.startTicks)
    (history : List WatchStep) :
    (∀ s l s', Takes (Watch.step p (p.row attemptId runId))
      ⟨host, .start (p.row attemptId runId)⟩ history s l s' → Watch.Truthful p s s') ↔
    ∀ s l s', Takes (Watch.step p (p.row attemptId runId))
      ⟨host, .start (p.row attemptId runId)⟩ history s l s' → s.Trusted p l := by
  refine forall_congr' fun s ↦ forall_congr' fun l ↦ forall_congr' fun s' ↦
    forall_congr' fun htakes ↦ ?_
  have hkept : s.host.Identified p.pid p.startTicks := by
    refine ReachableBy.invariant (P := fun s ↦ s.host.Identified p.pid p.startTicks) hidentified ?_
      htakes.visits_left.reachable
    intro s l s' hs _ hstep
    exact Watch.step_identified hs hstep
  exact Watch.step_truthful_iff hkept htakes.step_eq

/-! ## A leader that its child outlives -/

namespace Sample

/-- The adapter 10, leader of its own group, and a child of it. -/
def adapter : RecordedProcess := ⟨10, 10, 500⟩

def adapterHost : Processes :=
  ⟨{10, 20}, fun pid ↦ { group := 10, startTicks := if pid = 10 then 500 else 600 }⟩

def adapterWatch : Watch := ⟨adapterHost, .start (adapter.row "attempt" "run")⟩

end Sample

/-- The next observation of the adapter gives the answer yes. -/
def Sample.answers (s : Watch) : Bool :=
  s.fence ≠ .returned true && s.fence.step (adapter.row "attempt" "run") (s.host.stat adapter.pid)
    (s.host.killpg adapter.group) false = .returned true

theorem Sample.takes_answer (history : List WatchStep) (q : Watch → Bool)
    (h : (run (Watch.step adapter (adapter.row "attempt" "run")) adapterWatch history).any
      (fun s ↦ answers s && q s) = true) :
    ∃ s s', Takes (Watch.step adapter (adapter.row "attempt" "run")) adapterWatch
        (history ++ [.observe false]) s (.observe false) s' ∧
      s.fence ≠ .returned true ∧ s'.fence = .returned true ∧ s'.host = s.host ∧ q s = true := by
  obtain ⟨s, hs, hp⟩ := (Option.any_eq_true _ _).mp h
  obtain ⟨hanswers, hq⟩ := Bool.and_eq_true_iff.mp hp
  obtain ⟨hbefore, hafter⟩ := Bool.and_eq_true_iff.mp hanswers
  exact ⟨s, { s with fence := _ }, ⟨history, List.prefix_refl _, hs, rfl⟩,
    of_decide_eq_true hbefore, of_decide_eq_true hafter, rfl, hq⟩

/-- The adapter exits before the first look, and its child lives on. -/
theorem fence_true_beside_live_member :
    ∃ s l s', Takes (Watch.step Sample.adapter (Sample.adapter.row "attempt" "run"))
        Sample.adapterWatch [.event (.exit 10), .observe false] s l s' ∧
      ¬Watch.Truthful Sample.adapter s s' := by
  obtain ⟨s, s', htakes, hbefore, hafter, hhost, hlive⟩ :=
    Sample.takes_answer [.event (.exit 10)] (fun s ↦ decide ¬s.host.Gone Sample.adapter.group)
      (by decide +kernel)
  refine ⟨s, _, s', htakes, fun h ↦ of_decide_eq_true hlive ?_⟩
  exact hhost ▸ h hbefore hafter

/-- The child exits first, and the group is gone when the fence says so. -/
theorem fence_true_only_when_gone_sample :
    ∃ s l s', Takes (Watch.step Sample.adapter (Sample.adapter.row "attempt" "run"))
        Sample.adapterWatch [.event (.exit 20), .event (.exit 10), .observe false] s l s' ∧
      s'.fence = .returned true ∧ s'.host.Gone Sample.adapter.group := by
  have htrusted : allSteps (Watch.step Sample.adapter (Sample.adapter.row "attempt" "run"))
      (fun s l ↦ decide (s.Trusted Sample.adapter l)) Sample.adapterWatch
      [.event (.exit 20), .event (.exit 10), .observe false] = true := by
    decide +kernel
  have htruthful := (fence_true_only_when_gone Sample.adapter "attempt" "run" Sample.adapterHost
    (by decide) [.event (.exit 20), .event (.exit 10), .observe false]).mpr
    fun s l s' htakes ↦ by simpa using Takes.of_allSteps htrusted htakes
  obtain ⟨s, s', htakes, hbefore, hafter, _⟩ :=
    Sample.takes_answer [.event (.exit 20), .event (.exit 10)] (fun _ ↦ true) (by decide +kernel)
  exact ⟨s, _, s', htakes, hafter, htruthful _ _ _ htakes hbefore hafter⟩

end ChipEvolve
