import ChipEvolve.FloatingPoint
import ChipEvolve.Machine
import ChipEvolve.Contracts.Task
import Mathlib.Algebra.BigOperators.Group.Finset.Basic
import Mathlib.Algebra.Order.BigOperators.Group.Finset
import Mathlib.Algebra.Order.Field.Rat
import Mathlib.Tactic.Ring

/-!
# The processor time of a process tree

`ProcessGuardian.measure` and `_breach_values` (`runtime/guardian.py`) over a
tree whose processes fork, use time, take other names, exit and are waited for.
A process that exits stays in the tree as a zombie until its parent waits for
it, and only then its ticks move into the counters of the parent.
-/

namespace ChipEvolve

open FloatingPoint (binary64)
open Machine

/-- What `/proc/{pid}/stat` and `/proc/{pid}/statm` say of a process. -/
structure Usage where
  zombie : Bool := false
  utime : ℕ := 0
  stime : ℕ := 0
  cutime : ℕ := 0
  cstime : ℕ := 0
  resident : ℕ := 0

namespace Usage

/-- `sum(int(tail[index]) for index in (11, 12, 13, 14))` -/
def ticks (u : Usage) : ℕ := u.utime + u.stime + u.cutime + u.cstime

/-- The counters of a parent that has waited for `child`. -/
def collect (u child : Usage) : Usage :=
  { u with cutime := u.cutime + child.utime + child.cutime
           cstime := u.cstime + child.stime + child.cstime }

theorem ticks_collect (u child : Usage) : (u.collect child).ticks = u.ticks + child.ticks := by
  simp only [collect, ticks]
  ring

end Usage

/-- `SC_CLK_TCK` and `SC_PAGE_SIZE`. -/
structure Sysconf where
  clkTck : ℕ := 100
  pageSize : ℕ := 4096

/-- What `measure` returns. -/
structure Measured where
  processes : ℕ
  cpuSeconds : ℚ
  memoryBytes : ℕ

/-- What reading the files of a process gives: its `stat`, unless that is not there or its text
cannot be read, and the resident pages of its `statm`. -/
structure ProcFiles where
  stat : ℕ → Option Usage
  statm : ℕ → Option ℕ

namespace ProcFiles

variable (files : ProcFiles) (pids : Finset ℕ)

/-- The process can be read and is no zombie. -/
def shown (pid : ℕ) : Bool := (files.stat pid).any fun u ↦ !u.zombie

/-- The process is counted: its second file can be read as well. -/
def counted (pid : ℕ) : Bool := files.shown pid && (files.statm pid).isSome

/-- `cpu_ticks` after the walk over `pids`. -/
def cpuTicks : ℕ := ∑ pid ∈ pids with files.shown pid, ((files.stat pid).map Usage.ticks).getD 0

/-- `resident_pages` after the walk over `pids`. -/
def residentPages : ℕ := ∑ pid ∈ pids with files.counted pid, (files.statm pid).getD 0

end ProcFiles

/-- `cpu_ticks / ticks`; nothing where the quotient is too large for a float. -/
def secondsOf (conf : Sysconf) (ticks : ℕ) : Option (FloatingPoint.Finite binary64) :=
  FloatingPoint.round? binary64 (ticks / conf.clkTck)

/-- `measure`; nothing where the division raises an `OverflowError`. -/
def measure (conf : Sysconf) (files : ProcFiles) (pids : Finset ℕ) : Option Measured :=
  (secondsOf conf (files.cpuTicks pids)).map fun seconds ↦
    { processes := (pids.filter fun pid ↦ files.counted pid).card
      cpuSeconds := seconds.value
      memoryBytes := files.residentPages pids * conf.pageSize }

/-- `_breach_values`, with the texts that `:.2f` and `:g` make of a number. -/
def breachValues (fixed general : ℚ → String) (m : Measured) (limits : ResourceRequest) :
    Option String :=
  if limits.processes.any fun limit ↦ limit < (m.processes : Int) then
    limits.processes.map fun limit ↦
      s!"processes: the tree held {m.processes}, above the requested {limit}"
  else if limits.cpuSeconds.any fun limit ↦ limit < m.cpuSeconds then
    limits.cpuSeconds.map fun limit ↦
      s!"cpu_seconds: the tree used {fixed m.cpuSeconds}s, above the requested {general limit}s"
  else if limits.memoryBytes.any fun limit ↦ limit < (m.memoryBytes : Int) then
    limits.memoryBytes.map fun limit ↦
      s!"memory_bytes: the tree held {m.memoryBytes} bytes resident, above the requested {limit}"
  else none

/-- A process tree, whose names are texts, and the ticks that were ever used in it. -/
structure Family where
  root : ℕ
  tree : Finset ℕ
  parent : ℕ → ℕ
  usage : ℕ → Usage
  readable : ℕ → Bool
  consumed : ℕ

/-- What the processes of a tree do. -/
inductive Life
  | fork (parent child : ℕ)
  | consume (pid utime stime : ℕ)
  | resize (pid resident : ℕ)
  | rename (pid : ℕ) (readable : Bool)
  | exit (pid : ℕ)
  | wait (parent child : ℕ)

namespace Family

/-- The tree when its root has just started. -/
def started (root : ℕ) : Family := ⟨root, {root}, fun _ ↦ 0, fun _ ↦ {}, fun _ ↦ true, 0⟩

/-- The process is in the tree and has not exited. -/
def Live (f : Family) (pid : ℕ) : Prop := pid ∈ f.tree ∧ (f.usage pid).zombie = false

instance (f : Family) (pid : ℕ) : Decidable (f.Live pid) := inferInstanceAs (Decidable (_ ∧ _))

def setUsage (f : Family) (pid : ℕ) (u : Usage) : Family :=
  { f with usage := Function.update f.usage pid u }

/-- One step of the tree.  A process does what it does while it is live; it exits only when all
its children have been waited for, and a child has the name of its parent. -/
def step (f : Family) : Life → Option Family
  | .fork parent child =>
      if f.Live parent ∧ child ∉ f.tree then
        some { f.setUsage child {} with
                tree := insert child f.tree
                parent := Function.update f.parent child parent
                readable := Function.update f.readable child (f.readable parent) }
      else none
  | .consume pid utime stime =>
      if f.Live pid then
        some { f.setUsage pid { f.usage pid with
                utime := (f.usage pid).utime + utime
                stime := (f.usage pid).stime + stime } with
                consumed := f.consumed + utime + stime }
      else none
  | .resize pid resident =>
      if f.Live pid then some (f.setUsage pid { f.usage pid with resident := resident })
      else none
  | .rename pid readable =>
      if f.Live pid then some { f with readable := Function.update f.readable pid readable }
      else none
  | .exit pid =>
      if f.Live pid ∧ ∀ child ∈ f.tree, child ≠ f.root → f.parent child ≠ pid then
        some (f.setUsage pid { f.usage pid with zombie := true, resident := 0 })
      else none
  | .wait parent child =>
      if f.Live parent ∧ child ∈ f.tree ∧ child ≠ f.root ∧ f.parent child = parent ∧
          (f.usage child).zombie = true then
        some { f.setUsage parent ((f.usage parent).collect (f.usage child)) with
                tree := f.tree.erase child }
      else none

/-- The files of `/proc` for the processes of the tree. -/
def files (f : Family) : ProcFiles where
  stat pid := if pid ∈ f.tree ∧ f.readable pid = true then some (f.usage pid) else none
  statm pid := if pid ∈ f.tree then some (f.usage pid).resident else none

/-- The tick sum of `measure` over the whole tree. -/
def measuredTicks (f : Family) : ℕ := f.files.cpuTicks f.tree

/-- The ticks of every process of the tree, zombies included. -/
def allTicks (f : Family) : ℕ := ∑ pid ∈ f.tree, (f.usage pid).ticks

/-- The process has exited and was not yet waited for, or its name is no text. -/
def Hidden (f : Family) (pid : ℕ) : Prop := (f.usage pid).zombie = true ∨ f.readable pid = false

instance (f : Family) (pid : ℕ) : Decidable (f.Hidden pid) :=
  inferInstanceAs (Decidable (_ ∨ _))

/-- The ticks of hidden processes. -/
def hiddenTicks (f : Family) : ℕ := ∑ pid ∈ f.tree with f.Hidden pid, (f.usage pid).ticks

variable {f f' : Family} {l : Life} {pid : ℕ} {u : Usage}

/-! ## Sums over the tree -/

theorem allTicks_setUsage (hpid : pid ∈ f.tree) :
    (f.setUsage pid u).allTicks + (f.usage pid).ticks = f.allTicks + u.ticks := by
  have hrest : ∑ q ∈ f.tree.erase pid, (Function.update f.usage pid u q).ticks =
      ∑ q ∈ f.tree.erase pid, (f.usage q).ticks :=
    Finset.sum_congr rfl fun q hq ↦ by rw [Function.update_of_ne (Finset.ne_of_mem_erase hq)]
  simp only [allTicks, setUsage]
  rw [← Finset.add_sum_erase _ _ hpid, ← Finset.add_sum_erase f.tree _ hpid, hrest,
    Function.update_self]
  ring

theorem shown_iff (hpid : pid ∈ f.tree) : f.files.shown pid = true ↔ ¬f.Hidden pid := by
  cases hreadable : f.readable pid <;>
    simp [ProcFiles.shown, files, hpid, Hidden, hreadable]

theorem measuredTicks_add_hiddenTicks (f : Family) :
    f.measuredTicks + f.hiddenTicks = f.allTicks := by
  have hmeasured : f.measuredTicks = ∑ pid ∈ f.tree with ¬f.Hidden pid, (f.usage pid).ticks := by
    refine Finset.sum_congr (Finset.filter_congr fun pid hpid ↦ shown_iff hpid) fun pid hpid ↦ ?_
    obtain ⟨hmem, hshown⟩ := Finset.mem_filter.mp hpid
    have hreadable : f.readable pid = true := by
      simpa [Hidden] using (not_or.mp hshown).2
    simp [files, hmem, hreadable]
  rw [hmeasured, hiddenTicks, allTicks, add_comm]
  exact Finset.sum_filter_add_sum_filter_not _ _ _

theorem hiddenTicks_eq_zero_iff :
    f.hiddenTicks = 0 ↔ ∀ pid ∈ f.tree, f.Hidden pid → (f.usage pid).ticks = 0 := by
  simp [hiddenTicks, Finset.sum_eq_zero_iff, Finset.mem_filter]

/-! ## Conservation -/

/-- The root stays in the tree, and the counters of the tree hold every tick ever used. -/
structure Conserves (f : Family) : Prop where
  root_mem : f.root ∈ f.tree
  total : f.allTicks = f.consumed

theorem started_conserves (root : ℕ) : (started root).Conserves where
  root_mem := Finset.mem_singleton_self root
  total := by simp [started, allTicks, Usage.ticks]

theorem step_conserves (h : f.Conserves) (hstep : f.step l = some f') : f'.Conserves := by
  cases l with
  | fork parent child =>
      simp only [step, Option.ite_none_right_eq_some, Option.some.injEq] at hstep
      obtain ⟨⟨_, hnew⟩, rfl⟩ := hstep
      refine ⟨Finset.mem_insert_of_mem h.root_mem, ?_⟩
      have hrest : ∑ q ∈ f.tree, (Function.update f.usage child {} q).ticks = f.allTicks := by
        refine Finset.sum_congr rfl fun q hq ↦ ?_
        have hne : q ≠ child := fun heq ↦ hnew (heq ▸ hq)
        rw [Function.update_of_ne hne]
      have hfresh : ({} : Usage).ticks = 0 := rfl
      simp only [allTicks, setUsage, Finset.sum_insert hnew, Function.update_self]
      rw [hrest, hfresh, zero_add]
      exact h.total
  | consume pid utime stime =>
      simp only [step, Option.ite_none_right_eq_some, Option.some.injEq] at hstep
      obtain ⟨⟨hpid, _⟩, rfl⟩ := hstep
      refine ⟨h.root_mem, ?_⟩
      have hsum := allTicks_setUsage hpid (u := { f.usage pid with
        utime := (f.usage pid).utime + utime, stime := (f.usage pid).stime + stime })
      have htotal := h.total
      simp only [allTicks, Usage.ticks, setUsage] at hsum htotal ⊢
      omega
  | resize pid resident =>
      simp only [step, Option.ite_none_right_eq_some, Option.some.injEq] at hstep
      obtain ⟨⟨hpid, _⟩, rfl⟩ := hstep
      refine ⟨h.root_mem, ?_⟩
      have hsum := allTicks_setUsage hpid (u := { f.usage pid with resident := resident })
      have htotal := h.total
      simp only [allTicks, Usage.ticks, setUsage] at hsum htotal ⊢
      omega
  | rename pid readable =>
      simp only [step, Option.ite_none_right_eq_some, Option.some.injEq] at hstep
      obtain ⟨_, rfl⟩ := hstep
      exact ⟨h.root_mem, h.total⟩
  | exit pid =>
      simp only [step, Option.ite_none_right_eq_some, Option.some.injEq] at hstep
      obtain ⟨⟨⟨hpid, _⟩, _⟩, rfl⟩ := hstep
      refine ⟨h.root_mem, ?_⟩
      have hsum := allTicks_setUsage hpid (u := { f.usage pid with zombie := true, resident := 0 })
      have htotal := h.total
      simp only [allTicks, Usage.ticks, setUsage] at hsum htotal ⊢
      omega
  | wait parent child =>
      simp only [step, Option.ite_none_right_eq_some, Option.some.injEq] at hstep
      obtain ⟨⟨⟨hparent, hlive⟩, hchild, hroot, _, hzombie⟩, rfl⟩ := hstep
      refine ⟨Finset.mem_erase.mpr ⟨hroot.symm, h.root_mem⟩, ?_⟩
      have hne : child ≠ parent := by
        rintro rfl
        simp [hlive] at hzombie
      have hsum := allTicks_setUsage hparent (u := (f.usage parent).collect (f.usage child))
      have herase := Finset.add_sum_erase f.tree (fun q ↦ (Function.update f.usage parent
        ((f.usage parent).collect (f.usage child)) q).ticks) hchild
      have htotal := h.total
      simp only [Function.update_of_ne hne] at herase
      rw [Usage.ticks_collect] at hsum
      simp only [allTicks, setUsage] at hsum htotal ⊢
      omega

theorem step_root (hstep : f.step l = some f') : f'.root = f.root := by
  cases l <;>
    · simp only [step, Option.ite_none_right_eq_some, Option.some.injEq] at hstep
      obtain ⟨_, rfl⟩ := hstep
      rfl

/-- A process that was in the tree and is live has always been. -/
theorem live_of_step (hpid : pid ∈ f.tree) (hstep : f.step l = some f') (h : f'.Live pid) :
    f.Live pid := by
  refine ⟨hpid, ?_⟩
  have hzombie := h.2
  cases l with
  | fork parent child =>
      simp only [step, Option.ite_none_right_eq_some, Option.some.injEq] at hstep
      obtain ⟨⟨_, hnew⟩, rfl⟩ := hstep
      have hne : pid ≠ child := fun heq ↦ hnew (heq ▸ hpid)
      simpa [setUsage, Function.update_of_ne hne] using hzombie
  | exit q =>
      simp only [step, Option.ite_none_right_eq_some, Option.some.injEq] at hstep
      obtain ⟨⟨hlive, _⟩, rfl⟩ := hstep
      by_cases hq : pid = q
      · exact hq ▸ hlive.2
      · simpa [setUsage, Function.update_of_ne hq] using hzombie
  | consume q utime stime | resize q resident =>
      simp only [step, Option.ite_none_right_eq_some, Option.some.injEq] at hstep
      obtain ⟨hlive, rfl⟩ := hstep
      by_cases hq : pid = q
      · exact hq ▸ hlive.2
      · simpa [setUsage, Function.update_of_ne hq] using hzombie
  | rename q readable =>
      simp only [step, Option.ite_none_right_eq_some, Option.some.injEq] at hstep
      obtain ⟨_, rfl⟩ := hstep
      exact hzombie
  | wait q child =>
      simp only [step, Option.ite_none_right_eq_some, Option.some.injEq] at hstep
      obtain ⟨⟨hlive, _⟩, rfl⟩ := hstep
      by_cases hq : pid = q
      · exact hq ▸ hlive.2
      · simpa [setUsage, Function.update_of_ne hq] using hzombie

theorem conserves_of_visits {root : ℕ} {history : List Life}
    (h : Visits step (started root) history f) : f.Conserves :=
  h.reachable.invariant (started_conserves root) fun _ _ _ hs _ hstep ↦ step_conserves hs hstep

theorem consumed_le_of_step (hstep : f.step l = some f') : f.consumed ≤ f'.consumed := by
  cases l with
  | consume pid utime stime =>
      simp only [step, Option.ite_none_right_eq_some, Option.some.injEq] at hstep
      obtain ⟨_, rfl⟩ := hstep
      change f.consumed ≤ f.consumed + utime + stime
      omega
  | fork | resize | rename | exit | wait =>
      simp only [step, Option.ite_none_right_eq_some, Option.some.injEq] at hstep
      obtain ⟨_, rfl⟩ := hstep
      exact le_rfl

/-! ## When the measure is exact -/

/-- The steps that hide nothing while the root is live: the exit of a process none of whose
counters moved, or its taking of a name that is no text, and no use of time under such a name. -/
def LosesNothing (f : Family) : Life → Prop
  | .exit pid => pid ≠ f.root → f.Live f.root → (f.usage pid).ticks = 0
  | .rename pid readable => readable = false → f.Live f.root → (f.usage pid).ticks = 0
  | .consume pid utime stime =>
      f.readable pid = false → f.Live f.root → utime + stime = 0
  | _ => True

/-- While the root is live, no hidden process holds ticks. -/
def NoneWithheld (f : Family) : Prop :=
  f.Live f.root → ∀ pid ∈ f.tree, f.Hidden pid → (f.usage pid).ticks = 0

theorem measuredTicks_eq_iff (h : f.Conserves) :
    f.measuredTicks = f.consumed ↔
      ∀ pid ∈ f.tree, f.Hidden pid → (f.usage pid).ticks = 0 := by
  rw [← hiddenTicks_eq_zero_iff, ← h.total, ← measuredTicks_add_hiddenTicks]
  omega

theorem step_noneWithheld (hmem : f.root ∈ f.tree) (h : f.NoneWithheld) (hguard : f.LosesNothing l)
    (hstep : f.step l = some f') : f'.NoneWithheld := by
  intro hroot q hq hhidden
  have hbefore : f.Live f.root :=
    live_of_step hmem hstep (step_root hstep ▸ hroot)
  have hold := h hbefore
  cases l with
  | fork parent child =>
      simp only [step, Option.ite_none_right_eq_some, Option.some.injEq] at hstep
      obtain ⟨⟨_, hnew⟩, rfl⟩ := hstep
      by_cases hqc : q = child
      · simp [setUsage, hqc, Usage.ticks]
      · simp only [Hidden, setUsage, Function.update_of_ne hqc] at hhidden ⊢
        exact hold q (Finset.mem_of_mem_insert_of_ne hq hqc) hhidden
  | exit pid =>
      simp only [step, Option.ite_none_right_eq_some, Option.some.injEq] at hstep
      obtain ⟨_, rfl⟩ := hstep
      by_cases hqp : q = pid
      · subst hqp
        have hne : q ≠ f.root := by
          rintro rfl
          simp [Live, setUsage] at hroot
        simpa [setUsage, Usage.ticks] using hguard hne hbefore
      · simp only [Hidden, setUsage, Function.update_of_ne hqp] at hhidden ⊢
        exact hold q hq hhidden
  | rename pid readable =>
      simp only [step, Option.ite_none_right_eq_some, Option.some.injEq] at hstep
      obtain ⟨hlive, rfl⟩ := hstep
      by_cases hqp : q = pid
      · subst hqp
        have hname : readable = false := by simpa [Hidden, hlive.2] using hhidden
        exact hguard hname hbefore
      · simp only [Hidden, Function.update_of_ne hqp] at hhidden
        exact hold q hq hhidden
  | consume pid utime stime =>
      simp only [step, Option.ite_none_right_eq_some, Option.some.injEq] at hstep
      obtain ⟨hlive, rfl⟩ := hstep
      by_cases hqp : q = pid
      · subst hqp
        have hname : f.readable q = false := by simpa [Hidden, setUsage, hlive.2] using hhidden
        have hzero := hold q hq (.inr hname)
        have hused := hguard hname hbefore
        simp only [Usage.ticks, setUsage, Function.update_self] at hzero ⊢
        omega
      · simp only [Hidden, setUsage, Function.update_of_ne hqp] at hhidden ⊢
        exact hold q hq hhidden
  | resize pid resident =>
      simp only [step, Option.ite_none_right_eq_some, Option.some.injEq] at hstep
      obtain ⟨hlive, rfl⟩ := hstep
      by_cases hqp : q = pid
      · subst hqp
        have hname : f.readable q = false := by simpa [Hidden, setUsage, hlive.2] using hhidden
        simpa [setUsage, Usage.ticks] using hold q hq (.inr hname)
      · simp only [Hidden, setUsage, Function.update_of_ne hqp] at hhidden ⊢
        exact hold q hq hhidden
  | wait parent child =>
      simp only [step, Option.ite_none_right_eq_some, Option.some.injEq] at hstep
      obtain ⟨⟨hlive, hchild, _, _, hzombie⟩, rfl⟩ := hstep
      by_cases hqp : q = parent
      · subst hqp
        have hname : f.readable q = false := by
          simpa [Hidden, setUsage, Usage.collect, hlive.2] using hhidden
        have hown := hold q (Finset.mem_of_mem_erase hq) (.inr hname)
        have hcollected := hold child hchild (.inl hzombie)
        simp only [setUsage, Function.update_self]
        rw [Usage.ticks_collect, hown, hcollected]
      · simp only [Hidden, setUsage, Function.update_of_ne hqp] at hhidden ⊢
        exact hold q (Finset.mem_of_mem_erase hq) hhidden

/-- The measured ticks are the ticks used, the measured seconds never decrease, and when the time
used reaches a float above a declared limit, the breach is reported. -/
structure Accounts (root : ℕ) (history : List Life) : Prop where
  exact_sum : ∀ f, Visits step (started root) history f → f.Live f.root →
    f.measuredTicks = f.consumed
  never_decreases : ∀ f rest f', Visits step (started root) history f →
    Visits step (started root) history f' → run step f rest = some f' → f'.Live f'.root →
    ∀ conf m m', measure conf f.files f.tree = some m → measure conf f'.files f'.tree = some m' →
      m.cpuSeconds ≤ m'.cpuSeconds
  never_outrun : ∀ (conf : Sysconf) (fixed general : ℚ → String) (limits : ResourceRequest)
    (limit : ℚ) f, Visits step (started root) history f → f.Live f.root →
    limits.cpuSeconds = some limit → ∀ above : FloatingPoint.Finite binary64,
      limit < above.value → 0 ≤ above.value → above.value ≤ f.consumed / conf.clkTck →
      ∀ m, measure conf f.files f.tree = some m → (breachValues fixed general m limits).isSome

theorem breachValues_isSome {fixed general : ℚ → String} {m : Measured} {limits : ResourceRequest}
    {limit : ℚ} (hlimit : limits.cpuSeconds = some limit) (h : limit < m.cpuSeconds) :
    (breachValues fixed general m limits).isSome := by
  unfold breachValues
  split
  · rename_i hprocesses
    cases hp : limits.processes with
    | none => simp [hp] at hprocesses
    | some p => simp
  · simp [hlimit, h]

theorem noneWithheld_of_visits {root : ℕ} {history : List Life}
    (hsteps : ∀ f l f', Takes step (started root) history f l f' → f.LosesNothing l)
    (h : Visits step (started root) history f) : f.NoneWithheld := by
  have hboth : f.Conserves ∧ f.NoneWithheld := by
    refine ReachableBy.invariant (P := fun f ↦ f.Conserves ∧ f.NoneWithheld) ?_ ?_
      (h.reachableBy hsteps)
    · exact ⟨started_conserves root, fun _ pid _ hhidden ↦ by simp [started, Hidden] at hhidden⟩
    · intro s l s' hs hguard hstep
      exact ⟨step_conserves hs.1 hstep, step_noneWithheld hs.1.root_mem hs.2 hguard hstep⟩
  exact hboth.2

theorem measuredTicks_le_consumed (h : f.Conserves) : f.measuredTicks ≤ f.consumed := by
  have hsum := measuredTicks_add_hiddenTicks f
  have htotal := h.total
  omega

theorem consumed_le_of_run {rest : List Life} (hrun : run step f rest = some f') :
    f.consumed ≤ f'.consumed := by
  induction rest generalizing f with
  | nil =>
      obtain rfl : f = f' := by simpa using hrun
      exact le_rfl
  | cons l rest ih =>
      obtain ⟨f₁, hf₁, hrest⟩ := Option.bind_eq_some_iff.mp hrun
      exact (consumed_le_of_step hf₁).trans (ih hrest)

/-- More ticks are no fewer seconds, rounded as they are. -/
theorem secondsOf_mono {conf : Sysconf} {ticks ticks' : ℕ}
    {x y : FloatingPoint.Finite binary64} (h : ticks ≤ ticks') (hx : secondsOf conf ticks = some x)
    (hy : secondsOf conf ticks' = some y) : x.value ≤ y.value := by
  rw [FloatingPoint.Finite.value_of_round? hx, FloatingPoint.Finite.value_of_round? hy]
  refine FloatingPoint.Format.nearest_mono (by positivity) ?_
  exact div_le_div_of_nonneg_right (Nat.cast_le.mpr h) (Nat.cast_nonneg _)

theorem cpuSeconds_of_measure {conf : Sysconf} {m : Measured}
    (h : measure conf f.files f.tree = some m) :
    ∃ seconds, secondsOf conf f.measuredTicks = some seconds ∧ m.cpuSeconds = seconds.value := by
  obtain ⟨seconds, hseconds, rfl⟩ := Option.map_eq_some_iff.mp h
  exact ⟨seconds, hseconds, rfl⟩

/-- Where the sum is exact in every state, the rest follows. -/
theorem accounts_of_exact {root : ℕ} {history : List Life}
    (hexact : ∀ f, Visits step (started root) history f → f.Live f.root →
      f.measuredTicks = f.consumed) : Accounts root history where
  exact_sum := hexact
  never_decreases := by
    intro f rest f' hf hf' hrun hlive conf m m' hm hm'
    obtain ⟨x, hx, hseconds⟩ := cpuSeconds_of_measure hm
    obtain ⟨y, hy, hseconds'⟩ := cpuSeconds_of_measure hm'
    rw [hseconds, hseconds']
    refine secondsOf_mono ?_ hx hy
    calc f.measuredTicks ≤ f.consumed := measuredTicks_le_consumed (conserves_of_visits hf)
      _ ≤ f'.consumed := consumed_le_of_run hrun
      _ = f'.measuredTicks := (hexact f' hf' hlive).symm
  never_outrun := by
    intro conf fixed general limits limit f hf hlive hlimit above hpast hnonneg hreached m hm
    obtain ⟨seconds, hseconds, hmeasured⟩ := cpuSeconds_of_measure hm
    rw [hexact f hf hlive] at hseconds
    refine breachValues_isSome hlimit (hpast.trans_le ?_)
    rw [hmeasured]
    exact FloatingPoint.Finite.le_of_round? hseconds hnonneg hreached

/-- A step that hides ticks is followed by a state whose sum misses them. -/
theorem losesNothing_of_exact (hc' : f'.Conserves) (hstep : f.step l = some f')
    (hexact : f'.Live f'.root → f'.measuredTicks = f'.consumed) : f.LosesNothing l := by
  have hzero : f'.Live f'.root → ∀ pid ∈ f'.tree, f'.Hidden pid → (f'.usage pid).ticks = 0 :=
    fun hlive ↦ (measuredTicks_eq_iff hc').mp (hexact hlive)
  cases l with
  | exit pid =>
      intro hne hlive
      simp only [step, Option.ite_none_right_eq_some, Option.some.injEq] at hstep
      obtain ⟨⟨hpid, _⟩, rfl⟩ := hstep
      have hroot : (f.setUsage pid { f.usage pid with zombie := true, resident := 0 }).Live
          f.root := by
        refine ⟨hlive.1, ?_⟩
        simpa [setUsage, Function.update_of_ne hne.symm] using hlive.2
      have hticks := hzero hroot pid hpid.1 (.inl (by simp [setUsage]))
      simpa [setUsage, Usage.ticks] using hticks
  | rename pid readable =>
      intro hname hlive
      simp only [step, Option.ite_none_right_eq_some, Option.some.injEq] at hstep
      obtain ⟨hpid, rfl⟩ := hstep
      exact hzero hlive pid hpid.1 (.inr (by simp [hname]))
  | consume pid utime stime =>
      intro hname hlive
      simp only [step, Option.ite_none_right_eq_some, Option.some.injEq] at hstep
      obtain ⟨hpid, rfl⟩ := hstep
      have hroot : Live { f.setUsage pid { f.usage pid with
          utime := (f.usage pid).utime + utime
          stime := (f.usage pid).stime + stime } with
          consumed := f.consumed + utime + stime } f.root := by
        refine ⟨hlive.1, ?_⟩
        by_cases hrootPid : f.root = pid
        · simp [setUsage, hrootPid, hpid.2]
        · simpa [setUsage, Function.update_of_ne hrootPid] using hlive.2
      have hticks := hzero hroot pid hpid.1 (.inr hname)
      simp only [setUsage, Usage.ticks, Function.update_self] at hticks
      omega
  | fork | resize | wait => trivial

end Family

/-- At any moment the measured ticks are the ticks used exactly when no hidden process holds
ticks, and they are so throughout a history exactly when none of its steps hides any. -/
theorem measured_ticks_exact_iff (root : ℕ) (history : List Life) :
    (∀ f, Visits Family.step (.started root) history f →
      (f.measuredTicks = f.consumed ↔
        ∀ pid ∈ f.tree, f.Hidden pid → (f.usage pid).ticks = 0)) ∧
    (Family.Accounts root history ↔
      ∀ f l f', Takes Family.step (.started root) history f l f' → f.LosesNothing l) := by
  refine ⟨fun f hf ↦ Family.measuredTicks_eq_iff (Family.conserves_of_visits hf), ?_, ?_⟩
  · intro h f l f' htakes
    have hafter := htakes.visits_right
    exact Family.losesNothing_of_exact (Family.conserves_of_visits hafter) htakes.step_eq
      (h.exact_sum f' hafter)
  · intro hsteps
    refine Family.accounts_of_exact fun f hf hlive ↦ ?_
    exact (Family.measuredTicks_eq_iff (Family.conserves_of_visits hf)).mpr
      (Family.noneWithheld_of_visits hsteps hf hlive)

/-- A child uses fifty ticks and exits; its parent has not waited for it. -/
def unwaited : List Life := [.fork 10 20, .consume 20 40 10, .exit 20]

theorem unwaited_child_vanishes : ¬Family.Accounts 10 unwaited := by
  intro h
  have hends : (run Family.step (.started 10) unwaited).any (fun f ↦ decide
      (f.Live f.root ∧ f.measuredTicks = 0 ∧ f.consumed = 50)) = true := by decide +kernel
  obtain ⟨f, hf, hp⟩ := Visits.of_any hends
  obtain ⟨hlive, hmeasured, hconsumed⟩ := of_decide_eq_true hp
  have hsum := h.exact_sum f hf hlive
  omega

end ChipEvolve
