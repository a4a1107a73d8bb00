import ChipEvolve.Machine
import ChipEvolve.Worklist
import Mathlib.Data.Finset.Basic
import Mathlib.Logic.Function.Basic
import Mathlib.Tactic.Common

/-!
# The host of a guarded command

The processes that `ProcessGuardian.run` (`runtime/guardian.py`) reads and signals, as they fork,
detach, rename themselves, change their user, exit and are waited for.  They are those outside the
guardian's own group, which none of them can enter, since a command runs in a session of its own.
No number is given to two processes while the command is guarded.
-/

namespace ChipEvolve.Guardian

/-- A process: its parent with the thread of it that it is a child of, its group, whether its name
is UTF-8, so that its stat can be read, and whether it runs for a user whose processes the guardian
may signal.  A process that was sent `SIGKILL` does nothing more but exit. -/
structure HostProcess where
  parent : ℕ
  thread : ℕ
  group : ℕ
  readable : Bool := true
  signalable : Bool := true
  zombie : Bool := false
  killed : Bool := false

structure Host where
  pids : List ℕ
  proc : ℕ → HostProcess
  given : Finset ℕ

inductive HostEvent where
  | fork (parent thread child : ℕ)
  | spawn (parent child group : ℕ)
  | regroup (pid group : ℕ)
  | rename (pid : ℕ) (readable : Bool)
  | setUser (pid : ℕ) (signalable : Bool)
  | exit (pid adopter thread : ℕ)
  | reap (pid : ℕ)

/-- A process changes its group, its name or its user. -/
structure HostProcess.Changes (p q : HostProcess) : Prop where
  parent : q.parent = p.parent
  thread : q.thread = p.thread
  zombie : q.zombie = p.zombie
  killed : q.killed = p.killed

namespace Host

/-- The process executes code of its own. -/
def Active (h : Host) (pid : ℕ) : Prop :=
  pid ∈ h.pids ∧ (h.proc pid).zombie = false ∧ (h.proc pid).killed = false

instance (h : Host) (pid : ℕ) : Decidable (h.Active pid) := inferInstanceAs (Decidable (_ ∧ _ ∧ _))

def enter (h : Host) (pid : ℕ) (p : HostProcess) : Host where
  pids := h.pids ++ [pid]
  proc := Function.update h.proc pid p
  given := insert pid h.given

def amend (h : Host) (pid : ℕ) (p : HostProcess) : Host :=
  { h with proc := Function.update h.proc pid p }

/-- The children of a process that exits go to another. -/
def adopted (pid adopter thread : ℕ) (p : HostProcess) : HostProcess :=
  if p.parent = pid then { p with parent := adopter, thread := thread } else p

def leave (h : Host) (pid adopter thread : ℕ) : Host where
  pids := h.pids
  proc := fun q ↦ adopted pid adopter thread
    (if q = pid then { h.proc q with zombie := true } else h.proc q)
  given := h.given

/-- What the processes do among themselves.  The command's process is waited for by the guardian
alone. -/
def step (own root : ℕ) (h : Host) : HostEvent → Option Host
  | .fork parent thread child =>
      if h.Active parent ∧ child ∉ h.given then
        some (h.enter child { h.proc parent with parent := parent, thread := thread })
      else none
  | .spawn parent child group =>
      if parent ∉ h.pids ∧ child ∉ h.given ∧ group ≠ own then
        some (h.enter child { parent := parent, thread := parent, group := group })
      else none
  | .regroup pid group =>
      if h.Active pid ∧ group ≠ own then some (h.amend pid { h.proc pid with group := group })
      else none
  | .rename pid readable =>
      if h.Active pid then some (h.amend pid { h.proc pid with readable := readable }) else none
  | .setUser pid signalable =>
      if h.Active pid then some (h.amend pid { h.proc pid with signalable := signalable }) else none
  | .exit pid adopter thread =>
      if pid ∈ h.pids ∧ (h.proc pid).zombie = false then
        some (h.leave pid adopter thread)
      else none
  | .reap pid =>
      if pid ∈ h.pids ∧ (h.proc pid).zombie = true ∧ pid ≠ root then
        some { h with pids := h.pids.erase pid }
      else none

inductive Turn (own : ℕ) (h : Host) : HostEvent → Host → Prop
  | enter {e : HostEvent} {pid : ℕ} {p : HostProcess} (hfresh : pid ∉ h.given)
      (hgroup : (∀ q ∈ h.pids, (h.proc q).group ≠ own) → p.group ≠ own) :
      Turn own h e (h.enter pid p)
  | amend {e : HostEvent} {pid : ℕ} {p : HostProcess} (hchanges : (h.proc pid).Changes p)
      (hgroup : p.group = (h.proc pid).group ∨ e = .regroup pid p.group ∧ p.group ≠ own) :
      Turn own h e (h.amend pid p)
  | exit {pid adopter thread : ℕ} :
      Turn own h (.exit pid adopter thread) (h.leave pid adopter thread)
  | reap {pid : ℕ} (hzombie : (h.proc pid).zombie = true) :
      Turn own h (.reap pid) { h with pids := h.pids.erase pid }

theorem step_turn {own root : ℕ} {h h' : Host} {e : HostEvent}
    (hstep : h.step own root e = some h') : Turn own h e h' := by
  unfold step at hstep
  split at hstep <;> split at hstep <;> cases hstep
  · next hguard => exact .enter hguard.2 fun hapart ↦ hapart _ hguard.1.1
  · next hguard => exact .enter hguard.2.1 fun _ ↦ hguard.2.2
  · next hguard => exact .amend ⟨rfl, rfl, rfl, rfl⟩ (.inr ⟨rfl, hguard.2⟩)
  · exact .amend ⟨rfl, rfl, rfl, rfl⟩ (.inl rfl)
  · exact .amend ⟨rfl, rfl, rfl, rfl⟩ (.inl rfl)
  · exact .exit
  · next hguard => exact .reap hguard.2.1

/-! ## What the guardian reads and sends -/

/-- `/proc/{parent}/task/{parent}/children` -/
def indexedChildren (h : Host) (parent : ℕ) : List ℕ :=
  h.pids.filter fun q ↦ (h.proc q).parent = parent && (h.proc q).thread = parent

/-- `os.getpgid` -/
def getpgid (h : Host) (pid : ℕ) : Option ℕ :=
  if pid ∈ h.pids then some (h.proc pid).group else none

/-- `_process_is_running`, which catches an `OSError` but no `UnicodeDecodeError`. -/
def isRunning (h : Host) (pid : ℕ) : Option Bool :=
  if pid ∈ h.pids then
    if (h.proc pid).readable then some (!(h.proc pid).zombie) else none
  else some false

/-- `process.poll() is not None`: the command's process has exited, and is now waited for. -/
def poll (root : ℕ) (h : Host) : Bool × Host :=
  if root ∈ h.pids then
    if (h.proc root).zombie then (true, { h with pids := h.pids.erase root }) else (false, h)
  else (true, h)

/-- `os.killpg(group, SIGKILL)`, which reaches the processes that the guardian may signal. -/
def killGroup (h : Host) (group : ℕ) : Host :=
  { h with proc := fun q ↦
      if (h.proc q).group = group ∧ (h.proc q).signalable then { h.proc q with killed := true }
      else h.proc q }

/-! ## What lasts -/

/-- The process has exited, or will do nothing else. -/
def Ended (h : Host) (pid : ℕ) : Prop :=
  pid ∈ h.given ∧ (pid ∈ h.pids → (h.proc pid).zombie = true ∨ (h.proc pid).killed = true)

instance (h : Host) (pid : ℕ) : Decidable (h.Ended pid) :=
  inferInstanceAs (Decidable (_ ∧ (_ → _ ∨ _)))

/-- Every process was given its number, no number is listed twice, and none is in the guardian's
group. -/
structure WellFormed (own : ℕ) (h : Host) : Prop where
  nodup : h.pids.Nodup
  given : ∀ pid ∈ h.pids, pid ∈ h.given
  apart : ∀ pid ∈ h.pids, (h.proc pid).group ≠ own

variable {own root pid : ℕ} {h h' : Host} {e : HostEvent} {p : HostProcess}

theorem adopted_zombie {adopter thread : ℕ} : (adopted pid adopter thread p).zombie = p.zombie := by
  unfold adopted
  split <;> rfl

theorem adopted_killed {adopter thread : ℕ} : (adopted pid adopter thread p).killed = p.killed := by
  unfold adopted
  split <;> rfl

theorem adopted_group {adopter thread : ℕ} : (adopted pid adopter thread p).group = p.group := by
  unfold adopted
  split <;> rfl

/-- What lasts from one moment to a later one. -/
structure Later (h h' : Host) : Prop where
  given : h.given ⊆ h'.given
  listed : ∀ pid ∈ h.given, pid ∈ h'.pids → pid ∈ h.pids
  zombie : ∀ pid ∈ h.given, (h.proc pid).zombie = true → (h'.proc pid).zombie = true
  killed : ∀ pid ∈ h.given, (h.proc pid).killed = true → (h'.proc pid).killed = true

theorem Later.refl : h.Later h where
  given := Finset.Subset.refl _
  listed := fun _ _ ↦ id
  zombie := fun _ _ ↦ id
  killed := fun _ _ ↦ id

theorem Ended.later (hended : h.Ended pid) (hlater : h.Later h') : h'.Ended pid := by
  refine ⟨hlater.given hended.1, fun hpid ↦ ?_⟩
  rcases hended.2 (hlater.listed pid hended.1 hpid) with hzombie | hkilled
  · exact .inl (hlater.zombie pid hended.1 hzombie)
  · exact .inr (hlater.killed pid hended.1 hkilled)

theorem proc_enter {q : ℕ} (hpid : pid ∉ h.given) (hq : q ∈ h.given) :
    (h.enter pid p).proc q = h.proc q := by
  have hne : q ≠ pid := fun heq ↦ hpid (heq ▸ hq)
  exact Function.update_of_ne hne _ _

theorem later_enter (hpid : pid ∉ h.given) : h.Later (h.enter pid p) where
  given := Finset.subset_insert _ _
  listed := by
    intro q hq hmem
    rcases List.mem_append.mp hmem with hmem | hmem
    · exact hmem
    · rw [List.mem_singleton.mp hmem] at hq
      exact absurd hq hpid
  zombie := by
    intro q hq hzombie
    rwa [proc_enter hpid hq]
  killed := by
    intro q hq hkilled
    rwa [proc_enter hpid hq]

theorem later_erase : h.Later { h with pids := h.pids.erase pid } where
  given := Finset.Subset.refl _
  listed := fun _ _ hmem ↦ List.mem_of_mem_erase hmem
  zombie := fun _ _ ↦ id
  killed := fun _ _ ↦ id

theorem later_step (hstep : h.step own root e = some h') : h.Later h' := by
  cases step_turn hstep with
  | enter hfresh => exact later_enter hfresh
  | @amend _ q p hchanges =>
      refine ⟨Finset.Subset.refl _, fun _ _ ↦ id, fun q _ hq ↦ ?_, fun q _ hq ↦ ?_⟩ <;>
        simp only [amend, Function.update_apply] <;> split
      · next heq => exact hchanges.zombie.trans (heq ▸ hq)
      · exact hq
      · next heq => exact hchanges.killed.trans (heq ▸ hq)
      · exact hq
  | exit =>
      refine ⟨Finset.Subset.refl _, fun _ _ ↦ id, fun q _ hq ↦ ?_, fun q _ hq ↦ ?_⟩
      · simp only [leave, adopted_zombie]
        split
        · rfl
        · exact hq
      · simp only [leave, adopted_killed]
        split <;> exact hq
  | reap => exact later_erase

/-- A process ends by its exit alone. -/
theorem ended_of_step (hstep : h.step own root e = some h') (hgiven : pid ∈ h.given)
    (hended : h'.Ended pid) (hexit : ∀ adopter thread, e ≠ .exit pid adopter thread) :
    h.Ended pid := by
  refine ⟨hgiven, fun hpid ↦ ?_⟩
  cases step_turn hstep with
  | enter hfresh =>
      have := hended.2 (List.mem_append_left _ hpid)
      rwa [proc_enter hfresh hgiven] at this
  | @amend _ q p hchanges =>
      have := hended.2 hpid
      simp only [amend, Function.update_apply] at this
      split at this
      · next heq =>
          rw [hchanges.zombie, hchanges.killed] at this
          exact heq ▸ this
      · exact this
  | @exit q adopter thread =>
      have hne : pid ≠ q := fun heq ↦ hexit adopter thread (heq ▸ rfl)
      have := hended.2 hpid
      simpa only [leave, adopted_zombie, adopted_killed, if_neg hne] using this
  | @reap q hzombie =>
      by_cases heq : pid = q
      · exact .inl (heq ▸ hzombie)
      · exact hended.2 ((List.mem_erase_of_ne heq).mpr hpid)

theorem later_poll : h.Later (h.poll root).2 := by
  unfold poll
  split
  · split
    · exact later_erase
    · exact .refl
  · exact .refl

theorem later_killGroup {group : ℕ} : h.Later (h.killGroup group) where
  given := Finset.Subset.refl _
  listed := fun _ _ ↦ id
  zombie := by
    intro q _ hq
    simp only [killGroup]
    split <;> exact hq
  killed := by
    intro q _ hq
    simp only [killGroup]
    split
    · rfl
    · exact hq

theorem not_mem_of_poll (hnodup : h.pids.Nodup) (hexited : (h.poll root).1 = true) :
    root ∉ (h.poll root).2.pids := by
  unfold poll at hexited ⊢
  split
  · split
    · exact hnodup.not_mem_erase
    · simp_all
  · next hroot => exact hroot

theorem ended_of_poll (hnodup : h.pids.Nodup) (hgiven : root ∈ h.given)
    (hexited : (h.poll root).1 = true) : (h.poll root).2.Ended root :=
  ⟨later_poll.given hgiven, fun hmem ↦ absurd hmem (not_mem_of_poll hnodup hexited)⟩

theorem isRunning_ne_none (hreadable : pid ∈ h.pids → (h.proc pid).readable = true) :
    h.isRunning pid ≠ none := by
  unfold isRunning
  split
  · next hpid =>
      rw [if_pos (hreadable hpid)]
      exact Option.some_ne_none _
  · exact Option.some_ne_none _

theorem ended_of_not_running (hgiven : pid ∈ h.given) (hrunning : h.isRunning pid = some false) :
    h.Ended pid := by
  refine ⟨hgiven, fun hpid ↦ .inl ?_⟩
  simp only [isRunning, hpid, if_true, Option.ite_none_right_eq_some] at hrunning
  simpa using hrunning.2

/-! ## Groups and children -/

theorem group_killGroup {group : ℕ} :
    ((h.killGroup group).proc pid).group = (h.proc pid).group := by
  simp only [killGroup]
  split <;> rfl

theorem ended_killGroup (hgiven : pid ∈ h.given) (hmay : (h.proc pid).signalable = true) :
    (h.killGroup (h.proc pid).group).Ended pid :=
  ⟨hgiven, fun _ ↦ .inr (by simp [killGroup, hmay])⟩

theorem group_of_step (hstep : h.step own root e = some h') (hgiven : pid ∈ h.given)
    (hregroup : ∀ group, e ≠ .regroup pid group) : (h'.proc pid).group = (h.proc pid).group := by
  cases step_turn hstep with
  | enter hfresh => rw [proc_enter hfresh hgiven]
  | @amend _ q p hchanges hgroup =>
      simp only [amend, Function.update_apply]
      split
      · next heq =>
          subst heq
          exact hgroup.resolve_right fun hregroups ↦ hregroup _ hregroups.1
      · rfl
  | exit =>
      simp only [leave, adopted_group]
      split <;> rfl
  | reap => rfl

theorem mem_indexedChildren {parent : ℕ} : pid ∈ h.indexedChildren parent ↔
    pid ∈ h.pids ∧ (h.proc pid).parent = parent ∧ (h.proc pid).thread = parent := by
  simp [indexedChildren]

/-- A process stays in the file of its parent for as long as neither has exited. -/
theorem indexed_of_step (hwell : h.WellFormed own) (hstep : h.step own root e = some h')
    {parent : ℕ} (hmem : pid ∈ h.indexedChildren parent) (hactive : ¬h'.Ended pid)
    (hexit : ∀ adopter thread, e ≠ .exit parent adopter thread) :
    pid ∈ h'.indexedChildren parent := by
  obtain ⟨hpid, hparent, hthread⟩ := mem_indexedChildren.mp hmem
  have hgiven := hwell.given pid hpid
  refine mem_indexedChildren.mpr ?_
  cases step_turn hstep with
  | enter hfresh =>
      rw [proc_enter hfresh hgiven]
      exact ⟨List.mem_append_left _ hpid, hparent, hthread⟩
  | @amend _ q p hchanges =>
      refine ⟨hpid, ?_⟩
      simp only [amend, Function.update_apply]
      split
      · next heq =>
          rw [hchanges.parent, hchanges.thread]
          exact heq ▸ ⟨hparent, hthread⟩
      · exact ⟨hparent, hthread⟩
  | @exit q adopter thread =>
      have hne : parent ≠ q := fun heq ↦ hexit adopter thread (heq ▸ rfl)
      refine ⟨hpid, ?_⟩
      simp only [leave, adopted]
      split <;> simp_all
  | @reap q hzombie =>
      have hne : pid ≠ q := by
        rintro rfl
        exact hactive ⟨hgiven, fun _ ↦ .inl hzombie⟩
      exact ⟨(List.mem_erase_of_ne hne).mpr hpid, hparent, hthread⟩

/-! ## Well formed hosts -/

namespace WellFormed

theorem enter (hwell : h.WellFormed own) (hpid : pid ∉ h.given) (hgroup : p.group ≠ own) :
    (h.enter pid p).WellFormed own where
  nodup := by
    refine List.nodup_append.mpr ⟨hwell.nodup, List.nodup_singleton pid, ?_⟩
    rintro q hq r hr rfl
    rw [List.mem_singleton.mp hr] at hq
    exact hpid (hwell.given pid hq)
  given := by
    intro q hq
    rcases List.mem_append.mp hq with hq | hq
    · exact Finset.mem_insert_of_mem (hwell.given q hq)
    · exact Finset.mem_insert.mpr (.inl (List.mem_singleton.mp hq))
  apart := by
    intro q hq
    rcases List.mem_append.mp hq with hq | hq
    · rw [proc_enter hpid (hwell.given q hq)]
      exact hwell.apart q hq
    · rw [List.mem_singleton.mp hq]
      simpa [Host.enter] using hgroup

theorem erase (hwell : h.WellFormed own) :
    Host.WellFormed own { h with pids := h.pids.erase pid } where
  nodup := hwell.nodup.erase pid
  given := fun q hq ↦ hwell.given q (List.mem_of_mem_erase hq)
  apart := fun q hq ↦ hwell.apart q (List.mem_of_mem_erase hq)

/-- The processes are the same, in other groups than the guardian's. -/
theorem amend (hwell : h.WellFormed own) {proc : ℕ → HostProcess}
    (hgroup : ∀ q ∈ h.pids, (proc q).group ≠ own) :
    Host.WellFormed own { h with proc := proc } where
  nodup := hwell.nodup
  given := hwell.given
  apart := hgroup

theorem step (hwell : h.WellFormed own) (hstep : h.step own root e = some h') :
    h'.WellFormed own := by
  cases step_turn hstep with
  | enter hfresh hgroup => exact hwell.enter hfresh (hgroup hwell.apart)
  | amend hchanges hgroup =>
      refine hwell.amend fun q hq ↦ ?_
      simp only [Function.update_apply]
      split
      · next heq =>
          rcases hgroup with hgroup | ⟨_, hgroup⟩
          · rw [hgroup]
            exact heq ▸ hwell.apart q hq
          · exact hgroup
      · exact hwell.apart q hq
  | exit =>
      refine hwell.amend fun q hq ↦ ?_
      rw [adopted_group]
      split <;> exact hwell.apart q hq
  | reap => exact hwell.erase

theorem poll (hwell : h.WellFormed own) : (h.poll root).2.WellFormed own := by
  unfold Host.poll
  split
  · split
    · exact hwell.erase
    · exact hwell
  · exact hwell

theorem killGroup (hwell : h.WellFormed own) {group : ℕ} : (h.killGroup group).WellFormed own := by
  refine hwell.amend fun q hq ↦ ?_
  split <;> exact hwell.apart q hq

end WellFormed

end Host

end ChipEvolve.Guardian
