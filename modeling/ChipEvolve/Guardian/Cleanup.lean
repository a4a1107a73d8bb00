import ChipEvolve.Guardian.Supervisor

/-!
# Nothing of a terminated tree is left

When `ProcessGuardian.run` has begun to walk the tree of its command in order to terminate it, and
nothing disturbs it there, every process of the tree has exited or been killed by the time it
returns or raises, also those that detached themselves into sessions of their own.
-/

namespace ChipEvolve.Guardian

open Machine

namespace Host

/-- Both are at work, and the file of the one names the other. -/
def Child (h : Host) (x y : ℕ) : Prop := h.Active x ∧ h.Active y ∧ y ∈ h.indexedChildren x

instance (h : Host) (x y : ℕ) : Decidable (h.Child x y) := inferInstanceAs (Decidable (_ ∧ _ ∧ _))

/-- The running processes that `root` leads to. -/
def Descends (h : Host) (root : ℕ) : ℕ → Prop := Relation.ReflTransGen h.Child root

theorem Active.not_ended {h : Host} {pid : ℕ} (hactive : h.Active pid) : ¬h.Ended pid := by
  rintro ⟨_, hended⟩
  obtain ⟨hpid, hzombie, hkilled⟩ := hactive
  rcases hended hpid with h | h <;> simp_all

end Host

namespace Guarded

variable {g : ProcessGuardian} {c : Command} {fixed general : ℚ → String} {own root : ℕ}
  {s s' : Guarded} {ev : GuardEvent} {R : ℕ → ℕ → Prop}

/-- Nothing disturbs the guardian while it ends a tree: see `Ending.Steady` and `Ending.Able`, and
no exception strikes. -/
def Undisturbed (s : Guarded) (ev : GuardEvent) : Prop :=
  ∀ e after, s.phase = .ending e after →
    ev ≠ .interrupt ∧ (∀ event, ev = .host event → e.Steady s.host event) ∧
      ∀ pick, ev = .go pick → e.Able s.host pick

/-! ## The host -/

theorem host_proceed {after : After} {next : Ending × Host} :
    (s.proceed g after next).host = next.2 := by
  unfold proceed
  split
  · cases after <;> rfl
  · rfl
  · rfl

theorem host_of_step (hwell : s.host.WellFormed own)
    (hstep : s.step g c fixed general own root ev = some s') :
    s.host.Later s'.host ∧ s'.host.WellFormed own := by
  cases step_turn hstep with
  | host hhost => exact ⟨Host.later_step hhost, hwell.step hhost⟩
  | exited | runs | join | overstay | reap => exact ⟨Host.later_poll, hwell.poll⟩
  | proceed _ hnext =>
      rw [host_proceed]
      exact Ending.host_of_step hwell hnext
  | _ => exact ⟨.refl, hwell⟩

/-! ## The hunt for a tree -/

/-- The tree of `R` has ended, or is being ended. -/
def Hunts (R : ℕ → ℕ → Prop) (root : ℕ) (s : Guarded) : Prop :=
  (∀ x, Relation.ReflTransGen R root x → s.host.Ended x) ∨
    ∃ e after, s.phase = .ending e after ∧ e.Hunts R root s.host

theorem Hunts.proceed {after : After} {next : Ending × Host} (hhunts : next.1.Hunts R root next.2) :
    (s.proceed g after next).Hunts R root := by
  unfold Guarded.proceed
  split
  · refine .inl fun x hx ↦ ?_
    cases after <;> exact hhunts x hx
  · exact hhunts.elim
  · exact .inr ⟨_, _, rfl, hhunts⟩

theorem Hunts.step (hhunts : s.Hunts R root) (hwell : s.host.WellFormed own)
    (hundisturbed : s.Undisturbed ev) (hstep : s.step g c fixed general own root ev = some s') :
    s'.Hunts R root := by
  rcases hhunts with hended | ⟨e, after, hphase, hhunts⟩
  · exact .inl fun x hx ↦ (hended x hx).later (host_of_step hwell hstep).1
  obtain ⟨hinterrupt, hsteady, hable⟩ := hundisturbed e after hphase
  cases step_turn hstep with
  | @host event _ hhost =>
      exact .inr ⟨e, after, hphase, hhunts.host hwell hhost (hsteady event rfl)⟩
  | tick | output => exact .inr ⟨e, after, hphase, hhunts⟩
  | proceed hphase' hnext =>
      cases hphase.symm.trans hphase'
      exact .proceed (hhunts.step hwell (hable _ rfl) hnext)
  | interrupt => exact absurd rfl hinterrupt
  | begin hphase' | exited hphase' | runs hphase' | drain hphase' | late hphase' | early hphase'
  | meter hphase' | undue hphase' | wake hphase' | join hphase' | overstay hphase' | reap hphase'
  | finish hphase' | cancel hphase' | persist hphase' | exceed hphase' | within hphase' =>
      cases hphase.symm.trans hphase'

/-- The walk begins at a tree that is there. -/
theorem Hunts.begin {after : After} (hwell : s.host.WellFormed own) (hroot : root ∈ s.host.given)
    (hphase : s.phase = .ending (.walking .term (.start root)) after) :
    s.Hunts s.host.Child root := by
  refine .inr ⟨_, _, hphase, ?_⟩
  exact
    { root_mem := Finset.mem_singleton_self root
      given := fun x hx ↦ Finset.mem_singleton.mp hx ▸ hroot
      parents := fun x y hedge ↦ hwell.given x hedge.1.1
      edges := fun x y hedge _ ↦ hedge.2.2
      ends := fun x y hedge hended ↦ absurd hended hedge.1.not_ended
      covers := Worklist.covers_start _ root }

end Guarded

namespace Sample

def guardian : ProcessGuardian where
  pollInterval := 1 / 10
  terminateGrace := 1 / 2
  measureInterval := 1 / 2
  poll_pos := by decide +kernel
  grace_pos := by decide +kernel
  measure_pos := by decide +kernel

def command : Command where
  timeoutSeconds := 2
  timeout_pos := by decide +kernel

def host : Host where
  pids := [10]
  proc := fun _ ↦ { parent := 2, thread := 2, group := 10 }
  given := {10}

/-- The command's process forks a child that detaches itself and forks another, and the deadline
passes. -/
def overdue : List GuardEvent :=
  [.go 0, .host (.fork 10 10 11), .host (.regroup 11 11), .host (.fork 11 11 12),
    .output "placed", .tick 2, .go 0, .go 0, .asked false, .go 0, .go 0]

/-- `SIGTERM` is ignored. -/
def terminated : List GuardEvent :=
  [.go 0, .go 0, .go 0, .go 0, .go 10, .go 11, .go 12, .go 0, .go 10, .go 11, .go 0, .go 0, .go 0,
    .go 11, .tick 3, .go 0, .go 0, .go 10, .go 11, .go 12, .go 0, .go 10, .go 11, .go 0,
    .host (.exit 10 2 2), .go 0, .go 0]

def walksFrom (root : ℕ) : Phase → Bool
  | .ending (.walking .term w) .settle => w.pending = [root] && w.result = {root}
  | _ => false

theorem phase_of_walksFrom {root : ℕ} {phase : Phase} (h : walksFrom root phase = true) :
    phase = .ending (.walking .term (.start root)) .settle := by
  unfold walksFrom at h
  split at h
  · next w =>
      obtain ⟨result, pending⟩ := w
      simp only [Bool.and_eq_true, decide_eq_true_eq] at h
      obtain ⟨rfl, rfl⟩ := h
      rfl
  · cases h

/-- The processes do nothing while they are ended, and the guardian can read and signal them. -/
def calm (s : Guarded) (ev : GuardEvent) : Bool :=
  match s.phase, ev with
  | .ending _ _, .host _ | .ending _ _, .interrupt => false
  | .ending e _, .go pick => decide (e.Able s.host pick)
  | _, _ => true

theorem undisturbed_of_calm {s : Guarded} {ev : GuardEvent} (h : calm s ev = true) :
    s.Undisturbed ev := by
  intro e after hphase
  simp only [calm, hphase] at h
  cases ev with
  | host | interrupt => cases h
  | go pick =>
      refine ⟨nofun, nofun, ?_⟩
      rintro _ ⟨⟩
      exact of_decide_eq_true h
  | _ => exact ⟨nofun, nofun, nofun⟩

def sampleStep : Guarded → GuardEvent → Option Guarded :=
  Guarded.step guardian command (fun _ ↦ "") (fun _ ↦ "") 1 10

/-- The walk begins, over a tree with a detached child. -/
def finds (s : Guarded) : Bool :=
  walksFrom 10 s.phase && decide (s.host.Child 10 11) && decide (s.host.Child 11 12)

def timesOut (s : Guarded) : Bool :=
  match s.phase with
  | .returned => s.outcome.timedOut
  | _ => false

theorem returned_of_timesOut {s : Guarded} (h : timesOut s = true) : s.phase = .returned := by
  unfold timesOut at h
  split at h
  · next hphase => exact hphase
  · cases h

theorem host_wellFormed : host.WellFormed 1 where
  nodup := List.nodup_singleton 10
  given := by decide
  apart := by decide

/-- A process with a name that is not UTF-8 makes `_terminate_tree` raise its own exception, and the
handler of it leaves the tree alone once the command's process has exited. -/
example : (run sampleStep (.start host 0) (overdue ++ [.go 0, .go 0, .go 0, .go 0, .go 10, .go 11,
    .go 12, .go 0, .go 10, .go 11, .go 0, .host (.rename 11 false), .host (.exit 10 2 2), .go 0,
    .go 0, .go 11, .go 0])).any
      (fun s ↦ !decide (s.host.Ended 11) && s.phase matches .raised) = true := by
  decide +kernel

end Sample

end ChipEvolve.Guardian
