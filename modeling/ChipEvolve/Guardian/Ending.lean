import ChipEvolve.Guardian.Host
import Mathlib.Data.Rat.Defs
import Mathlib.Algebra.Order.Ring.Unbundled.Rat

/-!
# Ending a process tree

`_terminate_tree`, `_kill_tree` and what they call (`runtime/guardian.py`), one observation or
signal at a time.  The tree is walked by its children files and while it changes; the order in
which a set of processes is gone through is left open.
-/

namespace ChipEvolve.Guardian

/-- `ProcessGuardian`, in seconds. -/
structure ProcessGuardian where
  pollInterval : ℚ
  terminateGrace : ℚ
  measureInterval : ℚ
  poll_pos : 0 < pollInterval
  grace_pos : 0 < terminateGrace
  measure_pos : 0 < measureInterval

/-- `min(self.poll_interval, 0.05)` -/
def ProcessGuardian.pause (g : ProcessGuardian) : ℚ := min g.pollInterval (1 / 20)

inductive Signal where
  | term
  | kill

/-- Where `_terminate_tree` or `_kill_tree` stands; it may have raised an exception. -/
inductive Ending where
  | checking
  | walking (signal : Signal) (w : Worklist ℕ)
  | grouping (signal : Signal) (targets todo groups : Finset ℕ)
  | signalling (signal : Signal) (targets groups : Finset ℕ)
  | clocking (targets : Finset ℕ) (deadline : ℚ)
  | polling (targets : Finset ℕ) (deadline : ℚ)
  | looking (targets : Finset ℕ) (deadline : ℚ) (rootDone : Bool) (todo : Finset ℕ)
  | pausing (targets : Finset ℕ) (deadline wake : ℚ)
  | done
  | failed

namespace Ending

/-- `_terminate_tree` begins. -/
def terminateTree : Ending := checking

/-- `_kill_tree(process)` begins. -/
def killTree (root : ℕ) : Ending := walking .kill (.start root)

/-- `_signal_processes(targets, signal)` begins. -/
def signalProcesses (signal : Signal) (targets : Finset ℕ) : Ending :=
  grouping signal targets targets ∅

/-- What a signal to a group does at once: a process may outlive `SIGTERM`. -/
def send (h : Host) (group : ℕ) : Signal → Host
  | .term => h
  | .kill => h.killGroup group

/-- After `_signal_processes`. -/
def signalled (g : ProcessGuardian) (clock : ℚ) (targets : Finset ℕ) : Signal → Ending
  | .term => clocking targets (clock + g.terminateGrace)
  | .kill => done

/-- The next observation or signal; `pick` is the next of a set. -/
def step (g : ProcessGuardian) (own root : ℕ) (clock : ℚ) (pick : ℕ) (h : Host) :
    Ending → Option (Ending × Host)
  | checking =>
      some (if (h.poll root).1 then done else walking .term (.start root), (h.poll root).2)
  | walking signal w =>
      match w.turn h.indexedChildren with
      | some w' => some (walking signal w', h)
      | none => some (signalProcesses signal w.result, h)
  | grouping signal targets todo groups =>
      if todo = ∅ then some (signalling signal targets groups, h)
      else if pick ∈ todo then
        match h.getpgid pick with
        | some group =>
            some (grouping signal targets (todo.erase pick)
              (if group ≠ own then insert group groups else groups), h)
        | none => some (grouping signal targets (todo.erase pick) groups, h)
      else none
  | signalling signal targets groups =>
      if groups = ∅ then some (signalled g clock targets signal, h)
      else if pick ∈ groups then
        some (signalling signal targets (groups.erase pick), send h pick signal)
      else none
  | clocking targets deadline =>
      if clock < deadline then some (polling targets deadline, h)
      else some (signalProcesses .kill targets, h)
  | polling targets deadline =>
      some (looking targets deadline (h.poll root).1 (targets.erase root), (h.poll root).2)
  | looking targets deadline rootDone todo =>
      if todo = ∅ then
        some (if rootDone then done else pausing targets deadline (clock + g.pause), h)
      else if pick ∈ todo then
        match h.isRunning pick with
        | some true => some (pausing targets deadline (clock + g.pause), h)
        | some false => some (looking targets deadline rootDone (todo.erase pick), h)
        | none => some (failed, h)
      else none
  | pausing targets deadline wake =>
      if wake ≤ clock then some (clocking targets deadline, h) else none
  | done | failed => none

/-! ## Nobody escapes -/

variable {g : ProcessGuardian} {own root pick : ℕ} {clock : ℚ} {h h' : Host} {s s' : Ending}

theorem host_of_step (hwell : h.WellFormed own)
    (hstep : s.step g own root clock pick h = some (s', h')) :
    h.Later h' ∧ h'.WellFormed own := by
  unfold step at hstep
  split at hstep
  · cases hstep
    exact ⟨Host.later_poll, hwell.poll⟩
  · split at hstep <;> cases hstep <;> exact ⟨.refl, hwell⟩
  · split at hstep
    · cases hstep
      exact ⟨.refl, hwell⟩
    split at hstep
    · split at hstep <;> cases hstep <;> exact ⟨.refl, hwell⟩
    · cases hstep
  · split at hstep
    · cases hstep
      exact ⟨.refl, hwell⟩
    split at hstep
    · cases hstep
      rename_i signal _ _ _ _
      cases signal with
      | term => exact ⟨.refl, hwell⟩
      | kill => exact ⟨Host.later_killGroup, hwell.killGroup⟩
    · cases hstep
  · split at hstep <;> cases hstep <;> exact ⟨.refl, hwell⟩
  · cases hstep
    exact ⟨Host.later_poll, hwell.poll⟩
  · split at hstep
    · cases hstep
      exact ⟨.refl, hwell⟩
    split at hstep
    · split at hstep <;> cases hstep <;> exact ⟨.refl, hwell⟩
    · cases hstep
  · split at hstep <;> cases hstep
    exact ⟨.refl, hwell⟩
  · cases hstep
  · cases hstep

/-- With the processes that have ended, the targets are the whole tree of `R`. -/
structure Caught (R : ℕ → ℕ → Prop) (root : ℕ) (h : Host) (targets : Finset ℕ) : Prop where
  root_given : root ∈ h.given
  given : ∀ x ∈ targets, x ∈ h.given
  all : ∀ x, Relation.ReflTransGen R root x → h.Ended x ∨ x ∈ targets

/-- The edges of `R` are there as far as they lead to processes that have not ended, and the walk
has followed them. -/
structure Follows (R : ℕ → ℕ → Prop) (root : ℕ) (h : Host) (w : Worklist ℕ) : Prop where
  root_mem : root ∈ w.result
  given : ∀ x ∈ w.result, x ∈ h.given
  parents : ∀ x y, R x y → x ∈ h.given
  edges : ∀ x y, R x y → ¬h.Ended y → y ∈ h.indexedChildren x
  ends : ∀ x y, R x y → h.Ended x → h.Ended y
  covers : w.Covers fun x y ↦ R x y ∧ ¬h.Ended y

/-- What the guardian knows of the tree of `R`, which was there when the walk began. -/
def Hunts (R : ℕ → ℕ → Prop) (root : ℕ) (h : Host) : Ending → Prop
  | checking | failed => False
  | walking _ w => Follows R root h w
  | grouping .term targets _ _ | signalling .term targets _ | clocking targets _
  | polling targets _ | pausing targets _ _ => Caught R root h targets
  | looking targets _ rootDone todo =>
      Caught R root h targets ∧ (rootDone = true → h.Ended root) ∧
        ∀ x ∈ targets, x ≠ root → x ∉ todo → h.Ended x
  | grouping .kill targets todo groups =>
      Caught R root h targets ∧
        ∀ x ∈ targets, x ∉ todo → h.Ended x ∨ (h.proc x).group ∈ groups
  | signalling .kill targets groups =>
      Caught R root h targets ∧ ∀ x ∈ targets, h.Ended x ∨ (h.proc x).group ∈ groups
  | done => ∀ x, Relation.ReflTransGen R root x → h.Ended x

/-- No process with children exits while the tree is walked, and no target changes its group while
the groups are killed. -/
def Steady (h : Host) : Ending → HostEvent → Prop
  | walking _ _, .exit pid _ _ => ∀ q ∈ h.pids, (h.proc q).parent ≠ pid
  | grouping .kill targets _ _, .regroup pid _ => pid ∉ targets
  | signalling .kill targets _, .regroup pid _ => pid ∉ targets
  | _, _ => True

/-- The guardian can read the process that it looks at, and may signal the targets of the group that
it kills. -/
def Able (h : Host) (pick : ℕ) : Ending → Prop
  | looking _ _ _ todo => pick ∈ todo → pick ∈ h.pids → (h.proc pick).readable = true
  | signalling .kill targets _ =>
      ∀ x ∈ targets, ¬h.Ended x → (h.proc x).group = pick → (h.proc x).signalable = true
  | _ => True

instance (h : Host) (pick : ℕ) : (s : Ending) → Decidable (s.Able h pick)
  | looking _ _ _ todo => inferInstanceAs (Decidable (pick ∈ todo → pick ∈ h.pids → _))
  | signalling .kill targets _ =>
      inferInstanceAs (Decidable (∀ x ∈ targets, ¬h.Ended x → (h.proc x).group = pick → _))
  | checking | walking .. | grouping .. | signalling .term .. | clocking .. | polling ..
  | pausing .. | done | failed => isTrue trivial

variable {R : ℕ → ℕ → Prop} {targets : Finset ℕ} {w w' : Worklist ℕ}

theorem Caught.later (hcaught : Caught R root h targets) (hlater : h.Later h') :
    Caught R root h' targets where
  root_given := hlater.given hcaught.root_given
  given := fun x hx ↦ hlater.given (hcaught.given x hx)
  all := fun x hx ↦ (hcaught.all x hx).imp_left fun hended ↦ hended.later hlater

theorem Follows.turn (hfollows : Follows R root h w) (hwell : h.WellFormed own)
    (hturn : w.turn h.indexedChildren = some w') : Follows R root h w' where
  root_mem := Worklist.mem_result_turn hturn hfollows.root_mem
  given := by
    intro x hx
    rcases Worklist.result_turn hturn hx with hx | ⟨y, hx⟩
    · exact hfollows.given x hx
    · exact hwell.given x (Host.mem_indexedChildren.mp hx).1
  parents := hfollows.parents
  edges := hfollows.edges
  ends := hfollows.ends
  covers := hfollows.covers.turn (fun x y hedge ↦ hfollows.edges x y hedge.1 hedge.2) hturn

/-- What the walk has not found has ended. -/
theorem Follows.caught (hfollows : Follows R root h w) (hturn : w.turn h.indexedChildren = none) :
    Caught R root h w.result where
  root_given := hfollows.given root hfollows.root_mem
  given := hfollows.given
  all := by
    intro x hx
    by_cases hended : h.Ended x
    · exact .inl hended
    refine .inr (hfollows.covers.mem_of_reached (Worklist.pending_of_turn hturn)
      hfollows.root_mem ?_)
    induction hx with
    | refl => exact .refl
    | @tail a x _ hedge ih =>
        exact (ih fun ha ↦ hended (hfollows.ends a x hedge ha)).tail ⟨hedge, hended⟩

theorem Follows.host {e : HostEvent} {signal : Signal} (hfollows : Follows R root h w)
    (hwell : h.WellFormed own) (hstep : h.step own root e = some h')
    (hsteady : (walking signal w).Steady h e) : Follows R root h' w := by
  have hlater := Host.later_step hstep
  have hparent : ∀ x y, R x y → ¬h.Ended y → ∀ adopter thread, e ≠ .exit x adopter thread := by
    rintro x y hedge hy adopter thread rfl
    obtain ⟨hpid, hparent, _⟩ := Host.mem_indexedChildren.mp (hfollows.edges x y hedge hy)
    exact hsteady y hpid hparent
  exact
    { root_mem := hfollows.root_mem
      given := fun x hx ↦ hlater.given (hfollows.given x hx)
      parents := fun x y hedge ↦ hlater.given (hfollows.parents x y hedge)
      edges := by
        intro x y hedge hy
        have hy' : ¬h.Ended y := fun hended ↦ hy (hended.later hlater)
        exact Host.indexed_of_step hwell hstep (hfollows.edges x y hedge hy') hy
          (hparent x y hedge hy')
      ends := by
        intro x y hedge hx
        by_cases hy : h.Ended y
        · exact hy.later hlater
        · have hx' := Host.ended_of_step hstep (hfollows.parents x y hedge) hx
            (hparent x y hedge hy)
          exact (hfollows.ends x y hedge hx').later hlater
      covers := hfollows.covers.mono fun x y hedge ↦
        ⟨hedge.1, fun hended ↦ hedge.2 (hended.later hlater)⟩ }

/-- The hunt goes on while the processes do something. -/
theorem Hunts.host {e : HostEvent} (hhunts : s.Hunts R root h) (hwell : h.WellFormed own)
    (hstep : h.step own root e = some h') (hsteady : s.Steady h e) : s.Hunts R root h' := by
  have hlater := Host.later_step hstep
  cases s with
  | checking | failed => exact hhunts
  | walking signal w => exact Follows.host hhunts hwell hstep hsteady
  | clocking | polling | pausing => exact Caught.later hhunts hlater
  | done => exact fun x hx ↦ (hhunts x hx).later hlater
  | looking targets deadline rootDone todo =>
      obtain ⟨hcaught, hroot, hothers⟩ := hhunts
      exact ⟨hcaught.later hlater, fun hdone ↦ (hroot hdone).later hlater,
        fun x hx hne htodo ↦ (hothers x hx hne htodo).later hlater⟩
  | grouping signal targets todo groups =>
      cases signal with
      | term => exact Caught.later hhunts hlater
      | kill =>
          obtain ⟨hcaught, hgroups⟩ := hhunts
          refine ⟨hcaught.later hlater, fun x hx htodo ↦ ?_⟩
          refine (hgroups x hx htodo).imp (fun hended ↦ hended.later hlater) fun hmem ↦ ?_
          rwa [Host.group_of_step hstep (hcaught.given x hx)]
          rintro group rfl
          exact hsteady hx
  | signalling signal targets groups =>
      cases signal with
      | term => exact Caught.later hhunts hlater
      | kill =>
          obtain ⟨hcaught, hgroups⟩ := hhunts
          refine ⟨hcaught.later hlater, fun x hx ↦ ?_⟩
          refine (hgroups x hx).imp (fun hended ↦ hended.later hlater) fun hmem ↦ ?_
          rwa [Host.group_of_step hstep (hcaught.given x hx)]
          rintro group rfl
          exact hsteady hx

/-! ## One step of the hunt -/

theorem Caught.group (hcaught : Caught R root h targets) {todo groups : Finset ℕ} {group : ℕ}
    (hgroups : ∀ x ∈ targets, x ∉ todo → h.Ended x ∨ (h.proc x).group ∈ groups)
    (hwell : h.WellFormed own) (hgroup : h.getpgid pick = some group) :
    Hunts R root h (grouping .kill targets (todo.erase pick)
      (if group ≠ own then insert group groups else groups)) := by
  unfold Host.getpgid at hgroup
  split at hgroup
  · next hpid =>
      obtain rfl := Option.some.inj hgroup
      rw [if_pos (hwell.apart pick hpid)]
      refine ⟨hcaught, fun x hx htodo ↦ ?_⟩
      by_cases heq : x = pick
      · exact .inr (Finset.mem_insert.mpr (.inl (heq ▸ rfl)))
      · refine (hgroups x hx fun hmem ↦ htodo (Finset.mem_erase.mpr ⟨heq, hmem⟩)).imp_right ?_
        exact Finset.mem_insert_of_mem
  · cases hgroup

theorem Caught.vanished (hcaught : Caught R root h targets) {todo groups : Finset ℕ}
    (hgroups : ∀ x ∈ targets, x ∉ todo → h.Ended x ∨ (h.proc x).group ∈ groups)
    (hgroup : h.getpgid pick = none) :
    Hunts R root h (grouping .kill targets (todo.erase pick) groups) := by
  unfold Host.getpgid at hgroup
  split at hgroup
  · cases hgroup
  · next hpid =>
      refine ⟨hcaught, fun x hx htodo ↦ ?_⟩
      by_cases heq : x = pick
      · exact .inl ⟨hcaught.given x hx, fun hmem ↦ absurd (heq ▸ hmem) hpid⟩
      · exact hgroups x hx fun hmem ↦ htodo (Finset.mem_erase.mpr ⟨heq, hmem⟩)

theorem Caught.kill (hcaught : Caught R root h targets) {groups : Finset ℕ}
    (hgroups : ∀ x ∈ targets, h.Ended x ∨ (h.proc x).group ∈ groups)
    (hable : (signalling .kill targets groups).Able h pick) :
    Hunts R root (h.killGroup pick) (signalling .kill targets (groups.erase pick)) := by
  refine ⟨hcaught.later Host.later_killGroup, fun x hx ↦ ?_⟩
  rw [Host.group_killGroup]
  by_cases hended : h.Ended x
  · exact .inl (hended.later Host.later_killGroup)
  by_cases heq : (h.proc x).group = pick
  · exact .inl (heq ▸ Host.ended_killGroup (hcaught.given x hx) (hable x hx hended heq))
  · refine (hgroups x hx).imp (fun hended ↦ hended.later Host.later_killGroup) fun hmem ↦ ?_
    exact Finset.mem_erase.mpr ⟨heq, hmem⟩

theorem Caught.look (hcaught : Caught R root h targets) {deadline : ℚ} {rootDone : Bool}
    {todo : Finset ℕ} (hroot : rootDone = true → h.Ended root)
    (hothers : ∀ x ∈ targets, x ≠ root → x ∉ todo → h.Ended x)
    (hrunning : h.isRunning pick = some false) :
    Hunts R root h (looking targets deadline rootDone (todo.erase pick)) := by
  refine ⟨hcaught, hroot, fun x hx hne htodo ↦ ?_⟩
  by_cases heq : x = pick
  · exact Host.ended_of_not_running (hcaught.given x hx) (heq ▸ hrunning)
  · exact hothers x hx hne fun hmem ↦ htodo (Finset.mem_erase.mpr ⟨heq, hmem⟩)

/-- The hunt goes on, and when it is over every process of the tree has ended. -/
theorem Hunts.step (hhunts : s.Hunts R root h) (hwell : h.WellFormed own) (hable : s.Able h pick)
    (hstep : s.step g own root clock pick h = some (s', h')) : s'.Hunts R root h' := by
  cases s with
  | checking | failed => exact hhunts.elim
  | done => cases hstep
  | walking signal w =>
      simp only [Ending.step] at hstep
      cases hturn : w.turn h.indexedChildren with
      | some w' =>
          rw [hturn] at hstep
          cases hstep
          exact Follows.turn hhunts hwell hturn
      | none =>
          rw [hturn] at hstep
          cases hstep
          have hcaught := Follows.caught hhunts hturn
          cases signal with
          | term => exact hcaught
          | kill => exact ⟨hcaught, fun x hx htodo ↦ absurd hx htodo⟩
  | grouping signal targets todo groups =>
      simp only [Ending.step] at hstep
      split at hstep
      · next htodo =>
          cases hstep
          cases signal with
          | term => exact hhunts
          | kill => exact ⟨hhunts.1, fun x hx ↦ hhunts.2 x hx (htodo ▸ Finset.notMem_empty x)⟩
      split at hstep
      · cases hgroup : h.getpgid pick with
        | some group =>
            rw [hgroup] at hstep
            cases hstep
            cases signal with
            | term => exact hhunts
            | kill => exact Caught.group hhunts.1 hhunts.2 hwell hgroup
        | none =>
            rw [hgroup] at hstep
            cases hstep
            cases signal with
            | term => exact hhunts
            | kill => exact Caught.vanished hhunts.1 hhunts.2 hgroup
      · cases hstep
  | signalling signal targets groups =>
      simp only [Ending.step] at hstep
      split at hstep
      · next hgroups =>
          cases hstep
          cases signal with
          | term => exact hhunts
          | kill =>
              intro x hx
              rcases hhunts.1.all x hx with hended | hmem
              · exact hended
              · refine (hhunts.2 x hmem).resolve_right ?_
                rw [hgroups]
                exact Finset.notMem_empty _
      split at hstep
      · cases hstep
        cases signal with
        | term => exact hhunts
        | kill => exact Caught.kill hhunts.1 hhunts.2 hable
      · cases hstep
  | clocking targets deadline =>
      simp only [Ending.step] at hstep
      split at hstep <;> cases hstep
      · exact hhunts
      · exact ⟨hhunts, fun x hx htodo ↦ absurd hx htodo⟩
  | polling targets deadline =>
      cases hstep
      refine ⟨Caught.later hhunts Host.later_poll,
        Host.ended_of_poll hwell.nodup hhunts.root_given, fun x hx hne htodo ↦ ?_⟩
      exact absurd (Finset.mem_erase.mpr ⟨hne, hx⟩) htodo
  | looking targets deadline rootDone todo =>
      obtain ⟨hcaught, hroot, hothers⟩ := hhunts
      simp only [Ending.step] at hstep
      split at hstep
      · next htodo =>
          cases hstep
          cases rootDone with
          | false => exact hcaught
          | true =>
              intro x hx
              rcases hcaught.all x hx with hended | hmem
              · exact hended
              by_cases heq : x = root
              · exact heq ▸ hroot rfl
              · exact hothers x hmem heq (htodo ▸ Finset.notMem_empty x)
      split at hstep
      · next hpick =>
          cases hrunning : h.isRunning pick with
          | none => exact absurd hrunning (Host.isRunning_ne_none (hable hpick))
          | some running =>
              rw [hrunning] at hstep
              cases running with
              | true =>
                  cases hstep
                  exact hcaught
              | false =>
                  cases hstep
                  exact hcaught.look hroot hothers hrunning
      · cases hstep
  | pausing targets deadline wake =>
      simp only [Ending.step] at hstep
      split at hstep <;> cases hstep
      exact hhunts

end Ending

end ChipEvolve.Guardian
