import Mathlib.Data.List.Infix
import Mathlib.Tactic.Common

/-!
# Labelled machines and their histories

A machine is a partial step function: a state and a label determine the next
state, or the label is not enabled.  Every source of choice sits in the label,
so a list of labels determines a run.  The two predicates on histories,
`Visits` and `Takes`, speak about every state passed and every step made, and
`ReachableBy` collects the states that can be reached by steps meeting a guard.
-/

namespace Machine

variable {σ τ ℓ κ : Type*}

/-- The state after all labels of a list, if each is enabled in turn. -/
def run (step : σ → ℓ → Option σ) : σ → List ℓ → Option σ
  | s, [] => some s
  | s, l :: ls => (step s l).bind fun s' ↦ run step s' ls

/-- `s` is the state after some part of the history `ls`. -/
def Visits (step : σ → ℓ → Option σ) (s₀ : σ) (ls : List ℓ) (s : σ) : Prop :=
  ∃ pre, pre <+: ls ∧ run step s₀ pre = some s

/-- The history `ls` makes the step from `s` to `s'` labelled `l`. -/
def Takes (step : σ → ℓ → Option σ) (s₀ : σ) (ls : List ℓ) (s : σ) (l : ℓ) (s' : σ) : Prop :=
  ∃ pre, pre ++ [l] <+: ls ∧ run step s₀ pre = some s ∧ step s l = some s'

/-- The states reached by steps that all meet `guard` in the state they leave. -/
inductive ReachableBy (step : σ → ℓ → Option σ) (guard : σ → ℓ → Prop) (s₀ : σ) : σ → Prop
  | init : ReachableBy step guard s₀ s₀
  | next {s s' : σ} {l : ℓ} (hs : ReachableBy step guard s₀ s) (hguard : guard s l)
      (hstep : step s l = some s') : ReachableBy step guard s₀ s'

variable {step : σ → ℓ → Option σ} {guard : σ → ℓ → Prop} {s₀ s s' : σ} {ls : List ℓ} {l : ℓ}

@[simp] theorem run_nil : run step s [] = some s := rfl

@[simp] theorem run_cons : run step s (l :: ls) = (step s l).bind fun s' ↦ run step s' ls := rfl

theorem run_append (step : σ → ℓ → Option σ) (s : σ) (xs ys : List ℓ) :
    run step s (xs ++ ys) = (run step s xs).bind fun s' ↦ run step s' ys := by
  induction xs generalizing s with
  | nil => rfl
  | cons l xs ih =>
      simp only [List.cons_append, run_cons, Option.bind_assoc]
      congr 1
      funext s'
      exact ih s'

theorem run_concat_eq_some_iff :
    run step s₀ (ls ++ [l]) = some s' ↔ ∃ s, run step s₀ ls = some s ∧ step s l = some s' := by
  rw [run_append, Option.bind_eq_some_iff]
  simp

/-- What holds of the empty history, and with each history of one more step, holds of all. -/
theorem run_induction {P : List ℓ → σ → Prop} (hnil : P [] s₀)
    (hkeep : ∀ ls s l s', P ls s → step s l = some s' → P (ls ++ [l]) s')
    (hrun : run step s₀ ls = some s) : P ls s := by
  induction ls using List.reverseRecOn generalizing s with
  | nil =>
      obtain rfl : s₀ = s := by simpa using hrun
      exact hnil
  | append_singleton ls l ih =>
      obtain ⟨u, hu, hstep⟩ := run_concat_eq_some_iff.mp hrun
      exact hkeep ls u l s (ih hu) hstep

theorem Takes.visits_left (h : Takes step s₀ ls s l s') : Visits step s₀ ls s := by
  obtain ⟨pre, hpre, hrun, _⟩ := h
  exact ⟨pre, (List.prefix_append pre [l]).trans hpre, hrun⟩

theorem Takes.visits_right (h : Takes step s₀ ls s l s') : Visits step s₀ ls s' := by
  obtain ⟨pre, hpre, hrun, hstep⟩ := h
  exact ⟨pre ++ [l], hpre, run_concat_eq_some_iff.mpr ⟨s, hrun, hstep⟩⟩

theorem Takes.step_eq (h : Takes step s₀ ls s l s') : step s l = some s' := by
  obtain ⟨_, _, _, hstep⟩ := h
  exact hstep

theorem Takes.mem (h : Takes step s₀ ls s l s') : l ∈ ls := by
  obtain ⟨pre, hpre, _⟩ := h
  exact hpre.subset (by simp)

/-- A longer history makes the steps of a shorter one. -/
theorem Takes.mono {ls' : List ℓ} (hle : ls <+: ls') (h : Takes step s₀ ls s l s') :
    Takes step s₀ ls' s l s' := by
  obtain ⟨pre, hpre, hstep⟩ := h
  exact ⟨pre, hpre.trans hle, hstep⟩

theorem not_takes_nil : ¬Takes step s₀ [] s l s' := by
  rintro ⟨pre, hpre, _⟩
  simpa using List.prefix_nil.mp hpre

/-- The first step of a history, or a step of what follows it. -/
theorem takes_cons_iff {k : ℓ} :
    Takes step s₀ (k :: ls) s l s' ↔
      (s = s₀ ∧ l = k ∧ step s₀ k = some s') ∨
        ∃ s₁, step s₀ k = some s₁ ∧ Takes step s₁ ls s l s' := by
  constructor
  · rintro ⟨pre, hpre, hrun, hstep⟩
    cases pre with
    | nil =>
        obtain rfl : s₀ = s := by simpa using hrun
        obtain rfl : l = k := by simpa using hpre
        exact .inl ⟨rfl, rfl, hstep⟩
    | cons k' pre =>
        rw [List.cons_append, List.cons_prefix_cons] at hpre
        obtain ⟨rfl, hpre⟩ := hpre
        obtain ⟨s₁, hs₁, hrun⟩ := Option.bind_eq_some_iff.mp hrun
        exact .inr ⟨s₁, hs₁, pre, hpre, hrun, hstep⟩
  · rintro (⟨rfl, rfl, hstep⟩ | ⟨s₁, hs₁, pre, hpre, hrun, hstep⟩)
    · exact ⟨[], by simp, rfl, hstep⟩
    · refine ⟨k :: pre, ?_, by simp [hs₁, hrun], hstep⟩
      rw [List.cons_append, List.cons_prefix_cons]
      exact ⟨rfl, hpre⟩

/-- Test every step of a history. -/
def allSteps (step : σ → ℓ → Option σ) (p : σ → ℓ → Bool) : σ → List ℓ → Bool
  | _, [] => true
  | s, l :: ls =>
      match step s l with
      | none => true
      | some s' => p s l && allSteps step p s' ls

theorem Takes.of_allSteps {p : σ → ℓ → Bool} (hall : allSteps step p s₀ ls = true)
    (h : Takes step s₀ ls s l s') : p s l = true := by
  induction ls generalizing s₀ with
  | nil => exact absurd h not_takes_nil
  | cons k ls ih =>
      rcases takes_cons_iff.mp h with ⟨rfl, rfl, hstep⟩ | ⟨s₁, hs₁, hrest⟩
      · simp only [allSteps, hstep, Bool.and_eq_true] at hall
        exact hall.1
      · simp only [allSteps, hs₁, Bool.and_eq_true] at hall
        exact ih hall.2 hrest

/-- A history that runs through visits the state it ends in. -/
theorem Visits.of_any {p : σ → Bool} (h : (run step s₀ ls).any p = true) :
    ∃ s, Visits step s₀ ls s ∧ p s = true := by
  obtain ⟨s, hs, hp⟩ := (Option.any_eq_true p _).mp h
  exact ⟨s, ⟨ls, List.prefix_refl ls, hs⟩, hp⟩

/-- A history that runs through goes on from every state it visits. -/
theorem Visits.run_rest (h : Visits step s₀ ls s) (hrun : run step s₀ ls = some s') :
    ∃ rest, run step s rest = some s' := by
  obtain ⟨pre, ⟨rest, rfl⟩, hpre⟩ := h
  rw [run_append, hpre] at hrun
  exact ⟨rest, hrun⟩

/-- A history that runs through and can go on takes the step it goes on with. -/
theorem Takes.of_any {p : σ → Bool}
    (h : (run step s₀ ls).any (fun s ↦ p s && (step s l).isSome) = true) :
    ∃ s s', Takes step s₀ (ls ++ [l]) s l s' ∧ p s = true := by
  obtain ⟨s, hs, hboth⟩ := (Option.any_eq_true _ _).mp h
  obtain ⟨hp, hsome⟩ := Bool.and_eq_true_iff.mp hboth
  obtain ⟨s', hstep⟩ := Option.isSome_iff_exists.mp hsome
  exact ⟨s, s', ⟨ls, List.prefix_refl _, hs, hstep⟩, hp⟩

/-- Every visited state is reached by the steps the history makes. -/
theorem Visits.reachableBy (hguard : ∀ s l s', Takes step s₀ ls s l s' → guard s l)
    (h : Visits step s₀ ls s) : ReachableBy step guard s₀ s := by
  obtain ⟨pre, hpre, hrun⟩ := h
  induction pre using List.reverseRecOn generalizing s with
  | nil =>
      obtain rfl : s₀ = s := by simpa using hrun
      exact .init
  | append_singleton pre l ih =>
      obtain ⟨u, hu, hstep⟩ := run_concat_eq_some_iff.mp hrun
      have hpre' : pre <+: ls := (List.prefix_append pre [l]).trans hpre
      exact .next (ih hpre' hu) (hguard u l s ⟨pre, hpre, hu, hstep⟩) hstep

theorem Visits.reachable (h : Visits step s₀ ls s) :
    ReachableBy step (fun _ _ ↦ True) s₀ s :=
  h.reachableBy fun _ _ _ _ ↦ trivial

/-- An invariant that every guarded step keeps holds in every guarded state. -/
theorem ReachableBy.invariant {P : σ → Prop} (hinit : P s₀)
    (hkeep : ∀ s l s', P s → guard s l → step s l = some s' → P s')
    (h : ReachableBy step guard s₀ s) : P s := by
  induction h with
  | init => exact hinit
  | next _ hguard hstep ih => exact hkeep _ _ _ ih hguard hstep

/-- Reaching a state from a reachable one, label by label. -/
theorem ReachableBy.run (h : ReachableBy step (fun _ _ ↦ True) s₀ s)
    (hrun : Machine.run step s ls = some s') : ReachableBy step (fun _ _ ↦ True) s₀ s' := by
  induction ls generalizing s with
  | nil =>
      obtain rfl : s = s' := by simpa using hrun
      exact h
  | cons l ls ih =>
      obtain ⟨u, hu, hrest⟩ := Option.bind_eq_some_iff.mp hrun
      exact ih (.next h trivial hu) hrest

/-- A relation that every reachable step makes and that composes holds between
the two ends of any run from a reachable state. -/
theorem ReachableBy.run_rel {R : σ → σ → Prop} (hrefl : ∀ s, R s s)
    (htrans : ∀ a b c, R a b → R b c → R a c)
    (hmake : ∀ s l s', ReachableBy step (fun _ _ ↦ True) s₀ s → step s l = some s' → R s s')
    (h : ReachableBy step (fun _ _ ↦ True) s₀ s) (hrun : Machine.run step s ls = some s') :
    R s s' := by
  induction ls generalizing s with
  | nil =>
      obtain rfl : s = s' := by simpa using hrun
      exact hrefl s
  | cons l ls ih =>
      obtain ⟨u, hu, hrest⟩ := Option.bind_eq_some_iff.mp hrun
      exact htrans _ _ _ (hmake s l u h hu) (ih (.next h trivial hu) hrest)

/-- Forward simulation: if each step of one machine is, under `abs`, a guarded
step of another or no step at all, reachable states map to reachable states. -/
theorem ReachableBy.simulation {step' : τ → κ → Option τ} {guard' : τ → κ → Prop} (abs : σ → τ)
    (hsim : ∀ s l s', ReachableBy step guard s₀ s → guard s l → step s l = some s' →
      abs s' = abs s ∨ ∃ k, guard' (abs s) k ∧ step' (abs s) k = some (abs s'))
    (h : ReachableBy step guard s₀ s) : ReachableBy step' guard' (abs s₀) (abs s) := by
  induction h with
  | init => exact .init
  | next hs hguard hstep ih =>
      rcases hsim _ _ _ hs hguard hstep with heq | ⟨k, hk, hstep'⟩
      · rw [heq]
        exact ih
      · exact .next ih hk hstep'

end Machine
