import ChipEvolve.Store.WellFormed
import Mathlib.Algebra.BigOperators.Group.List.Basic
import Mathlib.Algebra.Order.BigOperators.Group.List

/-!
# Capacity is never oversold

Each claim checks the two sums against budgets rounded on their own, after its
attempt row is already in the transaction.  The sums only grow where that check
passed, since a reserved amount is positive and every other path removes rows.
-/

namespace ChipEvolve

open Machine Sql

/-! ## The reservations after an effect -/

/-- The rows an effect deletes. -/
def Effect.drops : Effect → ReservationRow → Bool
  | .finish attemptId _ _ _, r => r.attemptId = attemptId
  | .release attemptId, r => r.attemptId = attemptId
  | _, _ => false

def Effect.newReservations : Effect → List ReservationRow
  | .claim _ c attemptId _ => c.reservations attemptId
  | _ => []

theorem reservations_apply (e : Effect) (t : Tables) :
    (e.apply t).reservations = Table.delete e.drops t.reservations ++ e.newReservations := by
  have hnone : Table.delete (fun _ ↦ false) t.reservations = t.reservations := by
    simp [Table.delete]
  cases e with
  | finish | release => exact (List.append_nil _).symm
  | claim stage c attemptId now =>
      exact congrArg (· ++ c.reservations attemptId) hnone.symm
  | _ => exact (hnone.symm.trans (List.append_nil _).symm)

/-! ## Sums -/

theorem sum_delete_le {f : ReservationRow → Int} {p : ReservationRow → Bool}
    {rows : List ReservationRow} (hpos : ∀ r ∈ rows, 0 < f r) :
    ((Table.delete p rows).map f).sum ≤ (rows.map f).sum := by
  induction rows with
  | nil => simp [Table.delete]
  | cons r rows ih =>
      have hrest := ih fun r hr ↦ hpos r (List.mem_cons_of_mem _ hr)
      have hr := hpos r List.mem_cons_self
      unfold Table.delete at hrest ⊢
      cases hp : p r <;> simp only [List.filter_cons, hp, Bool.not_true, Bool.not_false, if_true,
        Bool.false_eq_true, if_false, List.map_cons, List.sum_cons] <;> omega

/-- Every reserved amount is positive, and the sums fit the budgets. -/
structure WithinBudget (cpu memory : Int) (t : Tables) : Prop where
  positive : ∀ r ∈ t.reservations, 0 < r.cpuCores ∧ 0 < r.memoryBytes
  cpu : t.reservedCpu ≤ cpu
  memory : t.reservedMemory ≤ memory

/-- The capacities a claim was made with, when it is one. -/
def ClaimsCapacity (cpu memory : Int) (fraction : PlatformFraction) (e : Effect) : Prop :=
  ∀ stage c attemptId now, e = .claim stage c attemptId now →
    c.capacityCpuCores = some cpu ∧ c.capacityMemoryBytes = some memory ∧
      c.platformFraction = fraction

namespace WithinBudget

variable {cpu memory cpuBudget memoryBudget : Int} {fraction : PlatformFraction} {t : Tables}

theorem deleted {e : Effect} (h : WithinBudget cpu memory t) (hnew : e.newReservations = []) :
    WithinBudget cpu memory (e.apply t) := by
  have hrows : (e.apply t).reservations = Table.delete e.drops t.reservations := by
    rw [reservations_apply, hnew, List.append_nil]
  refine ⟨?_, ?_, ?_⟩
  · intro r hr
    rw [hrows] at hr
    exact h.positive r (Table.mem_delete.mp hr).1
  · rw [Tables.reservedCpu, hrows]
    exact (sum_delete_le fun r hr ↦ (h.positive r hr).1).trans h.cpu
  · rw [Tables.reservedMemory, hrows]
    exact (sum_delete_le fun r hr ↦ (h.positive r hr).2).trans h.memory

theorem claimed (hcpuBudget : budget cpu fraction = .ok cpuBudget)
    (hmemoryBudget : budget memory fraction = .ok memoryBudget)
    (h : WithinBudget cpuBudget memoryBudget t)
    {stage : StageRow} {c : Claim} {attemptId : AttemptId} {now : Timestamp}
    (he : (Effect.claim stage c attemptId now).Enabled t)
    (hcapacity : ClaimsCapacity cpu memory fraction (.claim stage c attemptId now)) :
    WithinBudget cpuBudget memoryBudget ((Effect.claim stage c attemptId now).apply t) := by
  obtain ⟨hcpu, hmemory, rfl⟩ := hcapacity stage c attemptId now rfl
  cases hwanted : c.wanted with
  | none =>
      refine h.deleted ?_
      simp [Effect.newReservations, Claim.reservations, hwanted]
  | some w =>
      obtain ⟨_, _, _, hfits⟩ := he
      obtain ⟨_, hbooked, hrow⟩ := hfits w hwanted
      obtain ⟨cpu', memory', hcpu', hmemory', hcpuWanted, hmemoryWanted⟩ :=
        c.budgets_of_wanted hwanted
      obtain rfl := Option.some.inj (hcpu.symm.trans hcpu')
      obtain rfl := Option.some.inj (hmemory.symm.trans hmemory')
      replace hbooked : (cpuBudget < t.reservedCpu + w.cpu ||
          memoryBudget < t.reservedMemory + w.memory) = false := by
        rw [Tables.overbooked, hcpuWanted, hmemoryWanted, hcpuBudget, hmemoryBudget] at hbooked
        exact Except.ok.inj hbooked
      simp only [Bool.or_eq_false_iff, decide_eq_false_iff_not, not_lt] at hbooked
      simp only [Tables.refusesReservation, Bool.or_eq_false_iff, decide_eq_false_iff_not,
        not_le] at hrow
      have hrows : ((Effect.claim stage c attemptId now).apply t).reservations =
          t.reservations ++ [w.row attemptId] := by
        rw [reservations_apply]
        simp [Effect.drops, Effect.newReservations, Claim.reservations, hwanted, Table.delete]
      refine ⟨?_, ?_, ?_⟩
      · intro r hr
        rw [hrows] at hr
        rcases List.mem_append.mp hr with hr | hr
        · exact h.positive r hr
        · obtain rfl := List.mem_singleton.mp hr
          exact ⟨hrow.1.2, hrow.2⟩
      · rw [Tables.reservedCpu, hrows, List.map_append, List.sum_append]
        simpa [Tables.reservedCpu, Wanted.row] using hbooked.1
      · rw [Tables.reservedMemory, hrows, List.map_append, List.sum_append]
        simpa [Tables.reservedMemory, Wanted.row] using hbooked.2

theorem of_reachable (hcpuBudget : budget cpu fraction = .ok cpuBudget)
    (hmemoryBudget : budget memory fraction = .ok memoryBudget)
    (h : ReachableBy Effect.step (fun _ e ↦ ClaimsCapacity cpu memory fraction e) {} t) :
    WithinBudget cpuBudget memoryBudget t := by
  have hpos {capacity b : Int} (hb : budget capacity fraction = .ok b) : 0 ≤ b := by
    obtain ⟨product, _, rfl⟩ := Except.map_eq_ok.mp hb
    exact (by decide : (0 : Int) ≤ 1).trans (le_max_left _ _)
  have hempty : WithinBudget cpuBudget memoryBudget {} :=
    ⟨by simp, hpos hcpuBudget, hpos hmemoryBudget⟩
  refine h.invariant hempty ?_
  intro t e t' ht hcapacity hstep
  obtain ⟨henabled, rfl⟩ := Effect.step_eq_some.mp hstep
  cases e with
  | claim stage c attemptId now =>
      exact ht.claimed hcpuBudget hmemoryBudget henabled hcapacity
  | _ => exact ht.deleted rfl

end WithinBudget

/-! ## Every history with fixed capacities -/

/-- A claim names the given capacities; other operations name none. -/
def usesCapacity (cpu memory : Int) (fraction : PlatformFraction) (l : ThreadId × Operation) : Bool :=
  match l.2 with
  | .startAttempt _ c _ _ =>
      c.capacityCpuCores = some cpu && c.capacityMemoryBytes = some memory &&
        c.platformFraction = fraction
  | _ => true

theorem System.lifecycle_capacity {custody : Custody} {cpu memory : Int}
    {fraction : PlatformFraction} {s : System} (h : ReachableBy (System.step custody)
      (fun _ l ↦ usesCapacity cpu memory fraction l = true) {} s) :
    ReachableBy Effect.step (fun _ e ↦ ClaimsCapacity cpu memory fraction e) {} s.tables := by
  refine System.lifecycle ?_ h
  rintro s ⟨tid, op⟩ e _ hallowed hemits stage c attemptId now rfl
  simp only at hemits
  generalize s.clients tid = client at hemits
  cases hemits with
  | claim => simpa [usesCapacity, and_assoc] using hallowed
  | pass hpass => cases hpass

/-- With fixed capacities and a fixed fraction the reserved cores and the
reserved bytes stay within their budgets in every state, and a claim that
returns `None` or raises leaves every table as it was. -/
theorem capacity_never_oversold (custody : Custody) (cpu memory : Int) (fraction : Rat)
    (history : List (ThreadId × Operation))
    (hfixed : ∀ l ∈ history, usesCapacity cpu memory (.exact fraction) l = true) :
    (∀ s, Visits (System.step custody) {} history s →
      s.tables.reservedCpu ≤ max 1 (Rat.ceil (cpu * fraction)) ∧
        s.tables.reservedMemory ≤ max 1 (Rat.ceil (memory * fraction))) ∧
    ∀ (t : Tables) (stageRunId : StageRunId) (c : Claim) (attemptId : AttemptId) (now : Timestamp),
      (exec (startAttempt stageRunId c attemptId now) t).1 = .ok none ∨
        (∃ x, (exec (startAttempt stageRunId c attemptId now) t).1 = .error x) →
      (exec (startAttempt stageRunId c attemptId now) t).2 = t := by
  constructor
  · intro s hs
    have hreach : ReachableBy (System.step custody)
        (fun _ l ↦ usesCapacity cpu memory (.exact fraction) l = true) {} s :=
      hs.reachableBy fun _ l _ h ↦ hfixed l h.mem
    have hbudget := WithinBudget.of_reachable rfl rfl (System.lifecycle_capacity hreach)
    exact ⟨hbudget.cpu, hbudget.memory⟩
  · intro t stageRunId c attemptId now hresult
    rcases startAttempt_cases t stageRunId attemptId c now with
      ⟨x, hkeeps, _⟩ | hkeeps | ⟨_, _, hcommits⟩
    · rw [hkeeps.exec]
    · rw [hkeeps.exec]
    · rw [hcommits.exec] at hresult
      rcases hresult with hnone | ⟨x, herror⟩
      · cases hnone
      · cases herror

/-- Two claims of one core on a machine of four, of which half may be used. -/
def Sample.claims : List (ThreadId × Operation) :=
  [(0, .submitRun (Sample.submission 2)),
    (0, .startAttempt "stage" { Sample.claim with platformFraction := .exact (1 / 2) } "a1" 0),
    (0, .scheduleRetry "run" "stage" "again"),
    (1, .startAttempt "stage" { Sample.claim with platformFraction := .exact (1 / 2) } "a2" 0)]

theorem capacity_never_oversold_claims :
    ∃ s : System, s.tables.reservedCpu = 2 ∧
      s.tables.reservedCpu ≤ max 1 (Rat.ceil ((4 : Int) * (1 / 2))) := by
  have hends : (run (System.step Sample.custody) {} Sample.claims).any
      (fun s ↦ s.tables.reservedCpu = 2) = true := by decide +kernel
  obtain ⟨s, hs, hcpu⟩ := Visits.of_any hends
  obtain ⟨hwithin, _⟩ := capacity_never_oversold Sample.custody 4 4 (1 / 2) Sample.claims
    (by decide +kernel)
  exact ⟨s, by simpa using hcpu, (hwithin s hs).1⟩

end ChipEvolve
