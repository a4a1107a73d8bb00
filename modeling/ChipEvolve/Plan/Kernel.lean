import ChipEvolve.Plan.Turns
import ChipEvolve.Store.StatusMachine

/-!
# The kernel between two statements of the executor

Whatever the kernel does, a run it has stays under its key, a terminal status is
final, and a new run answers a request that was sent.  `Follows` says this once
for all the ways in which the kernel changes.
-/

namespace ChipEvolve.Plans

open Machine

/-! ## Keys -/

theorem colon_notMem {s : String} (h : isPlanIdentifier s = true) : ':' ∉ s.toList := by
  unfold isPlanIdentifier at h
  split at h
  · cases h
  · rename_i c cs hs
    simp only [Bool.and_eq_true, List.all_eq_true] at h
    obtain ⟨⟨hhead, htail⟩, _⟩ := h
    rw [hs]
    intro hmem
    rcases List.mem_cons.mp hmem with rfl | hmem
    · exact absurd hhead (by decide)
    · exact absurd (htail _ hmem) (by decide)

/-- The identifier of a plan has no colon, so the key determines the step. -/
theorem idempotencyKey_inj {p q : PlanId} {a b : StepId} (hp : isPlanIdentifier p = true)
    (hq : isPlanIdentifier q = true) (h : idempotencyKey p a = idempotencyKey q b) :
    p = q ∧ a = b := by
  have hlist := congrArg String.toList h
  simp only [idempotencyKey, String.toList_append, List.append_assoc] at hlist
  have hcolon : ":step:".toList = ':' :: "step:".toList := by decide
  rw [hcolon, List.cons_append, List.cons_append] at hlist
  have hsplit := List.append_cancel_left hlist
  obtain ⟨hplan, hrest⟩ := Table.append_cons_inj (colon_notMem hp) (colon_notMem hq) hsplit
  exact ⟨String.toList_inj.mp hplan, String.toList_inj.mp (List.append_cancel_left hrest)⟩

/-! ## What the kernel keeps -/

namespace Kernel

/-- The key has a run, or a request for one is on its way. -/
def Keyed (k : Kernel) (key : String) : Prop := (k.runOf? key).isSome ∨ key ∈ k.inFlight

structure WellFormed (k : Kernel) : Prop where
  runIds : Table.Unique KernelRun.runId k.runs
  keys : Table.Unique KernelRun.key k.runs

/-- The kernel was `k` earlier and is `k'` now, with a new run for no key but `key`. -/
structure Follows (key : Option String) (k k' : Kernel) : Prop where
  wellFormed : k.WellFormed → k'.WellFormed
  kept : ∀ q run, k.runOf? q = some run → ∃ run', k'.runOf? q = some run' ∧
    run'.runId = run.runId ∧ (run.status.isTerminal = true → run'.status = run.status)
  new : ∀ q, k.runOf? q = none → (k'.runOf? q).isSome → key = some q
  keyed : ∀ q, k'.Keyed q ↔ k.Keyed q

variable {k k' : Kernel} {key : String} {fresh runId : RunId} {target : RuntimeStatus}

theorem Follows.refl (key : Option String) (k : Kernel) : Follows key k k where
  wellFormed h := h
  kept _ run hrun := ⟨run, hrun, rfl, fun _ ↦ rfl⟩
  new _ hnone hsome := by simp [hnone] at hsome
  keyed _ := Iff.rfl

/-- A run that is over keeps its status. -/
theorem Follows.final {created : Option String} (h : Follows created k k') {q : String}
    {run : KernelRun} (hrun : k.runOf? q = some run) (hterminal : run.status.isTerminal = true) :
    ∃ run', k'.runOf? q = some run' ∧ run'.status = run.status := by
  obtain ⟨run', hrun', _, hfinal⟩ := h.kept q run hrun
  exact ⟨run', hrun', hfinal hterminal⟩

theorem Follows.succeeded {created : Option String} (h : Follows created k k') {q : String}
    (hdone : ∃ run, k.runOf? q = some run ∧ run.status = .succeeded) :
    ∃ run, k'.runOf? q = some run ∧ run.status = .succeeded := by
  obtain ⟨run, hrun, hstatus⟩ := hdone
  obtain ⟨run', hrun', hsame⟩ := h.final hrun (by rw [hstatus]; rfl)
  exact ⟨run', hrun', hsame.trans hstatus⟩

theorem WellFormed.eq_run (h : k.WellFormed) {run run' : KernelRun}
    (hrun : k.runOf? key = some run) (hrun' : k.run? run.runId = some run') : run' = run :=
  h.runIds.eq_of_key (Table.mem_of_get? hrun') (Table.mem_of_get? hrun) (Table.key_of_get? hrun')

theorem runOf?_setStatus {q : String} :
    (k.setStatus runId target).runOf? q =
      (k.runOf? q).map fun r ↦ if r.runId = runId then { r with status := target } else r := by
  unfold runOf? setStatus Table.update
  rw [Table.get?_map fun r ↦ by split <;> rfl]
  congr 1
  funext r
  by_cases h : r.runId = runId <;> simp [h]

theorem kernelMoves_of_terminal {status : RuntimeStatus} (h : status.isTerminal = true) :
    kernelMoves status target = false := by
  cases status <;> cases target <;> first | rfl | exact absurd h (by decide)

/-- A run changes its status along the moves of the kernel. -/
theorem follows_setStatus (hwf : k.WellFormed) {run : KernelRun} (hrun : k.run? runId = some run)
    (hmove : kernelMoves run.status target = true) (created : Option String) :
    Follows created k (k.setStatus runId target) where
  wellFormed h :=
    ⟨h.runIds.map fun r ↦ by split <;> rfl, h.keys.map fun r ↦ by split <;> rfl⟩
  kept q r hr := by
    rw [runOf?_setStatus, hr]
    by_cases hid : r.runId = runId
    · have heq : run = r := hwf.eq_run hr (hid ▸ hrun)
      refine ⟨_, rfl, by simp [hid], fun hterminal ↦ ?_⟩
      rw [heq, kernelMoves_of_terminal hterminal] at hmove
      cases hmove
    · exact ⟨r, by simp [hid], rfl, fun _ ↦ rfl⟩
  new q hnone hsome := by simp [runOf?_setStatus, hnone] at hsome
  keyed q := by
    unfold Keyed
    rw [runOf?_setStatus, Option.isSome_map]
    rfl

theorem keyed_erase {k₀ : Kernel} (hsome : (k.runOf? key).isSome)
    (hold : ∀ q, q ≠ key → (k.runOf? q).isSome = (k₀.runOf? q).isSome)
    (hflight : k.inFlight = k₀.inFlight.erase key) (hkeyed : k₀.Keyed key) (q : String) :
    k.Keyed q ↔ k₀.Keyed q := by
  by_cases hq : q = key
  · subst hq
    exact iff_of_true (.inl hsome) hkeyed
  · unfold Keyed
    rw [hold q hq, hflight, List.mem_erase_of_ne hq]

/-- A request that was sent is applied: its key has a run afterwards, and only that
key can have a new one. -/
theorem follows_submit (hkeyed : k.Keyed key) (h : k.submit key fresh = some (runId, k')) :
    Follows (some key) k k' ∧ ∃ run, k'.runOf? key = some run ∧ run.runId = runId := by
  unfold submit at h
  split at h
  · rename_i run hrun
    cases h
    refine ⟨⟨fun h ↦ ⟨h.runIds, h.keys⟩, fun q r hr ↦ ⟨r, hr, rfl, fun _ ↦ rfl⟩, ?_, ?_⟩,
      run, hrun, rfl⟩
    · intro q hnone hsome
      have : k.runOf? q = none := hnone
      simp only [runOf?] at this hsome
      simp [this] at hsome
    · exact keyed_erase (Option.isSome_iff_exists.mpr ⟨run, hrun⟩) (fun _ _ ↦ rfl) rfl hkeyed
  · rename_i hnone
    split at h
    · cases h
    · rename_i hfresh
      cases h
      have hget : ∀ q, Table.get? KernelRun.key q
          (k.runs ++ [{ runId := fresh, key := key, status := .queued }]) =
          (k.runOf? q).or (if key = q then
            some { runId := fresh, key := key, status := .queued } else none) := by
        intro q
        rw [Table.get?_append]
        by_cases hq : key = q <;> simp [runOf?, Table.get?, hq]
      have hrun : Table.get? KernelRun.key key
          (k.runs ++ [{ runId := fresh, key := key, status := .queued }]) =
          some { runId := fresh, key := key, status := .queued } := by simp [hget, hnone]
      refine ⟨⟨?_, ?_, ?_, ?_⟩, _, hrun, rfl⟩
      · intro hwf
        refine ⟨hwf.runIds.append ?_, hwf.keys.append (Table.get?_eq_none_iff.mp hnone)⟩
        exact Table.get?_eq_none_iff.mp (by simpa [run?] using hfresh)
      · intro q r hr
        exact ⟨r, Table.get?_append_of_some hr, rfl, fun _ ↦ rfl⟩
      · intro q hq hsome
        by_contra hne
        have hkey : key ≠ q := fun heq ↦ hne (congrArg some heq)
        simp [runOf?, hget, hkey] at hsome hq
        simp [hq] at hsome
      · refine keyed_erase (Option.isSome_iff_exists.mpr ⟨_, hrun⟩) ?_ rfl hkeyed
        intro q hq
        simp [runOf?, hget, Ne.symm hq]

theorem follows_move (hwf : k.WellFormed) (h : k.move runId target = some k')
    (created : Option String) : Follows created k k' := by
  unfold move at h
  split at h
  · rename_i run hrun
    split at h
    · rename_i hmove
      obtain rfl := Option.some.inj h
      exact follows_setStatus hwf hrun hmove created
    · cases h
  · cases h

theorem follows_cancel (hwf : k.WellFormed) (h : k.cancel runId = some k')
    (created : Option String) : Follows created k k' := by
  unfold cancel at h
  split at h
  · rename_i run hrun
    obtain rfl := Option.some.inj h
    split
    · rename_i hmove
      exact follows_setStatus hwf hrun hmove created
    · exact .refl created k
  · cases h

theorem keyed_send {q : String} : (k.send key).Keyed q ↔ k.Keyed q ∨ q = key := by
  simp [Keyed, send, runOf?, or_assoc]

end Kernel

/-! ## The kernel as the runtime store has it -/

theorem kernelMoves_of_moves {t : Tables} {r : RunRow} {s : StageRow} {e : Effect}
    {run stage : RuntimeStatus} (h : Moves t r s e run stage)
    (hretry : ∀ stage attempt requester reason eventId now,
      e ≠ .retry r.runId stage attempt requester reason eventId now) :
    run = r.status ∨ kernelMoves r.status run = true := by
  cases h with
  | keep | rescheduleStage => exact .inl rfl
  | move hallowed => exact .inr (by simp [kernelMoves, hallowed])
  | fail hwaiting =>
      refine .inr ?_
      cases hr : r.status <;> simp [hr, RuntimeStatus.waiting] at hwaiting <;> rfl
  | claim =>
      by_cases hwaiting : r.status.waiting = true
      · exact .inr (by simp [kernelMoves, hwaiting])
      · exact .inl (by simp [hwaiting])
  | reschedule hr | rescheduleRun hr => exact .inr (by rw [hr]; rfl)
  | retry => exact absurd rfl (hretry _ _ _ _ _ _)

/-- The runs of the runtime store move as the runs of the kernel do here, unless
somebody asks for a retry. -/
theorem run_moves_of_effect {t : Tables} (hwf : ChipEvolve.WellFormed t) {e : Effect}
    (he : e.Enabled t) {runId : RunId} {r : RunRow} (hr : t.run? runId = some r)
    (hretry : ∀ stage attempt requester reason eventId now,
      e ≠ .retry runId stage attempt requester reason eventId now) :
    ∃ r', (e.apply t).run? runId = some r' ∧
      (r'.status = r.status ∨ kernelMoves r.status r'.status = true) := by
  refine ⟨e.onRun r, run?_apply e hr, ?_⟩
  obtain ⟨stage, hstage⟩ := hwf.exists_stage hr
  have hid : r.runId = runId := Table.key_of_get? hr
  have hmoves := hwf.moves he (Table.mem_of_get? hr) (Table.mem_of_get? hstage)
    ((Table.key_of_get? hstage).trans hid.symm)
  exact kernelMoves_of_moves hmoves (hid ▸ hretry)

end ChipEvolve.Plans
