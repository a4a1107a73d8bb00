import ChipEvolve.Plan.Executor

/-!
# What one step of the plan service can do

`Turn` lists the steps by what they touch: most move only the executor, a write
changes the store, three steps let the kernel act for the executor, and the
rest come from outside.
-/

namespace ChipEvolve.Plans

open Machine

/-- How the kernel changes while the executor does nothing. -/
inductive Kernel.Turn (k : Kernel) : Event → Kernel → Prop
  | same {ev} : Turn k ev k
  | applied {key fresh runId k'} (hkey : key ∈ k.inFlight)
      (h : k.submit key fresh = some (runId, k')) : Turn k (.apply key fresh) k'
  | moved {runId target k'} (h : k.move runId target = some k') : Turn k (.move runId target) k'

/-- How the executor moves without touching the store or the kernel. -/
inductive Executor.Moves (s : Service) (w : World) : Executor → Executor → Prop
  | endCycle : Moves s w (.cycling []) .idle
  | skip {planId rest} : Moves s w (.cycling (planId :: rest)) (.cycling rest)
  | enter {planId rest} : Moves s w (.cycling (planId :: rest)) (.advancing planId rest)
  | read {planId rest plan} (h : w.store.get? planId = some plan) :
      Moves s w (.advancing planId rest) (.start plan rest)
  | unknown {planId rest category message} :
      Moves s w (.advancing planId rest) (.refuse planId category message rest)
  | bound {plan step b bindings staged rest items} :
      Moves s w (.binding plan step (b :: bindings) staged rest)
        (.bind plan step b bindings staged rest items)
  | polled {plan step runId rest run detail} (hrun : w.kernel.run? runId = some run)
      (hdetail : detail.status = run.status) :
      Moves s w (.polling plan step runId rest)
        (.writing .answered plan.planId (plan.afterRun s.str step detail) rest)
  | checked {plan step runId rest run detail} (hrun : w.kernel.run? runId = some run)
      (hdetail : detail.status = run.status) :
      Moves s w (.checking plan step runId rest)
        (.writing .answered plan.planId (plan.afterCancel s.str step detail) rest)
  | refused {ex planId rest category message} (h : ex.calling? = some (planId, rest)) :
      Moves s w ex (.refuse planId category message rest)
  | unavailable {ex planId rest message} (h : ex.calling? = some (planId, rest)) :
      Moves s w ex (.delay planId message rest)
  | done {cause planId rest} : Moves s w (.writing cause planId [] rest) (.cycling rest)

inductive World.Turn (s : Service) (w : World) : Event → World → Prop
  | outside {ev requests kernel}
      (hrequests : ∀ tid planId, requests tid = some planId →
        w.requests tid = some planId ∨ w.store.cancelError? planId = none)
      (hkernel : w.kernel.Turn ev kernel) :
      Turn s w ev { w with requests := requests, kernel := kernel }
  | create {a store} (h : w.store.createOwned s.taskError a = .ok store) :
      Turn s w (.create a) { w with store := store }
  | confirm {tid planId} (h : w.requests tid = some planId) :
      Turn s w (.confirmCancel tid)
        { w with
          store := w.store.updatePlan planId .cancelRequested none
          requests := Function.update w.requests tid none
          cancelled := planId :: w.cancelled }
  | wake (h : w.executor = .idle) :
      Turn s w .wake { w with executor := .cycling w.store.active, cancelledBefore := w.cancelled }
  | restart :
      Turn s w .restart
        { w with executor := .idle, retryAt := fun _ ↦ none, requests := fun _ ↦ none }
  | moves {ev ex retryAt} (h : w.executor.Moves s w ex) :
      Turn s w ev { w with executor := ex, retryAt := retryAt }
  | send {plan step staged rest now} (h : w.executor = .binding plan step [] staged rest) :
      Turn s w (.next now)
        { w with
          executor := .submitting plan step (Executor.boundTask step.task staged) rest
          kernel := w.kernel.send (idempotencyKey plan.planId step.stepId) }
  | write {cause planId write writes rest now}
      (h : w.executor = .writing cause planId (write :: writes) rest) :
      Turn s w (.next now)
        { w with
          store := write.apply planId w.store
          executor := .writing cause planId writes rest }
  | accept {plan step task rest fresh runId kernel}
      (h : w.executor = .submitting plan step task rest)
      (hkernel : w.kernel.submit (idempotencyKey plan.planId step.stepId) fresh =
        some (runId, kernel)) :
      Turn s w (.submitted fresh)
        { w with
          kernel := kernel
          executor := .writing .answered plan.planId [.submitted step.stepId runId] rest }
  | cancel {plan step runId rest kernel} (h : w.executor = .cancelling plan step runId rest)
      (hkernel : w.kernel.cancel runId = some kernel) :
      Turn s w .cancelled { w with kernel := kernel, executor := .checking plan step runId rest }

namespace World

variable {s : Service} {w w' : World} {ev : Event}

theorem advance_turn {now : Rat} (h : w.advance s now = some w') : Turn s w (.next now) w' := by
  unfold advance at h
  split at h
  · rename_i hex
    obtain rfl := Option.some.inj h
    exact .moves (hex ▸ .endCycle)
  · rename_i planId rest hex
    split at h
    · obtain rfl := Option.some.inj h
      exact .moves (hex ▸ .skip)
    · obtain rfl := Option.some.inj h
      exact .moves (hex ▸ .enter)
  · rename_i planId rest hex
    split at h
    · rename_i plan hplan
      obtain rfl := Option.some.inj h
      exact .moves (hex ▸ .read hplan)
    · obtain rfl := Option.some.inj h
      exact .moves (hex ▸ .unknown)
  · rename_i hex
    obtain rfl := Option.some.inj h
    exact .send hex
  · rename_i hex
    obtain rfl := Option.some.inj h
    exact .write hex
  · rename_i hex
    obtain rfl := Option.some.inj h
    exact .moves (hex ▸ .done)
  · cases h

theorem receive_turn (h : w.receive s ev = some w') : Turn s w ev w' := by
  unfold receive at h
  split at h
  · split at h
    · rename_i hex
      split at h
      · obtain rfl := Option.some.inj h
        exact .moves (hex ▸ .bound)
      · cases h
    · cases h
  · split at h
    · rename_i hex
      split at h
      · rename_i hkernel
        obtain rfl := Option.some.inj h
        exact .accept hex hkernel
      · cases h
    · cases h
  · split at h
    · rename_i hex
      split at h
      · rename_i run hrun
        obtain rfl := Option.some.inj h
        exact .moves (hex ▸ .polled hrun rfl)
      · cases h
    · rename_i hex
      split at h
      · rename_i run hrun
        obtain rfl := Option.some.inj h
        exact .moves (hex ▸ .checked hrun rfl)
      · cases h
    · cases h
  · split at h
    · rename_i hex
      split at h
      · rename_i hkernel
        obtain rfl := Option.some.inj h
        exact .cancel hex hkernel
      · cases h
    · cases h
  · obtain ⟨called, hcalling, rfl⟩ := Option.map_eq_some_iff.mp h
    exact .moves (.refused hcalling)
  · obtain ⟨called, hcalling, rfl⟩ := Option.map_eq_some_iff.mp h
    exact .moves (.unavailable hcalling)
  · cases h

theorem surroundings_turn (h : w.surroundings s ev = some w') : Turn s w ev w' := by
  unfold surroundings at h
  split at h
  · split at h
    · rename_i hok
      obtain rfl := Option.some.inj h
      exact .create hok
    · obtain rfl := Option.some.inj h
      exact .outside (fun _ _ ↦ .inl) .same
  · rename_i tid planId
    split at h
    · rename_i hopen
      obtain rfl := Option.some.inj h
      refine .outside (fun tid' planId' hrequest ↦ ?_) .same
      by_cases htid : tid' = tid
      · subst htid
        obtain rfl : planId = planId' := by simpa using hrequest
        exact .inr hopen
      · exact .inl (by simpa [htid] using hrequest)
    · obtain rfl := Option.some.inj h
      exact .outside (fun _ _ ↦ .inl) .same
    · cases h
  · split at h
    · rename_i hrequest
      obtain rfl := Option.some.inj h
      exact .confirm hrequest
    · cases h
  · split at h
    · rename_i hex
      obtain rfl := Option.some.inj h
      exact .wake hex
    · cases h
  · split at h
    · rename_i hkey
      obtain ⟨next, hnext, rfl⟩ := Option.map_eq_some_iff.mp h
      exact .outside (fun _ _ ↦ .inl) (.applied hkey hnext)
    · cases h
  · obtain ⟨kernel, hkernel, rfl⟩ := Option.map_eq_some_iff.mp h
    exact .outside (fun _ _ ↦ .inl) (.moved hkernel)
  · obtain rfl := Option.some.inj h
    exact .restart
  · cases h

/-- Every step is one of these. -/
theorem step_turn (h : w.step s ev = some w') : Turn s w ev w' := by
  unfold step at h
  split at h
  · exact advance_turn h
  · cases hreceive : w.receive s ev with
    | some x => exact receive_turn (hreceive.trans (by simpa [hreceive] using h))
    | none => exact surroundings_turn (by simpa [hreceive] using h)

end World

end ChipEvolve.Plans
