import ChipEvolve.DseLab.Sweeps
import ChipEvolve.Runtime.Origins

/-!
# The runs of the points

What the laboratory records for a point is a refusal or a run of the point's own task: the task
id names the sweep and the ordinal, and an idempotent submission returns a run of an equal task
or none.  So no two points share a run, and a sweep that was submitted to its end has a record
for every point.
-/

namespace ChipEvolve

@[simp] theorem Effect.onRun_taskId (e : Effect) (r : RunRow) :
    (e.onRun r).taskId = r.taskId := by
  cases e <;> simp only [onRun] <;> split <;> rfl

namespace DseLab

open ChipEvolve.Bundle (Confined)
open Gateway Identity Machine

/-! ## Task ids -/

/-- The ordinal is read off the end of a task id, and what is left names the sweep. -/
theorem taskId_inj {x y : String} {m n : Nat} (h : taskId x m = taskId y n) : x = y ∧ m = n := by
  have hchars : ∀ (z : String) (k : Nat), (taskId z k).toList.reverse =
      (Nat.toDigits 10 k).reverse ++ 'p' :: ('-' :: z.toList.reverse) := by
    intro z k
    rw [taskId, String.toList_append, String.toList_append, JsonText.toList_toString,
      List.reverse_append, List.reverse_append]
    rfl
  have hdigits : ∀ k, 'p' ∉ (Nat.toDigits 10 k).reverse := by
    intro k hmem
    exact absurd (JsonText.isDigit_of_mem (List.mem_reverse.mp hmem)) (by decide)
  have hsplit := congrArg (fun z : String ↦ z.toList.reverse) h
  simp only [hchars] at hsplit
  obtain ⟨hnumber, hrest⟩ := Table.append_cons_inj (hdigits m) (hdigits n) hsplit
  obtain ⟨_, hname⟩ := List.cons.inj hrest
  exact ⟨String.toList_inj.mp (List.reverse_inj.mp hname),
    JsonText.toDigits_injective (List.reverse_inj.mp hnumber)⟩

/-! ## What the kernel answers -/

/-- `left == right`, or the very same. -/
def Agrees (left right : JsonObject) : Prop := left = right ∨ left.pyEq right = true

/-- There is a run of the task with these parameters under the id. -/
def HasRun (t : Tables) (runId : RunId) (taskId : String) (parameters : JsonObject) : Prop :=
  ∃ run, t.run? runId = some run ∧ run.taskId = taskId ∧ Agrees run.taskSpec.parameters parameters

/-- Nothing happened to the tables, or one effect did. -/
def Evolves (t t' : Tables) : Prop := t' = t ∨ ∃ e : Effect, e.Enabled t ∧ t' = e.apply t

section Kernel

variable {t t' : Tables} {runId : RunId} {taskId : String} {parameters : JsonObject}
variable {H : Bytes → String} {derive : String → Bytes → Nat → Bytes} {api : KernelApi}
variable {zip : Bundle.Archive → Bytes} {w w' : Bundle.World} {s s' : Gate}

theorem Evolves.wellFormed (h : Evolves t t') (hwell : WellFormed t) : WellFormed t' := by
  rcases h with rfl | ⟨e, henabled, rfl⟩
  · exact hwell
  · exact hwell.apply henabled

/-- A run keeps its id and its task. -/
theorem HasRun.evolves (h : HasRun t runId taskId parameters) (hevolves : Evolves t t') :
    HasRun t' runId taskId parameters := by
  rcases hevolves with rfl | ⟨e, _, rfl⟩
  · exact h
  · obtain ⟨run, hrun, htask, hagrees⟩ := h
    exact ⟨e.onRun run, run?_apply e hrun, by rw [e.onRun_taskId, htask],
      by rwa [e.onRun_taskSpec]⟩

theorem Evolves.of_confined {written : RunId → Prop} (h : Confined w w' written) :
    Evolves w.tables w'.tables := by
  rcases h.tables with hsame | ⟨e, henabled, happly, _⟩
  · exact .inl hsame
  · exact .inr ⟨e, henabled, happly⟩

theorem evolves_turn (hwell : WellFormed w.tables) (d : Gateway.Drawn) (a : Accounts)
    (p : Progress) : Evolves w.tables (api.turn H zip d a w p).2.2.tables := by
  cases p with
  | registering session runId attemptId content =>
      unfold KernelApi.turn
      dsimp only
      split <;> exact .inl rfl
  | _ => exact .of_confined (turn_confined hwell d a trivial)

theorem evolves_step (hwell : WellFormed s.stores.tables) {event : GateEvent}
    (hstep : s.step H derive api zip event = some s') :
    Evolves s.stores.tables s'.stores.tables := by
  cases event with
  | arrives id order =>
      unfold Gate.step at hstep
      dsimp only at hstep
      split at hstep
      · obtain rfl := Option.some.inj hstep
        exact .inl rfl
      · cases hstep
  | advances id d =>
      obtain ⟨p, _, rfl⟩ := Option.map_eq_some_iff.mp hstep
      exact evolves_turn hwell d s.accounts p
  | account e =>
      obtain rfl := Option.some.inj hstep
      exact .inl rfl
  | other e =>
      obtain ⟨stores, hstores, rfl⟩ := Option.map_eq_some_iff.mp hstep
      exact Bundle.tables_of_step hstores

end Kernel

/-! ## Idempotent submissions -/

section Submissions

variable {H : Bytes → String} {api : KernelApi} {t : Tables} {run : RunRow}

/-- Only inputs, labels and the digest of the inputs are filled in. -/
theorem prepare_keeps {host : Host} {allowedRoots : List String} {newId : Nat → String}
    {task task' : TaskSpec} {d d' : Depot}
    (h : prepare H host allowedRoots newId task d = .ok task' d') :
    task'.taskId = task.taskId ∧ task'.parameters = task.parameters := by
  obtain ⟨frozen, entries, _, _, hfreeze, _, rfl⟩ := prepare_eq_ok h
  unfold freezeHostInputs at hfreeze
  obtain ⟨_, _, _, hpure⟩ := IntakeM.bind_eq_ok.mp hfreeze
  obtain ⟨rfl, _⟩ := EStateM.Result.ok.inj hpure
  exact ⟨rfl, rfl⟩

theorem taskId_of_findRunByTaskId {taskId : String} (h : t.findRunByTaskId taskId = some run) :
    run.taskId = taskId := by
  have hhead := List.mem_of_mem_head? h
  rw [(List.perm_insertionSort _ _).mem_iff] at hhead
  exact of_decide_eq_true (List.mem_filter.mp hhead).2

theorem taskId_of_existing {a : Submission} (hkey : a.idempotencyKey = none)
    (h : a.existing? t = some run) : run.taskId = a.task.taskId := by
  unfold Submission.existing? at h
  rw [hkey] at h
  dsimp only at h
  split at h
  · exact taskId_of_findRunByTaskId h
  · cases h

theorem comparable_parameters {custody : Custody} {task task' : TaskSpec}
    (h : comparable custody task = .ok task') : task'.parameters = task.parameters := by
  unfold comparable at h
  obtain ⟨staged, _, hreturn⟩ := Except.bind_eq_ok.mp h
  obtain rfl := Except.ok.inj hreturn
  rfl

theorem parameters_of_equivalent {custody : Custody} {first second : TaskSpec}
    (h : equivalentTaskSpecs custody first second = .ok true) :
    first.parameters.pyEq second.parameters = true := by
  unfold equivalentTaskSpecs at h
  obtain ⟨left, hleft, h⟩ := Except.bind_eq_ok.mp h
  obtain ⟨right, hright, h⟩ := Except.bind_eq_ok.mp h
  have hequal : left.pyEq right = true := Except.ok.inj h
  simp only [TaskSpec.pyEq, Bool.and_eq_true] at hequal
  obtain ⟨⟨⟨⟨⟨⟨⟨⟨_, hparameters⟩, _⟩, _⟩, _⟩, _⟩, _⟩, _⟩, _⟩ := hequal
  rwa [comparable_parameters hleft, comparable_parameters hright] at hparameters

theorem run?_create {a : Submission} (pluginId : String) (hfree : t.refusesRun a.runRow = false) :
    ((Effect.create a pluginId).apply t).run? a.runId = some a.runRow := by
  have hnew := run?_of_refusesRun hfree
  unfold Tables.run? at hnew ⊢
  rw [Effect.runs_apply, Table.get?_append, Table.get?_map (Effect.onRun_runId _), hnew]
  simp [Effect.newRuns, Table.get?, Submission.runRow]

/-- The run a submission returns is of the task it was called with. -/
theorem hasRun_of_submit {p : Platform} {host : Host} {a : SubmitCall} {k : Kernel}
    (hwell : WellFormed k.tables) (hkey : a.idempotencyKey = none)
    (h : (p.submit H host a k).1 = .ok run) :
    HasRun (p.submit H host a k).2.tables run.runId a.task.taskId a.task.parameters := by
  obtain ⟨task, depot, manifest, hprepare, _, hexec, hafter⟩ := Platform.prepared_of_submit h
  obtain ⟨htask, hparameters⟩ := prepare_keeps hprepare
  rw [hafter, ← htask, ← hparameters]
  rcases submitRun_outcomes depot.custody (a.submission task manifest) k.tables with
    ⟨e, herror⟩ | ⟨found, hfound, hreuses, hok⟩ | ⟨pluginId, _, hfree, hok⟩
  · rw [herror] at hexec
    cases hexec
  · rw [hok] at hexec ⊢
    obtain rfl := Except.ok.inj hexec
    exact ⟨found, hwell.runIds.get? (Submission.mem_of_existing? hfound),
      taskId_of_existing hkey hfound, .inr (parameters_of_equivalent hreuses.1)⟩
  · rw [hok] at hexec ⊢
    obtain rfl := Except.ok.inj hexec
    exact ⟨_, run?_create pluginId hfree, rfl, .inl rfl⟩

theorem decode_request {task task' : TaskSpec} {r : RunRequest}
    (h : (Lab.request task r).body.decode = .ok task') : task' = task := by
  unfold Lab.request RunBody.decode at h
  dsimp only at h
  split at h
  · exact (Except.ok.inj h).symm
  · cases h

theorem hasRun_of_request {task : TaskSpec} {r : RunRequest} {k : Kernel}
    (hwell : WellFormed k.tables)
    (h : (api.submit H (Lab.request task r) task k).1 = .ok run) :
    HasRun (api.submit H (Lab.request task r) task k).2.tables run.runId task.taskId
      task.parameters := by
  have hgiven : given (some "1") = true := by decide
  unfold KernelApi.submit Lab.request at h ⊢
  simp only [hgiven, Bool.true_or, if_true] at h ⊢
  exact hasRun_of_submit hwell (by simp [KernelApi.submission]) h

end Submissions

/-! ## Requests under way -/

/-- What a handler of the kernel has in hand for a request of the laboratory: the task, and then a
run of it. -/
def Serves (t : Tables) (task : TaskSpec) (run : Option RunRow) : Progress → Prop
  | .arrived order | .checking _ order => (∃ r, order = .submit (Lab.request task r)) ∧ run = none
  | .declaring _ r task' _ | .submitting _ r task' =>
      (∃ r', r = Lab.request task r') ∧ task' = task ∧ run = none
  | .binding _ _ | .answered _ =>
      ∀ found, run = some found → HasRun t found.runId task.taskId task.parameters
  | .acting .. | .cancelling .. | .registering .. => False

def Served (s : Gate) (runs : RequestId → Option RunRow) (id : RequestId) (task : TaskSpec) :
    Prop :=
  ∃ p, s.requests id = some p ∧ Serves s.stores.tables task (runs id) p

/-- The kernel has gone on, and no request of the laboratory was lost. -/
structure Onward (s : Gate) (runs : RequestId → Option RunRow) (s' : Gate)
    (runs' : RequestId → Option RunRow) : Prop where
  tables : Evolves s.stores.tables s'.stores.tables
  serves : ∀ id task, Served s runs id task → Served s' runs' id task
  unasked : ∀ id, s'.requests id = none → s.requests id = none ∧ runs' id = runs id

section Requests

variable {t t' : Tables} {task : TaskSpec} {run : Option RunRow} {p : Progress}
variable {H : Bytes → String} {derive : String → Bytes → Nat → Bytes} {api : KernelApi}
variable {zip : Bundle.Archive → Bytes} {w : Bundle.World} {s s' : Gate}
variable {runs : RequestId → Option RunRow} {id : RequestId}

theorem Serves.evolves (h : Serves t task run p) (hevolves : Evolves t t') :
    Serves t' task run p := by
  cases p with
  | binding | answered => exact fun found hfound ↦ (h found hfound).evolves hevolves
  | _ => exact h

/-- A handler that has no run yet may answer anything. -/
theorem Serves.refused {status : Nat} : Serves t task none (.answered status) :=
  fun _ h ↦ by cases h

theorem Serves.turn (h : Serves w.tables task run p) (hwell : WellFormed w.tables)
    (d : Gateway.Drawn) (a : Accounts) :
    Serves (api.turn H zip d a w p).2.2.tables task ((Lab.submittedRun H api w p).or run)
      (api.turn H zip d a w p).1 := by
  cases p with
  | arrived order =>
      obtain ⟨hasks, rfl⟩ := h
      simp only [KernelApi.turn]
      split
      · exact .refused
      · exact ⟨hasks, rfl⟩
  | checking session order =>
      obtain ⟨⟨r, rfl⟩, rfl⟩ := h
      simp only [KernelApi.turn, KernelApi.clear]
      split
      · next task' hdecode => exact ⟨⟨r, rfl⟩, decode_request hdecode, rfl⟩
      · exact .refused
  | declaring session r task' rest =>
      obtain ⟨hasks, htask, rfl⟩ := h
      cases rest with
      | nil => exact ⟨hasks, htask, rfl⟩
      | cons i rest =>
          simp only [KernelApi.turn]
          split
          · exact ⟨hasks, htask, rfl⟩
          · exact .refused
  | submitting session r task' =>
      obtain ⟨⟨r, rfl⟩, rfl, rfl⟩ := h
      have hrun := @hasRun_of_request H api
      simp only [KernelApi.turn, Lab.submittedRun]
      split
      · next run k hsubmit =>
          rw [hsubmit]
          rintro found ⟨⟩
          have := hrun hwell (congrArg Prod.fst hsubmit)
          rwa [hsubmit] at this
      · next e k hsubmit =>
          rw [hsubmit]
          exact .refused
  | binding session resources =>
      cases resources with
      | nil => exact h
      | cons resource rest =>
          simp only [KernelApi.turn]
          split <;> exact h
  | answered => exact h
  | acting | cancelling | registering => exact h.elim

theorem Onward.refl : Onward s runs s runs where
  tables := .inl rfl
  serves := fun _ _ ↦ id
  unasked := fun _ h ↦ ⟨h, rfl⟩

theorem runsAfter_self {d : Gateway.Drawn} (hp : s.requests id = some p) :
    Lab.runsAfter H api s runs (.advances id d) id =
      (Lab.submittedRun H api s.stores p).or (runs id) := by
  simp only [Lab.runsAfter, hp, Option.bind_some]
  cases Lab.submittedRun H api s.stores p with
  | none => rfl
  | some run => exact Function.update_self ..

theorem runsAfter_of_ne {d : Gateway.Drawn} {other : RequestId} (h : other ≠ id) :
    Lab.runsAfter H api s runs (.advances id d) other = runs other := by
  simp only [Lab.runsAfter]
  cases (s.requests id).bind (Lab.submittedRun H api s.stores) with
  | none => rfl
  | some run => exact Function.update_of_ne h ..

theorem Onward.advance {d : Gateway.Drawn} (hwell : WellFormed s.stores.tables)
    (hp : s.requests id = some p) :
    Onward s runs (s.advance H api zip id d p) (Lab.runsAfter H api s runs (.advances id d)) where
  tables := evolves_turn hwell d s.accounts p
  serves := by
    rintro other task ⟨q, hq, hserves⟩
    by_cases heq : other = id
    · subst heq
      obtain rfl := Option.some.inj (hp.symm.trans hq)
      refine ⟨_, Function.update_self .., ?_⟩
      rw [runsAfter_self hp]
      exact hserves.turn hwell d s.accounts
    · refine ⟨q, (Function.update_of_ne heq ..).trans hq, ?_⟩
      rw [runsAfter_of_ne heq]
      exact hserves.evolves (evolves_turn hwell d s.accounts p)
  unasked := by
    intro other hother
    by_cases heq : other = id
    · subst heq
      cases (Function.update_self ..).symm.trans hother
    · exact ⟨(Function.update_of_ne heq ..).symm.trans hother, runsAfter_of_ne heq⟩

theorem Onward.step {event : GateEvent} (hwell : WellFormed s.stores.tables)
    (hstep : s.step H derive api zip event = some s') :
    Onward s runs s' (Lab.runsAfter H api s runs event) := by
  have hevolves := evolves_step hwell hstep
  cases event with
  | arrives id order =>
      unfold Gate.step at hstep
      dsimp only at hstep
      split at hstep
      · next hfree =>
          obtain rfl := Option.some.inj hstep
          refine ⟨hevolves, ?_, ?_⟩
          · rintro other task ⟨q, hq, hserves⟩
            have hne : other ≠ id := by
              rintro rfl
              simp [hq] at hfree
            exact ⟨q, (Function.update_of_ne hne ..).trans hq, hserves⟩
          · intro other hother
            refine ⟨?_, rfl⟩
            by_cases heq : other = id
            · exact heq ▸ Option.isNone_iff_eq_none.mp hfree
            · exact (Function.update_of_ne heq ..).symm.trans hother
      · cases hstep
  | advances id d =>
      obtain ⟨p, hp, rfl⟩ := Option.map_eq_some_iff.mp hstep
      exact .advance hwell hp
  | account e =>
      obtain rfl := Option.some.inj hstep
      exact ⟨hevolves, fun _ _ ↦ id, fun _ h ↦ ⟨h, rfl⟩⟩
  | other e =>
      obtain ⟨stores, _, rfl⟩ := Option.map_eq_some_iff.mp hstep
      refine ⟨hevolves, ?_, fun _ h ↦ ⟨h, rfl⟩⟩
      rintro other task ⟨q, hq, hserves⟩
      exact ⟨q, hq, hserves.evolves hevolves⟩

/-- A request of the laboratory has arrived. -/
theorem Served.arrives {r : RunRequest} (hrun : runs id = none)
    (hstep : s.step H derive api zip (.arrives id (.submit (Lab.request task r))) = some s') :
    Served s' runs id task := by
  unfold Gate.step at hstep
  dsimp only at hstep
  split at hstep
  · obtain rfl := Option.some.inj hstep
    exact ⟨_, Function.update_self .., ⟨r, rfl⟩, hrun⟩
  · cases hstep

end Requests

end DseLab

end ChipEvolve
