import ChipEvolve.Worker.Exclusion

/-!
# Budgets and the explanation of a waiting run

`WorkflowRuntime._check_resources` (`runtime.py`) and the two views of
`ResourceQuery` (`resource_query.py`).  Three places turn a capacity into a
budget: the check at submission and the claim round up and grant at least one,
the explanation rounds down.  They multiply alike, so they agree where the two
products are whole numbers or one of them is refused, and only there.
-/

namespace ChipEvolve

open Machine Sql

/-! ## The check at submission -/

/-- The exceptions of `WorkflowRuntime` besides those of the store. -/
inductive RuntimeError where
  | value (message : String)
  | limitsUnsupported (message : String)
  | inputStaging (message : String)
  | contract (message : String)
  | resolver (message : String)
  | os (message : String)
  | store (e : StoreError)
  deriving DecidableEq

namespace RuntimeConfig

def budgetCpu (cfg : RuntimeConfig) : Except StoreError Int :=
  budget cfg.capacityCpuCores cfg.platformFraction

def budgetMemory (cfg : RuntimeConfig) : Except StoreError Int :=
  budget cfg.capacityMemoryBytes cfg.platformFraction

/-- The budgets of cores and of bytes that the check at submission enforces. -/
def enforcedBudgets (cfg : RuntimeConfig) : Except StoreError (Int × Int) := do
  let budgetCpu ← cfg.budgetCpu
  let budgetMemory ← cfg.budgetMemory
  return (budgetCpu, budgetMemory)

def needCpu (cfg : RuntimeConfig) (task : TaskSpec) : Int :=
  (task.resources.bind (·.cpuCores)).getD cfg.defaultTaskCpuCores

def needMemory (cfg : RuntimeConfig) (task : TaskSpec) : Int :=
  (task.resources.bind (·.memoryBytes)).getD cfg.defaultTaskMemoryBytes

@[simp] theorem reservationFor_cpuCores (cfg : RuntimeConfig) (task : TaskSpec) :
    (cfg.reservationFor task).cpuCores = some (cfg.needCpu task) := rfl

@[simp] theorem reservationFor_memoryBytes (cfg : RuntimeConfig) (task : TaskSpec) :
    (cfg.reservationFor task).memoryBytes = some (cfg.needMemory task) := rfl

end RuntimeConfig

/-- One line naming what was asked for; `g` prints a float. -/
def ResourceRequest.describe (g : Rat → String) (r : ResourceRequest) : String :=
  let parts :=
    (r.cpuSeconds.map fun s ↦ g s ++ "s CPU").toList ++
      (r.cpuCores.map fun n ↦ toString n ++ " CPU cores").toList ++
      (r.memoryBytes.map fun n ↦ toString n ++ " bytes resident").toList ++
      (r.processes.map fun n ↦ toString n ++ " processes").toList
  if parts.isEmpty then "no limits" else ", ".intercalate parts

/-- `task.labels.get("memory_approval") == "manual"` -/
def TaskSpec.memoryApproved (task : TaskSpec) : Bool :=
  match task.labels.get? "memory_approval" with
  | some (.str label) => label = "manual"
  | _ => false

/-- `if …: raise …` -/
def raiseIf (p : Prop) [Decidable p] (e : RuntimeError) : Except RuntimeError Unit :=
  if p then .error e else .ok ()

def checkResources (cfg : RuntimeConfig) (supportsLimits : Bool) (g : Rat → String)
    (task : TaskSpec) : Except RuntimeError Unit := do
  let (budgetCpu, budgetMemory) ← cfg.enforcedBudgets.mapError .store
  raiseIf (budgetCpu < 1 ∨ budgetMemory < cfg.defaultTaskMemoryBytes)
    (.value "platform capacity is smaller than the default task reservation")
  raiseIf (budgetCpu < cfg.needCpu task)
    (.value "requested cpu_cores exceed platform budget")
  raiseIf (budgetMemory < cfg.needMemory task)
    (.value "requested memory exceeds platform budget")
  raiseIf (cfg.defaultTaskMemoryBytes < cfg.needMemory task ∧ ¬task.memoryApproved)
    (.value "memory requests above 6 GiB require labels.memory_approval='manual'")
  raiseIf (task.resources.any (·.declared) ∧ ¬supportsLimits)
    (.limitsUnsupported ("this host cannot measure a process tree, so the requested limits (" ++
      (cfg.reservationFor task).describe g ++ ") cannot be enforced"))

/-! ## The explanation -/

/-- `int(x)`, which drops the fraction. -/
def truncated (x : Rat) : Int := x.num.tdiv x.den

/-- The answers of `waiting_for` to a run that has not started. -/
inductive Waiting where
  | resource (cpuCores memoryBytes freeCpu freeMemory : Int)
  | claimable
  deriving DecidableEq

namespace Waiting

def text : Waiting → String
  | resource cpuCores memoryBytes freeCpu freeMemory =>
      "resource: this run reserves " ++ toString cpuCores ++ " cores and " ++
        toString memoryBytes ++ " bytes of memory, and the machine has " ++ toString freeCpu ++
        " cores and " ++ toString freeMemory ++ " bytes free within its budget"
  | claimable =>
      "claimable: the machine has room for this run; it is waiting for a worker to claim it"

end Waiting

/-- `int(capacity * platform_fraction)` -/
def explained (capacity : Int) (fraction : PlatformFraction) : Except StoreError Int :=
  (fraction.share capacity).map truncated

namespace RuntimeConfig

/-- The budgets of cores and of bytes that `ResourceQuery` computes. -/
def explainedBudgets (cfg : RuntimeConfig) : Except StoreError (Int × Int) := do
  let budgetCpu ← explained cfg.capacityCpuCores cfg.platformFraction
  let budgetMemory ← explained cfg.capacityMemoryBytes cfg.platformFraction
  return (budgetCpu, budgetMemory)

def explainWithin (cfg : RuntimeConfig) (task : TaskSpec) (budgets totals : Int × Int) :
    Waiting :=
  let freeCpu := budgets.1 - totals.1
  let freeMemory := budgets.2 - totals.2
  if freeCpu < cfg.needCpu task ∨ freeMemory < cfg.needMemory task then
    .resource (cfg.needCpu task) (cfg.needMemory task) (max freeCpu 0) (max freeMemory 0)
  else .claimable

/-- What `waiting_for` answers for a run that has not started, when the machine has reserved
`totals`. -/
def explain (cfg : RuntimeConfig) (task : TaskSpec) (totals : Int × Int) :
    Except StoreError Waiting :=
  cfg.explainedBudgets.map fun budgets ↦ cfg.explainWithin task budgets totals

/-- What `waiting_for` answers when the machine has reserved `totals`. -/
def waiting (cfg : RuntimeConfig) (totals : Int × Int) (run : RunRow) :
    Except StoreError (Option Waiting) :=
  if run.status.waiting then (cfg.explain run.taskSpec totals).map some else .ok none

end RuntimeConfig

def waitingFor (cfg : RuntimeConfig) (runId : RunId) : StoreM (Option Waiting) := do
  let record ← getRun runId
  if !record.status.waiting then return none
  else do
    let totals ← query fun t ↦ (t.reservedCpu, t.reservedMemory)
    let waiting ← reading fun _ ↦ cfg.explain record.taskSpec totals
    return some waiting

/-- What an attempt used, if anything was measured. -/
structure AttemptUsage where
  attemptId : AttemptId
  status : AttemptStatus
  usage : Option (Option Rat × Option Int × Option Int)

def AttemptRow.usage (a : AttemptRow) : AttemptUsage :=
  { attemptId := a.attemptId
    status := a.status
    usage :=
      if a.cpuSeconds.isNone && a.peakMemoryBytes.isNone && a.peakProcesses.isNone then none
      else some (a.cpuSeconds, a.peakMemoryBytes, a.peakProcesses) }

/-- The dictionary `ResourceQuery.run` returns. -/
structure ResourceView where
  capacityCpuCores : Int
  capacityMemoryBytes : Int
  platformFraction : PlatformFraction
  budgetCpuCores : Int
  budgetMemoryBytes : Int
  reservedCpuCores : Int
  reservedMemoryBytes : Int
  run : RunId
  requested : Option ResourceRequest
  wouldReserve : ResourceRequest
  waitingFor : Option Waiting
  attempts : List AttemptUsage

def RuntimeConfig.view (cfg : RuntimeConfig) (record : RunRow) (attempts : List AttemptRow)
    (totals budgets : Int × Int) (waiting : Option Waiting) : ResourceView :=
  { capacityCpuCores := cfg.capacityCpuCores
    capacityMemoryBytes := cfg.capacityMemoryBytes
    platformFraction := cfg.platformFraction
    budgetCpuCores := budgets.1
    budgetMemoryBytes := budgets.2
    reservedCpuCores := totals.1
    reservedMemoryBytes := totals.2
    run := record.runId
    requested := record.taskSpec.resources
    wouldReserve := cfg.reservationFor record.taskSpec
    waitingFor := waiting
    attempts := attempts.map AttemptRow.usage }

/-- `ResourceQuery.run` -/
def resourceView (cfg : RuntimeConfig) (runId : RunId) : StoreM ResourceView := do
  let record ← getRun runId
  let attempts ← query fun t ↦
    (t.listStages runId).flatMap fun s ↦ t.listAttempts s.stageRunId
  let totals ← query fun t ↦ (t.reservedCpu, t.reservedMemory)
  let budgets ← reading fun _ ↦ cfg.explainedBudgets
  let waiting ← waitingFor cfg runId
  return cfg.view record attempts totals budgets waiting

/-! ## Rounding up, rounding down -/

theorem truncated_eq_floor {x : Rat} (hx : 0 ≤ x) : truncated x = x.floor := by
  have hnum : 0 ≤ x.num := Rat.num_nonneg.mpr hx
  rw [truncated, Int.tdiv_eq_ediv_of_nonneg hnum, Rat.floor_def]

/-- Of a positive number, the two roundings give the same number exactly when it
is whole. -/
theorem max_ceil_eq_truncated_iff {x : Rat} (hx : 0 < x) :
    truncated x = max 1 x.ceil ↔ x.den = 1 := by
  have hceil : 0 < x.ceil := Rat.lt_ceil_iff.mpr (by simpa using hx)
  have hmax : max 1 x.ceil = x.ceil := by omega
  rw [hmax, truncated_eq_floor hx.le]
  constructor
  · intro heq
    have hle : (x.floor : Rat) ≤ x := Rat.floor_le x
    have hge : x ≤ (x.floor : Rat) := by
      rw [heq]
      exact Rat.le_ceil
    rw [← le_antisymm hle hge]
    exact Rat.den_intCast _
  · intro hden
    have hwhole : (x.num : Rat) = x := (Rat.den_eq_one_iff x).mp hden
    rw [← hwhole, Rat.ceil_intCast, Rat.floor_intCast]

/-- One is a number that a `float` holds. -/
def oneFloat : FloatingPoint.Finite FloatingPoint.binary64 :=
  ⟨1, by decide +kernel, by decide +kernel⟩

/-- The share of a positive capacity is positive. -/
theorem share_pos {fraction : PlatformFraction} {capacity : Int} {product : Rat}
    (hcapacity : 1 ≤ capacity) (hfraction : 0 < fraction.value)
    (h : fraction.share capacity = .ok product) : 0 < product := by
  cases fraction with
  | exact q =>
      obtain rfl := Except.ok.inj h
      exact mul_pos (Int.cast_pos.mpr hcapacity) hfraction
  | float x =>
      simp only [PlatformFraction.share] at h
      split at h
      · cases h
      · rename_i c hc
        split at h
        · cases h
        · rename_i p hp
          obtain rfl := Except.ok.inj h
          -- rounding goes below neither one nor the fraction, since both are numbers of the format
          have hone : 1 ≤ c.value :=
            FloatingPoint.Finite.le_of_round? (y := oneFloat) hc zero_le_one
              (show (1 : Rat) ≤ capacity by exact_mod_cast hcapacity)
          have hscaled : x.value ≤ c.value * x.value := le_mul_of_one_le_left hfraction.le hone
          exact hfraction.trans_le (FloatingPoint.Finite.le_of_round? hp hfraction.le hscaled)

namespace RuntimeConfig

/-- Both products `capacity * platform_fraction` are whole numbers, if neither is refused. -/
def WholeShares (cfg : RuntimeConfig) : Prop :=
  ∀ cpu memory, cfg.platformFraction.share cfg.capacityCpuCores = .ok cpu →
    cfg.platformFraction.share cfg.capacityMemoryBytes = .ok memory →
    cpu.den = 1 ∧ memory.den = 1

/-- The explanation computes the budgets that are enforced exactly when the shares are whole. -/
theorem wholeShares_iff (cfg : RuntimeConfig) :
    cfg.WholeShares ↔ cfg.explainedBudgets = cfg.enforcedBudgets := by
  unfold WholeShares explainedBudgets enforcedBudgets explained budgetCpu budgetMemory budget
  rcases hcpu : cfg.platformFraction.share cfg.capacityCpuCores with x | cpu
  · exact ⟨fun _ ↦ rfl, fun _ _ _ h ↦ by cases h⟩
  rcases hmemory : cfg.platformFraction.share cfg.capacityMemoryBytes with x | memory
  · exact ⟨fun _ ↦ rfl, fun _ _ _ _ h ↦ by cases h⟩
  have hcpuWhole := max_ceil_eq_truncated_iff (share_pos cfg.cpuPositive cfg.fractionPositive hcpu)
  have hmemoryWhole :=
    max_ceil_eq_truncated_iff (share_pos cfg.memoryPositive cfg.fractionPositive hmemory)
  constructor
  · intro h
    obtain ⟨hc, hm⟩ := h cpu memory rfl rfl
    simp only [Except.map, hcpuWhole.mpr hc, hmemoryWhole.mpr hm]
  · rintro h cpu' memory' hc hm
    obtain rfl := Except.ok.inj hc
    obtain rfl := Except.ok.inj hm
    obtain ⟨hc, hm⟩ := Prod.mk.inj (Except.ok.inj h)
    exact ⟨hcpuWhole.mp hc, hmemoryWhole.mp hm⟩

end RuntimeConfig

/-! ## Stored tasks are valid -/

theorem submitRun_invalid {custody : Custody} {a : Submission} (t : Tables)
    (h : a.task.validate ≠ .ok ()) : (exec (submitRun custody a) t).2 = t := by
  unfold submitRun
  cases hvalid : a.task.validate with
  | error message => rfl
  | ok u => exact absurd hvalid h

/-- Only a submission adds a run. -/
theorem Thread.Acts.of_newRuns {d : Deployment} {tid : ThreadId} {t : Tables} {th th' : Thread}
    {ev : Event} {e : Effect} (h : th.Acts d tid t ev e th') {r : RunRow} (hr : r ∈ e.newRuns) :
    ∃ a, th = .idle ∧ ev = .submit a ∧ r = a.runRow := by
  cases h with
  | @submit a => exact ⟨a, rfl, rfl, List.mem_singleton.mp hr⟩
  | pass hemits => cases hemits <;> cases hr
  | _ => cases hr

namespace World

variable {d : Deployment} {w w' : World} {l : ThreadId × Event}

/-- The tables hold valid tasks only. -/
def TasksValid (w : World) : Prop := ∀ r ∈ w.tables.runs, r.taskSpec.validate = .ok ()

theorem tables_of_submit {a : Submission} (hidle : w.threads l.1 = .idle) (hl : l.2 = .submit a)
    (hstep : w.step d l = some w') : w'.tables = (exec (submitRun d.custody a) w.tables).2 := by
  rw [World.step, hidle, hl] at hstep
  obtain rfl := Option.some.inj hstep
  rfl

theorem TasksValid.step (h : w.TasksValid) (hstep : w.step d l = some w') : w'.TasksValid := by
  intro r hr
  rcases step_turn hstep with ⟨hsame, _⟩ | ⟨e, hacts, _, happly⟩
  · rw [show w'.tables = w.tables from hsame] at hr
    exact h r hr
  · have hrows := hr
    rw [show w'.tables = e.apply w.tables from happly, Effect.runs_apply] at hrows
    rcases List.mem_append.mp hrows with hold | hnew
    · obtain ⟨r', hr', rfl⟩ := List.mem_map.mp hold
      rw [Effect.onRun_taskSpec]
      exact h r' hr'
    · obtain ⟨a, hidle, hl, rfl⟩ := hacts.of_newRuns hnew
      by_contra hinvalid
      rw [tables_of_submit hidle hl hstep, submitRun_invalid _ hinvalid] at hr
      exact hinvalid (h _ hr)

theorem TasksValid.of_reachable {allowed : World → ThreadId × Event → Prop}
    (h : ReachableBy (World.step d) allowed {} w) : w.TasksValid :=
  h.invariant (by simp [TasksValid]) fun _ _ _ hw _ hstep ↦ hw.step hstep

end World

/-! ## The claim of a waiting run -/

namespace RuntimeConfig

variable {cfg : RuntimeConfig} {task : TaskSpec}

theorem needCpu_pos (hvalid : task.validate = .ok ()) : 0 < cfg.needCpu task := by
  unfold needCpu
  cases hr : task.resources with
  | none => exact cfg.defaultCpuPositive
  | some r =>
      cases hn : r.cpuCores with
      | none =>
          rw [Option.bind_some, hn]
          exact cfg.defaultCpuPositive
      | some n =>
          simpa [hn] using ResourceRequest.cpuCores_pos (TaskSpec.resources_valid hvalid hr) hn

theorem needMemory_pos (hvalid : task.validate = .ok ()) : 0 < cfg.needMemory task := by
  unfold needMemory
  cases hr : task.resources with
  | none => exact cfg.defaultMemoryPositive
  | some r =>
      cases hn : r.memoryBytes with
      | none =>
          rw [Option.bind_some, hn]
          exact cfg.defaultMemoryPositive
      | some n =>
          simpa [hn] using ResourceRequest.memoryBytes_pos (TaskSpec.resources_valid hvalid hr) hn

/-- What the claim of a task asks for. -/
def wants (cfg : RuntimeConfig) (task : TaskSpec) : Wanted :=
  { cpu := cfg.needCpu task
    memory := cfg.needMemory task
    cpuBudget := cfg.budgetCpu
    memoryBudget := cfg.budgetMemory }

/-- A worker always declares a reservation and names its capacity. -/
theorem claim_wanted (hvalid : task.validate = .ok ()) (workspace : String) :
    (cfg.claim task workspace).wanted = some (cfg.wants task) := by
  have hne : cfg.needCpu task ≠ 0 := (needCpu_pos hvalid).ne'
  simp [Claim.wanted, claim, ResourceRequest.declared, hne, wants, budgetCpu, budgetMemory]

/-- The request of the task does not fit what the budgets leave. -/
def exceeds (cfg : RuntimeConfig) (task : TaskSpec) (t : Tables) (budgets : Int × Int) : Bool :=
  budgets.1 < t.reservedCpu + cfg.needCpu task || budgets.2 < t.reservedMemory + cfg.needMemory task

/-- The claim tests the request against the enforced budgets. -/
theorem overbooked_wants (t : Tables) :
    t.overbooked (cfg.wants task) = cfg.enforcedBudgets.map (cfg.exceeds task t) := by
  unfold Tables.overbooked wants enforcedBudgets
  cases cfg.budgetCpu with
  | error x => rfl
  | ok budgetCpu => cases cfg.budgetMemory <;> rfl

/-- Within the same budgets the explanation tests what the claim tests. -/
theorem explainWithin_eq (cfg : RuntimeConfig) (task : TaskSpec) (t : Tables)
    (budgets : Int × Int) :
    cfg.explainWithin task budgets (t.reservedCpu, t.reservedMemory) =
      if cfg.exceeds task t budgets then
        .resource (cfg.needCpu task) (cfg.needMemory task) (max (budgets.1 - t.reservedCpu) 0)
          (max (budgets.2 - t.reservedMemory) 0)
      else .claimable := by
  simp only [explainWithin, exceeds, sub_lt_iff_lt_add', Bool.or_eq_true, decide_eq_true_eq]

end RuntimeConfig

/-- No row carries the id. -/
def Tables.Unused (t : Tables) (attemptId : AttemptId) : Prop :=
  (∀ a ∈ t.attempts, a.attemptId ≠ attemptId) ∧ ∀ r ∈ t.reservations, r.attemptId ≠ attemptId

theorem refusesAttempt_of_unused {t : Tables} (hwf : WellFormed t) {attemptId : AttemptId}
    (hunused : t.Unused attemptId) (stage : StageRow) (c : Claim) (now : Timestamp) :
    t.refusesAttempt (t.nextAttempt stage c attemptId now) = false := by
  simp only [Tables.refusesAttempt, List.any_eq_false, Bool.or_eq_true, decide_eq_true_eq,
    Bool.and_eq_true, not_or]
  intro a ha
  refine ⟨hunused.1 a ha, ?_⟩
  rintro ⟨hstage, hnumber⟩
  have hmem : a.attemptNumber ∈ (t.attemptsOf stage.stageRunId).map AttemptRow.attemptNumber :=
    List.mem_map_of_mem (List.mem_filter.mpr ⟨ha, decide_eq_true hstage⟩)
  rw [hwf.numbered, List.mem_range'_1] at hmem
  have hnext : a.attemptNumber = t.maxAttemptNumber stage.stageRunId + 1 := hnumber
  rw [hwf.maxAttemptNumber_eq] at hnext
  omega

theorem reserveClaim_decides {t : Tables} {stage : StageRow} {c : Claim} {w : Wanted}
    {row : AttemptRow} {now : Timestamp} (hunused : t.Unused row.attemptId)
    (hwanted : c.wanted = some w) (hcpu : 0 < w.cpu) (hmemory : 0 < w.memory) :
    (handled (reserveClaim c stage row now
      { db := t.insertAttempt row, saved := some t })).1 =
        (t.overbooked w).map fun full ↦ if full then none else some row := by
  have hrefuses : (t.insertAttempt row).refusesReservation (w.row row.attemptId) = false := by
    simp only [Tables.refusesReservation, Bool.or_eq_false_iff, List.any_eq_false,
      decide_eq_true_eq, decide_eq_false_iff_not]
    exact ⟨⟨hunused.2, not_le.mpr hcpu⟩, not_le.mpr hmemory⟩
  have hbooked : (t.insertAttempt row).overbooked w = t.overbooked w := rfl
  unfold reserveClaim
  simp only [hwanted, not_le.mpr hmemory, if_false, reading_bind, hbooked]
  rcases t.overbooked w with x | full
  · rfl
  cases full with
  | true => simp [Except.map]
  | false => simp [executeChecked_bind, hrefuses, commitClaim, Except.map]

/-- With a new id and a positive request, capacity alone decides a claim of a
claimable stage. -/
theorem startAttempt_decides {t : Tables} (hwf : WellFormed t) {stage : StageRow} {c : Claim}
    {w : Wanted} {attemptId : AttemptId} {now : Timestamp} (hlease : 0 < c.leaseSeconds)
    (hstage : t.stage? stage.stageRunId = some stage) (hclaimable : stage.status.claimable = true)
    (hunused : t.Unused attemptId) (hwanted : c.wanted = some w) (hcpu : 0 < w.cpu)
    (hmemory : 0 < w.memory) :
    (exec (startAttempt stage.stageRunId c attemptId now) t).1 =
      (t.overbooked w).map fun full ↦
        if full then none else some (t.nextAttempt stage c attemptId now) := by
  have hrow : t.refusesAttempt (c.attemptRow stage.stageRunId
      (t.maxAttemptNumber stage.stageRunId + 1) attemptId now) = false :=
    refusesAttempt_of_unused hwf hunused stage c now
  unfold startAttempt exec
  rw [if_neg (not_le.mpr hlease), immediate_apply, query_bind, hstage]
  simp only [hclaimable, Bool.not_true, Bool.false_eq_true, if_false, query_bind,
    executeChecked_bind, hrow]
  exact reserveClaim_decides hunused hwanted hcpu hmemory

/-- What `start_attempt` answers when `execute_once_reporting` calls it for the run;
without a ready stage there is no call. -/
def RuntimeConfig.attemptClaim (cfg : RuntimeConfig) (t : Tables) (run : RunRow)
    (resumable : Bool) (attemptId : AttemptId) (now : Timestamp) :
    Option (Except StoreError (Option AttemptRow)) :=
  (t.nextReadyStage run.runId).map fun stage ↦
    (exec (startAttempt stage.stageRunId
      (cfg.claim run.taskSpec
        (workspaceFor cfg run stage resumable (t.listAttempts stage.stageRunId)))
      attemptId now) t).1

/-- A run that may be claimed has a stage that may be claimed. -/
theorem exists_readyStage {t : Tables} (hwf : WellFormed t)
    (hpaired : Paired (fun r s ↦ s = r) t) {run : RunRow} (hrun : t.run? run.runId = some run)
    (hclaimable : run.status.claimable = true) :
    ∃ stage, t.nextReadyStage run.runId = some stage ∧
      t.stage? stage.stageRunId = some stage ∧ stage.status.claimable = true := by
  have hmem : ∀ s, s ∈ t.listStages run.runId ↔ s ∈ t.stages ∧ s.runId = run.runId := by
    intro s
    unfold Tables.listStages
    rw [(List.perm_insertionSort _ _).mem_iff, List.mem_filter, decide_eq_true_eq]
  obtain ⟨own, hown⟩ := hwf.exists_stage hrun
  have hownMem : own ∈ t.stages := Table.mem_of_get? hown
  have hownRun : own.runId = run.runId := Table.key_of_get? hown
  have hownClaimable : own.status.claimable = true := by
    rwa [hpaired run (Table.mem_of_get? hrun) own hownMem hownRun]
  have hsome : (t.nextReadyStage run.runId).isSome = true :=
    List.find?_isSome.mpr ⟨own, (hmem own).mpr ⟨hownMem, hownRun⟩, hownClaimable⟩
  obtain ⟨stage, hstage⟩ := Option.isSome_iff_exists.mp hsome
  have hstageMem := ((hmem stage).mp (List.mem_of_find?_eq_some hstage)).1
  exact ⟨stage, hstage, hwf.stage?_of_mem hstageMem, by simpa using List.find?_some hstage⟩

theorem waitingFor_exec (cfg : RuntimeConfig) {t : Tables} {runId : RunId} {run : RunRow}
    (hrun : t.run? runId = some run) (hwaiting : run.status.waiting = true) :
    (exec (waitingFor cfg runId) t).1 =
      (cfg.explain run.taskSpec (t.reservedCpu, t.reservedMemory)).map some := by
  simp only [exec, waitingFor, getRun, bind_apply, query, hrun, pure_apply, hwaiting,
    Bool.not_true, Bool.false_eq_true, if_false, reading]
  cases cfg.explain run.taskSpec (t.reservedCpu, t.reservedMemory) <;> rfl

/-- The budgets that `ResourceQuery.run` reports of a run, or the exception instead. -/
def reportedBudgets (cfg : RuntimeConfig) (t : Tables) (runId : RunId) :
    Except StoreError (Int × Int) :=
  (exec (resourceView cfg runId) t).1.map fun view ↦
    (view.budgetCpuCores, view.budgetMemoryBytes)

theorem reportedBudgets_eq (cfg : RuntimeConfig) {t : Tables} {runId : RunId} {run : RunRow}
    (hrun : t.run? runId = some run) (hwaiting : run.status.waiting = true) :
    reportedBudgets cfg t runId = cfg.explainedBudgets := by
  have hexplains := waitingFor_exec cfg hrun hwaiting
  unfold reportedBudgets
  simp only [exec, resourceView, getRun, bind_apply, query, hrun, pure_apply, reading]
  cases hbudgets : cfg.explainedBudgets with
  | error x => rfl
  | ok budgets =>
      rw [RuntimeConfig.explain, hbudgets] at hexplains
      simp only [exec] at hexplains
      rcases hreturns : waitingFor cfg runId { db := t } with ⟨answer, c⟩
      rw [hreturns] at hexplains
      obtain rfl : answer = _ := hexplains
      simp only [hreturns]
      rfl

/-- Capacity alone decides the claim of a waiting run. -/
theorem RuntimeConfig.attemptClaim_decides (cfg : RuntimeConfig) {t : Tables} (hwf : WellFormed t)
    (hpaired : Paired (fun r s ↦ s = r) t) {run : RunRow} (hrun : t.run? run.runId = some run)
    (hvalid : run.taskSpec.validate = .ok ()) (hclaimable : run.status.claimable = true)
    (resumable : Bool) {attemptId : AttemptId} (hunused : t.Unused attemptId) (now : Timestamp) :
    ∃ row, cfg.attemptClaim t run resumable attemptId now =
      some ((t.overbooked (cfg.wants run.taskSpec)).map fun full ↦
        if full then none else some row) := by
  obtain ⟨stage, hready, hstage, hstageClaimable⟩ :=
    exists_readyStage hwf hpaired hrun hclaimable
  rw [attemptClaim, hready, Option.map_some]
  exact ⟨_, congrArg some (startAttempt_decides hwf cfg.leasePositive hstage hstageClaimable
    hunused (claim_wanted hvalid _) (needCpu_pos hvalid) (needMemory_pos hvalid))⟩

/-- The explanation of a waiting run is the answer its claim would get, and the
budgets shown are the budgets enforced, at submission and at the claim. -/
structure ExplainsAdmission (cfg : RuntimeConfig) (t : Tables) (run : RunRow) (resumable : Bool)
    (attemptId : AttemptId) (now : Timestamp) : Prop where
  claimable : (exec (waitingFor cfg run.runId) t).1 = .ok (some .claimable) ↔
    ∃ row, cfg.attemptClaim t run resumable attemptId now = some (.ok (some row))
  resource : (∃ cpu memory freeCpu freeMemory, (exec (waitingFor cfg run.runId) t).1 =
      .ok (some (.resource cpu memory freeCpu freeMemory))) ↔
    cfg.attemptClaim t run resumable attemptId now = some (.ok none)
  submission : reportedBudgets cfg t run.runId = cfg.enforcedBudgets
  claim : ∀ workspace w, (cfg.claim run.taskSpec workspace).wanted = some w →
    reportedBudgets cfg t run.runId = do return (← w.cpuBudget, ← w.memoryBudget)

/-- Three fifths of five cores are three cores once the product is rounded. -/
example : PlatformFraction.standard.share 5 = .ok 3 := by decide +kernel

/-- The sample run has been submitted and nobody has claimed it. -/
def Sample.submitted : List (ThreadId × Event) := [(9, .submit (Sample.submission 1))]

/-- One core, of which the platform may use three fifths. -/
def Sample.narrow : RuntimeConfig where
  workspaceRoot := "/work"
  leaseSeconds := 30
  workerId := "worker"
  capacityCpuCores := 1
  capacityMemoryBytes := 10
  platformFraction := .standard
  defaultTaskCpuCores := 1
  defaultTaskMemoryBytes := 6
  leasePositive := by decide
  cpuPositive := (Sample.config 0).defaultCpuPositive
  memoryPositive := by decide
  fractionPositive := by decide +kernel
  fractionAtMostOne := by decide +kernel
  defaultCpuPositive := (Sample.config 0).defaultCpuPositive
  defaultMemoryPositive := by decide

end ChipEvolve
