import ChipEvolve.Registry.Resolution
import ChipEvolve.Runtime.Submission
import ChipEvolve.Store.StatusMachine

/-!
# What the kernel runs is admitted

The processes of the kernel make their registries when they start, each from what it finds in
the directories by then.  `WorkflowRuntime.submit` stores the version its resolver found, and
`execute_once_reporting` resolves the plugin of a stage before it starts an attempt.
-/

namespace ChipEvolve

open Builtins (text?)
open Machine Registry Sql

/-! ## Resolvers -/

namespace Registry

namespace Manifest

variable (m : Manifest)

/-- A flag of the requirements, by its truth. -/
def flag (name : String) : Bool :=
  ((Payload.record? m.named "requirements").bind fun fields ↦
    JsonObject.get? fields name).any Json.truthy

/-- What the runtime reads of a manifest. -/
def typed : PluginManifest where
  pluginId := m.pluginId
  pluginVersion := m.pluginVersion
  adapterEntry := m.adapterEntry
  capabilities := m.capabilities
  supportedArch := m.supportedArch
  defaultTimeoutSeconds := (Payload.integer? (Payload.json m.named "default_timeout_seconds")).getD 0
  artifactRules := m.artifactRules
  requirements :=
    { requireProtocolReceipt := m.flag "require_protocol_receipt"
      environmentReceiptVariable := (Payload.record? m.named "requirements").bind fun fields ↦
        text? (Payload.part fields "environment_receipt_variable")
      requireExperimentProtocol := m.flag "require_experiment_protocol"
      requireProtectedEvaluation := m.flag "require_protected_evaluation"
      resumable := m.flag "resumable" }
  progressMarker := m.text "progress_marker"

end Manifest

/-- A process of the kernel with the registry it made when it started. -/
structure Process (py : Printing) where
  root : Option AdmissionsRoot
  admissions : Option Admissions
  resolved : resolveRoot root = .ok admissions
  directories : List PluginDirectory
  registry : PluginRegistry
  loaded : fromDirectory py root directories = .ok registry
  machine : String
  workerId : WorkerId

namespace Process

variable {py : Printing} (process : Process py)

/-- `resolver.resolve(…, arch=platform.machine())` -/
def resolver (pluginId : String) (version capability : Option String) :
    Except RuntimeError PluginManifest :=
  ((process.registry.resolve py pluginId version capability (some process.machine)).map
    Manifest.typed).mapError fun e ↦ .resolver e.message

/-- The process has a plugin of that identity that may be executed, on its machine if it knows
that. -/
def MayRun (pluginId pluginVersion : String) : Prop :=
  ∃ m, Approved py process.admissions process.directories m ∧
    m.identity = (pluginId, pluginVersion) ∧
    (process.machine ≠ "" → process.machine ∈ m.supportedArch)

variable {process} {pluginId : String} {version capability : Option String}
  {manifest : PluginManifest}

theorem mayRun_of_resolver (h : process.resolver pluginId version capability = .ok manifest) :
    process.MayRun pluginId manifest.pluginVersion ∧
      ∀ v, version = some v → manifest.pluginVersion = v := by
  obtain ⟨m, hm, rfl⟩ := Except.map_eq_ok.mp (mapError_eq_ok.mp h)
  obtain ⟨p, hmatching, hsuited, rfl⟩ := resolve_eq_ok.mp hm
  obtain ⟨_, hid, hversion⟩ := mem_matching.mp (hmatching ▸ List.mem_singleton_self p)
  have happroved := (sourced_of_fromDirectory process.resolved process.loaded).approved hm
  refine ⟨⟨p.manifest, happroved, ?_, (checkSuited_eq_ok.mp hsuited).2.2⟩, hversion⟩
  rw [← hid]
  rfl

end Process

end Registry

/-! ## Submissions -/

section Submissions

variable {py : Printing} {process : Process py} {custody : Custody} {a : Submission} {t : Tables}

/-- The version of a submission is one that the process found. -/
def Submission.ResolvedBy (process : Process py) (a : Submission) : Prop :=
  ∀ pluginId, a.task.pluginId = some pluginId → ∃ version capability manifest,
    process.resolver pluginId version capability = .ok manifest ∧
      a.pluginVersion = manifest.pluginVersion

theorem submitRun_creates (custody : Custody) (a : Submission) (t : Tables) :
    (exec (submitRun custody a) t).2 = t ∨ ∃ pluginId, a.task.pluginId = some pluginId ∧
      (exec (submitRun custody a) t).2 = (Effect.create a pluginId).apply t := by
  by_cases hopens : a.Opens
  · obtain ⟨pluginId, hplugin, hexec⟩ := @exec_submitRun custody a t hopens
    rw [hexec]
    cases a.existing? t with
    | some run =>
        refine .inl ?_
        rcases reuseRun_outcomes custody a t run with ⟨_, hok⟩ | ⟨_, e, herror⟩
        · simp [hok]
        · simp [herror]
    | none =>
        rcases createRun_cases t a pluginId with ⟨e, herror⟩ | ⟨_, _, hok⟩
        · exact .inl (by simp [herror])
        · exact .inr ⟨pluginId, hplugin, by simp [hok]⟩
  · obtain ⟨e, herror⟩ := submitRun_closed hopens
    exact .inl (by rw [herror])

/-- What `submit` does to the tables is a submission that its process resolved. -/
theorem Platform.submit_resolved {p : Platform} (hp : p.resolve = process.resolver)
    (H : Bytes → String) (host : Host) (call : SubmitCall) (k : Kernel) :
    (p.submit H host call k).2.tables = k.tables ∨ ∃ custody a, a.ResolvedBy process ∧
      (p.submit H host call k).2.tables = (exec (submitRun custody a) k.tables).2 := by
  unfold Platform.submit
  cases hprepare : prepare H host p.allowedInputRoots call.newId call.task k.depot with
  | error e depot => exact .inl rfl
  | ok task depot =>
      cases hmanifest : p.resolveManifest call task with
      | error e =>
          refine .inl ?_
          simp only [hmanifest]
      | ok manifest =>
          refine .inr ⟨depot.custody, call.submission task manifest, ?_, by simp only [hmanifest]⟩
          intro pluginId hplugin
          have hplugin : task.pluginId = some pluginId := hplugin
          obtain ⟨_, _, hmanifest⟩ := Except.bind_eq_ok.mp hmanifest
          rw [hplugin] at hmanifest
          obtain ⟨_, _, hmanifest⟩ := Except.bind_eq_ok.mp hmanifest
          rw [hp] at hmanifest
          exact ⟨_, _, manifest, hmanifest, rfl⟩

end Submissions

/-! ## Runs of the kernel -/

section Runs

variable {py : Printing} {process : ThreadId → Process py} {custody : Custody}
  {history : List (ThreadId × Operation)} {stageRunId : StageRunId} {attemptId : AttemptId}
  {thread : ThreadId}

/-- The threads reach the store by `submit` and `execute_once_reporting` of their process. -/
def Resolving (process : ThreadId → Process py) (s : System) : ThreadId × Operation → Prop
  | (thread, .submitRun a) => a.ResolvedBy (process thread)
  | (thread, .startAttempt stageRunId c _ _) =>
      c.workerId = (process thread).workerId ∧
        ∀ stage, s.tables.stage? stageRunId = some stage → ∃ manifest,
          (process thread).resolver stage.pluginId (some stage.pluginVersion) none = .ok manifest
  | _ => True

/-- A submission of the thread made the stage. -/
def SubmittedBy (custody : Custody) (history : List (ThreadId × Operation))
    (stageRunId : StageRunId) (thread : ThreadId) : Prop :=
  ∃ s a s', Takes (System.step custody) {} history s (thread, .submitRun a) s' ∧
    s.tables.stage? stageRunId = none ∧ (s'.tables.stage? stageRunId).isSome = true

/-- A claim of the thread made the attempt. -/
def StartedBy (custody : Custody) (history : List (ThreadId × Operation)) (attemptId : AttemptId)
    (thread : ThreadId) : Prop :=
  ∃ s stageRunId c now s', Takes (System.step custody) {} history s
      (thread, .startAttempt stageRunId c attemptId now) s' ∧
    s.tables.attempt? attemptId = none ∧ (s'.tables.attempt? attemptId).isSome = true

/-- The thread that submitted the stage may run its plugin. -/
def Submitted (process : ThreadId → Process py) (custody : Custody)
    (history : List (ThreadId × Operation)) (s : StageRow) : Prop :=
  ∃ thread, SubmittedBy custody history s.stageRunId thread ∧
    (process thread).MayRun s.pluginId s.pluginVersion

/-- The thread that started the attempt is its worker and may run the plugin of its stage. -/
def Started (process : ThreadId → Process py) (custody : Custody)
    (history : List (ThreadId × Operation)) (stages : List StageRow) (a : AttemptRow) : Prop :=
  ∃ s ∈ stages, s.stageRunId = a.stageRunId ∧ ∃ thread, StartedBy custody history a.attemptId thread ∧
    (process thread).workerId = a.workerId ∧ (process thread).MayRun s.pluginId s.pluginVersion

/-- Every stage was admitted for the process that submitted it, and every attempt for the worker
that started it. -/
structure OnlyAdmitted (process : ThreadId → Process py) (custody : Custody)
    (history : List (ThreadId × Operation)) (t : Tables) : Prop where
  stages : ∀ s ∈ t.stages, Submitted process custody history s
  attempts : ∀ a ∈ t.attempts, Started process custody history t.stages a

theorem SubmittedBy.mono {history' : List (ThreadId × Operation)}
    (h : SubmittedBy custody history stageRunId thread) (hpre : history <+: history') :
    SubmittedBy custody history' stageRunId thread := by
  obtain ⟨s, a, s', htakes, hfresh⟩ := h
  exact ⟨s, a, s', htakes.mono hpre, hfresh⟩

theorem StartedBy.mono {history' : List (ThreadId × Operation)}
    (h : StartedBy custody history attemptId thread) (hpre : history <+: history') :
    StartedBy custody history' attemptId thread := by
  obtain ⟨s, stageRunId, c, now, s', htakes, hfresh⟩ := h
  exact ⟨s, stageRunId, c, now, s', htakes.mono hpre, hfresh⟩

theorem Effect.onStage_pluginId (e : Effect) (s : StageRow) :
    (e.onStage s).pluginId = s.pluginId := by
  cases e <;> simp only [Effect.onStage] <;> split <;> rfl

theorem Effect.onStage_pluginVersion (e : Effect) (s : StageRow) :
    (e.onStage s).pluginVersion = s.pluginVersion := by
  cases e <;> simp only [Effect.onStage] <;> split <;> rfl

namespace OnlyAdmitted

variable {t : Tables} {e : Effect}

theorem mono {history' : List (ThreadId × Operation)}
    (h : OnlyAdmitted process custody history t) (hpre : history <+: history') :
    OnlyAdmitted process custody history' t where
  stages := by
    intro s hs
    obtain ⟨thread, hby, hrun⟩ := h.stages s hs
    exact ⟨thread, hby.mono hpre, hrun⟩
  attempts := by
    intro a ha
    obtain ⟨s, hs, hstage, thread, hby, hrun⟩ := h.attempts a ha
    exact ⟨s, hs, hstage, thread, hby.mono hpre, hrun⟩

theorem apply (h : OnlyAdmitted process custody history t)
    (hstages : ∀ s ∈ e.newStages, Submitted process custody history s)
    (hattempts : ∀ a ∈ e.newAttempts t, Started process custody history t.stages a) :
    OnlyAdmitted process custody history (e.apply t) where
  stages := by
    intro s hs
    rw [e.stages_apply, List.mem_append, List.mem_map] at hs
    rcases hs with ⟨s, hs, rfl⟩ | hnew
    · unfold Submitted
      rw [e.onStage_stageRunId, e.onStage_pluginId, e.onStage_pluginVersion]
      exact h.stages s hs
    · exact hstages s hnew
  attempts := by
    have hkept : ∀ a, Started process custody history t.stages a →
        Started process custody history (e.apply t).stages a := by
      rintro a ⟨s, hs, hstage, hrun⟩
      refine ⟨e.onStage s, ?_, (e.onStage_stageRunId s).trans hstage, ?_⟩
      · rw [e.stages_apply]
        exact List.mem_append_left _ (List.mem_map_of_mem hs)
      · rwa [e.onStage_pluginId, e.onStage_pluginVersion]
    intro a ha
    rw [e.attempts_apply, List.mem_append, List.mem_map] at ha
    rcases ha with ⟨a, ha, rfl⟩ | hnew
    · apply hkept
      unfold Started
      rw [e.onAttempt_attemptId, e.onAttempt_stageRunId, e.onAttempt_workerId]
      exact h.attempts a ha
    · exact hkept a (hattempts a hnew)

/-- A submission that is resolved. -/
theorem submit {a : Submission} (h : OnlyAdmitted process custody history t)
    (hresolved : a.ResolvedBy (process thread))
    (hby : (exec (submitRun custody a) t).2 ≠ t → SubmittedBy custody history a.stageRunId thread) :
    OnlyAdmitted process custody history (exec (submitRun custody a) t).2 := by
  rcases submitRun_creates custody a t with hsame | ⟨pluginId, hplugin, hcreates⟩
  · rwa [hsame]
  · have hchanged : (exec (submitRun custody a) t).2 ≠ t := by
      rw [hcreates]
      intro heq
      have hlength := congrArg (List.length ∘ Tables.stages) heq
      simp [Effect.stages_apply, Effect.newStages] at hlength
    have hsubmitted := hby hchanged
    rw [hcreates]
    obtain ⟨version, capability, manifest, hmanifest, hversion⟩ := hresolved pluginId hplugin
    refine h.apply (fun s hs ↦ ⟨thread, ?_, ?_⟩) (List.forall_mem_nil _)
    · obtain rfl := List.mem_singleton.mp hs
      exact hsubmitted
    · obtain rfl := List.mem_singleton.mp hs
      have hrun := (Process.mayRun_of_resolver hmanifest).1
      rwa [← hversion] at hrun

/-- A claim of a stage that is resolved. -/
theorem claim {stage : StageRow} {c : Claim} {now : Timestamp}
    (h : OnlyAdmitted process custody history t)
    (hstage : t.stage? stage.stageRunId = some stage)
    (hby : StartedBy custody history attemptId thread)
    (hworker : c.workerId = (process thread).workerId) {manifest : PluginManifest}
    (hmanifest : (process thread).resolver stage.pluginId (some stage.pluginVersion) none =
      .ok manifest) :
    OnlyAdmitted process custody history ((Effect.claim stage c attemptId now).apply t) := by
  refine h.apply (List.forall_mem_nil _) fun a ha ↦ ?_
  obtain rfl := List.mem_singleton.mp ha
  obtain ⟨hrun, hversion⟩ := Process.mayRun_of_resolver hmanifest
  rw [hversion _ rfl] at hrun
  exact ⟨stage, Table.mem_of_get? hstage, rfl, thread, hby, hworker.symm, hrun⟩

end OnlyAdmitted

/-- What an operation can add to the tables: the stage it submits or the attempt it starts. -/
theorem Client.Emits.adds {client : Client} {op : Operation} {e : Effect}
    (h : client.Emits op e) :
    (∃ a pluginId, client = .idle ∧ op = .submitRun a ∧ e = .create a pluginId) ∨
      (∃ stage c attemptId now, op = .startAttempt stage.stageRunId c attemptId now ∧
        e = .claim stage c attemptId now) ∨
      e.newStages = [] ∧ ∀ t, e.newAttempts t = [] := by
  cases h with
  | create => exact .inl ⟨_, _, rfl, rfl, rfl⟩
  | claim => exact .inr (.inl ⟨_, _, _, _, rfl, rfl⟩)
  | pass hpass => cases hpass <;> exact .inr (.inr ⟨rfl, fun _ ↦ rfl⟩)
  | _ => exact .inr (.inr ⟨rfl, fun _ ↦ rfl⟩)

theorem OnlyAdmitted.step {s s' : System} {l : ThreadId × Operation}
    (h : OnlyAdmitted process custody history s.tables)
    (htakes : Takes (System.step custody) {} history s l s') (hresolving : Resolving process s l) :
    OnlyAdmitted process custody history s'.tables := by
  obtain ⟨thread, op⟩ := l
  have hstep := htakes.step_eq
  rcases System.step_effect hstep with hsame | ⟨e, hemits, henabled, happly⟩
  · rwa [hsame]
  rcases hemits.adds with ⟨a, _, hclient, rfl, rfl⟩ | ⟨stage, c, attemptId, now, rfl, rfl⟩ | hquiet
  · obtain ⟨next, hnext, rfl⟩ := Option.map_eq_some_iff.mp hstep
    simp only at hclient
    rw [hclient] at hnext
    obtain rfl := Option.some.inj hnext
    refine h.submit hresolving fun _ ↦ ⟨s, a, _, htakes, stage?_fresh henabled, ?_⟩
    rw [happly]
    exact Table.get?_isSome_iff.mpr (by simp [Effect.stages_apply, Effect.newStages,
      Submission.stageRow])
  · obtain ⟨hworker, hresolved⟩ := hresolving
    obtain ⟨manifest, hmanifest⟩ := hresolved stage henabled.1
    have hby : StartedBy custody history attemptId thread := by
      refine ⟨s, stage.stageRunId, c, now, s', htakes, attempt?_fresh henabled, ?_⟩
      rw [happly]
      exact Table.get?_isSome_iff.mpr (by simp [Effect.attempts_apply, Effect.newAttempts,
        Tables.nextAttempt, Claim.attemptRow])
    rw [happly]
    exact h.claim henabled.1 hby hworker hmanifest
  · rw [happly]
    refine h.apply ?_ ?_
    · rw [hquiet.1]
      exact List.forall_mem_nil _
    · rw [hquiet.2]
      exact List.forall_mem_nil _

theorem onlyAdmitted_of_run {s : System}
    (hresolving : ∀ s l s', Takes (System.step custody) {} history s l s' → Resolving process s l)
    (h : run (System.step custody) {} history = some s) :
    OnlyAdmitted process custody history s.tables := by
  induction history using List.reverseRecOn generalizing s with
  | nil =>
      obtain rfl : ({} : System) = s := Option.some.inj h
      exact ⟨List.forall_mem_nil _, List.forall_mem_nil _⟩
  | append_singleton ls l ih =>
      obtain ⟨u, hu, hstep⟩ := run_concat_eq_some_iff.mp h
      have hmore : ls <+: ls ++ [l] := List.prefix_append ls [l]
      have htakes : Takes (System.step custody) {} (ls ++ [l]) u l s :=
        ⟨ls, List.prefix_refl _, hu, hstep⟩
      have hbefore : OnlyAdmitted process custody ls u.tables :=
        ih (fun s l s' hs ↦ hresolving s l s' (hs.mono hmore)) hu
      exact (hbefore.mono hmore).step htakes (hresolving u l s htakes)

/-- Whatever the threads do in whatever order, every stage names a plugin that the records of
its submitter admitted, and every attempt one that the records of its worker admitted. -/
theorem onlyAdmitted_of_visits {s : System}
    (hresolving : ∀ s l s', Takes (System.step custody) {} history s l s' → Resolving process s l)
    (h : Visits (System.step custody) {} history s) :
    OnlyAdmitted process custody history s.tables := by
  obtain ⟨pre, hpre, hrun⟩ := h
  have hbefore : OnlyAdmitted process custody pre s.tables :=
    onlyAdmitted_of_run (fun s l s' htakes ↦ hresolving s l s' (htakes.mono hpre)) hrun
  exact hbefore.mono hpre

end Runs

/-! ## An admitted plugin -/

namespace Sample

def records : Admissions := fun pluginId ↦
  if pluginId = "plugin" then
    some (.ok (.obj [("status", .str "admitted"), ("license_review", .str "Green"),
      ("approved_commit", .str "c0ffee")]))
  else none

def pluginDirectory : PluginDirectory where
  manifests := [{ name := "plugin.plugin.json"
                  read := .ok (.obj [("plugin_id", .str "plugin"), ("plugin_version", .str "1"),
                    ("adapter_entry", .arr [.str "run"]), ("capabilities", .arr [.str "flow"]),
                    ("supported_arch", .arr [.str "x86_64"]), ("schema_version", .int 3)]) }]
  target _ := .error (.other "no such path")

def resolves (registry : PluginRegistry) (version : Option String) : Bool :=
  (registry.resolve samplePrinting "plugin" version none (some "x86_64")).toOption.any fun m ↦
    m.pluginVersion = "1"

theorem exists_process :
    ∃ process : Process samplePrinting, process.workerId = "worker" ∧
      ∀ version, version = none ∨ version = some "1" → ∃ manifest,
        process.resolver "plugin" version none = .ok manifest ∧ manifest.pluginVersion = "1" := by
  have hboth : (fromDirectory samplePrinting (some ⟨records, .ok records⟩)
      [pluginDirectory]).toOption.any
      (fun registry ↦ resolves registry none && resolves registry (some "1")) = true := by
    decide +kernel
  obtain ⟨registry, hregistry, hresolves⟩ := (Option.any_eq_true _ _).mp hboth
  rw [Bool.and_eq_true] at hresolves
  refine ⟨⟨some ⟨records, .ok records⟩, some records, rfl, [pluginDirectory], registry,
    Except.toOption_eq_some.mp hregistry, "x86_64", "worker"⟩, rfl, fun version hversion ↦ ?_⟩
  have hresolved : resolves registry version = true := by
    rcases hversion with rfl | rfl
    · exact hresolves.1
    · exact hresolves.2
  obtain ⟨m, hm, hone⟩ := (Option.any_eq_true _ _).mp hresolved
  refine ⟨m.typed, ?_, of_decide_eq_true hone⟩
  unfold Process.resolver
  rw [Except.toOption_eq_some.mp hm]
  rfl

/-- The submission of the sample or the claim of its stage. -/
def ofPlugin (s : System) : ThreadId × Operation → Bool
  | (_, .submitRun a) => a.task.pluginId = some "plugin" && a.pluginVersion = "1"
  | (_, .startAttempt stageRunId c _ _) => c.workerId = "worker" &&
      (s.tables.stage? stageRunId).all fun stage ↦
        stage.pluginId = "plugin" && stage.pluginVersion = "1"
  | _ => true

theorem resolving_of_ofPlugin {process : Process samplePrinting}
    (hworker : process.workerId = "worker")
    (hresolves : ∀ version, version = none ∨ version = some "1" → ∃ manifest,
      process.resolver "plugin" version none = .ok manifest ∧ manifest.pluginVersion = "1")
    {s : System} {l : ThreadId × Operation} (h : ofPlugin s l = true) :
    Resolving (fun _ ↦ process) s l := by
  obtain ⟨thread, op⟩ := l
  cases op with
  | submitRun a =>
      obtain ⟨hplugin, hversion⟩ := Bool.and_eq_true_iff.mp h
      intro pluginId hid
      obtain rfl := Option.some.inj ((of_decide_eq_true hplugin).symm.trans hid)
      obtain ⟨manifest, hmanifest, hone⟩ := hresolves none (.inl rfl)
      exact ⟨none, none, manifest, hmanifest, (of_decide_eq_true hversion).trans hone.symm⟩
  | startAttempt stageRunId c attemptId now =>
      obtain ⟨hclaimer, hstage⟩ := Bool.and_eq_true_iff.mp h
      refine ⟨(of_decide_eq_true hclaimer).trans hworker.symm, fun stage hfound ↦ ?_⟩
      rw [hfound, Option.all_some, Bool.and_eq_true, decide_eq_true_eq, decide_eq_true_eq] at hstage
      obtain ⟨manifest, hmanifest, _⟩ := hresolves (some "1") (.inr rfl)
      rw [hstage.1, hstage.2]
      exact ⟨manifest, hmanifest⟩
  | _ => trivial

def admittedHistory : List (ThreadId × Operation) :=
  [(0, .submitRun (submission 1)), (1, .startAttempt "stage" claim "attempt" 1)]

theorem onlyAdmitted_sample :
    ∃ (process : ThreadId → Process samplePrinting) (s : System),
      s.tables.attempts ≠ [] ∧ OnlyAdmitted process custody admittedHistory s.tables := by
  obtain ⟨process, hworker, hresolves⟩ := exists_process
  have hruns : (run (System.step custody) {} admittedHistory).any
      (fun s ↦ !s.tables.attempts.isEmpty) = true := by
    decide +kernel
  have hall : allSteps (System.step custody) ofPlugin {} admittedHistory = true := by
    decide +kernel
  obtain ⟨s, hvisits, hattempts⟩ := Visits.of_any hruns
  refine ⟨fun _ ↦ process, s, by simpa using hattempts,
    onlyAdmitted_of_visits (fun s l s' htakes ↦ ?_) hvisits⟩
  exact resolving_of_ofPlugin hworker hresolves (htakes.of_allSteps hall)

end Sample

end ChipEvolve
