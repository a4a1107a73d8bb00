import ChipEvolve.Contracts.Plugin
import ChipEvolve.JsonText
import ChipEvolve.Outcome
import ChipEvolve.Runtime.Resources

/-!
# Submission

`WorkflowRuntime.submit` (`runtime.py`): the check of the inputs, the snapshot of
the host files among them, the digest of the input base, and the methods of the
store they call (`store.py`).  The files of the host and what resolving a path
raises are in the `Host`; a call that fails keeps the snapshots it has taken.
-/

namespace ChipEvolve

/-! ## The host and the depot -/

/-- The files of the host: whether a path as it is written names a regular file, where
`Path(…).expanduser().resolve()` leads, and what reading the file there gives. -/
structure Host where
  isFile : String → Bool
  resolve : String → Except RuntimeError String
  file : String → Option (Except RuntimeError Bytes)

/-- The object store, the rows that refer to it, and the files of workspaces that rows of the
older storage refer to, where a path does not escape. -/
structure Depot where
  objects : String → Option Bytes := fun _ ↦ none
  uploaded : List UploadedRow := []
  artifacts : List ArtifactRow := []
  workspaceFile : AttemptId → String → Option (Option Bytes) := fun _ _ ↦ some none

/-- A program on the depot that may raise; what it wrote before stays. -/
abbrev IntakeM := EStateM RuntimeError Depot

def storeError {α : Type} (message : String) : Except RuntimeError α :=
  .error (.store (.runtimeStore message))

namespace Depot

def uploadedInput? (d : Depot) (inputId : String) : Option UploadedRow :=
  Table.get? UploadedRow.inputId inputId d.uploaded

def artifact? (d : Depot) (artifactId : String) : Option ArtifactRow :=
  Table.get? ArtifactRow.artifactId artifactId d.artifacts

def getUploadedInput (d : Depot) (inputId : String) : Except RuntimeError UploadedRow :=
  match d.uploadedInput? inputId with
  | some row => .ok row
  | none => storeError ("unknown uploaded input: " ++ quoted inputId)

def getArtifact (d : Depot) (artifactId : String) : Except RuntimeError ArtifactRow :=
  match d.artifact? artifactId with
  | some row => .ok row
  | none => storeError ("no such artifact: " ++ quoted artifactId)

/-- What is at `artifact_path(…)`, if there is a file. -/
def artifactFile (d : Depot) (row : ArtifactRow) : Except RuntimeError (Option Bytes) :=
  match row.storage with
  | .object => .ok (d.objects row.sha256)
  | .workspace =>
      match d.workspaceFile row.attemptId row.storeKey with
      | some file => .ok file
      | none => storeError "registered artifact escapes the runtime workspace"

/-- `artifact_path(…).is_file()`, with `False` for a `RuntimeStoreError`. -/
def artifactPresent (d : Depot) (row : ArtifactRow) : Bool :=
  match d.artifactFile row with
  | .ok (some _) => true
  | _ => false

/-- What `_equivalent_task_specs` looks up. -/
def custody (d : Depot) : Custody where
  uploadedSha256 inputId := (d.uploadedInput? inputId).map UploadedRow.sha256
  artifactSha256 artifactId := (d.artifact? artifactId).map ArtifactRow.sha256

end Depot

section Intake

variable (H : Bytes → String) (host : Host)

def inconsistentObject (digest : String) (existing size : Nat) : RuntimeError :=
  .store (.runtimeStore ("object " ++ digest ++ " is " ++ toString existing ++
    " bytes but the artifact is " ++ toString size ++ ": the object store is inconsistent"))

/-- `_store_object` -/
def storeObject (digest : String) (bytes : Bytes) : IntakeM Unit := do
  match (← get).objects digest with
  | some existing =>
      if existing.length ≠ bytes.length ∨ H existing ≠ digest then
        throw (inconsistentObject digest existing.length bytes.length)
      else pure ()
  | none => modify fun d ↦ { d with objects := Function.update d.objects digest (some bytes) }

def insertUploaded (row : UploadedRow) : IntakeM Unit := do
  if (← get).uploaded.any fun r ↦ r.inputId = row.inputId then
    throw (.store (.integrity "UNIQUE constraint failed: runtime_uploaded_inputs.input_id"))
  else modify fun d ↦ { d with uploaded := d.uploaded ++ [row] }

def ingestInputFile (inputId path : String) : IntakeM UploadedRow := do
  let source ← ofExcept (host.resolve path)
  match host.file source with
  | none => throw (.store (.runtimeStore ("input file is not readable: " ++ source)))
  | some contents => do
      let bytes ← ofExcept contents
      let row : UploadedRow :=
        { inputId := inputId, storeKey := H bytes, sizeBytes := bytes.length, sha256 := H bytes }
      storeObject H row.sha256 bytes
      insertUploaded row
      pure row

/-! ## The check of the inputs -/

/-- The components of a path; empty ones and `.` do not count. -/
def pathParts (path : String) : List String :=
  ((splitSlash path.toList).map String.ofList).filter fun part ↦ part ≠ "" ∧ part ≠ "."

/-- `_within`, on resolved paths. -/
def within (path root : String) : Bool := (pathParts root).isPrefixOf (pathParts path)

/-- The path of an input that names neither an upload nor an artifact. -/
def InputFile.hostPath (i : InputFile) : String := i.source.getD ""

def checkInput (allowedRoots : List String) (d : Depot) (i : InputFile) :
    Except RuntimeError Unit :=
  match i.inputId, i.artifactId with
  | some inputId, _ =>
      raiseIf (d.uploadedInput? inputId = none)
        (.inputStaging ("input references an uploaded input the platform does not have: " ++
          quoted inputId))
  | none, some artifactId =>
      raiseIf (d.artifact? artifactId = none)
        (.inputStaging ("input references an artifact the platform does not have: " ++
          quoted artifactId))
  | none, none => do
      let source ← host.resolve i.hostPath
      raiseIf (allowedRoots ≠ [] ∧ ¬allowedRoots.any (within source))
        (.inputStaging ("host input is outside configured input roots: " ++ quoted i.hostPath))
      raiseIf (i.required ∧ (host.file source).isNone)
        (.inputStaging ("required input is not a readable file: " ++ quoted i.hostPath ++
          " (declared as " ++ quoted i.destination ++ ")"))

def checkInputs (allowedRoots : List String) (d : Depot) (task : TaskSpec) :
    Except RuntimeError Unit :=
  task.stagedInputs.forM (checkInput host allowedRoots d)

/-! ## The snapshot of the host files -/

/-- The label that remembers where the input at an index came from. -/
def hostSourceLabel (index : Nat) : String := "__platform_host_source_" ++ toString index

/-- One input of `_freeze_host_inputs`, with the path it came from when it was frozen. -/
def freezeInput (inputId : String) (i : InputFile) : IntakeM (InputFile × Option String) := do
  match i.source with
  | none => pure (i, none)
  | some path => do
      let source ← ofExcept (host.resolve path)
      if (host.file source).isNone then pure (i, none)
      else do
        let uploaded ← ingestInputFile H host inputId source
        pure ({ destination := i.destination, inputId := some uploaded.inputId,
                required := i.required }, some source)

def labelled (labels : JsonObject) (index : Nat) : Option String → JsonObject
  | none => labels
  | some source => labels.set (hostSourceLabel index) (.str source)

/-- The loop of `_freeze_host_inputs` from an index on. -/
def freezeInputs (newId : Nat → String) :
    Nat → List InputFile → JsonObject → IntakeM (List InputFile × JsonObject)
  | _, [], labels => pure ([], labels)
  | index, i :: rest, labels => do
      let (frozen, source) ← freezeInput H host (newId index) i
      let (others, labels) ← freezeInputs newId (index + 1) rest (labelled labels index source)
      pure (frozen :: others, labels)

def freezeHostInputs (newId : Nat → String) (task : TaskSpec) : IntakeM TaskSpec := do
  let (stagedInputs, labels) ← freezeInputs H host newId 0 task.stagedInputs task.labels
  pure { task with stagedInputs := stagedInputs, labels := labels }

/-! ## The digest of the input base -/

/-- What is hashed for one input. -/
structure ManifestEntry where
  destination : String
  present : Bool
  sha256 : Option String
  sizeBytes : Nat
  deriving DecidableEq

/-- The entry of an input with a digest, or without one. -/
def InputFile.measured (i : InputFile) (digest : Option String) (size : Nat) : ManifestEntry :=
  { destination := i.destination, present := digest.isSome, sha256 := digest, sizeBytes := size }

def measureInput (d : Depot) (i : InputFile) : Except RuntimeError ManifestEntry :=
  match i.inputId, i.artifactId with
  | some inputId, _ => do
      let uploaded ← d.getUploadedInput inputId
      return i.measured (some uploaded.sha256) uploaded.sizeBytes
  | none, some artifactId => do
      let artifact ← d.getArtifact artifactId
      return if !d.artifactPresent artifact && !i.required then i.measured none 0
        else i.measured (some artifact.sha256) artifact.sizeBytes
  | none, none => do
      let source ← host.resolve i.hostPath
      match host.file source with
      | some contents => do
          let bytes ← contents
          return i.measured (some (H bytes)) bytes.length
      | none =>
          if i.required then
            .error (.inputStaging ("required input is not a readable file: " ++ source))
          else return i.measured none 0

/-- `json.dumps` of an entry, its keys sorted. -/
def ManifestEntry.text (e : ManifestEntry) : List Char :=
  JsonText.key '{' "destination" ++ (JsonText.text e.destination ++
    (JsonText.key ',' "present" ++ (JsonText.boolean e.present ++
      (JsonText.key ',' "sha256" ++ (JsonText.nullable JsonText.text e.sha256 ++
        (JsonText.key ',' "size_bytes" ++ JsonText.natural e.sizeBytes '}'))))))

def manifestDigest (entries : List ManifestEntry) : String :=
  H (JsonText.utf8 (JsonText.array ManifestEntry.text entries))

def inputManifestDigest (d : Depot) (task : TaskSpec) : Except RuntimeError String := do
  let entries ← task.stagedInputs.mapM (measureInput H host d)
  return manifestDigest H entries

/-- The task as it will be stored: its host files frozen, its input base hashed. -/
def prepare (allowedRoots : List String) (newId : Nat → String) (task : TaskSpec) :
    IntakeM TaskSpec := do
  ofExcept (task.validate.mapError RuntimeError.contract)
  ofExcept (checkInputs host allowedRoots (← get) task)
  let task ← freezeHostInputs H host newId task
  let digest ← ofExcept (inputManifestDigest H host (← get) task)
  pure { task with inputManifestSha256 := some digest }

end Intake

/-! ## The submission -/

/-- What a runtime is configured with: the roots of host inputs, whether the adapter can
enforce limits, how it prints a float, and the resolver of the registry. -/
structure Platform where
  cfg : RuntimeConfig
  allowedInputRoots : List String := []
  supportsLimits : Bool := true
  printFloat : Rat → String
  resolve : String → Option String → Option String → Except RuntimeError PluginManifest

/-- The arguments of `submit`, with the ids it generates and its clock. -/
structure SubmitCall where
  task : TaskSpec
  pluginVersion : Option String := none
  capability : Option String := none
  idempotent : Bool := false
  idempotencyKey : Option String := none
  newId : Nat → String
  runId : RunId
  stageRunId : StageRunId
  now : Timestamp

/-- `left or right` of two texts that may be absent or empty. -/
def orElseText (left right : Option String) : Option String :=
  if left.getD "" = "" then right else left

/-- The manifest the run will use. -/
def Platform.resolveManifest (p : Platform) (a : SubmitCall) (task : TaskSpec) :
    Except RuntimeError PluginManifest := do
  checkResources p.cfg p.supportsLimits p.printFloat task
  match task.pluginId with
  | none => .error (.value "this runtime executes direct plugin tasks only")
  | some pluginId => do
      raiseIf (a.pluginVersion.getD "" ≠ "" ∧ task.pluginVersion.getD "" ≠ "" ∧
          a.pluginVersion ≠ task.pluginVersion)
        (.value "plugin_version argument conflicts with the task plugin_version")
      p.resolve pluginId (orElseText a.pluginVersion task.pluginVersion) a.capability

/-- The call of `submit_run`. -/
def SubmitCall.submission (a : SubmitCall) (task : TaskSpec) (manifest : PluginManifest) :
    Submission :=
  { task := task
    stageKey := "main"
    pluginVersion := manifest.pluginVersion
    idempotent := a.idempotent
    idempotencyKey := a.idempotencyKey
    resumable := manifest.requirements.resumable
    runId := a.runId
    stageRunId := a.stageRunId
    now := a.now }

/-- The two stores of the kernel. -/
structure Kernel where
  depot : Depot := {}
  tables : Tables := {}

namespace Platform

def submit (p : Platform) (H : Bytes → String) (host : Host) (a : SubmitCall) (k : Kernel) :
    Except RuntimeError RunRow × Kernel :=
  match prepare H host p.allowedInputRoots a.newId a.task k.depot with
  | .error e depot => (.error e, { k with depot := depot })
  | .ok task depot =>
      match p.resolveManifest a task with
      | .error e => (.error e, { k with depot := depot })
      | .ok manifest =>
          let outcome := Sql.exec (submitRun depot.custody (a.submission task manifest)) k.tables
          (outcome.1.mapError RuntimeError.store, { depot := depot, tables := outcome.2 })

def submitIdempotent (p : Platform) (H : Bytes → String) (host : Host) (a : SubmitCall)
    (k : Kernel) : Except RuntimeError RunRow × Kernel :=
  p.submit H host { a with idempotent := true } k

end Platform

/-! ## What `submit_run` answers -/

open Sql

theorem Tables.mem_of_findRunByTaskId {t : Tables} {taskId : String} {run : RunRow}
    (h : t.findRunByTaskId taskId = some run) : run ∈ t.runs := by
  have hhead := List.mem_of_mem_head? h
  rw [(List.perm_insertionSort _ _).mem_iff] at hhead
  exact List.mem_of_mem_filter hhead

theorem Submission.mem_of_existing? {a : Submission} {t : Tables} {run : RunRow}
    (h : a.existing? t = some run) : run ∈ t.runs := by
  unfold existing? at h
  cases hkey : a.idempotencyKey with
  | some key =>
      rw [hkey] at h
      exact List.mem_of_find?_eq_some h
  | none =>
      rw [hkey] at h
      simp only at h
      split at h
      · exact Tables.mem_of_findRunByTaskId h
      · cases h

/-- The run is one of the same task and plugin version. -/
def Submission.Reuses (custody : Custody) (a : Submission) (t : Tables) (run : RunRow) : Prop :=
  equivalentTaskSpecs custody run.taskSpec a.task = .ok true ∧
    ∃ stage stages, t.listStages run.runId = stage :: stages ∧
      stage.pluginVersion = a.pluginVersion

theorem reuseRun_outcomes (custody : Custody) (a : Submission) (t : Tables) (run : RunRow) :
    (a.Reuses custody t run ∧
      handled (reuseRun custody a run { db := t, saved := some t }) = (.ok run, { db := t })) ∨
    (¬a.Reuses custody t run ∧ ∃ e,
      handled (reuseRun custody a run { db := t, saved := some t }) = (.error e, { db := t })) := by
  unfold reuseRun Submission.Reuses
  cases hequal : equivalentTaskSpecs custody run.taskSpec a.task with
  | error e => exact .inr ⟨by simp, _, rfl⟩
  | ok equal =>
      cases equal with
      | false => exact .inr ⟨by simp, _, rfl⟩
      | true =>
          simp only [query_bind]
          cases hstages : t.listStages run.runId with
          | nil => exact .inr ⟨by simp, _, rfl⟩
          | cons stage stages =>
              by_cases hversion : stage.pluginVersion = a.pluginVersion
              · refine .inl ⟨⟨trivial, stage, stages, rfl, hversion⟩, ?_⟩
                simp only [hversion, ne_eq, not_true_eq_false, if_false]
                rfl
              · refine .inr ⟨?_, _, by
                  simp only [hversion, ne_eq, not_false_eq_true, if_true]; rfl⟩
                rintro ⟨_, stage', stages', hcons, hsame⟩
                obtain ⟨rfl, _⟩ := List.cons.inj hcons
                exact hversion hsame

/-- Whether a submission gets as far as the transaction. -/
def Submission.Opens (a : Submission) : Prop :=
  a.task.validate = .ok () ∧ a.task.pluginId.isSome ∧ a.idempotencyKey ≠ some ""

/-- Otherwise it raises, whatever the stores hold. -/
theorem submitRun_closed {a : Submission} (h : ¬a.Opens) :
    ∃ e, ∀ custody t, exec (submitRun custody a) t = (.error e, t) := by
  unfold submitRun exec
  cases hvalid : a.task.validate with
  | error message => exact ⟨_, fun _ _ ↦ rfl⟩
  | ok u =>
      simp only [bind_apply, checked, pure_apply]
      cases hplugin : a.task.pluginId with
      | none => exact ⟨_, fun _ _ ↦ rfl⟩
      | some pluginId =>
          have hkey : a.idempotencyKey = some "" := by
            by_contra hne
            exact h ⟨hvalid, by rw [hplugin]; rfl, hne⟩
          simp only [hkey, if_true]
          exact ⟨_, fun _ _ ↦ rfl⟩

theorem exec_submitRun {custody : Custody} {a : Submission} (t : Tables) (h : a.Opens) :
    ∃ pluginId, a.task.pluginId = some pluginId ∧
      exec (submitRun custody a) t =
        match a.existing? t with
        | some run =>
            ((handled (reuseRun custody a run { db := t, saved := some t })).1,
              (handled (reuseRun custody a run { db := t, saved := some t })).2.db)
        | none =>
            ((handled (createRun a pluginId { db := t, saved := some t })).1,
              (handled (createRun a pluginId { db := t, saved := some t })).2.db) := by
  obtain ⟨hvalid, hsome, hkey⟩ := h
  obtain ⟨pluginId, hplugin⟩ := Option.isSome_iff_exists.mp hsome
  refine ⟨pluginId, hplugin, ?_⟩
  unfold submitRun exec
  rw [bind_apply, hvalid]
  simp only [checked, pure_apply, hplugin, hkey, if_false, immediate_apply, query_bind]
  cases a.existing? t <;> rfl

/-- A submission raises, returns the run it found, or creates one. -/
theorem submitRun_outcomes (custody : Custody) (a : Submission) (t : Tables) :
    (∃ e, exec (submitRun custody a) t = (.error e, t)) ∨
      (∃ run, a.existing? t = some run ∧ a.Reuses custody t run ∧
        exec (submitRun custody a) t = (.ok run, t)) ∨
      ∃ pluginId, a.existing? t = none ∧ t.refusesRun a.runRow = false ∧
        exec (submitRun custody a) t = (.ok a.runRow, (Effect.create a pluginId).apply t) := by
  by_cases hopens : a.Opens
  · obtain ⟨pluginId, _, hexec⟩ := exec_submitRun t hopens
    rw [hexec]
    cases hfound : a.existing? t with
    | some run =>
        rcases reuseRun_outcomes custody a t run with ⟨hreuses, hok⟩ | ⟨_, e, herror⟩
        · exact .inr (.inl ⟨run, rfl, hreuses, by simp [hok]⟩)
        · exact .inl ⟨e, by simp [herror]⟩
    | none =>
        rcases createRun_cases t a pluginId with ⟨e, herror⟩ | ⟨hrun, _, hok⟩
        · exact .inl ⟨e, by simp [herror]⟩
        · exact .inr (.inr ⟨pluginId, rfl, hrun, by simp [hok]⟩)
  · exact .inl ((submitRun_closed hopens).imp fun _ h ↦ h custody t)

/-! ## Programs on the depot -/

namespace IntakeM

variable {α β : Type} {x : IntakeM α} {f : α → IntakeM β} {d d' : Depot} {b : β}

theorem bind_eq_ok : (x >>= f) d = .ok b d' ↔ ∃ a d₁, x d = .ok a d₁ ∧ f a d₁ = .ok b d' := by
  change EStateM.bind x f d = .ok b d' ↔ _
  unfold EStateM.bind
  cases x d with
  | ok a d₁ => simp
  | error e d₁ => simp

theorem get_bind_eq_ok {g : Depot → IntakeM β} :
    (get >>= g) d = .ok b d' ↔ g d d = .ok b d' := Iff.rfl

theorem ofExcept_bind_eq_ok {y : Except RuntimeError α} :
    (ofExcept y >>= f) d = .ok b d' ↔ ∃ a, y = .ok a ∧ f a d = .ok b d' := by
  cases y with
  | ok a =>
      change f a d = .ok b d' ↔ _
      simp
  | error e =>
      change EStateM.Result.error e d = .ok b d' ↔ _
      simp

end IntakeM

/-! ## Accepted submissions -/

theorem mapError_eq_ok {ε ε' α : Type} {f : ε → ε'} {x : Except ε α} {a : α} :
    x.mapError f = .ok a ↔ x = .ok a := by
  cases x <;> simp [Except.mapError]

theorem prepare_eq_ok {H : Bytes → String} {host : Host} {allowedRoots : List String}
    {newId : Nat → String} {task task' : TaskSpec} {d d' : Depot}
    (h : prepare H host allowedRoots newId task d = .ok task' d') :
    ∃ frozen entries, task.validate = .ok () ∧ checkInputs host allowedRoots d task = .ok () ∧
      freezeHostInputs H host newId task d = .ok frozen d' ∧
      frozen.stagedInputs.mapM (measureInput H host d') = .ok entries ∧
      task' = { frozen with inputManifestSha256 := some (manifestDigest H entries) } := by
  unfold prepare at h
  obtain ⟨_, hvalid, h⟩ := IntakeM.ofExcept_bind_eq_ok.mp h
  obtain ⟨_, hcheck, h⟩ := IntakeM.ofExcept_bind_eq_ok.mp (IntakeM.get_bind_eq_ok.mp h)
  obtain ⟨frozen, d₁, hfreeze, h⟩ := IntakeM.bind_eq_ok.mp h
  obtain ⟨digest, hdigest, h⟩ := IntakeM.ofExcept_bind_eq_ok.mp (IntakeM.get_bind_eq_ok.mp h)
  obtain ⟨entries, hentries, hdigest⟩ := Except.bind_eq_ok.mp hdigest
  obtain ⟨rfl, rfl⟩ := EStateM.Result.ok.inj h
  obtain rfl := Except.ok.inj hdigest
  exact ⟨frozen, entries, mapError_eq_ok.mp hvalid, hcheck, hfreeze, hentries, rfl⟩

/-- What a call that got as far as the transaction has prepared. -/
theorem Platform.prepared_of_submit {p : Platform} {H : Bytes → String} {host : Host}
    {a : SubmitCall} {k : Kernel} {run : RunRow} (h : (p.submit H host a k).1 = .ok run) :
    ∃ task depot manifest, prepare H host p.allowedInputRoots a.newId a.task k.depot =
        .ok task depot ∧ p.resolveManifest a task = .ok manifest ∧
      (exec (submitRun depot.custody (a.submission task manifest)) k.tables).1 = .ok run ∧
      (p.submit H host a k).2 = { depot := depot, tables :=
        (exec (submitRun depot.custody (a.submission task manifest)) k.tables).2 } := by
  unfold submit at h ⊢
  cases hprepare : prepare H host p.allowedInputRoots a.newId a.task k.depot with
  | error e depot =>
      rw [hprepare] at h
      cases h
  | ok task depot =>
      rw [hprepare] at h
      simp only at h ⊢
      cases hmanifest : p.resolveManifest a task with
      | error e =>
          rw [hmanifest] at h
          cases h
      | ok manifest =>
          rw [hmanifest] at h
          simp only at h ⊢
          cases hexec : (exec (submitRun depot.custody (a.submission task manifest))
              k.tables).1 with
          | error e =>
              rw [hexec] at h
              cases h
          | ok run' =>
              rw [hexec] at h
              obtain rfl := Except.ok.inj h
              exact ⟨task, depot, manifest, rfl, hmanifest, hexec, rfl⟩

/-- A run that was not there before holds the task this call prepared. -/
theorem Platform.created_of_submit {p : Platform} {H : Bytes → String} {host : Host}
    {a : SubmitCall} {k : Kernel} {run : RunRow} (h : (p.submit H host a k).1 = .ok run)
    (hnew : run ∉ k.tables.runs) :
    ∃ depot, prepare H host p.allowedInputRoots a.newId a.task k.depot = .ok run.taskSpec depot ∧
      (p.submit H host a k).2.depot = depot := by
  obtain ⟨task, depot, manifest, hprepare, _, hexec, hafter⟩ := prepared_of_submit h
  refine ⟨depot, ?_, by rw [hafter]⟩
  rcases submitRun_outcomes depot.custody (a.submission task manifest) k.tables with
    ⟨e, herror⟩ | ⟨found, hfound, _, hok⟩ | ⟨pluginId, _, _, hok⟩
  · rw [herror] at hexec
    cases hexec
  · rw [hok] at hexec
    obtain rfl := Except.ok.inj hexec
    exact absurd (Submission.mem_of_existing? hfound) hnew
  · rw [hok] at hexec
    obtain rfl := Except.ok.inj hexec
    exact hprepare

/-! ## A small platform -/

namespace Sample

/-- The texts of the list have digests of 64 digits; the others stand for themselves. -/
def hash (known : List Bytes) (b : Bytes) : String :=
  String.ofList (if b ∈ known then
      List.replicate (64 - known.idxOf b) 'a' ++ List.replicate (known.idxOf b) 'b'
    else 'h' :: b.map Char.ofUInt8)

theorem ofUInt8_injective : Function.Injective Char.ofUInt8 := by
  intro x y h
  exact UInt8.toUInt32_inj.mp (congrArg Char.val h)

theorem hash_injective (known : List Bytes) : Function.Injective (hash known) := by
  intro b b' heq
  have hchars := String.ofList_injective heq
  split at hchars
  · next hb =>
      split at hchars
      · have hcount := congrArg (List.count 'b') hchars
        simp only [List.count_append, List.count_replicate] at hcount
        exact (List.idxOf_inj hb).mp (by simpa using hcount)
      · exact absurd (congrArg (List.count 'h') hchars) (by simp [List.count_replicate])
  · split at hchars
    · exact absurd (congrArg (List.count 'h') hchars) (by simp [List.count_replicate])
    · exact ofUInt8_injective.list_map (List.cons.inj hchars).2

theorem hash_ne_empty (known : List Bytes) (b : Bytes) : hash known b ≠ "" := by
  intro hempty
  have hchars := congrArg String.toList hempty
  simp only [hash, String.toList_ofList] at hchars
  split at hchars
  · have hlength := congrArg List.length hchars
    simp only [List.length_append, List.length_replicate, String.toList_empty,
      List.length_nil] at hlength
    omega
  · cases hchars

def manifest : PluginManifest where
  pluginId := "plugin"
  pluginVersion := "1"
  adapterEntry := ["run"]
  capabilities := ["flow"]
  supportedArch := ["any"]
  progressMarker := "@"

def platform : Platform where
  cfg := config 0
  printFloat := fun _ ↦ ""
  resolve := fun _ _ _ ↦ .ok manifest

/-- A host without files. -/
def host : Host where
  isFile := fun _ ↦ false
  resolve := .ok
  file := fun _ ↦ none

/-- A call with the given inputs. -/
def call (stagedInputs : List InputFile) : SubmitCall where
  task := { taskId := "task", projectId := "project", designId := "design",
            pluginId := some "plugin", stagedInputs := stagedInputs }
  newId := fun index ↦ "frozen-" ++ toString index
  runId := "run"
  stageRunId := "stage"
  now := 0

end Sample

end ChipEvolve
