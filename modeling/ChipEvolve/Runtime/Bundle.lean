import ChipEvolve.Runtime.Staging
import ChipEvolve.Store.Custody
import ChipEvolve.Worker.Threads

/-!
# The exported bundle of a run

`export_run_bundle` (`bundle.py`) over the tables, the inputs and the evidence that the
runtime records (`store.py`).  A bundle is itself an artifact of the latest attempt, and
one that is found there is handed out again.
-/

namespace ChipEvolve.Bundle

open Machine

/-! ## What is exported -/

structure AttemptView where
  attempt : AttemptRow
  inputs : List StagedInput
  artifacts : List ArtifactRow

structure StageView where
  stage : StageRow
  attempts : List AttemptView

/-- `describe_run` -/
structure RunView where
  run : RunRow
  stages : List StageView

/-- The stages with their attempts, in order. -/
def RunView.attempts (v : RunView) : List (StageRow × AttemptView) :=
  v.stages.flatMap fun s ↦ s.attempts.map fun a ↦ (s.stage, a)

/-- An entry of `artifacts/index.json`. -/
inductive Entry where
  | runtimeFile (path sha256 : String) (sizeBytes : Nat)
  | input (path : String) (staged : StagedInput)
  | artifact (path : String) (row : ArtifactRow)

namespace Entry

def path : Entry → String
  | runtimeFile path _ _ => path
  | input path _ => path
  | artifact path _ => path

def sha256 : Entry → Option String
  | runtimeFile _ digest _ => some digest
  | input _ staged => staged.sha256
  | artifact _ row => some row.sha256

end Entry

/-- The content of the ZIP: `run.json`, `events.json`, `artifacts/index.json`, and the files. -/
structure Archive where
  view : RunView
  events : List EventRow
  entries : List Entry
  files : List (String × Bytes)

def bundleKind : String := "runtime_bundle"

def bundleKey : String := "runtime_bundle.zip"

/-- The names under which `export_run_bundle` looks for evidence. -/
def bundledEvidence : List String :=
  ["adapter_request.json", "adapter_result.json", "adapter.log", "runtime_input_manifest.json",
    "runtime_protocol_receipt.json"]

/-- The names that `_run_attempt` hands to `snapshot_evidence`. -/
def capturedEvidence : List String :=
  ["adapter_request.json", "adapter_result.json", "adapter.log", inputManifestFilename,
    "runtime_protocol_receipt.json"]

def folder (stage : StageRow) (a : AttemptRow) : String :=
  stage.stageKey ++ "/attempt-" ++ toString a.attemptNumber ++ "/"

def evidencePath (stage : StageRow) (a : AttemptRow) (filename : String) : String :=
  "runtime/" ++ folder stage a ++ filename

def inputPath (stage : StageRow) (a : AttemptRow) (staged : StagedInput) : String :=
  "inputs/" ++ folder stage a ++ staged.destination

def artifactPath (stage : StageRow) (a : AttemptRow) (row : ArtifactRow) : String :=
  "artifacts/" ++ folder stage a ++ row.storeKey

/-! ## The stores -/

/-- What a run had to show when a bundle of it was made. -/
structure Owed where
  runId : RunId
  status : RuntimeStatus
  shows : Option String → Option String → Prop

/-- The stores of the runtime and the workspaces.  `opened` is what opening a file of a
workspace gives, links followed; `made` remembers the bundles. -/
structure World where
  system : System := {}
  depot : Depot := {}
  inputs : AttemptId → List StagedInput := fun _ ↦ []
  evidence : AttemptId → String → Option Bytes := fun _ _ ↦ none
  opened : AttemptId → String → Option Bytes := fun _ _ ↦ none
  made : String → Option Owed := fun _ ↦ none

/-- The `INSERT` of an artifact. -/
def insertArtifact (row : ArtifactRow) : IntakeM Unit := do
  if (← get).artifacts.any row.clashes then
    throw (.store (.integrity "UNIQUE constraint failed: runtime_artifacts"))
  else modify fun d ↦ { d with artifacts := d.artifacts ++ [row] }

namespace World

def tables (w : World) : Tables := w.system.tables

/-- `list_inputs` -/
def listInputs (w : World) (attemptId : AttemptId) : List StagedInput :=
  (w.inputs attemptId).insertionSort fun s s' ↦ s.destination ≤ s'.destination

/-- `list_artifacts` -/
def listArtifacts (w : World) (attemptId : AttemptId) : List ArtifactRow :=
  w.depot.artifacts.filter fun r ↦ r.attemptId = attemptId

def listEvents (w : World) (runId : RunId) : List EventRow :=
  (w.tables.events.filter fun e ↦ e.runId = runId).insertionSort
    fun e e' ↦ e.occurredAt ≤ e'.occurredAt

def describeAttempt (w : World) (a : AttemptRow) : AttemptView :=
  { attempt := a, inputs := w.listInputs a.attemptId, artifacts := w.listArtifacts a.attemptId }

def describeStage (w : World) (s : StageRow) : StageView :=
  { stage := s, attempts := (w.tables.listAttempts s.stageRunId).map w.describeAttempt }

def describeRun (w : World) (runId : RunId) : Except RuntimeError RunView :=
  match w.tables.run? runId with
  | none => storeError ("unknown run " ++ quoted runId)
  | some run => .ok { run := run, stages := (w.tables.listStages runId).map w.describeStage }

/-! ## The export -/

section Export

variable (H : Bytes → String) (zip : Archive → Bytes)

/-- The evidence of an attempt: what was captured, or else what its workspace holds. -/
def evidenceFiles (w : World) (stage : StageRow) (a : AttemptRow) : List (Entry × Bytes) :=
  bundledEvidence.filterMap fun filename ↦
    ((w.evidence a.attemptId filename).or (w.opened a.attemptId filename)).map fun bytes ↦
      (.runtimeFile (evidencePath stage a filename) (H bytes) bytes.length, bytes)

/-- Where the bytes of a staged input are. -/
def inputSource (w : World) (a : AttemptRow) (staged : StagedInput) :
    Except RuntimeError (Option Bytes) :=
  if staged.sourceInputId.getD "" ≠ "" then
    (w.depot.getUploadedInput (staged.sourceInputId.getD "")).map fun row ↦
      w.depot.objects row.sha256
  else
    match w.depot.workspaceFile a.attemptId staged.destination with
    | some file => .ok file
    | none => storeError ("staged input escapes its workspace: " ++ quoted staged.destination)

def inputFile (w : World) (stage : StageRow) (a : AttemptRow) (staged : StagedInput) :
    Except RuntimeError (Entry × Bytes) := do
  match ← w.inputSource a staged with
  | some bytes =>
      raiseIf (staged.sha256.getD "" ≠ "" ∧ staged.sha256 ≠ some (H bytes))
        (.store (.runtimeStore ("staged input " ++ quoted staged.destination ++
          " failed hash verification")))
      return (.input (inputPath stage a staged) staged, bytes)
  | none =>
      storeError ("staged input " ++ quoted staged.destination ++ " failed hash verification")

def artifactFile (w : World) (stage : StageRow) (a : AttemptRow) (row : ArtifactRow) :
    Except RuntimeError (Entry × Bytes) := do
  match ← w.depot.artifactFile row with
  | some bytes =>
      raiseIf (H bytes ≠ row.sha256)
        (.store (.runtimeStore ("artifact " ++ quoted row.artifactId ++
          " failed hash verification")))
      return (.artifact (artifactPath stage a row) row, bytes)
  | none => storeError ("artifact " ++ quoted row.artifactId ++ " failed hash verification")

def attemptFiles (w : World) (stage : StageRow) (v : AttemptView) :
    Except RuntimeError (List (Entry × Bytes)) := do
  let inputs ← (v.inputs.filter StagedInput.present).mapM (w.inputFile H stage v.attempt)
  let artifacts ← (v.artifacts.filter fun r ↦ r.kind ≠ bundleKind).mapM
    (w.artifactFile H stage v.attempt)
  return w.evidenceFiles H stage v.attempt ++ inputs ++ artifacts

def archive (w : World) (v : RunView) : Except RuntimeError Archive := do
  let files ← v.attempts.mapM fun (stage, a) ↦ w.attemptFiles H stage a
  return { view := v
           events := w.listEvents v.run.runId
           entries := files.flatten.map Prod.fst
           files := files.flatten.map fun (entry, bytes) ↦ (entry.path, bytes) }

/-- `_register_file` -/
def registerFile (artifactId : String) (attemptId : AttemptId) (content : Bytes) :
    IntakeM ArtifactRow := do
  let row : ArtifactRow :=
    { artifactId := artifactId, attemptId := attemptId, kind := bundleKind,
      storeKey := bundleKey, sizeBytes := content.length, sha256 := H content,
      metadata := [("producer", .str "runtime"), ("format", .str "zip"), ("complete", .bool true)],
      storage := .object }
  ofExcept ((Artifact.validate
    { artifactId := row.artifactId, kind := row.kind, storeKey := row.storeKey,
      sha256 := row.sha256, sizeBytes := row.sizeBytes,
      metadata := row.metadata }).mapError RuntimeError.contract)
  match (← get).artifacts.find? fun r ↦ r.attemptId = attemptId ∧ r.storeKey = bundleKey with
  | some existing => pure existing
  | none => do
      storeObject H row.sha256 content
      insertArtifact row
      pure row

/-- An attempt of a stage of the run. -/
structure AttemptOf (w : World) (runId : RunId) (stage : StageRow) (a : AttemptRow) : Prop where
  memStage : stage ∈ w.tables.stages
  runId_eq : stage.runId = runId
  memAttempt : a ∈ w.tables.attempts
  stageRunId_eq : a.stageRunId = stage.stageRunId

/-- What the run has to show: the artifacts registered for it and the inputs recorded as
present, each at its path, and the evidence that was captured, wherever it is, each with its
digest. -/
inductive Shows (w : World) (runId : RunId) : Option String → Option String → Prop
  | artifact {stage : StageRow} {a : AttemptRow} {row : ArtifactRow}
      (hof : w.AttemptOf runId stage a) (hrow : row ∈ w.depot.artifacts)
      (hattempt : row.attemptId = a.attemptId) (hkind : row.kind ≠ bundleKind) :
      Shows w runId (some (artifactPath stage a row)) (some row.sha256)
  | input {stage : StageRow} {a : AttemptRow} {staged : StagedInput}
      (hof : w.AttemptOf runId stage a) (hstaged : staged ∈ w.inputs a.attemptId)
      (hpresent : staged.present = true) :
      Shows w runId (some (inputPath stage a staged)) staged.sha256
  | evidence {stage : StageRow} {a : AttemptRow} {filename : String} {bytes : Bytes}
      (hof : w.AttemptOf runId stage a) (hbytes : w.evidence a.attemptId filename = some bytes) :
      Shows w runId none (some (H bytes))

def owed (w : World) (run : RunRow) : Owed :=
  { runId := run.runId, status := run.status, shows := w.Shows H run.runId }

/-- `made` notes a bundle whose artifact is new. -/
def remember (w : World) (run : RunRow) (row : ArtifactRow) (depot : Depot) : World :=
  { w with
    depot := depot
    made :=
      if w.depot.artifacts.any fun r ↦ r.artifactId = row.artifactId then w.made
      else Function.update w.made row.artifactId (some (w.owed H run)) }

def exportRunBundle (w : World) (runId : RunId) (artifactId : String) :
    Except RuntimeError ArtifactRow × World :=
  match w.describeRun runId with
  | .error e => (.error e, w)
  | .ok view =>
      match view.attempts.getLast? with
      | none => (storeError "a run without an attempt has nothing to export", w)
      | some (_, latest) =>
          match latest.artifacts.find? fun r ↦ r.kind = bundleKind with
          | some bundle => (.ok bundle, w)
          | none =>
              match w.archive H view with
              | .error e => (.error e, w)
              | .ok archive =>
                  match registerFile H artifactId latest.attempt.attemptId (zip archive)
                      w.depot with
                  | .error e depot => (.error e, { w with depot := depot })
                  | .ok row depot => (.ok row, w.remember H view.run row depot)

end Export

end World

/-! ## What else happens to the stores -/

open Custody (Declared)

inductive Event where
  /-- A statement of a client of the store. -/
  | operates (client : ThreadId) (op : Operation)
  | recordsInputs (attemptId : AttemptId) (staged : List StagedInput)
  /-- `snapshot_evidence` of one of the files of the runtime -/
  | captures (attemptId : AttemptId) (filename : String)
  | registersArtifacts (attemptId : AttemptId) (declared : List Declared)
  | ingestsInput (inputId : String) (content : Bytes)
  /-- A file of a workspace changes: what its resolved path holds, and what opening it gives. -/
  | writes (attemptId : AttemptId) (relative : String) (file : Option (Option Bytes))
      (opened : Option Bytes)
  | exports (runId : RunId) (artifactId : String)

section Step

variable (H : Bytes → String) (zip : Archive → Bytes)

def registerArtifact (attemptId : AttemptId) (d : Declared) : IntakeM Unit := do
  match (← get).workspaceFile attemptId d.storeKey with
  | none =>
      throw (.store (.runtimeStore ("artifact escapes the attempt workspace: " ++
        quoted d.storeKey)))
  | some none =>
      throw (.store (.runtimeStore ("declared artifact is missing: " ++ quoted d.storeKey)))
  | some (some bytes) => do
      ofExcept ((Artifact.validate
        { artifactId := d.artifactId, kind := d.kind, storeKey := d.storeKey, sha256 := H bytes,
          sizeBytes := bytes.length, mediaType := d.mediaType,
          metadata := d.metadata }).mapError RuntimeError.contract)
      storeObject H (H bytes) bytes
      insertArtifact
        { artifactId := d.artifactId, attemptId := attemptId, kind := d.kind,
          storeKey := d.storeKey, sizeBytes := bytes.length, sha256 := H bytes,
          metadata := d.metadata, storage := .object }

/-- `register_artifacts`; after an error the rows are rolled back and the objects stay. -/
def registerArtifacts (attemptId : AttemptId) (declared : List Declared) (d : Depot) : Depot :=
  match declared.forM (registerArtifact H attemptId) d with
  | .ok _ d' => d'
  | .error _ d' => { d' with artifacts := d.artifacts }

def ingestInput (inputId : String) (content : Bytes) : IntakeM Unit := do
  storeObject H (H content) content
  insertUploaded
    { inputId := inputId, storeKey := H content, sizeBytes := content.length,
      sha256 := H content }

/-- The depot after a call, whether it returned or raised. -/
def after {α : Type} (x : IntakeM α) (d : Depot) : Depot :=
  match x d with
  | .ok _ d' => d'
  | .error _ d' => d'

namespace World

/-- `record_inputs`: all rows or none. -/
def recordInputs (w : World) (attemptId : AttemptId) (staged : List StagedInput) : World :=
  if staged.all StagedInput.recordable then
    { w with
      inputs := Function.update w.inputs attemptId (staged.foldl
        (fun rows s ↦ rows.filter (fun r ↦ r.destination ≠ s.destination) ++ [s])
        (w.inputs attemptId)) }
  else w

/-- `snapshot_evidence`; a file of the size that was captured before is not captured again. -/
def snapshotEvidence (w : World) (attemptId : AttemptId) (filename : String) : World :=
  match w.depot.workspaceFile attemptId filename with
  | some (some bytes) =>
      if (w.evidence attemptId filename).any fun old ↦ old.length = bytes.length then w
      else
        { w with
          evidence := Function.update w.evidence attemptId
            (Function.update (w.evidence attemptId) filename (some bytes)) }
  | _ => w

def step (w : World) : Event → Option World
  | .operates client op =>
      (w.system.step w.depot.custody (client, op)).map fun system ↦ { w with system := system }
  | .recordsInputs attemptId staged => some (w.recordInputs attemptId staged)
  | .captures attemptId filename =>
      if filename ∈ capturedEvidence then some (w.snapshotEvidence attemptId filename) else none
  | .registersArtifacts attemptId declared =>
      some { w with depot := registerArtifacts H attemptId declared w.depot }
  | .ingestsInput inputId content =>
      some { w with depot := after (ingestInput H inputId content) w.depot }
  | .writes attemptId relative file opened =>
      some { w with
        depot := { w.depot with
          workspaceFile := Function.update w.depot.workspaceFile attemptId
            (Function.update (w.depot.workspaceFile attemptId) relative file) }
        opened := Function.update w.opened attemptId
          (Function.update (w.opened attemptId) relative opened) }
  | .exports runId artifactId => some (w.exportRunBundle H zip runId artifactId).2

end World

end Step

/-! ## What is asked of a bundle -/

section Spec

variable (H : Bytes → String)

/-- The archive has an entry with this digest, at this path if there is one, and a file of that
digest. -/
def Archive.Holds (archive : Archive) (path : Option String) (digest : Option String) : Prop :=
  ∃ entry ∈ archive.entries, (∀ p, path = some p → entry.path = p) ∧ entry.sha256 = digest ∧
    ∃ bytes, (entry.path, bytes) ∈ archive.files ∧ ∀ d, digest = some d → H bytes = d

/-- The archive shows what the run has to show. -/
structure Covers (archive : Archive) (w : World) (runId : RunId) : Prop where
  status : w.tables.runStatus? runId = some archive.view.run.status
  shows : ∀ path digest, w.Shows H runId path digest → archive.Holds H path digest

namespace World

/-- The attempt whose artifacts `export_run_bundle` looks through. -/
def latest? (w : World) (runId : RunId) : Option AttemptView :=
  (w.describeRun runId).toOption.bind fun view ↦ view.attempts.getLast?.map Prod.snd

/-- A bundle was made of the run when the run had its present status and had to show nothing
less than now. -/
def UpToDate (w : World) (runId : RunId) (artifactId : String) : Prop :=
  ∃ owed, w.made artifactId = some owed ∧ owed.runId = runId ∧
    w.tables.runStatus? runId = some owed.status ∧
    ∀ path digest, w.Shows H runId path digest → owed.shows path digest

/-- Every input manifest that was captured for the run has its bytes also in an artifact or an
input of the run, or in a file of those that an export looks for. -/
def ManifestShown (w : World) (runId : RunId) : Prop :=
  ∀ stage a bytes, w.AttemptOf runId stage a →
    w.evidence a.attemptId inputManifestFilename = some bytes →
      (∃ path, w.Shows H runId (some path) (some (H bytes))) ∨
        ∃ stage' a', w.AttemptOf runId stage' a' ∧ ∃ filename ∈ bundledEvidence,
          (w.evidence a'.attemptId filename).or (w.opened a'.attemptId filename) = some bytes

/-- An export finds a bundle that is up to date, or it makes one, of a run whose input manifests
show up elsewhere, under a name that nothing else has taken. -/
def Fresh (w : World) : Event → Prop
  | .exports runId _ =>
      ∀ latest, w.latest? runId = some latest →
        match latest.artifacts.find? fun r ↦ r.kind = bundleKind with
        | some bundle => w.UpToDate H runId bundle.artifactId
        | none => (∀ row ∈ latest.artifacts, row.storeKey ≠ bundleKey) ∧ w.ManifestShown H runId
  | _ => True

/-- The bytes that an export compares by their digest: the objects, and the bundle that is made. -/
inductive Compares (zip : Archive → Bytes) (w : World) : Bytes → Prop
  | object {digest : String} {bytes : Bytes} (hobject : w.depot.objects digest = some bytes) :
      Compares zip w bytes
  | bundle {runId : RunId} {view : RunView} {archive : Archive}
      (hview : w.describeRun runId = .ok view) (harchive : w.archive H view = .ok archive) :
      Compares zip w (zip archive)

end World

/-- The byte strings that occur in a history as objects and as bundles. -/
def occurring (zip : Archive → Bytes) (history : List Event) : Set Bytes :=
  {b | ∃ w, Visits (World.step H zip) {} history w ∧ w.Compares H zip b}

end Spec

/-! ## The members of an archive -/

section Members

variable {H : Bytes → String} {zip : Archive → Bytes} {w : World} {runId : RunId}
variable {stage : StageRow} {a : AttemptRow} {view : RunView} {archive : Archive}

open Except (bind_eq_ok)

theorem mem_listStages : stage ∈ w.tables.listStages runId ↔
    stage ∈ w.tables.stages ∧ stage.runId = runId := by
  unfold Tables.listStages
  rw [List.mem_insertionSort, List.mem_filter, decide_eq_true_eq]

theorem mem_listAttempts {stageRunId : StageRunId} : a ∈ w.tables.listAttempts stageRunId ↔
    a ∈ w.tables.attempts ∧ a.stageRunId = stageRunId := by
  unfold Tables.listAttempts Tables.attemptsOf
  rw [List.mem_insertionSort, List.mem_filter, decide_eq_true_eq]

theorem describeRun_eq_ok (h : w.describeRun runId = .ok view) :
    w.tables.runStatus? runId = some view.run.status ∧ view.run.runId = runId ∧
      view.stages = (w.tables.listStages runId).map w.describeStage := by
  unfold World.describeRun at h
  cases hrun : w.tables.run? runId with
  | none => simp [hrun, storeError] at h
  | some run =>
      simp only [hrun] at h
      obtain rfl := Except.ok.inj h
      exact ⟨by simp [Tables.runStatus?, hrun], Table.key_of_get? hrun, rfl⟩

theorem mem_attempts (h : w.describeRun runId = .ok view) (hof : w.AttemptOf runId stage a) :
    (stage, w.describeAttempt a) ∈ view.attempts := by
  rw [RunView.attempts, (describeRun_eq_ok h).2.2, List.mem_flatMap]
  refine ⟨w.describeStage stage,
    List.mem_map_of_mem (mem_listStages.mpr ⟨hof.memStage, hof.runId_eq⟩), ?_⟩
  exact List.mem_map_of_mem (List.mem_map_of_mem
    (mem_listAttempts.mpr ⟨hof.memAttempt, hof.stageRunId_eq⟩))

theorem inputFile_eq_ok {staged : StagedInput} {member : Entry × Bytes}
    (h : w.inputFile H stage a staged = .ok member) :
    member.1 = .input (inputPath stage a staged) staged ∧
      (staged.sha256.getD "" ≠ "" → staged.sha256 = some (H member.2)) := by
  obtain ⟨source, _, h⟩ := bind_eq_ok.mp h
  cases source with
  | none => cases h
  | some bytes =>
      obtain ⟨_, hverified, h⟩ := bind_eq_ok.mp h
      obtain rfl := Except.ok.inj h
      have hmatch := raiseIf_eq_ok.mp hverified
      exact ⟨rfl, fun hsome ↦ by_contra fun hne ↦ hmatch ⟨hsome, hne⟩⟩

theorem artifactFile_eq_ok {row : ArtifactRow} {member : Entry × Bytes}
    (h : w.artifactFile H stage a row = .ok member) :
    member.1 = .artifact (artifactPath stage a row) row ∧ H member.2 = row.sha256 := by
  obtain ⟨source, _, h⟩ := bind_eq_ok.mp h
  cases source with
  | none => cases h
  | some bytes =>
      obtain ⟨_, hverified, h⟩ := bind_eq_ok.mp h
      obtain rfl := Except.ok.inj h
      exact ⟨rfl, not_not.mp (raiseIf_eq_ok.mp hverified)⟩

/-- The files of an attempt are all in the archive. -/
theorem exists_attemptFiles (h : w.archive H view = .ok archive) {v : AttemptView}
    (hmem : (stage, v) ∈ view.attempts) :
    ∃ members, w.attemptFiles H stage v = .ok members ∧
      ∀ member ∈ members, member.1 ∈ archive.entries ∧
        (member.1.path, member.2) ∈ archive.files := by
  obtain ⟨files, hfiles, h⟩ := bind_eq_ok.mp h
  obtain rfl := Except.ok.inj h
  obtain ⟨members, hmembers, hok⟩ := (Except.mem_of_mapM hfiles).1 _ hmem
  refine ⟨members, hok, fun member hmember ↦ ?_⟩
  have hflat : member ∈ files.flatten := List.mem_flatten.mpr ⟨members, hmembers, hmember⟩
  exact ⟨List.mem_map_of_mem hflat, List.mem_map.mpr ⟨member, hflat, rfl⟩⟩

theorem attemptFiles_eq_ok {v : AttemptView} {members : List (Entry × Bytes)}
    (h : w.attemptFiles H stage v = .ok members) :
    (∀ member ∈ w.evidenceFiles H stage v.attempt, member ∈ members) ∧
      (∀ staged ∈ v.inputs, staged.present = true →
        ∃ member ∈ members, w.inputFile H stage v.attempt staged = .ok member) ∧
      ∀ row ∈ v.artifacts, row.kind ≠ bundleKind →
        ∃ member ∈ members, w.artifactFile H stage v.attempt row = .ok member := by
  obtain ⟨inputs, hinputs, h⟩ := bind_eq_ok.mp h
  obtain ⟨artifacts, hartifacts, h⟩ := bind_eq_ok.mp h
  obtain rfl := Except.ok.inj h
  refine ⟨fun member hmember ↦ by simp [hmember], fun staged hstaged hpresent ↦ ?_,
    fun row hrow hkind ↦ ?_⟩
  · obtain ⟨member, hmember, hok⟩ :=
      (Except.mem_of_mapM hinputs).1 staged (List.mem_filter.mpr ⟨hstaged, hpresent⟩)
    exact ⟨member, by simp [hmember], hok⟩
  · obtain ⟨member, hmember, hok⟩ :=
      (Except.mem_of_mapM hartifacts).1 row (List.mem_filter.mpr ⟨hrow, by simpa using hkind⟩)
    exact ⟨member, by simp [hmember], hok⟩

theorem mem_evidenceFiles {filename : String} {bytes : Bytes}
    (hbytes : (w.evidence a.attemptId filename).or (w.opened a.attemptId filename) = some bytes)
    (hname : filename ∈ bundledEvidence) :
    (.runtimeFile (evidencePath stage a filename) (H bytes) bytes.length, bytes) ∈
      w.evidenceFiles H stage a := by
  unfold World.evidenceFiles
  rw [List.mem_filterMap]
  exact ⟨filename, hname, by simp [hbytes]⟩

theorem bundled_of_captured {filename : String} (h : filename ∈ capturedEvidence)
    (hne : filename ≠ inputManifestFilename) : filename ∈ bundledEvidence := by
  simp only [capturedEvidence, bundledEvidence, List.mem_cons] at h ⊢
  tauto

/-- A recorded input that is present has a digest. -/
theorem sha256_of_present {staged : StagedInput} (h : staged.validate = .ok ())
    (hpresent : staged.present = true) : staged.sha256.getD "" ≠ "" := by
  unfold StagedInput.validate at h
  obtain ⟨_, h⟩ := Validated.of_bind h
  obtain ⟨_, h⟩ := Validated.of_bind h
  obtain ⟨_, h⟩ := Validated.of_bind h
  obtain ⟨_, h⟩ := Validated.of_bind h
  obtain ⟨_, h⟩ := Validated.of_bind h
  obtain ⟨hdigest, _⟩ := Validated.of_bind h
  rw [hpresent, if_pos rfl] at hdigest
  intro hempty
  cases hsha : staged.sha256 with
  | none => simp [hsha, validateSha256] at hdigest
  | some digest =>
      obtain rfl : digest = "" := by simpa [hsha] using hempty
      simp [hsha, validateSha256, isSha256] at hdigest

/-- What the stores never hold. -/
structure Recorded (w : World) : Prop where
  inputs : ∀ {attemptId : AttemptId}, ∀ staged ∈ w.inputs attemptId, staged.validate = .ok ()
  evidence : ∀ {attemptId : AttemptId} {filename : String} {bytes : Bytes},
    w.evidence attemptId filename = some bytes → filename ∈ capturedEvidence

/-- Evidence that an export looks for is in the archive. -/
theorem holds_evidence (hview : w.describeRun runId = .ok view)
    (h : w.archive H view = .ok archive) (hof : w.AttemptOf runId stage a) {filename : String}
    {bytes : Bytes} (hname : filename ∈ bundledEvidence)
    (hbytes : (w.evidence a.attemptId filename).or (w.opened a.attemptId filename) = some bytes) :
    archive.Holds H none (some (H bytes)) := by
  obtain ⟨members, hmembers, hall⟩ := exists_attemptFiles h (mem_attempts hview hof)
  have hmember := (attemptFiles_eq_ok hmembers).1 _ (mem_evidenceFiles hbytes hname)
  obtain ⟨hentries, hfiles⟩ := hall _ hmember
  exact ⟨_, hentries, by simp, rfl, bytes, hfiles, fun d hd ↦ by simpa using hd⟩

/-- An archive of a run has the artifacts and the inputs that the run has to show. -/
theorem holds_path (hrecorded : Recorded w) (hview : w.describeRun runId = .ok view)
    (h : w.archive H view = .ok archive) {path : String} {digest : Option String}
    (hshows : w.Shows H runId (some path) digest) : archive.Holds H (some path) digest := by
  cases hshows with
  | @artifact stage a row hof hrow hattempt hkind =>
      obtain ⟨members, hmembers, hall⟩ := exists_attemptFiles h (mem_attempts hview hof)
      obtain ⟨member, hmember, hok⟩ := (attemptFiles_eq_ok hmembers).2.2 row
        (List.mem_filter.mpr ⟨hrow, by simpa using hattempt⟩) hkind
      obtain ⟨hentry, hdigest⟩ := artifactFile_eq_ok hok
      obtain ⟨hentries, hfiles⟩ := hall member hmember
      rw [hentry] at hentries hfiles
      refine ⟨_, hentries, fun p hp ↦ Option.some.inj hp, rfl, member.2, hfiles, fun d hd ↦ ?_⟩
      exact hdigest.trans (by simpa using hd)
  | @input stage a staged hof hstaged hpresent =>
      obtain ⟨members, hmembers, hall⟩ := exists_attemptFiles h (mem_attempts hview hof)
      obtain ⟨member, hmember, hok⟩ := (attemptFiles_eq_ok hmembers).2.1 staged
        ((List.mem_insertionSort _).mpr hstaged) hpresent
      obtain ⟨hentry, hdigest⟩ := inputFile_eq_ok hok
      obtain ⟨hentries, hfiles⟩ := hall member hmember
      rw [hentry] at hentries hfiles
      have hverified := hdigest (sha256_of_present (hrecorded.inputs staged hstaged) hpresent)
      refine ⟨_, hentries, fun p hp ↦ Option.some.inj hp, rfl, member.2, hfiles, fun d hd ↦ ?_⟩
      exact Option.some.inj (hverified.symm.trans hd)

theorem Archive.Holds.anywhere {path : String} {digest : Option String}
    (h : archive.Holds H (some path) digest) : archive.Holds H none digest := by
  obtain ⟨entry, hentry, _, hrest⟩ := h
  exact ⟨entry, hentry, by simp, hrest⟩

/-- An archive of a run whose input manifests show up elsewhere shows what the run has to show. -/
theorem archive_covers (hrecorded : Recorded w) (hview : w.describeRun runId = .ok view)
    (hmanifest : w.ManifestShown H runId) (h : w.archive H view = .ok archive) :
    archive.view = view ∧ ∀ path digest, w.Shows H runId path digest →
      archive.Holds H path digest := by
  have hsame : archive.view = view := by
    obtain ⟨files, _, h⟩ := bind_eq_ok.mp h
    obtain rfl := Except.ok.inj h
    rfl
  refine ⟨hsame, fun path digest hshows ↦ ?_⟩
  cases path with
  | some path => exact holds_path hrecorded hview h hshows
  | none =>
      cases hshows with
      | @evidence stage a filename bytes hof hbytes =>
          by_cases hname : filename = inputManifestFilename
          · subst hname
            rcases hmanifest stage a bytes hof hbytes with
              ⟨path, hpath⟩ | ⟨stage', a', hof', filename, hname, hfound⟩
            · exact (holds_path hrecorded hview h hpath).anywhere
            · exact holds_evidence hview h hof' hname hfound
          · exact holds_evidence hview h hof
              (bundled_of_captured (hrecorded.evidence hbytes) hname) (by simp [hbytes])

end Members

/-! ## What the depot keeps -/

section Depot

variable {H : Bytes → String} {d d' d'' : Depot}

/-- Objects stay as they are, and new artifacts have new ids. -/
structure Grows (d d' : Depot) : Prop where
  objects : ∀ {digest : String} {bytes : Bytes}, d.objects digest = some bytes →
    d'.objects digest = some bytes
  artifacts : ∃ new, d'.artifacts = d.artifacts ++ new ∧
    ∀ row ∈ new, ∀ old ∈ d.artifacts, old.artifactId ≠ row.artifactId

theorem Grows.refl (d : Depot) : Grows d d := ⟨id, [], by simp, by simp⟩

theorem Grows.trans (h : Grows d d') (h' : Grows d' d'') : Grows d d'' := by
  obtain ⟨new, hnew, hfresh⟩ := h.artifacts
  obtain ⟨new', hnew', hfresh'⟩ := h'.artifacts
  refine ⟨fun hd ↦ h'.objects (h.objects hd), new ++ new', ?_, fun row hrow old hold ↦ ?_⟩
  · rw [hnew', hnew, List.append_assoc]
  · rcases List.mem_append.mp hrow with hrow | hrow
    · exact hfresh row hrow old hold
    · exact hfresh' row hrow old (by rw [hnew]; exact List.mem_append_left _ hold)

/-- A program after which the depot has grown, whether it returned or raised. -/
def Growing {α : Type} (x : IntakeM α) : Prop := ∀ d, Grows d (after x d)

namespace Growing

variable {α β : Type}

theorem pure (a : α) : Growing (pure a : IntakeM α) := Grows.refl

theorem throw (e : RuntimeError) : Growing (throw e : IntakeM α) := Grows.refl

theorem bind {x : IntakeM α} {f : α → IntakeM β} (hx : Growing x) (hf : ∀ a, Growing (f a)) :
    Growing (x >>= f) := by
  intro d
  have hgrows := hx d
  unfold after at hgrows ⊢
  change Grows d (match EStateM.bind x f d with | .ok _ d' => d' | .error _ d' => d')
  unfold EStateM.bind
  cases hd : x d with
  | error e d₁ =>
      rw [hd] at hgrows
      exact hgrows
  | ok a d₁ =>
      rw [hd] at hgrows
      exact hgrows.trans (hf a d₁)

theorem get_bind {f : Depot → IntakeM β} (hf : ∀ d, Growing (f d)) : Growing (get >>= f) :=
  fun d ↦ hf d d

theorem ofExcept_bind {y : Except RuntimeError α} {f : α → IntakeM β} (hf : ∀ a, Growing (f a)) :
    Growing (ofExcept y >>= f) := by
  cases y with
  | ok a => exact hf a
  | error e => exact Grows.refl

theorem forM {f : α → IntakeM Unit} (hf : ∀ a, Growing (f a)) (xs : List α) :
    Growing (xs.forM f) := by
  induction xs with
  | nil => exact Growing.pure ()
  | cons x xs ih => exact (hf x).bind fun _ ↦ ih

end Growing

/-- `_store_object` finds an object of the digest and the size, refuses another, or adds one. -/
theorem storeObject_cases (H : Bytes → String) (bytes : Bytes) (d : Depot) :
    (∃ existing, d.objects (H bytes) = some existing ∧ H existing = H bytes ∧
      storeObject H (H bytes) bytes d = .ok () d) ∨
    (∃ e, storeObject H (H bytes) bytes d = .error e d) ∨
    (d.objects (H bytes) = none ∧ storeObject H (H bytes) bytes d =
      .ok () { d with objects := Function.update d.objects (H bytes) (some bytes) }) := by
  have hrun : storeObject H (H bytes) bytes d =
      (match d.objects (H bytes) with
      | some existing =>
          if existing.length ≠ bytes.length ∨ H existing ≠ H bytes then
            throw (inconsistentObject (H bytes) existing.length bytes.length)
          else pure ()
      | none => modify fun d : Depot ↦
          { d with objects := Function.update d.objects (H bytes) (some bytes) } :
        IntakeM Unit) d := rfl
  cases hobject : d.objects (H bytes) with
  | none =>
      rw [hobject] at hrun
      exact .inr (.inr ⟨rfl, hrun⟩)
  | some existing =>
      rw [hobject] at hrun
      by_cases hbad : existing.length ≠ bytes.length ∨ H existing ≠ H bytes
      · simp only [if_pos hbad] at hrun
        exact .inr (.inl ⟨_, hrun⟩)
      · simp only [if_neg hbad] at hrun
        exact .inl ⟨existing, rfl, not_not.mp (not_or.mp hbad).2, hrun⟩

theorem growing_storeObject (bytes : Bytes) : Growing (storeObject H (H bytes) bytes) := by
  intro d
  rcases storeObject_cases H bytes d with ⟨_, _, _, hok⟩ | ⟨e, herror⟩ | ⟨hnone, hok⟩
  · rw [after, hok]
    exact Grows.refl d
  · rw [after, herror]
    exact Grows.refl d
  · rw [after, hok]
    refine ⟨fun {digest old} hold ↦ ?_, [], by simp, by simp⟩
    have hne : digest ≠ H bytes := by
      rintro rfl
      simp [hnone] at hold
    simpa [hne] using hold

theorem insertArtifact_cases (row : ArtifactRow) (d : Depot) :
    (∃ e, insertArtifact row d = .error e d) ∨
      (∀ old ∈ d.artifacts, old.artifactId ≠ row.artifactId) ∧
        insertArtifact row d = .ok () { d with artifacts := d.artifacts ++ [row] } := by
  have hrun : insertArtifact row d =
      (if d.artifacts.any row.clashes then
        throw (.store (.integrity "UNIQUE constraint failed: runtime_artifacts"))
      else modify fun d : Depot ↦ { d with artifacts := d.artifacts ++ [row] } :
        IntakeM Unit) d := rfl
  by_cases hclash : d.artifacts.any row.clashes = true
  · rw [if_pos hclash] at hrun
    exact .inl ⟨_, hrun⟩
  · rw [if_neg hclash] at hrun
    refine .inr ⟨fun old hold heq ↦ hclash ?_, hrun⟩
    exact List.any_eq_true.mpr ⟨old, hold, by simp [ArtifactRow.clashes, heq]⟩

theorem growing_insertArtifact (row : ArtifactRow) : Growing (insertArtifact row) := by
  intro d
  rcases insertArtifact_cases row d with ⟨e, herror⟩ | ⟨hfresh, hok⟩
  · rw [after, herror]
    exact Grows.refl d
  · rw [after, hok]
    exact ⟨id, [row], rfl, fun new hnew old hold ↦ by
      obtain rfl : new = row := by simpa using hnew
      exact hfresh old hold⟩

theorem growing_insertUploaded (row : UploadedRow) : Growing (insertUploaded row) := by
  refine Growing.get_bind fun d ↦ ?_
  split
  · exact Growing.throw _
  · intro d
    have hafter : after (modify fun d : Depot ↦ { d with uploaded := d.uploaded ++ [row] } :
        IntakeM Unit) d = { d with uploaded := d.uploaded ++ [row] } := rfl
    rw [hafter]
    exact ⟨id, [], by simp, by simp⟩

theorem growing_ingestInput (inputId : String) (content : Bytes) :
    Growing (ingestInput H inputId content) :=
  (growing_storeObject content).bind fun _ ↦ growing_insertUploaded _

theorem growing_registerArtifact (attemptId : AttemptId) (declared : Custody.Declared) :
    Growing (registerArtifact H attemptId declared) := by
  refine Growing.get_bind fun d ↦ ?_
  split
  · exact Growing.throw _
  · exact Growing.throw _
  · exact Growing.ofExcept_bind fun _ ↦
      (growing_storeObject _).bind fun _ ↦ growing_insertArtifact _

theorem grows_registerArtifacts (attemptId : AttemptId) (declared : List Custody.Declared)
    (d : Depot) : Grows d (registerArtifacts H attemptId declared d) := by
  have hgrows := Growing.forM (growing_registerArtifact (H := H) attemptId) declared d
  unfold after at hgrows
  unfold registerArtifacts
  cases hrun : declared.forM (registerArtifact H attemptId) d with
  | ok u d' =>
      rw [hrun] at hgrows
      exact hgrows
  | error e d' =>
      rw [hrun] at hgrows
      exact ⟨hgrows.objects, [], by simp, by simp⟩

theorem growing_registerFile (artifactId : String) (attemptId : AttemptId) (content : Bytes) :
    Growing (World.registerFile H artifactId attemptId content) := by
  refine Growing.ofExcept_bind fun _ ↦ Growing.get_bind fun d ↦ ?_
  split
  · exact Growing.pure _
  · exact (growing_storeObject _).bind fun _ ↦
      (growing_insertArtifact _).bind fun _ ↦ Growing.pure _

/-- The artifact of a new bundle, and the object behind it. -/
theorem registerFile_eq_ok {artifactId : String} {attemptId : AttemptId} {content : Bytes}
    {row : ArtifactRow}
    (hfree : ∀ existing, d.objects (H content) = some existing → H existing = H content →
      existing = content)
    (hname : ∀ r ∈ d.artifacts, r.attemptId = attemptId → r.storeKey ≠ bundleKey)
    (h : World.registerFile H artifactId attemptId content d = .ok row d') :
    row.storage = .object ∧ d'.objects row.sha256 = some content ∧
      d'.artifacts = d.artifacts ++ [row] ∧
      ∀ old ∈ d.artifacts, old.artifactId ≠ row.artifactId := by
  obtain ⟨_, _, h⟩ := IntakeM.ofExcept_bind_eq_ok.mp h
  have h := IntakeM.get_bind_eq_ok.mp h
  have hnone : (d.artifacts.find? fun r ↦ r.attemptId = attemptId ∧ r.storeKey = bundleKey) =
      none := by
    rw [List.find?_eq_none]
    intro r hr hboth
    obtain ⟨hattempt, hkey⟩ := of_decide_eq_true hboth
    exact hname r hr hattempt hkey
  rw [hnone] at h
  obtain ⟨_, d₁, hstore, h⟩ := IntakeM.bind_eq_ok.mp h
  obtain ⟨_, d₂, hinsert, h⟩ := IntakeM.bind_eq_ok.mp h
  obtain ⟨rfl, rfl⟩ := EStateM.Result.ok.inj h
  have hstored : d₁.objects (H content) = some content ∧ d₁.artifacts = d.artifacts := by
    rcases storeObject_cases H content d with ⟨existing, hobject, hsame, hok⟩ | ⟨e, herror⟩ |
        ⟨_, hok⟩
    · rw [hok] at hstore
      obtain ⟨_, rfl⟩ := EStateM.Result.ok.inj hstore
      obtain rfl := hfree existing hobject hsame
      exact ⟨hobject, rfl⟩
    · rw [herror] at hstore
      cases hstore
    · rw [hok] at hstore
      obtain ⟨_, rfl⟩ := EStateM.Result.ok.inj hstore
      exact ⟨by simp, rfl⟩
  rcases insertArtifact_cases _ d₁ with ⟨e, herror⟩ | ⟨hfresh, hok⟩
  · rw [herror] at hinsert
    cases hinsert
  · rw [hok] at hinsert
    obtain ⟨_, rfl⟩ := EStateM.Result.ok.inj hinsert
    refine ⟨rfl, hstored.1, by simp [hstored.2], fun old hold ↦ hfresh old ?_⟩
    rw [hstored.2]
    exact hold

end Depot

/-! ## One export -/

section Run

variable {H : Bytes → String} {zip : Archive → Bytes} {w w' : World} {runId : RunId}
variable {artifactId : String} {view : RunView} {archive : Archive} {row : ArtifactRow}

theorem describeAttempt_of_mem (hview : w.describeRun runId = .ok view) {stage : StageRow}
    {v : AttemptView} (hmem : (stage, v) ∈ view.attempts) :
    v.artifacts = w.listArtifacts v.attempt.attemptId := by
  rw [RunView.attempts, (describeRun_eq_ok hview).2.2, List.mem_flatMap] at hmem
  obtain ⟨s, hs, hmem⟩ := hmem
  obtain ⟨stage', _, rfl⟩ := List.mem_map.mp hs
  obtain ⟨v', hv', heq⟩ := List.mem_map.mp hmem
  obtain ⟨a, _, rfl⟩ := List.mem_map.mp hv'
  obtain ⟨_, rfl⟩ := Prod.mk.inj heq
  rfl

/-- The ways an export can go. -/
theorem export_cases (H : Bytes → String) (zip : Archive → Bytes) (w : World) (runId : RunId)
    (artifactId : String) :
    (∃ e, w.exportRunBundle H zip runId artifactId = (.error e, w)) ∨
    (∃ latest bundle, w.latest? runId = some latest ∧
      (latest.artifacts.find? fun r ↦ r.kind = bundleKind) = some bundle ∧
      bundle ∈ w.depot.artifacts ∧ w.exportRunBundle H zip runId artifactId = (.ok bundle, w)) ∨
    ∃ view stage latest archive, w.describeRun runId = .ok view ∧
      (stage, latest) ∈ view.attempts ∧ w.latest? runId = some latest ∧
      (latest.artifacts.find? fun r ↦ r.kind = bundleKind) = none ∧
      w.archive H view = .ok archive ∧
      w.exportRunBundle H zip runId artifactId =
        match World.registerFile H artifactId latest.attempt.attemptId (zip archive) w.depot with
        | .error e depot => (.error e, { w with depot := depot })
        | .ok row depot => (.ok row, w.remember H view.run row depot) := by
  cases hview : w.describeRun runId with
  | error e => exact .inl ⟨e, by simp [World.exportRunBundle, hview]⟩
  | ok view =>
      cases hlast : view.attempts.getLast? with
      | none => exact .inl ⟨_, by simp [World.exportRunBundle, hview, hlast, storeError]; rfl⟩
      | some last =>
          obtain ⟨stage, latest⟩ := last
          have hlatest : w.latest? runId = some latest := by
            simp [World.latest?, hview, hlast, Except.toOption]
          cases hfound : latest.artifacts.find? fun r ↦ r.kind = bundleKind with
          | some bundle =>
              have hmem := List.mem_of_find?_eq_some hfound
              rw [describeAttempt_of_mem hview (List.mem_of_getLast? hlast)] at hmem
              exact .inr (.inl ⟨latest, bundle, hlatest, hfound, List.mem_of_mem_filter hmem,
                by simp [World.exportRunBundle, hview, hlast, hfound]⟩)
          | none =>
              cases harchive : w.archive H view with
              | error e =>
                  exact .inl ⟨e, by simp [World.exportRunBundle, hview, hlast, hfound, harchive]⟩
              | ok archive =>
                  exact .inr (.inr ⟨view, stage, latest, archive, rfl,
                    List.mem_of_getLast? hlast, hlatest, hfound, harchive,
                    by simp [World.exportRunBundle, hview, hlast, hfound, harchive]⟩)

/-! ## What holds along a history -/

/-- A bundle that was made holds what its run had to show then. -/
structure Sound (H : Bytes → String) (zip : Archive → Bytes) (w : World) : Prop
    extends Recorded w where
  known : ∀ {artifactId : String} {owed : Owed}, w.made artifactId = some owed →
    ∃ row ∈ w.depot.artifacts, row.artifactId = artifactId
  made : ∀ {row : ArtifactRow} {owed : Owed}, row ∈ w.depot.artifacts →
    w.made row.artifactId = some owed →
      row.storage = .object ∧ ∃ archive, w.depot.objects row.sha256 = some (zip archive) ∧
        archive.view.run.status = owed.status ∧
        ∀ path digest, owed.shows path digest → archive.Holds H path digest

theorem sound_init : Sound H zip {} where
  inputs := by simp
  evidence := by simp
  known := by simp
  made := by simp

theorem Sound.grow (h : Sound H zip w) {depot : Depot} (hgrows : Grows w.depot depot) :
    Sound H zip { w with depot := depot } := by
  obtain ⟨new, hnew, hfresh⟩ := hgrows.artifacts
  refine ⟨⟨h.inputs, h.evidence⟩, fun hmade ↦ ?_, fun {row owed} hrow hmade ↦ ?_⟩
  · obtain ⟨row, hrow, heq⟩ := h.known hmade
    exact ⟨row, by rw [hnew]; exact List.mem_append_left _ hrow, heq⟩
  · have hrow : row ∈ w.depot.artifacts ++ new := hnew ▸ hrow
    rcases List.mem_append.mp hrow with hrow | hrow
    · obtain ⟨hstorage, archive, hobject, hrest⟩ := h.made hrow hmade
      exact ⟨hstorage, archive, hgrows.objects hobject, hrest⟩
    · obtain ⟨old, hold, heq⟩ := h.known hmade
      exact absurd heq (hfresh row hrow old hold)

/-- A new bundle is remembered with what it shows. -/
theorem Sound.remember (h : Sound H zip w) {run : RunRow} {depot : Depot}
    (hgrows : Grows w.depot depot) (hnew : depot.artifacts = w.depot.artifacts ++ [row])
    (hfresh : ∀ old ∈ w.depot.artifacts, old.artifactId ≠ row.artifactId)
    (hstorage : row.storage = .object) (hobject : depot.objects row.sha256 = some (zip archive))
    (hstatus : archive.view.run.status = run.status)
    (hshows : ∀ path digest, w.Shows H run.runId path digest → archive.Holds H path digest) :
    Sound H zip (w.remember H run row depot) := by
  have hgrown := h.grow hgrows
  have hnone : (w.depot.artifacts.any fun r ↦ r.artifactId = row.artifactId) = false := by
    simpa using hfresh
  have hmade : (w.remember H run row depot).made =
      Function.update w.made row.artifactId (some (w.owed H run)) := by
    simp [World.remember, hnone]
  have hmem : row ∈ depot.artifacts := by simp [hnew]
  refine ⟨⟨hgrown.inputs, hgrown.evidence⟩, fun {id owed} hid ↦ ?_,
    fun {other owed} hother hid ↦ ?_⟩
  · by_cases heq : id = row.artifactId
    · exact ⟨row, hmem, heq.symm⟩
    · rw [hmade, Function.update_of_ne heq] at hid
      exact hgrown.known hid
  · by_cases heq : other.artifactId = row.artifactId
    · have hsame : other = row := by
        have hother : other ∈ w.depot.artifacts ++ [row] := hnew ▸ hother
        rcases List.mem_append.mp hother with hold | hone
        · exact absurd heq (hfresh other hold)
        · simpa using hone
      subst hsame
      rw [hmade, Function.update_self] at hid
      obtain rfl := Option.some.inj hid
      exact ⟨hstorage, archive, hobject, hstatus, hshows⟩
    · rw [hmade, Function.update_of_ne heq] at hid
      exact hgrown.made hother hid

/-- What an undisturbed export leaves behind. -/
theorem Sound.exported {S : Set Bytes} (hH : Set.InjOn H S) (h : Sound H zip w)
    (hS : ∀ b, w.Compares H zip b → b ∈ S) (hfresh : w.Fresh H (.exports runId artifactId)) :
    Sound H zip (w.exportRunBundle H zip runId artifactId).2 ∧
      ∀ row, (w.exportRunBundle H zip runId artifactId).1 = .ok row →
        ∃ archive, (w.exportRunBundle H zip runId artifactId).2.depot.artifactFile row =
            .ok (some (zip archive)) ∧ Covers H archive w runId := by
  rcases export_cases H zip w runId artifactId with ⟨e, hexport⟩ |
      ⟨latest, bundle, hlatest, hfound, hbundle, hexport⟩ |
      ⟨view, stage, latest, archive, hview, hmem, hlatest, hfound, harchive, hexport⟩
  · rw [hexport]
    exact ⟨h, by simp⟩
  · rw [hexport]
    refine ⟨h, fun row hrow ↦ ?_⟩
    obtain rfl := Except.ok.inj hrow
    have hup := hfresh latest hlatest
    rw [hfound] at hup
    obtain ⟨owed, hmade, rfl, hstatus, hshows⟩ := hup
    obtain ⟨hstorage, archive, hobject, hsame, hholds⟩ := h.made hbundle hmade
    refine ⟨archive, by simp [Depot.artifactFile, hstorage, hobject], ?_, ?_⟩
    · rw [hsame]
      exact hstatus
    · exact fun path digest hshow ↦ hholds path digest (hshows path digest hshow)
  · have hnew := hfresh latest hlatest
    rw [hfound] at hnew
    obtain ⟨hname, hmanifest⟩ := hnew
    obtain ⟨hsame, hholds⟩ := archive_covers h.toRecorded hview hmanifest harchive
    obtain ⟨hstatus, rfl, _⟩ := describeRun_eq_ok hview
    have hgrows :=
      growing_registerFile (H := H) artifactId latest.attempt.attemptId (zip archive) w.depot
    rw [hexport]
    unfold after at hgrows
    cases hregister : World.registerFile H artifactId latest.attempt.attemptId (zip archive)
        w.depot with
    | error e depot =>
        rw [hregister] at hgrows
        exact ⟨h.grow hgrows, by simp⟩
    | ok row depot =>
        rw [hregister] at hgrows
        have hfree : ∀ r ∈ w.depot.artifacts, r.attemptId = latest.attempt.attemptId →
            r.storeKey ≠ bundleKey := by
          intro r hr hattempt
          refine hname r ?_
          rw [describeAttempt_of_mem hview hmem]
          exact List.mem_filter.mpr ⟨hr, by simpa using hattempt⟩
        have hsole : ∀ existing, w.depot.objects (H (zip archive)) = some existing →
            H existing = H (zip archive) → existing = zip archive := fun existing hobject hdigest ↦
          hH (hS _ (.object hobject)) (hS _ (.bundle hview harchive)) hdigest
        obtain ⟨hstorage, hobject, hadded, hids⟩ := registerFile_eq_ok hsole hfree hregister
        refine ⟨h.remember hgrows hadded hids hstorage hobject (by rw [hsame]) hholds, ?_⟩
        intro row' hrow
        obtain rfl := Except.ok.inj hrow
        refine ⟨archive, by simp [World.remember, Depot.artifactFile, hstorage, hobject], ?_,
          hholds⟩
        rw [hsame]
        exact hstatus

theorem mem_of_mem_recorded {rows staged : List StagedInput} {s : StagedInput}
    (h : s ∈ staged.foldl
      (fun rows s ↦ rows.filter (fun r ↦ r.destination ≠ s.destination) ++ [s]) rows) :
    s ∈ rows ∨ s ∈ staged := by
  induction staged generalizing rows with
  | nil => exact .inl h
  | cons first rest ih =>
      rcases ih h with hrows | hrest
      · rcases List.mem_append.mp hrows with hold | hone
        · exact .inl (List.mem_of_mem_filter hold)
        · exact .inr (by simp_all)
      · exact .inr (List.mem_cons_of_mem first hrest)

theorem Sound.recordInputs (h : Sound H zip w) (attemptId : AttemptId)
    (staged : List StagedInput) : Sound H zip (w.recordInputs attemptId staged) := by
  unfold World.recordInputs
  split
  · next hall =>
      refine ⟨⟨fun {id} s hs ↦ ?_, h.evidence⟩, h.known, h.made⟩
      dsimp only at hs
      by_cases heq : id = attemptId
      · subst heq
        rw [Function.update_self] at hs
        rcases mem_of_mem_recorded hs with hold | hnew
        · exact h.inputs s hold
        · exact StagedInput.validate_of_recordable (List.all_eq_true.mp hall s hnew)
      · rw [Function.update_of_ne heq] at hs
        exact h.inputs s hs
  · exact h

theorem Sound.snapshotEvidence (h : Sound H zip w) {attemptId : AttemptId} {filename : String}
    (hname : filename ∈ capturedEvidence) :
    Sound H zip (w.snapshotEvidence attemptId filename) := by
  unfold World.snapshotEvidence
  split
  · split
    · exact h
    · refine ⟨⟨h.inputs, fun {id name bytes} hbytes ↦ ?_⟩, h.known, h.made⟩
      dsimp only at hbytes
      by_cases hid : id = attemptId
      · subst hid
        rw [Function.update_self] at hbytes
        by_cases heq : name = filename
        · exact heq ▸ hname
        · rw [Function.update_of_ne heq] at hbytes
          exact h.evidence hbytes
      · rw [Function.update_of_ne hid] at hbytes
        exact h.evidence hbytes
  · exact h

/-- An undisturbed step keeps the invariant. -/
theorem Sound.step {S : Set Bytes} (hH : Set.InjOn H S) (h : Sound H zip w) {ev : Event}
    (hS : ∀ b, w.Compares H zip b → b ∈ S) (hfresh : w.Fresh H ev) (hstep : w.step H zip ev = some w') :
    Sound H zip w' := by
  cases ev with
  | operates client op =>
      obtain ⟨system, _, rfl⟩ := Option.map_eq_some_iff.mp hstep
      exact ⟨⟨h.inputs, h.evidence⟩, h.known, h.made⟩
  | recordsInputs attemptId staged =>
      obtain rfl := Option.some.inj hstep
      exact h.recordInputs attemptId staged
  | captures attemptId filename =>
      simp only [World.step] at hstep
      split at hstep
      · next hname =>
          obtain rfl := Option.some.inj hstep
          exact h.snapshotEvidence hname
      · cases hstep
  | registersArtifacts attemptId declared =>
      obtain rfl := Option.some.inj hstep
      exact h.grow (grows_registerArtifacts attemptId declared w.depot)
  | ingestsInput inputId content =>
      obtain rfl := Option.some.inj hstep
      exact h.grow (growing_ingestInput inputId content w.depot)
  | writes attemptId relative file opened =>
      obtain rfl := Option.some.inj hstep
      exact ⟨⟨h.inputs, h.evidence⟩, h.known, h.made⟩
  | exports runId artifactId =>
      obtain rfl := Option.some.inj hstep
      exact (h.exported hH hS hfresh).1

end Run

namespace Sample

open ChipEvolve.Sample (submission claim hash hash_injective)

/-- As much of a ZIP as tells whether its `run.json` shows success. -/
def zip (archive : Archive) : Bytes :=
  [80, 75, if archive.view.run.status = .succeeded then 1 else 0]

def H : Bytes → String := hash [[80, 75, 0], [80, 75, 1], [1], [2], [3]]

theorem H_injective : Function.Injective H := hash_injective _

/-- A run with one attempt. -/
def begun : List Event :=
  [.operates 0 (.submitRun (submission 3)), .operates 0 (.startAttempt "stage" claim "attempt" 1)]

def upload : StagedInput where
  destination := "top.v"
  present := true
  sizeBytes := 1
  sha256 := some (H [1])
  sourceInputId := some "input-1"

/-- The attempt has an input, evidence and artifacts, the input manifest among them. -/
def recorded : List Event :=
  [.ingestsInput "input-1" [1]] ++ begun ++
  [.recordsInputs "attempt" [upload],
    .writes "attempt" inputManifestFilename (some (some [2])) (some [2]),
    .writes "attempt" "adapter.log" (some (some [4])) (some [4]),
    .writes "attempt" "report.txt" (some (some [3])) (some [3]),
    .captures "attempt" "adapter.log", .captures "attempt" inputManifestFilename,
    .registersArtifacts "attempt"
      [{ artifactId := "art-1", kind := "runtime_input_manifest"
         storeKey := inputManifestFilename },
        { artifactId := "art-2", kind := "report", storeKey := "report.txt" }],
    .operates 0 (.finishAttempt "attempt" .succeeded {} 2),
    .operates 0 (.transitionRun "run" .succeeded none 2)]

/-- A bundle is taken, and then the attempt ends. -/
def exportedEarly : List Event :=
  begun ++ [.exports "run" "bundle", .operates 0 (.finishAttempt "attempt" .succeeded {} 2),
    .operates 0 (.transitionRun "run" .succeeded none 2)]

/-- The bytes of the bundle an export hands out. -/
def handedOut (w : World) : Option Bytes :=
  match w.exportRunBundle H zip "run" "again" with
  | (.ok row, w') => (w'.depot.artifactFile row).toOption.join
  | (.error _, _) => none

/-- An export that finds nothing in its way: the input manifests are artifacts of their attempts. -/
def unhindered (w : World) : Event → Bool
  | .exports runId _ =>
      (w.latest? runId).all (fun latest ↦
        latest.artifacts.all fun row ↦ row.kind ≠ bundleKind ∧ row.storeKey ≠ bundleKey) &&
        w.tables.attempts.all fun a ↦
          (w.evidence a.attemptId inputManifestFilename).all fun bytes ↦
            w.depot.artifacts.any fun row ↦
              row.attemptId = a.attemptId ∧ row.kind ≠ bundleKind ∧ row.sha256 = H bytes
  | _ => true

theorem fresh_of_unhindered {w : World} {ev : Event} (h : unhindered w ev = true) :
    w.Fresh H ev := by
  cases ev with
  | exports runId artifactId =>
      intro latest hlatest
      obtain ⟨hnames, hmanifests⟩ := Bool.and_eq_true_iff.mp h
      rw [hlatest, Option.all_some, List.all_eq_true] at hnames
      have hrows : ∀ row ∈ latest.artifacts, row.kind ≠ bundleKind ∧ row.storeKey ≠ bundleKey :=
        fun row hrow ↦ of_decide_eq_true (hnames row hrow)
      have hnone : (latest.artifacts.find? fun r ↦ r.kind = bundleKind) = none :=
        List.find?_eq_none.mpr fun row hrow ↦ by simpa using (hrows row hrow).1
      rw [hnone]
      refine ⟨fun row hrow ↦ (hrows row hrow).2, fun stage a bytes hof hbytes ↦ .inl ?_⟩
      have hshown := List.all_eq_true.mp hmanifests a hof.memAttempt
      rw [hbytes, Option.all_some] at hshown
      obtain ⟨row, hrow, hmatch⟩ := List.any_eq_true.mp hshown
      obtain ⟨hattempt, hkind, hdigest⟩ := of_decide_eq_true hmatch
      rw [← hdigest]
      exact ⟨_, .artifact hof hrow hattempt hkind⟩
  | _ => trivial

/-- The present inputs, the captured files and the artifacts that the one attempt has. -/
def counts (w : World) : Nat × Nat × Nat :=
  ((w.inputs "attempt").countP StagedInput.present,
    capturedEvidence.countP fun filename ↦ (w.evidence "attempt" filename).isSome,
    w.depot.artifacts.length)

end Sample

end ChipEvolve.Bundle
