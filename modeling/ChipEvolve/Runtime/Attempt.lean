import ChipEvolve.Contracts.Plugin
import ChipEvolve.Store.Tables
import Mathlib.Data.Char
import Mathlib.Data.List.Dedup
import Mathlib.Data.List.Lex
import Mathlib.Data.List.Sort

/-!
# What an attempt registers

`WorkflowRuntime._run_attempt` (`runtime.py`) from the end of the adapter process
to the end of the attempt, with the checks of `ProcessAdapter.execute` and
`validate_artifact_declarations` (`adapter.py`) and of the protected evaluator
(`boundary.py`), and the two store methods that record what was found
(`store.py`).  What the processes left in the workspace, what their result files
say, and the errors of the file system and the database are in the `Situation`.
Every declaration keeps the party that made it.
-/

namespace ChipEvolve.Attempt

open Builtins (hashable text?)

/-! ## Exceptions and workspaces -/

/-- `AdapterProtocolError`, which `execute` turns into a failed result, or any other
exception, which ends the attempt. -/
inductive Raised where
  | protocol (message : String)
  | other (message : String)
  deriving DecidableEq

abbrev Checked := Except Raised

def raiseWhen (p : Prop) [Decidable p] (e : Raised) : Checked Unit :=
  if p then .error e else .ok ()

/-- A `ContractError` that is not translated. -/
def contract : Validated → Checked Unit
  | .ok _ => .ok ()
  | .error message => .error (.other message)

/-- A `ContractError` that becomes an `AdapterProtocolError`, with what is put before it. -/
def translated (lead : String) : Validated → Checked Unit
  | .ok _ => .ok ()
  | .error message => .error (.protocol (lead ++ message))

/-- A workspace, by paths relative to it: where a path leads, if it stays inside;
the regular files by the paths that lead to them; the paths that lead to a regular
file outside; and the files a pattern finds. -/
structure Workspace where
  resolve : String → Option String
  content : String → Option Bytes
  outside : String → Bool
  glob : String → Checked (List (Option String))

def Workspace.isFile (w : Workspace) (path : String) : Bool :=
  match w.resolve path with
  | some key => (w.content key).isSome
  | none => w.outside path

/-- `dict(metadata or {})`; nothing when a key is no text. -/
def metadataOf (metadata : Json) : Checked (Option JsonObject) :=
  if metadata.truthy then (Builtins.dict metadata).mapError fun e ↦ .other e.message
  else .ok (some [])

/-- `dict(value or {})`, where a key that is no text is refused later. -/
def pyDict (value : Json) : Checked JsonObject :=
  match metadataOf value with
  | .ok (some members) => .ok members
  | .ok none => .error (.other "keywords must be strings")
  | .error e => .error e

/-! ## Declarations -/

/-- A declaration as `register_artifacts` takes it. -/
structure Declaration where
  kind : String
  storeKey : String
  metadata : JsonObject

/-- The rules on which `rule.get` can be called. -/
def ruleObjects (rules : List Json) : Checked (List JsonObject) :=
  rules.mapM fun
    | .obj members => .ok members
    | _ => .error (.other "rule has no attribute 'get'")

def ruleKind (rule : JsonObject) : Json := (rule.get? "kind").getD .null

def ruleRequired (rule : JsonObject) : Bool := ((rule.get? "required").getD .null).truthy

def allowedKinds (rules : List JsonObject) : Checked (List Json) :=
  let kinds := (rules.map ruleKind).filter Json.truthy
  if kinds.all hashable then .ok kinds else .error (.other "unhashable type")

/-- `ArtifactDeclaration(…).validate()` -/
def validateDeclaration (kind path : String) (metadata : Option JsonObject)
    (allowReserved : Bool) : Validated := do
  ArtifactDeclaration.validate
    { kind := kind, path := path, metadata := metadata.getD [], allowReserved := allowReserved }
  refuseIf (metadata = none) "metadata must be a string-keyed object"

/-- One declaration of the loop of `validate_artifact_declarations`. -/
def declare (w : Workspace) (allowed : List Json) (allowReserved : Bool) (seenKeys : List String)
    (item : ResultArtifact) : Checked Declaration := do
  let metadata ← metadataOf item.metadata
  translated "" (validateDeclaration item.kind item.path metadata allowReserved)
  raiseWhen (!allowed.isEmpty && !(allowed.any fun k ↦ text? k = some item.kind) && !allowReserved)
    (.protocol ("artifact kind " ++ quoted item.kind ++ " is not allowed by the manifest"))
  match w.resolve item.path with
  | none => .error (.protocol ("artifact path escapes the workspace: " ++ quoted item.path))
  | some key => do
      raiseWhen (w.content key = none) (.protocol ("artifact is missing: " ++ quoted item.path))
      raiseWhen (key ∈ seenKeys)
        (.protocol ("artifact declared more than once: " ++ quoted key))
      pure { kind := item.kind, storeKey := key, metadata := metadata.getD [] }

def declareAll (w : Workspace) (allowed : List Json) (allowReserved : Bool) :
    List String → List ResultArtifact → Checked (List Declaration)
  | _, [] => .ok []
  | seenKeys, item :: items => do
      let declaration ← declare w allowed allowReserved seenKeys item
      let rest ← declareAll w allowed allowReserved (declaration.storeKey :: seenKeys) items
      pure (declaration :: rest)

/-- The check of `require_expected`. -/
def requireKinds (rules : List JsonObject) (expectedKinds producedKinds : List String) :
    Checked Unit :=
  let required := (rules.filter ruleRequired).map ruleKind
  let missing := (expectedKinds.map Json.str ++ required).filter fun k ↦
    k.truthy && !(producedKinds.any fun kind ↦ text? k = some kind)
  if required.all hashable then
    if missing.isEmpty then .ok ()
    else
      match missing.mapM text? with
      | some kinds =>
          .error (.protocol ("required artifact kinds missing: " ++
            ", ".intercalate (kinds.dedup.insertionSort (· ≤ ·))))
      | none => .error (.other "kinds cannot be sorted")
  else .error (.other "unhashable type")

def validateArtifactDeclarations (w : Workspace) (manifest : PluginManifest)
    (declarations : List ResultArtifact) (expectedKinds : List String)
    (requireExpected allowReserved : Bool) : Checked (List Declaration) := do
  let rules ← ruleObjects manifest.artifactRules
  let allowed ← allowedKinds rules
  let normalized ← declareAll w allowed allowReserved [] declarations
  if requireExpected then requireKinds rules expectedKinds (normalized.map Declaration.kind)
  pure normalized

/-! ## The adapter -/

/-- How the process ended, and the times the platform took. -/
structure ProcessOutcome where
  returncode : Int
  startedAt : String
  endedAt : String
  cancelled : Bool := false
  timedOut : Bool := false
  exceeded : Option String := none

structure AdapterExecution where
  result : AdapterResult
  artifacts : List Declaration

/-- `PluginResult(…)`, as the platform writes it. -/
def ownResult (outcome : ProcessOutcome) (status : RuntimeStatus) (exitCode : Int)
    (failure : JsonObject) : AdapterResult :=
  { status := status, exitCode := exitCode, startedAt := outcome.startedAt,
    endedAt := outcome.endedAt, failure := some failure }

/-- What the platform decided itself when it ended the process. -/
def decided (outcome : ProcessOutcome) : Option AdapterResult :=
  if outcome.cancelled then
    some (ownResult outcome .cancelled outcome.returncode
      [("category", .str "cancelled"), ("message", .str "cancellation requested")])
  else if outcome.timedOut then
    some (ownResult outcome .timedOut outcome.returncode
      [("category", .str "timeout"), ("message", .str "adapter deadline exceeded")])
  else
    outcome.exceeded.map fun message ↦ ownResult outcome .failed outcome.returncode
      [("category", .str "resource_exceeded"), ("message", .str message),
        ("retryable", .bool false)]

/-- `_load_result`, where `file` is what reading and parsing the result file gives. -/
def loadResult (outcome : ProcessOutcome) (file : Checked AdapterResult) : Checked AdapterResult :=
  match decided outcome with
  | some result => .ok result
  | none => do
      let result ← file
      translated "invalid adapter_result.json: " result.validate
      raiseWhen (outcome.returncode ≠ 0 ∧ result.status = .succeeded)
        (.protocol ("adapter claimed success with a non-zero process exit code (" ++
          toString outcome.returncode ++ ")"))
      raiseWhen (outcome.returncode ≠ result.exitCode)
        (.protocol ("result exit_code " ++ toString result.exitCode ++
          " does not match the process exit code " ++ toString outcome.returncode))
      pure result

/-- `protocol_failure` -/
def protocolFailure (outcome : ProcessOutcome) (message : String) : AdapterResult :=
  ownResult outcome .failed (if outcome.returncode ≠ 0 then outcome.returncode else 1)
    [("category", .str "protocol_error"), ("message", .str message)]

/-- `ProcessAdapter.execute`, without the authority to declare reserved kinds. -/
def execute (manifest : PluginManifest) (task : TaskSpec) (outcome : ProcessOutcome)
    (file : Checked AdapterResult) (w : Workspace) : Checked AdapterExecution := do
  contract manifest.validate
  contract task.validate
  raiseWhen (task.pluginId ≠ some manifest.pluginId) (.other "task targets another plugin")
  let attempted : Checked AdapterExecution := do
    let result ← loadResult outcome file
    let artifacts ← validateArtifactDeclarations w manifest result.artifacts task.expectedArtifacts
      (result.status = .succeeded) false
    pure { result := result, artifacts := artifacts }
  match attempted with
  | .error (.protocol message) =>
      .ok { result := protocolFailure outcome message, artifacts := [] }
  | done => done

/-- `RECEIPT_ARTIFACT_KIND` -/
def receiptArtifactKind : String := "runtime_protocol_receipt"

/-- `_reject_forged_authority`, for one artifact. -/
def rejectForged (item : ResultArtifact) : Checked Unit := do
  raiseWhen (item.kind = receiptArtifactKind)
    (.other ("adapter declared runtime-reserved artifact kind " ++ quoted receiptArtifactKind))
  if item.metadata.truthy then
    match item.metadata with
    | .obj metadata => do
        raiseWhen ((JsonObject.get? metadata "official_qor").any fun v ↦ !v.isNull)
          (.other "adapter declared a metric the platform reserves for the protected evaluator")
        raiseWhen (((JsonObject.get? metadata "producer").bind text?).any fun producer ↦
            "protected-".toList.isPrefixOf producer.toList)
          (.other "adapter claimed a protected-evaluator producer identity")
    | _ => .error (.other "metadata has no attribute 'get'")

/-! ## Collection -/

/-- `str(value)`; of a value that is no text, what `str` gives. -/
def textOf (str : Json → String) : Json → String
  | .str s => s
  | value => str value

/-- `rule.get("patterns", rule.get("pattern"))` -/
def rulePatterns (rule : JsonObject) : Json :=
  match rule.get? "patterns" with
  | some patterns => patterns
  | none => (rule.get? "pattern").getD .null

/-- Whether a rule has the platform collect files. -/
def collects (rule : JsonObject) : Bool :=
  !(rulePatterns rule).isNull && ((rule.get? "collect").getD (.bool true)).truthy

def patternList : Json → Checked (List Json)
  | .str s => .ok [.str s]
  | .arr items => .ok items
  | _ => .error (.other "artifact collection patterns must be strings")

/-- Paths are sorted by their parts. -/
def pathLe (a b : String) : Bool := decide (splitSlash a.toList ≤ splitSlash b.toList)

/-- The files a rule finds, inside the workspace and in order. -/
def matched (w : Workspace) (str : Json → String) (rule : JsonObject) : Checked (List String) := do
  let patterns ← patternList (rulePatterns rule)
  let found ← patterns.mapM fun pattern ↦ w.glob (textOf str pattern)
  raiseWhen (found.flatten = [] ∧ ruleRequired rule)
    (.other "required artifact collection matched nothing")
  match found.flatten.mapM id with
  | some paths => .ok (paths.dedup.insertionSort fun a b ↦ pathLe a b = true)
  | none => .error (.other "artifact collection escaped workspace")

/-- The declarations one rule adds to the paths that are taken. -/
def collectRule (w : Workspace) (str : Json → String) (rule : JsonObject) (occupied : List String) :
    Checked (List Declaration) :=
  if collects rule then do
    let paths ← matched w str rule
    let fresh := paths.filter fun path ↦ path ∉ occupied
    match rule.get? "kind" with
    | some kind =>
        pure (fresh.map fun path ↦
          { kind := textOf str kind, storeKey := path,
            metadata := [("producer", .str "toolkit_manifest"), ("collected", .bool true)] })
    | none => do
        raiseWhen (fresh ≠ []) (.other "kind")
        pure []
  else pure []

def collectManifestArtifacts (w : Workspace) (str : Json → String) :
    List JsonObject → List String → Checked (List Declaration)
  | [], _ => .ok []
  | rule :: rules, occupied => do
      let declared ← collectRule w str rule occupied
      let rest ← collectManifestArtifacts w str rules
        (occupied ++ declared.map Declaration.storeKey)
      pure (declared ++ rest)

/-! ## The store -/

/-- Who declared an artifact. -/
inductive Party where
  | platform
  | adapter
  | evaluator
  | toolkit
  deriving DecidableEq

/-- One declaration of `register_artifacts`, after the rows before it. -/
def registerOne (H : Bytes → String) (artifactId : String) (attemptId : AttemptId) (w : Workspace)
    (existing : List ArtifactRow) (d : Declaration) : Checked ArtifactRow :=
  match w.resolve d.storeKey with
  | none => .error (.other ("artifact escapes the attempt workspace: " ++ quoted d.storeKey))
  | some path =>
      match w.content path with
      | none => .error (.other ("declared artifact is missing: " ++ quoted d.storeKey))
      | some bytes => do
          contract (Artifact.validate
            { artifactId := artifactId, kind := d.kind, storeKey := d.storeKey, sha256 := H bytes,
              sizeBytes := bytes.length, metadata := d.metadata })
          let row : ArtifactRow :=
            { artifactId := artifactId, attemptId := attemptId, kind := d.kind,
              storeKey := d.storeKey, sizeBytes := bytes.length, sha256 := H bytes,
              metadata := d.metadata, storage := .object }
          raiseWhen (existing.any row.clashes) (.other "UNIQUE constraint failed: runtime_artifacts")
          pure row

def registerArtifacts (H : Bytes → String) (newId : Nat → String) (attemptId : AttemptId)
    (w : Workspace) :
    List ArtifactRow → List (Party × Declaration) → Checked (List (Party × ArtifactRow))
  | _, [] => .ok []
  | existing, (party, d) :: declarations => do
      let row ← registerOne H (newId existing.length) attemptId w existing d
      let rest ← registerArtifacts H newId attemptId w (existing ++ [row]) declarations
      pure ((party, row) :: rest)

/-! ## Metrics -/

/-- The fields of `Metric`. -/
def metricFields : List String :=
  ["name", "value", "unit", "source_artifact_id", "parser_id", "parser_version", "context",
    "schema_version"]

/-- `Metric.to_dict`, after `validate`. -/
def metricItem (m : Metric) : Json :=
  .obj [("name", m.name), ("value", m.value), ("unit", m.unit),
    ("source_artifact_id", m.sourceArtifactId), ("parser_id", m.parserId),
    ("parser_version", m.parserVersion), ("context", .obj m.context),
    ("schema_version", .int schemaVersion)]

/-- The artifact id of a metric: that of the artifact it cites by store key, or the
one it gives. -/
def citedId (byStoreKey : List (String × String)) (item context : JsonObject) : Checked Json :=
  match (context.get? "source_artifact_store_key").getD .null with
  | .null => .ok ((item.get? "source_artifact_id").getD .null)
  | .str key =>
      match (byStoreKey.reverse.find? fun p ↦ p.1 = key).map Prod.snd with
      | some artifactId => .ok (.str artifactId)
      | none => .error (.other ("metric references an unregistered artifact " ++ quoted key))
  | _ => .error (.other "metric references an unregistered artifact")

def consumedKeys : List String := ["source_artifact_store_key", "parser_id", "parser_version"]

/-- One metric of the loop of `_register_metrics`, up to `Metric(**item)`. -/
def resolveMetric (byStoreKey : List (String × String)) (raw : Json) : Checked Metric := do
  let item ← pyDict raw
  let context ← pyDict ((item.get? "context").getD .null)
  let artifactId ← citedId byStoreKey item context
  raiseWhen (item.any fun m ↦ m.1 ∉ "source_artifact_store_key" :: metricFields)
    (.other "got an unexpected keyword argument")
  match item.get? "name", item.get? "value" with
  | some name, some value =>
      pure { name := name, value := value, unit := (item.get? "unit").getD .null,
             sourceArtifactId := artifactId,
             parserId := (context.get? "parser_id").getD .null,
             parserVersion := (context.get? "parser_version").getD .null,
             context := context.filter fun m ↦ m.1 ∉ consumedKeys }
  | _, _ => .error (.other "missing required positional arguments")

/-- The row of a metric that validated. -/
def metricRow (attemptId : AttemptId) (m : Metric) : MetricRow :=
  { attemptId := attemptId, name := (text? m.name).getD "", value := m.value, unit := text? m.unit,
    sourceArtifactId := text? m.sourceArtifactId, parserId := text? m.parserId,
    parserVersion := text? m.parserVersion, context := m.context }

/-- `_register_metrics` and the one transaction of `register_metrics`. -/
def registerMetrics (attemptId : AttemptId) (byStoreKey : List (String × String))
    (raws : List Json) : Checked (List MetricRow) := do
  let metrics ← raws.mapM (resolveMetric byStoreKey)
  metrics.forM fun m ↦ contract m.validate
  pure (metrics.map (metricRow attemptId))

/-! ## The attempt -/

/-- Where an error of the file system or the database can end an attempt. -/
inductive Stage where
  | running
  | registering
  | measuring
  | finishing

/-- Everything an attempt depends on: the manifest and the task; the digests of the
files the platform wrote; how the adapter ended, its result file and the workspace
it left; the verdict file of the protected evaluator, if there is one, and the
workspace at the end; the rows the attempt has already; the ids that will be given. -/
structure Situation where
  manifest : PluginManifest
  task : TaskSpec
  attemptId : AttemptId
  inputManifestSha256 : String
  receiptSha256 : String
  outcome : ProcessOutcome
  resultFile : Checked AdapterResult
  workspace : Workspace
  verdictFile : Option (Checked Verdict)
  final : Workspace
  existing : List ArtifactRow := []
  newId : Nat → String
  str : Json → String
  trouble : Stage → Option String

/-- A file the platform wrote into the workspace. -/
structure Written where
  sha256 : String
  item : ResultArtifact

/-- `FAILURE_EVIDENCE_FILES` -/
def failureEvidenceFiles : List (String × String) :=
  [("adapter_request.json", "runtime_evidence_request"),
    ("adapter_result.json", "runtime_evidence_result"), ("adapter.log", "runtime_evidence_log"),
    ("input_manifest.json", "runtime_evidence_input_manifest"),
    ("runtime_protocol_receipt.json", "runtime_evidence_protocol_receipt")]

/-- `_check_traceability`, for one metric. -/
def checkTraceable (w : Workspace) (m : Metric) (str : Json → String) : Checked Unit := do
  if m.sourceArtifactId.isNull then
    raiseWhen (¬m.sourceKey.truthy) (.other "metric cites no source artifact")
    match w.resolve (textOf str m.sourceKey) with
    | none => .error (.other "metric cites a path outside the workspace")
    | some key =>
        raiseWhen (w.content key = none) (.other "metric cites an artifact that does not exist")

def checkTraceability (w : Workspace) (str : Json → String) (v : Verdict) : Checked Unit := do
  v.artifacts.forM fun a ↦
    match w.resolve a.path with
    | none => .error (.other ("verdict artifact escapes the workspace: " ++ quoted a.path))
    | some key =>
        raiseWhen (w.content key = none)
          (.other ("verdict artifact does not exist: " ++ quoted a.path))
  v.metrics.forM fun m ↦ checkTraceable w m str

namespace Situation

variable (H : Bytes → String) (s : Situation)

def stumble (stage : Stage) : Checked Unit :=
  match s.trouble stage with
  | some message => .error (.other message)
  | none => .ok ()

/-- The input manifest, which `_stage_inputs` writes if there are inputs. -/
def inputManifest : Option Written :=
  if s.task.stagedInputs.isEmpty then none
  else some { sha256 := s.inputManifestSha256
              item := { kind := inputManifestKind, path := "input_manifest.json",
                        metadata := .obj [("producer", .str "runtime")] } }

/-- `_write_protocol_receipt` -/
def receipt : Checked (Option Written) :=
  if s.manifest.requirements.requireProtocolReceipt then
    match s.task.inputs.get? "experiment_protocol" with
    | some (.obj _) =>
        .ok (some { sha256 := s.receiptSha256
                    item := { kind := receiptArtifactKind, path := "runtime_protocol_receipt.json",
                              metadata := .obj [("producer", .str "runtime"),
                                ("attempt_id", .str s.attemptId)] } })
    | _ => .error (.other (quoted s.manifest.pluginId ++
        " requires an immutable experiment_protocol in inputs"))
  else .ok none

/-- The platform's own files are as it wrote them. -/
def checkWritten (written : Written) : Checked Unit :=
  raiseWhen (((s.workspace.resolve written.item.path).bind s.workspace.content).map H ≠
      some written.sha256)
    (.other ("adapter modified the platform's own " ++ written.item.kind))

/-- `_evaluate`, with the checks of the evaluator's boundary. -/
def evaluate (execution : AdapterExecution) : Checked (List Declaration × List Metric) :=
  if execution.result.status ≠ .succeeded then .ok ([], [])
  else
    match s.verdictFile with
    | none => do
        raiseWhen s.manifest.requirements.requireProtectedEvaluation
          (.other "protected evaluator is unavailable")
        pure ([], [])
    | some file => do
        let verdict ← file
        contract verdict.validate
        checkTraceability s.final s.str verdict
        raiseWhen (verdict.status = .rejected)
          (.other ("protected evaluator rejected the run: " ++ verdict.reason.getD ""))
        let artifacts ← validateArtifactDeclarations s.final s.manifest
          (verdict.artifacts.map fun a ↦
            { kind := a.kind, path := a.path, metadata := .obj a.metadata }) [] false false
        pure (artifacts, verdict.metrics)

/-- The execution, what the three parties declared, and the metrics to record. -/
structure Declared where
  execution : AdapterExecution
  declarations : List (Party × Declaration)
  metrics : List Json

/-- `_run_attempt` up to the collection. -/
def declared : Checked Declared := do
  s.stumble .running
  let receipt ← s.receipt
  let execution ← execute s.manifest s.task s.outcome s.resultFile s.workspace
  execution.result.artifacts.forM rejectForged
  receipt.toList.forM (s.checkWritten H)
  s.inputManifest.toList.forM (s.checkWritten H)
  let runtimeArtifacts ← validateArtifactDeclarations s.workspace s.manifest
    ((s.inputManifest.toList ++ receipt.toList).map Written.item) [] false true
  let (evaluatorArtifacts, evaluatorMetrics) ← s.evaluate execution
  pure { execution := execution
         declarations := runtimeArtifacts.map (Party.platform, ·) ++
           execution.artifacts.map (Party.adapter, ·) ++
           evaluatorArtifacts.map (Party.evaluator, ·)
         metrics := execution.result.metrics ++ evaluatorMetrics.map metricItem }

def Declared.occupied (d : Declared) : List String := d.declarations.map fun p ↦ p.2.storeKey

/-- `_collect_manifest_artifacts` -/
def collected (d : Declared) : Checked (List Declaration) := do
  let rules ← ruleObjects s.manifest.artifactRules
  collectManifestArtifacts s.final s.str rules d.occupied

/-- The artifacts that are registered, with the status of the execution. -/
def registered : Checked (Declared × List (Party × ArtifactRow)) := do
  let d ← s.declared H
  let collected ← s.collected d
  s.stumble .registering
  let rows ← registerArtifacts H s.newId s.attemptId s.final s.existing
    (d.declarations ++ collected.map (Party.toolkit, ·))
  pure (d, rows)

/-- `_register_failure_evidence` -/
def failureEvidence (existing : List ArtifactRow) : Checked (List (Party × ArtifactRow)) :=
  registerArtifacts H s.newId s.attemptId s.final existing
    ((failureEvidenceFiles.filter fun f ↦
        !(existing.any fun r ↦ r.storeKey = f.1) && s.final.isFile f.1).map fun f ↦
      (Party.platform, { kind := f.2, storeKey := f.1,
                         metadata := [("producer", .str "runtime"),
                           ("failure_evidence", .bool true)] }))

/-- What an attempt leaves: the rows it added and how it ended. -/
structure Outcome where
  rows : List (Party × ArtifactRow)
  metrics : List MetricRow
  status : Checked RuntimeStatus

/-- `_record_runtime_failure`; evidence that cannot be registered is left out. -/
def fails (rows : List (Party × ArtifactRow)) (metrics : List MetricRow) (e : Raised) : Outcome :=
  { rows := rows ++ ((s.failureEvidence H (s.existing ++ rows.map Prod.snd)).toOption.getD [])
    metrics := metrics
    status := .error e }

def byStoreKey (rows : List (Party × ArtifactRow)) : List (String × String) :=
  rows.map fun p ↦ (p.2.storeKey, p.2.artifactId)

/-- `_run_attempt` and what `execute_once_reporting` does with its exceptions. -/
def runAttempt : Outcome :=
  match s.registered H with
  | .error e => s.fails H [] [] e
  | .ok (d, rows) =>
      if d.execution.result.status = .succeeded then
        match (do s.stumble .measuring
                  registerMetrics s.attemptId (byStoreKey rows) d.metrics) with
        | .error e => s.fails H rows [] e
        | .ok metrics =>
            match s.stumble .finishing with
            | .error e => s.fails H rows metrics e
            | .ok _ => { rows := rows, metrics := metrics, status := .ok .succeeded }
      else
        match s.failureEvidence H (s.existing ++ rows.map Prod.snd) with
        | .error e => s.fails H rows [] e
        | .ok evidence =>
            match s.stumble .finishing with
            | .error e => s.fails H (rows ++ evidence) [] e
            | .ok _ => { rows := rows ++ evidence, metrics := [],
                         status := .ok d.execution.result.status }

end Situation

end ChipEvolve.Attempt
