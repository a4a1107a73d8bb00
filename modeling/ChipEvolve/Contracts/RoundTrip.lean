import ChipEvolve.Contracts.Artifact
import ChipEvolve.Contracts.Payload
import ChipEvolve.Contracts.Status

/-!
# Contracts as payloads

`TaskSpec`, `PluginManifest`, `PluginResult`, `ProgressReport`, `Event` and `Metric`
with the contracts nested in them, as their `from_dict` and `to_dict` see them
(`contracts/task.py`, `input.py`, `resources.py`, `progress.py`, `runtime.py`,
`artifact.py`).  Here the types of the fields are what `validate` tests, and no more.
-/

namespace ChipEvolve.Payload

open Builtins (text?)

/-! ## Shared validators -/

/-- `isinstance(value, int)`; the booleans are integers. -/
def integer? : Json → Option Int
  | .int n => some n
  | .bool b => some (if b then 1 else 0)
  | _ => none

def validateVersionValue : Json → Validated
  | .int n => validateVersion n
  | .float q => refuseIf (q ≠ schemaVersion) "unsupported schema_version"
  | _ => .error "unsupported schema_version"

def validateMapping (name : String) : Json → Validated
  | .obj _ => .ok ()
  | _ => .error (name ++ " must be a string-keyed object")

def validateSha256Value (name : String) : Json → Validated
  | .null => validateSha256 name none false
  | .str s => validateSha256 name (some s) false
  | _ => .error (name ++ " must be a lowercase sha256 hex digest")

def validateRelativePathValue (name container : String) : Json → Validated
  | .str s => validateRelativePath name s container
  | _ => .error (name ++ " is required")

/-- `all(isinstance(i, str) and i for i in items)` -/
def allTexts (items : List Json) : Bool := items.all fun item ↦ (text? item).any (· ≠ "")

def validateTexts (name : String) (items : List Json) : Validated :=
  refuseIf (items.isEmpty ∨ ¬allTexts items) (name ++ " must be a non-empty string list")

def validatePositive (name : String) (j : Json) : Validated :=
  refuseIf (¬(integer? j).any (0 < ·)) (name ++ " must be a positive integer")

section Fields

variable (v : List (String × Value)) (name : String)

def value? : Option Value := (v.find? fun m ↦ m.1 = name).map Prod.snd

def json : Json :=
  match value? v name with
  | some (.plain j) => j
  | _ => .null

def items : List Json :=
  match value? v name with
  | some (.tuple items) => items
  | _ => []

def member? : Option String :=
  match value? v name with
  | some (.member s) => some s
  | _ => none

def record? : Option JsonObject :=
  match value? v name with
  | some (.record fields) => some fields
  | _ => none

def records : List JsonObject :=
  match value? v name with
  | some (.records records) => records
  | _ => []

end Fields

/-- A field of a nested contract. -/
def part (m : JsonObject) (name : String) : Json := (m.get? name).getD .null

/-! ## Nested contracts -/

def inputFileValidate (m : JsonObject) : Validated := do
  validateRelativePathValue "input destination" "attempt workspace" (part m "destination")
  let locations := ["source", "artifact_id", "input_id"].map (part m)
  refuseIf ((locations.filter fun j ↦ !j.isNull).length ≠ 1)
    ("an input names exactly one place its bytes come from: source (a host path), " ++
      "artifact_id (a run artifact), or input_id (an uploaded input)")
  match part m "source" with
  | .null => pure ()
  | .str source => InputFile.validateSource source
  | _ => throw "input source is required"
  validateIdentifierValue "input artifact_id" (part m "artifact_id") false
  validateIdentifierValue "input input_id" (part m "input_id") false

def inputFile : Flat where
  name := "InputFile"
  fields := [("destination", none), ("source", some .null), ("artifact_id", some .null),
    ("input_id", some .null), ("required", some (.bool true))]
  nodup := by decide
  opens_obj := fun _ ↦ rfl
  missing := fun field ↦ "InputFile is missing: " ++ field
  validate := inputFileValidate

/-- A bound that is an integer and not a boolean. -/
def validateCount (name : String) (low : Int) (tooLow : String) : Json → Validated
  | .null => .ok ()
  | .int n => refuseIf (n < low) (name ++ tooLow)
  | _ => .error (name ++ " must be an integer")

def validateCpuSeconds : Json → Validated
  | .null => .ok ()
  | .int n => refuseIf (n ≤ 0) "cpu_seconds must be positive"
  | .float q => refuseIf (q ≤ 0) "cpu_seconds must be positive"
  | _ => .error "cpu_seconds must be a number"

def resourceRequestValidate (m : JsonObject) : Validated := do
  validateCpuSeconds (part m "cpu_seconds")
  validateCount "cpu_cores" 1 " must be at least 1" (part m "cpu_cores")
  validateCount "memory_bytes" 1 " must be positive" (part m "memory_bytes")
  validateCount "processes" 1 " must be at least 1" (part m "processes")

def resourceRequest : Flat where
  name := "ResourceRequest"
  fields := [("cpu_seconds", some .null), ("cpu_cores", some .null), ("memory_bytes", some .null),
    ("processes", some .null)]
  nodup := by decide
  opens_obj := fun _ ↦ rfl
  missing := fun field ↦ "ResourceRequest payload does not match its fields: missing " ++ field
  validate := resourceRequestValidate

def requirementsValidate (m : JsonObject) : Validated := do
  refuseIf ((part m "require_protocol_receipt").truthy ∧
      ¬(part m "environment_receipt_variable").truthy)
    "require_protocol_receipt needs environment_receipt_variable"
  validateIdentifierValue "environment_receipt_variable" (part m "environment_receipt_variable")
    false
  refuseIf ((part m "require_experiment_protocol").truthy ∧
      ¬(part m "require_protocol_receipt").truthy)
    "require_experiment_protocol implies require_protocol_receipt"

/-- `RuntimeRequirements`; its `from_dict` begins with `dict(payload)` and drops a version. -/
def runtimeRequirements : Flat where
  name := "RuntimeRequirements"
  fields := [("require_protocol_receipt", some (.bool false)),
    ("environment_receipt_variable", some .null),
    ("require_experiment_protocol", some (.bool false)),
    ("require_protected_evaluation", some (.bool false)), ("resumable", some (.bool false))]
  nodup := by decide
  dropped := ["schema_version"]
  opens := dictOf
  opens_obj := fun _ ↦ rfl
  missing := fun field ↦ "missing " ++ field
  validate := requirementsValidate

/-- `RuntimeRequirements()` -/
def noRequirements : {fields : JsonObject // runtimeRequirements.Valid fields} :=
  ⟨[("require_protocol_receipt", .bool false), ("environment_receipt_variable", .null),
    ("require_experiment_protocol", .bool false), ("require_protected_evaluation", .bool false),
    ("resumable", .bool false)], rfl, rfl⟩

/-! ## The classes -/

/-- A field that is taken as it is, with its default. -/
def Field.ofPlain (name : String) (default : Option Json := none) : Field :=
  { name := name, kind := .plain, absent := default.map fun j ↦ ⟨.plain j, j, rfl⟩ }

/-- A field that `from_dict` makes a tuple. -/
def Field.ofTuple (name : String) : Field :=
  { name := name, kind := .tuple, absent := some ⟨.tuple [], [], rfl⟩ }

/-- A field that `from_dict` makes a dictionary. -/
def Field.ofMapping (name : String) : Field :=
  { name := name, kind := .mapping, absent := some ⟨.plain (.obj []), [], rfl⟩ }

def version : Field := .ofPlain "schema_version" (some (.int schemaVersion))

namespace TaskSpec

def validate (v : List (String × Value)) : Validated := do
  validateVersionValue (json v "schema_version")
  ["task_id", "project_id", "design_id"].forM fun name ↦
    validateIdentifierValue name (json v name)
  validateIdentifierValue "design_revision_id" (json v "design_revision_id") false
  validateIdentifierValue "experiment_id" (json v "experiment_id") false
  validateSha256Value "input_manifest_sha256" (json v "input_manifest_sha256")
  refuseIf (json v "plugin_id").isNull "TaskSpec must name the plugin it runs"
  validateIdentifierValue "plugin_id" (json v "plugin_id") false
  validateIdentifierValue "plugin_version" (json v "plugin_version") false
  ["inputs", "parameters", "labels"].forM fun name ↦ validateMapping name (json v name)
  (records v "staged_inputs").forM inputFileValidate
  refuseIf (¬((records v "staged_inputs").map fun m ↦ text? (part m "destination")).Nodup)
    "two staged inputs would be placed at the same destination"
  ifGiven resourceRequestValidate (record? v "resources")
  validatePositive "timeout_seconds" (json v "timeout_seconds")
  validatePositive "max_attempts" (json v "max_attempts")
  refuseIf (¬allTexts (items v "expected_artifacts"))
    "expected_artifacts must contain non-empty strings"

def contract : Contract where
  name := "TaskSpec"
  fields := [.ofPlain "task_id", .ofPlain "project_id", .ofPlain "design_id",
    .ofPlain "design_revision_id" (some .null), .ofPlain "experiment_id" (some .null),
    .ofPlain "input_manifest_sha256" (some .null), .ofPlain "plugin_id" (some .null),
    .ofPlain "plugin_version" (some .null), .ofPlain "inputs" (some (.obj [])),
    .ofPlain "parameters" (some (.obj [])),
    { name := "staged_inputs", kind := .nestedTuple inputFile
      absent := some ⟨.records [], [], by simp, rfl⟩ },
    { name := "resources", kind := .nested resourceRequest none
      absent := some ⟨.plain .null, .inl ⟨rfl, rfl⟩⟩ },
    .ofPlain "timeout_seconds" (some (.int 3600)), .ofPlain "max_attempts" (some (.int 1)),
    .ofTuple "expected_artifacts", .ofPlain "labels" (some (.obj [])), version]
  nodup := by decide
  versioned := by decide
  validate := validate

end TaskSpec

namespace PluginManifest

def validateEnvironment : Json → Validated
  | .obj members =>
      refuseIf (¬members.all fun m ↦ (text? m.2).isSome)
        "environment must contain only string values"
  | _ => .error "environment must be a string-keyed object"

/-- A comparison with zero, which raises a `TypeError` for what is no number. -/
def validateTimeout (j : Json) : Validated :=
  match j.number? with
  | some q => refuseIf (q ≤ 0) "default_timeout_seconds must be positive"
  | none => .error "TypeError: '<=' not supported"

def validateMarker : Json → Validated
  | .str s => do
      refuseIf (s = "") "progress_marker must be a non-empty string"
      refuseIf (32 < s.length) "progress_marker is implausibly long"
  | _ => .error "progress_marker must be a non-empty string"

def validate (v : List (String × Value)) : Validated := do
  validateVersionValue (json v "schema_version")
  validateIdentifierValue "plugin_id" (json v "plugin_id")
  validateIdentifierValue "plugin_version" (json v "plugin_version")
  ["adapter_entry", "capabilities", "supported_arch"].forM fun name ↦
    validateTexts name (items v name)
  validateEnvironment (json v "environment")
  validateMapping "toolkit" (json v "toolkit")
  validateTimeout (json v "default_timeout_seconds")
  validateMarker (json v "progress_marker")
  ifGiven requirementsValidate (record? v "requirements")

def contract : Contract where
  name := "PluginManifest"
  fields := [.ofPlain "plugin_id", .ofPlain "plugin_version", .ofTuple "adapter_entry",
    .ofTuple "capabilities", .ofTuple "supported_arch",
    .ofPlain "default_timeout_seconds" (some (.int 3600)), .ofTuple "artifact_rules",
    .ofPlain "environment" (some (.obj [])), .ofPlain "toolkit" (some (.obj [])),
    { name := "requirements", kind := .nested runtimeRequirements (some noRequirements)
      absent := some ⟨.record noRequirements, .inr ⟨noRequirements, noRequirements.2, rfl⟩⟩ },
    .ofPlain "progress_marker" (some (.str "[progress]")), version]
  nodup := by decide
  versioned := by decide
  validate := validate

end PluginManifest

namespace PluginResult

def statuses : List String :=
  [RuntimeStatus.queued, .preparing, .running, .retryWait, .cancelRequested, .succeeded, .failed,
    .cancelled, .timedOut, .lost].map RuntimeStatus.value

def validateArtifact : Json → Validated
  | .obj m =>
      refuseIf ((text? (part m "kind")).isNone ∨ (text? (part m "path")).isNone)
        "each artifact requires string kind and path"
  | _ => .error "artifact must be a string-keyed object"

def validate (v : List (String × Value)) : Validated := do
  validateVersionValue (json v "schema_version")
  refuseIf (¬(member? v "status").any fun s ↦
      s ∈ [RuntimeStatus.succeeded, .failed, .cancelled, .timedOut].map RuntimeStatus.value)
    "PluginResult status must be terminal"
  refuseIf (integer? (json v "exit_code")).isNone "exit_code must be an integer"
  refuseIf (member? v "status" = some RuntimeStatus.succeeded.value ∧
      integer? (json v "exit_code") ≠ some 0)
    "a succeeded PluginResult must have exit_code 0"
  refuseIf (¬(json v "started_at").truthy ∨ ¬(json v "ended_at").truthy)
    "PluginResult timestamps are required"
  if !(json v "failure").isNull then validateMapping "failure" (json v "failure")
  validateMapping "provenance" (json v "provenance")
  (items v "artifacts").forM validateArtifact

def contract : Contract where
  name := "PluginResult"
  fields := [{ name := "status", kind := .member statuses "invalid PluginResult status" },
    .ofPlain "exit_code", .ofPlain "started_at", .ofPlain "ended_at", .ofTuple "metrics",
    .ofTuple "artifacts", .ofPlain "failure" (some .null), .ofPlain "provenance" (some (.obj [])),
    version]
  nodup := by decide
  versioned := by decide
  validate := validate

end PluginResult

namespace ProgressReport

def validateStage : Json → Validated
  | .str s => do
      refuseIf (s = "") "progress stage is required"
      refuseIf (64 < s.length) "progress stage exceeds 64 characters"
      refuseIf (s.toList.any fun c ↦ c.toNat < 0x20 || c.toNat = 0x7F)
        "progress stage contains control characters"
  | _ => .error "progress stage is required"

def validateSeconds (j : Json) : Validated :=
  refuseIf (¬j.isNull ∧ ¬j.number?.any (0 ≤ ·)) "seconds must be a non-negative number"

def validate (v : List (String × Value)) : Validated := do
  validateVersionValue (json v "schema_version")
  validateStage (json v "stage")
  refuseIf (member? v "phase" = some "finished" ∧ (member? v "status").isNone)
    "a finished report requires a status"
  refuseIf (member? v "phase" = some "started" ∧ (member? v "status").isSome)
    "a started report must not carry a status"
  validateSeconds (json v "seconds")
  validateMapping "detail" (json v "detail")

def contract : Contract where
  name := "ProgressReport"
  fields := [.ofPlain "stage",
    { name := "phase"
      kind := .memberOrNone ["started", "finished"] "invalid progress phase" },
    { name := "status"
      kind := .memberOrNone ["succeeded", "failed", "cancelled"] "invalid progress status"
      absent := some ⟨.plain .null, .inl rfl⟩ },
    .ofPlain "seconds" (some .null), .ofMapping "detail", version]
  nodup := by decide
  versioned := by decide
  validate := validate

end ProgressReport

namespace Event

def validateOccurredAt (j : Json) : Validated :=
  refuseIf (¬(text? j).any (· ≠ "")) "occurred_at is required"

def validate (v : List (String × Value)) : Validated := do
  validateVersionValue (json v "schema_version")
  ["event_id", "run_id", "event_type", "producer"].forM fun name ↦
    validateIdentifierValue name (json v name)
  validateIdentifierValue "stage_run_id" (json v "stage_run_id") false
  validateIdentifierValue "attempt_id" (json v "attempt_id") false
  validateOccurredAt (json v "occurred_at")
  validateMapping "payload" (json v "payload")

def contract : Contract where
  name := "Event"
  fields := [.ofPlain "event_id", .ofPlain "run_id", .ofPlain "event_type",
    .ofPlain "occurred_at", .ofPlain "producer", .ofPlain "payload" (some (.obj [])),
    .ofPlain "stage_run_id" (some .null), .ofPlain "attempt_id" (some .null), version]
  nodup := by decide
  versioned := by decide
  validate := validate

end Event

namespace Metric

def context : Json → JsonObject
  | .obj m => m
  | _ => []

/-- The checks are those of the metrics of a plugin; the version is not one of them. -/
def validate (v : List (String × Value)) : Validated := do
  ChipEvolve.Metric.validate
    { name := json v "name", value := json v "value", unit := json v "unit"
      sourceArtifactId := json v "source_artifact_id", parserId := json v "parser_id"
      parserVersion := json v "parser_version", context := context (json v "context") }

def contract : Contract where
  name := "Metric"
  fields := [.ofPlain "name", .ofPlain "value", .ofPlain "unit" (some .null),
    .ofPlain "source_artifact_id" (some .null), .ofPlain "parser_id" (some .null),
    .ofPlain "parser_version" (some .null), .ofMapping "context", version]
  nodup := by decide
  versioned := by decide
  validate := validate

end Metric

def contracts : List Contract :=
  [TaskSpec.contract, PluginManifest.contract, PluginResult.contract, ProgressReport.contract,
    Event.contract, Metric.contract]

/-! ## The round trip -/

theorem keeps_of_mem : ∀ C ∈ contracts, ∀ f ∈ C.fields, f.kind.Keeps := by decide

namespace Sample

/-- Requirements with a version of their own. -/
def requirements : JsonObject := [("schema_version", .int 3), ("resumable", .bool true)]

def manifest : JsonObject :=
  [("plugin_id", .str "plugin"), ("plugin_version", .str "1"), ("adapter_entry", .arr [.str "run"]),
    ("capabilities", .arr [.str "flow"]), ("supported_arch", .arr [.str "x86_64"]),
    ("requirements", .obj requirements), ("schema_version", .int 3)]

/-- A task that bounds its cores and says nothing of the other resources. -/
def task : JsonObject :=
  [("task_id", .str "task"), ("project_id", .str "project"), ("design_id", .str "design"),
    ("plugin_id", .str "plugin"), ("resources", .obj [("cpu_cores", .int 4)]),
    ("schema_version", .int 3)]

end Sample

end ChipEvolve.Payload
