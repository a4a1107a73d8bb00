import ChipEvolve.Contracts.Task

/-!
# Artifacts, metrics and verdicts

`ArtifactDeclaration`, `Artifact`, `Metric` and `Verdict` with their `validate`
methods (`contracts/artifact.py`, `contracts/evaluation.py`).  The fields of a
metric are what the plugin wrote, so their types are tested.
-/

namespace ChipEvolve

/-- `INPUT_MANIFEST_KIND` -/
def inputManifestKind : String := "runtime_input_manifest"

/-- `RESERVED_ARTIFACT_KINDS` -/
def reservedArtifactKinds : List String :=
  ["runtime_protocol_receipt", "runtime_evidence_request", "runtime_evidence_result",
    "runtime_evidence_log", "runtime_evidence_input_manifest",
    "runtime_evidence_protocol_receipt", "runtime_bundle", "protected_evaluation",
    inputManifestKind]

/-- `RESERVED_METRIC_CONTEXT_KEYS`, sorted. -/
def reservedMetricContextKeys : List String := ["official_qor", "runtime_authority"]

/-- What an adapter says it produced, relative to its attempt workspace. -/
structure ArtifactDeclaration where
  kind : String
  path : String
  required : Bool := true
  mediaType : Option String := none
  metadata : JsonObject := []
  allowReserved : Bool := false

def ArtifactDeclaration.validate (a : ArtifactDeclaration) : Validated := do
  validateIdentifier "kind" a.kind
  refuseIf (a.kind ∈ reservedArtifactKinds ∧ ¬a.allowReserved)
    ("artifact kind " ++ quoted a.kind ++ " is reserved by the platform")
  refuseIf (a.path = "") "artifact path is required"
  validateRelativePath "artifact path" a.path "attempt workspace"
  refuseIf ((a.metadata.get? "runtime_authority").any fun v ↦ !v.isNull)
    "an adapter may not declare runtime_authority; only the kernel sets it"

/-- A registered, hash-verified artifact. -/
structure Artifact where
  artifactId : String
  kind : String
  storeKey : String
  sha256 : String
  sizeBytes : Nat
  mediaType : Option String := none
  metadata : JsonObject := []

def Artifact.validate (a : Artifact) : Validated := do
  validateIdentifier "artifact_id" a.artifactId
  validateIdentifier "kind" a.kind
  refuseIf (a.storeKey = "") "store_key is required"
  validateRelativePath "store_key" a.storeKey "artifact store"
  validateSha256 "sha256" a.sha256

/-! ## Metrics -/

/-- `validate_identifier` of a value of any type. -/
def validateIdentifierValue (name : String) (value : Json) (required : Bool := true) :
    Validated :=
  match value with
  | .null => validateIdentifier name none required
  | .str s => validateIdentifier name (some s) required
  | _ => .error ("invalid " ++ name)

/-- One measured number, tied to the artifact it was read from. -/
structure Metric where
  name : Json
  value : Json
  unit : Json := .null
  sourceArtifactId : Json := .null
  parserId : Json := .null
  parserVersion : Json := .null
  context : JsonObject := []

namespace Metric

def isScalar : Json → Bool
  | .bool _ | .int _ | .float _ | .str _ => true
  | _ => false

def validate (m : Metric) : Validated := do
  validateIdentifierValue "name" m.name
  refuseIf (¬isScalar m.value) "metric value must be a JSON scalar"
  ifGiven (validateIdentifierValue "unit") (if m.unit.isNull then none else some m.unit)
  validateIdentifierValue "source_artifact_id" m.sourceArtifactId false
  validateIdentifierValue "parser_id" m.parserId false
  validateIdentifierValue "parser_version" m.parserVersion false
  let leaked := reservedMetricContextKeys.filter fun key ↦ m.context.any fun member ↦ member.1 = key
  refuseIf (leaked ≠ [])
    ("metric context may not set kernel-reserved keys: [" ++
      ", ".intercalate (leaked.map quoted) ++ "]")

/-- `context.get("source_artifact_store_key")` -/
def sourceKey (m : Metric) : Json := (m.context.get? "source_artifact_store_key").getD .null

end Metric

/-! ## Verdicts -/

inductive VerdictStatus where
  | admissible
  | rejected
  | incomplete
  deriving DecidableEq

/-- The evaluator's answer. -/
structure Verdict where
  status : VerdictStatus
  metrics : List Metric := []
  artifacts : List ArtifactDeclaration := []
  reason : Option String := none
  schemaVersion : Int := ChipEvolve.schemaVersion

namespace Verdict

def validateMetric (m : Metric) : Validated := do
  m.validate
  refuseIf (m.sourceArtifactId.isNull ∧ ¬m.sourceKey.truthy)
    "metric cites no source artifact; an unsourced metric is not evidence"

def validate (v : Verdict) : Validated := do
  validateVersion v.schemaVersion
  refuseIf (v.status = .admissible ∧ v.metrics.isEmpty)
    "an admissible verdict must carry at least one metric"
  refuseIf (v.status ≠ .admissible ∧ (v.reason.getD "" = ""))
    "a non-admissible verdict must state a reason"
  v.metrics.forM validateMetric
  v.artifacts.forM ArtifactDeclaration.validate

end Verdict

end ChipEvolve
