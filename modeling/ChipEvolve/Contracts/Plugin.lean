import ChipEvolve.Contracts.Artifact
import ChipEvolve.Contracts.Status

/-!
# Plugins: what they declare and what they report

`RuntimeRequirements`, `PluginManifest` and `PluginResult` with their `validate`
methods (`contracts/task.py`).  `PluginManifest.from_dict` tests nothing of the
artifact rules, so a rule is any JSON value.
-/

namespace ChipEvolve

/-- What a plugin asks the kernel to provide. -/
structure RuntimeRequirements where
  requireProtocolReceipt : Bool := false
  environmentReceiptVariable : Option String := none
  requireExperimentProtocol : Bool := false
  requireProtectedEvaluation : Bool := false
  resumable : Bool := false

def RuntimeRequirements.validate (r : RuntimeRequirements) : Validated := do
  refuseIf (r.requireProtocolReceipt ∧ r.environmentReceiptVariable.getD "" = "")
    "require_protocol_receipt needs environment_receipt_variable"
  validateIdentifier "environment_receipt_variable" r.environmentReceiptVariable false
  refuseIf (r.requireExperimentProtocol ∧ ¬r.requireProtocolReceipt)
    "require_experiment_protocol implies require_protocol_receipt"

/-- Immutable identity and boundary declaration for one capability. -/
structure PluginManifest where
  pluginId : String
  pluginVersion : String
  adapterEntry : List String
  capabilities : List String
  supportedArch : List String
  defaultTimeoutSeconds : Int := 3600
  artifactRules : List Json := []
  requirements : RuntimeRequirements := {}
  progressMarker : String
  schemaVersion : Int := ChipEvolve.schemaVersion

def validateStrings (name : String) (items : List String) : Validated :=
  refuseIf (items = [] ∨ "" ∈ items) (name ++ " must be a non-empty string list")

def PluginManifest.validate (m : PluginManifest) : Validated := do
  validateVersion m.schemaVersion
  validateIdentifier "plugin_id" m.pluginId
  validateIdentifier "plugin_version" m.pluginVersion
  validateStrings "adapter_entry" m.adapterEntry
  validateStrings "capabilities" m.capabilities
  validateStrings "supported_arch" m.supportedArch
  refuseIf (m.defaultTimeoutSeconds ≤ 0) "default_timeout_seconds must be positive"
  refuseIf (m.progressMarker = "") "progress_marker must be a non-empty string"
  refuseIf (32 < m.progressMarker.length) "progress_marker is implausibly long"
  m.requirements.validate

/-- An artifact of a result.  Only its kind and its path are tested to be texts. -/
structure ResultArtifact where
  kind : String
  path : String
  metadata : Json := .null
  mediaType : Json := .null

/-- `PluginResult`, as the adapter reports it. -/
structure AdapterResult where
  status : RuntimeStatus
  exitCode : Int
  startedAt : String
  endedAt : String
  metrics : List Json := []
  artifacts : List ResultArtifact := []
  failure : Option JsonObject := none
  schemaVersion : Int := ChipEvolve.schemaVersion

def AdapterResult.validate (r : AdapterResult) : Validated := do
  validateVersion r.schemaVersion
  refuseIf (r.status ∉ [RuntimeStatus.succeeded, .failed, .cancelled, .timedOut])
    "PluginResult status must be terminal"
  refuseIf (r.status = .succeeded ∧ r.exitCode ≠ 0)
    "a succeeded PluginResult must have exit_code 0"
  refuseIf (r.startedAt = "" ∨ r.endedAt = "") "PluginResult timestamps are required"

end ChipEvolve
