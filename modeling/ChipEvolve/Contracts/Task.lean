import ChipEvolve.Json
import Mathlib.Tactic.Common

/-!
# Tasks and the bounds they declare

`TaskSpec`, `InputFile` and `ResourceRequest` with their `validate` methods
(`contracts/task.py`, `contracts/input.py`, `contracts/resources.py`,
`contracts/version.py`).  A validator answers with the text of the
`ContractError` it raises.  The type tests of the source are discharged by the
types of the fields.
-/

namespace ChipEvolve

/-- A `ContractError`, by its message. -/
abbrev Validated := Except String Unit

/-- `if …: raise ContractError(…)` -/
def refuseIf (p : Prop) [Decidable p] (message : String) : Validated :=
  if p then .error message else .ok ()

/-- Check a field that is not `None`. -/
def ifGiven {α : Type} (check : α → Validated) : Option α → Validated
  | some a => check a
  | none => .ok ()

def schemaVersion : Int := 3

/-- `repr` of a text without quotes, backslashes or control characters. -/
def quoted (s : String) : String := "'" ++ s ++ "'"

/-! ## Shared validators -/

def isIdentifierHead (c : Char) : Bool := c.isAlphanum

def isIdentifierTail (c : Char) : Bool :=
  c.isAlphanum || c = '_' || c = '.' || c = ':' || c = '-'

/-- `IDENTIFIER`: an alphanumeric character and up to 127 more. -/
def isIdentifier (s : String) : Bool :=
  match s.toList with
  | [] => false
  | c :: cs => isIdentifierHead c && cs.all isIdentifierTail && cs.length ≤ 127

def isLowerHex (c : Char) : Bool := c.isDigit || ('a' ≤ c && c ≤ 'f')

/-- `SHA256_HEX` -/
def isSha256 (s : String) : Bool := s.toList.length = 64 && s.toList.all isLowerHex

def validateVersion (value : Int) : Validated :=
  if value = schemaVersion then .ok ()
  else .error ("unsupported schema_version " ++ toString value ++ "; this build speaks version " ++
    toString schemaVersion)

def validateIdentifier (name : String) (value : Option String) (required : Bool := true) :
    Validated :=
  match value with
  | none => if required then .error ("invalid " ++ name ++ ": None") else .ok ()
  | some s => if isIdentifier s then .ok () else .error ("invalid " ++ name ++ ": " ++ quoted s)

def validateSha256 (name : String) (value : Option String) (required : Bool := true) :
    Validated :=
  match value with
  | none =>
      if required then .error (name ++ " must be a lowercase sha256 hex digest") else .ok ()
  | some s =>
      if isSha256 s then .ok () else .error (name ++ " must be a lowercase sha256 hex digest")

/-- `value.split("/")` -/
def splitSlash : List Char → List (List Char)
  | [] => [[]]
  | c :: cs =>
      match splitSlash cs with
      | [] => [[c]]
      | part :: parts => if c = '/' then [] :: part :: parts else (c :: part) :: parts

def validateRelativePath (name value container : String) : Validated :=
  if value = "" then .error (name ++ " is required")
  else if value.toList.head? = some '/' || ['.', '.'] ∈ splitSlash value.toList then
    .error (name ++ " must stay inside the " ++ container ++ ": " ++ quoted value)
  else .ok ()

theorem Validated.of_bind {x : Validated} {f : Unit → Validated} (h : (x >>= f) = .ok ()) :
    x = .ok () ∧ f () = .ok () := by
  cases x with
  | error e => cases h
  | ok u => exact ⟨rfl, h⟩

theorem Validated.bind_eq_ok {x : Validated} {f : Unit → Validated} {u : Unit} :
    (x >>= f) = .ok u ↔ x = .ok () ∧ f () = .ok u := by
  cases x <;> simp [bind, Except.bind]

theorem refuseIf_eq_ok {p : Prop} [Decidable p] {message : String} {u : Unit} :
    refuseIf p message = .ok u ↔ ¬p := by
  unfold refuseIf
  split <;> simp_all

/-! ## The contracts -/

/-- Aggregate bounds on one attempt's process tree. -/
structure ResourceRequest where
  cpuSeconds : Option Rat := none
  cpuCores : Option Int := none
  memoryBytes : Option Int := none
  processes : Option Int := none

namespace ResourceRequest

/-- Whether anything was requested. -/
def declared (r : ResourceRequest) : Bool :=
  r.cpuSeconds.isSome || r.cpuCores.isSome || r.memoryBytes.isSome || r.processes.isSome

def validate (r : ResourceRequest) : Validated := do
  ifGiven (fun s ↦ refuseIf (s ≤ 0) "cpu_seconds must be positive") r.cpuSeconds
  ifGiven (fun n ↦ refuseIf (n < 1) "cpu_cores must be at least 1") r.cpuCores
  ifGiven (fun n ↦ refuseIf (n ≤ 0) "memory_bytes must be positive") r.memoryBytes
  ifGiven (fun n ↦ refuseIf (n < 1) "processes must be at least 1") r.processes

theorem cpuCores_pos {r : ResourceRequest} (h : r.validate = .ok ()) {n : Int}
    (hn : r.cpuCores = some n) : 0 < n := by
  have hcores := (Validated.of_bind (Validated.of_bind h).2).1
  rw [hn] at hcores
  have hone : 1 ≤ n := by simpa [ifGiven, refuseIf] using hcores
  omega

theorem memoryBytes_pos {r : ResourceRequest} (h : r.validate = .ok ()) {n : Int}
    (hn : r.memoryBytes = some n) : 0 < n := by
  have hbytes := (Validated.of_bind (Validated.of_bind (Validated.of_bind h).2).2).1
  rw [hn] at hbytes
  simpa [ifGiven, refuseIf] using hbytes

end ResourceRequest

/-- One file the platform must place in the attempt workspace. -/
structure InputFile where
  destination : String
  source : Option String := none
  artifactId : Option String := none
  inputId : Option String := none
  required : Bool := true

namespace InputFile

def locations (i : InputFile) : Nat :=
  i.source.toList.length + i.artifactId.toList.length + i.inputId.toList.length

def validateSource (source : String) : Validated := do
  refuseIf (source = "") "input source is required"
  refuseIf (source.toList.head? ≠ some '/')
    ("input source must be an absolute path: " ++ quoted source)

def validate (i : InputFile) : Validated := do
  validateRelativePath "input destination" i.destination "attempt workspace"
  refuseIf (i.locations ≠ 1)
    ("an input names exactly one place its bytes come from: source (a host path), " ++
      "artifact_id (a run artifact), or input_id (an uploaded input)")
  ifGiven validateSource i.source
  ifGiven (fun id ↦ validateIdentifier "input artifact_id" (some id)) i.artifactId
  ifGiven (fun id ↦ validateIdentifier "input input_id" (some id)) i.inputId

end InputFile

/-- One reviewed, bounded request, immutable once submitted. -/
structure TaskSpec where
  taskId : String
  projectId : String
  designId : String
  designRevisionId : Option String := none
  experimentId : Option String := none
  inputManifestSha256 : Option String := none
  pluginId : Option String := none
  pluginVersion : Option String := none
  inputs : JsonObject := []
  parameters : JsonObject := []
  stagedInputs : List InputFile := []
  resources : Option ResourceRequest := none
  timeoutSeconds : Int := 3600
  maxAttempts : Int := 1
  expectedArtifacts : List String := []
  labels : JsonObject := []
  schemaVersion : Int := ChipEvolve.schemaVersion

namespace TaskSpec

def validate (t : TaskSpec) : Validated := do
  validateVersion t.schemaVersion
  validateIdentifier "task_id" t.taskId
  validateIdentifier "project_id" t.projectId
  validateIdentifier "design_id" t.designId
  validateIdentifier "design_revision_id" t.designRevisionId false
  validateIdentifier "experiment_id" t.experimentId false
  validateSha256 "input_manifest_sha256" t.inputManifestSha256 false
  refuseIf t.pluginId.isNone "TaskSpec must name the plugin it runs"
  validateIdentifier "plugin_id" t.pluginId false
  validateIdentifier "plugin_version" t.pluginVersion false
  t.stagedInputs.forM InputFile.validate
  refuseIf (¬(t.stagedInputs.map InputFile.destination).Nodup)
    "two staged inputs would be placed at the same destination"
  ifGiven ResourceRequest.validate t.resources
  refuseIf (t.timeoutSeconds ≤ 0) "timeout_seconds must be a positive integer"
  refuseIf (t.maxAttempts ≤ 0) "max_attempts must be a positive integer"
  refuseIf (¬t.expectedArtifacts.all (· ≠ ""))
    "expected_artifacts must contain non-empty strings"

/-- A task that validates grants at least one attempt. -/
theorem maxAttempts_pos {t : TaskSpec} (h : t.validate = .ok ()) : 0 < t.maxAttempts := by
  unfold validate at h
  -- the checks before that of `max_attempts`
  iterate 14 replace h := (Validated.of_bind h).2
  have hpos := (Validated.of_bind h).1
  simpa [refuseIf] using hpos

/-- The resources a valid task declares are valid. -/
theorem resources_valid {t : TaskSpec} (h : t.validate = .ok ()) {r : ResourceRequest}
    (hr : t.resources = some r) : r.validate = .ok () := by
  unfold validate at h
  -- the checks before that of `resources`
  iterate 12 replace h := (Validated.of_bind h).2
  have hresources := (Validated.of_bind h).1
  rwa [hr] at hresources

end TaskSpec

end ChipEvolve
