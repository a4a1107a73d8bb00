import ChipEvolve.Disk
import ChipEvolve.Outcome
import ChipEvolve.Runtime.Submission

/-!
# Staging

`WorkflowRuntime._stage_inputs` with the two methods of the store that place
bytes, and `_verify_input_manifest` (`runtime.py`, `store.py`).  The digest of a
submission and the digest of what was staged are computed by different code, one
branch for each place the bytes of an input may come from.
-/

namespace ChipEvolve

/-! ## What is staged -/

/-- Measured bytes placed into an attempt workspace.  The source is a label of the task, of
whatever type. -/
structure StagedInput where
  destination : String
  present : Bool
  sizeBytes : Nat
  sha256 : Option String := none
  source : Json := .null
  sourceArtifactId : Option String := none
  sourceInputId : Option String := none

namespace StagedInput

def sources (s : StagedInput) : Nat :=
  s.sourceArtifactId.toList.length + s.sourceInputId.toList.length

def validate (s : StagedInput) : Validated := do
  validateRelativePath "input destination" s.destination "attempt workspace"
  refuseIf (s.source.isNull ∧ s.sources ≠ 1)
    "a staged input names exactly one place its bytes came from"
  refuseIf (¬s.source.isNull ∧ 1 < s.sources) "a staged input may have one provenance source"
  ifGiven (fun id ↦ validateIdentifier "staged source_input_id" (some id)) s.sourceInputId
  refuseIf (s.present ∧ s.sha256.isNone) "a staged input that is present needs a sha256"
  validateSha256 "input sha256" (if s.present then s.sha256 else none) s.present
  refuseIf (¬s.present ∧ s.sha256.isSome) "a staged input that is absent may not carry a sha256"

def entry (s : StagedInput) : ManifestEntry :=
  { destination := s.destination, present := s.present, sha256 := s.sha256,
    sizeBytes := s.sizeBytes }

/-- What `sqlite3` binds to a parameter: no list, no object, and integers of 64 bits. -/
def bindable : Json → Bool
  | .arr _ | .obj _ => false
  | .int n => decide (-2 ^ 63 ≤ n ∧ n < 2 ^ 63)
  | _ => true

/-- `record_inputs` takes the row: it is valid, and its source, a label of any type, is bound. -/
def recordable (s : StagedInput) : Bool := s.validate.isOk && bindable s.source

theorem validate_of_recordable {s : StagedInput} (h : s.recordable = true) :
    s.validate = .ok () := by
  cases hvalidate : s.validate with
  | ok u => rfl
  | error e => simp [recordable, hvalidate, Except.isOk, Except.toBool] at h

end StagedInput

/-! ## The workspace -/

/-- Who wrote a file last: someone before the attempt, the staging of an input, or the
platform for itself. -/
inductive Writer where
  | earlier
  | input (index : Nat)
  | platform
  deriving DecidableEq

structure Written where
  bytes : Bytes
  writer : Writer
  deriving DecidableEq

/-- The workspace of an attempt, and what the operating system raises, if anything, when a file
is to be written there. -/
structure Site where
  root : FilePath
  refuses : Disk Written → FilePath → Option String := fun _ _ ↦ none

namespace Site

def put (site : Site) (disk : Disk Written) (path : FilePath) (w : Written) :
    Except RuntimeError (Disk Written) :=
  match site.refuses disk path with
  | some message => .error (.os message)
  | none =>
      match disk.write path w with
      | some disk' => .ok disk'
      | none => .error (.os "Too many levels of symbolic links")

/-- `workspace / declaration.destination` -/
def destination (site : Site) (i : InputFile) : FilePath := site.root ++ pathParts i.destination

/-- The digest and the size of what is at the destination. -/
def measure (H : Bytes → String) (site : Site) (disk : Disk Written) (i : InputFile) :
    Except RuntimeError (String × Nat) :=
  match disk.read (site.destination i) with
  | some w => .ok (H w.bytes, w.bytes.length)
  | none => .error (.os "No such file or directory")

end Site

/-! ## The places bytes come from -/

/-- What staging finds: the files of the host and the depot. -/
structure Surroundings where
  host : Host
  depot : Depot

/-- The recorded digest and size of bytes the platform holds, and the bytes; or the message of a
`RuntimeStoreError`. -/
abbrev Held := Except String (String × Nat × Bytes)

namespace Depot

/-- `materialize_input` up to the copy. -/
def materializeInput (H : Bytes → String) (d : Depot) (inputId : String) : Held :=
  match d.uploadedInput? inputId with
  | none => .error ("unknown uploaded input: " ++ quoted inputId)
  | some row =>
      match d.objects row.sha256 with
      | none => .error ("uploaded input object is missing: " ++ quoted inputId)
      | some bytes =>
          if bytes.length ≠ row.sizeBytes ∨ H bytes ≠ row.sha256 then
            .error ("uploaded input object does not match: " ++ quoted inputId)
          else .ok (row.sha256, row.sizeBytes, bytes)

/-- `materialize_artifact` up to the copy; `location` prints the path of an artifact. -/
def materializeArtifact (location : ArtifactRow → String) (d : Depot) (artifactId : String) :
    Held :=
  match d.artifact? artifactId with
  | none => .error ("no such artifact: " ++ quoted artifactId)
  | some row =>
      match d.artifactFile row with
      | .error _ => .error "registered artifact escapes the runtime workspace"
      | .ok none =>
          .error ("artifact " ++ quoted artifactId ++ " is recorded as " ++ row.sha256 ++
            " but its bytes are missing from " ++ location row)
      | .ok (some bytes) => .ok (row.sha256, row.sizeBytes, bytes)

end Depot

section Stage

variable (H : Bytes → String) (site : Site) (location : ArtifactRow → String)

/-- Place bytes the platform holds and check what was copied against their record; `staged`
says where they come from. -/
def stageHeld (mismatch : String × Nat → String × Nat → String) (staged : StagedInput)
    (source : Json) (held : Held) (index : Nat) (i : InputFile) (disk : Disk Written) :
    Except RuntimeError (StagedInput × Disk Written) :=
  match held with
  | .error message =>
      if i.required then .error (.inputStaging message) else .ok (staged, disk)
  | .ok (sha256, size, bytes) => do
      let disk ← site.put disk (site.destination i) { bytes := bytes, writer := .input index }
      let copied ← site.measure H disk i
      raiseIf (copied ≠ (sha256, size)) (.inputStaging (mismatch (sha256, size) copied))
      return ({ staged with
                present := true, sizeBytes := copied.2, sha256 := some copied.1,
                source := source }, disk)

def stageFromArtifact (found : Surroundings) (artifactId : String) :
    Nat → InputFile → Disk Written → Except RuntimeError (StagedInput × Disk Written)
  | index, i, disk =>
      stageHeld H site
        (fun recorded copied ↦ "artifact " ++ quoted artifactId ++
          " does not match its own record: recorded " ++ recorded.1 ++ " (" ++
          toString recorded.2 ++ " bytes), copied " ++ copied.1 ++ " (" ++ toString copied.2 ++
          " bytes)")
        { destination := i.destination, present := false, sizeBytes := 0,
          sourceArtifactId := some artifactId }
        .null (found.depot.materializeArtifact location artifactId) index i disk

def stageFromInput (found : Surroundings) (inputId : String) (source : Json) :
    Nat → InputFile → Disk Written → Except RuntimeError (StagedInput × Disk Written)
  | index, i, disk =>
      stageHeld H site
        (fun recorded copied ↦ "uploaded input " ++ quoted inputId ++
          " does not match its record: " ++ recorded.1 ++ " (" ++ toString recorded.2 ++
          "), copied " ++ copied.1 ++ " (" ++ toString copied.2 ++ ")")
        { destination := i.destination, present := false, sizeBytes := 0,
          sourceInputId := some inputId }
        source (found.depot.materializeInput H inputId) index i disk

/-- A host file that was not frozen. -/
def stageFromHost (found : Surroundings) (index : Nat) (i : InputFile) (disk : Disk Written) :
    Except RuntimeError (StagedInput × Disk Written) := do
  let path ← found.host.resolve i.hostPath
  match found.host.file path with
  | none =>
      if i.required then
        .error (.inputStaging ("required input disappeared before it could be staged: " ++
          quoted i.hostPath))
      else
        return ({ destination := i.destination, present := false, sizeBytes := 0,
                  source := .str i.hostPath }, disk)
  | some contents => do
      let bytes ← contents
      let disk ← site.put disk (site.destination i) { bytes := bytes, writer := .input index }
      let copied ← site.measure H disk i
      return ({ destination := i.destination, present := true, sizeBytes := copied.2,
                sha256 := some copied.1, source := .str i.hostPath }, disk)

/-- One input of `_stage_inputs`. -/
def stageInput (labels : JsonObject) (found : Surroundings) (index : Nat) (i : InputFile)
    (disk : Disk Written) : Except RuntimeError (StagedInput × Disk Written) :=
  match i.inputId, i.artifactId with
  | some inputId, _ =>
      stageFromInput H site found inputId ((labels.get? (hostSourceLabel index)).getD .null)
        index i disk
  | none, some artifactId => stageFromArtifact H site location found artifactId index i disk
  | none, none => stageFromHost H site found index i disk

/-- The loop of `_stage_inputs` from an index on; `finds` is what the input at an index finds. -/
def stageAll (labels : JsonObject) (finds : Nat → Surroundings) :
    Nat → List InputFile → Disk Written → Except RuntimeError (List StagedInput × Disk Written)
  | _, [], disk => .ok ([], disk)
  | index, i :: rest, disk => do
      let (staged, disk) ← stageInput H site location labels (finds index) index i disk
      let (others, disk) ← stageAll labels finds (index + 1) rest disk
      return (staged :: others, disk)

def inputManifestFilename : String := "input_manifest.json"

/-- `_stage_inputs`; `document` prints the manifest that is written into the workspace. -/
def stageInputs (document : List StagedInput → Bytes) (finds : Nat → Surroundings)
    (task : TaskSpec) (disk : Disk Written) :
    Except RuntimeError (List StagedInput × Disk Written) :=
  if task.stagedInputs.isEmpty then .ok ([], disk)
  else do
    let (staged, disk) ← stageAll H site location task.labels finds 0 task.stagedInputs disk
    let disk ← site.put disk (site.root ++ [inputManifestFilename])
      { bytes := document staged, writer := .platform }
    return (staged, disk)

/-- `_verify_input_manifest` -/
def verifyInputManifest (task : TaskSpec) (staged : List StagedInput) :
    Except RuntimeError Unit :=
  raiseIf (task.inputManifestSha256.getD "" ≠ "" ∧
      some (manifestDigest H (staged.map StagedInput.entry)) ≠ task.inputManifestSha256)
    (.inputStaging "input bytes changed after submission; execution was refused")

end Stage

/-! ## What one step of the staging does -/

open Except (bind_eq_ok)

theorem raiseIf_eq_ok {p : Prop} [Decidable p] {e : RuntimeError} {u : Unit} :
    raiseIf p e = .ok u ↔ ¬p := by
  unfold raiseIf
  split <;> simp_all

section Step

variable {H : Bytes → String} {site : Site} {location : ArtifactRow → String}
  {disk disk' : Disk Written} {path : FilePath} {w : Written} {i : InputFile} {index : Nat}
  {staged : StagedInput} {found : Surroundings} {labels : JsonObject}

theorem Site.put_eq_ok (h : site.put disk path w = .ok disk') :
    disk.write path w = some disk' := by
  unfold Site.put at h
  split at h
  · cases h
  · split at h
    · next hwrite => rw [hwrite, Except.ok.inj h]
    · cases h

/-- What is measured at a destination is what was just copied there. -/
theorem Site.measure_of_put (h : site.put disk (site.destination i) w = .ok disk') :
    site.measure H disk' i = .ok (H w.bytes, w.bytes.length) := by
  rw [measure, Disk.read_of_write (put_eq_ok h)]

theorem stageHeld_cases {mismatch : String × Nat → String × Nat → String} {absent : StagedInput}
    {source : Json} {held : Held}
    (h : stageHeld H site mismatch absent source held index i disk = .ok (staged, disk')) :
    (∃ message, held = .error message ∧ i.required = false ∧ staged = absent ∧ disk' = disk) ∨
      ∃ bytes, held = .ok (H bytes, bytes.length, bytes) ∧
        staged = { absent with
          present := true, sizeBytes := bytes.length, sha256 := some (H bytes),
          source := source } ∧
        site.put disk (site.destination i) { bytes := bytes, writer := .input index } =
          .ok disk' := by
  cases held with
  | error message =>
      simp only [stageHeld] at h
      split at h
      · cases h
      · next hrequired =>
          obtain ⟨rfl, rfl⟩ := Prod.mk.inj (Except.ok.inj h)
          exact .inl ⟨message, rfl, by simpa using hrequired, rfl, rfl⟩
  | ok record =>
      obtain ⟨sha256, size, bytes⟩ := record
      obtain ⟨disk₁, hput, h⟩ := bind_eq_ok.mp h
      obtain ⟨copied, hcopied, h⟩ := bind_eq_ok.mp h
      obtain ⟨_, hmatch, h⟩ := bind_eq_ok.mp h
      obtain ⟨rfl, rfl⟩ := Prod.mk.inj (Except.ok.inj h)
      rw [Site.measure_of_put hput] at hcopied
      obtain rfl := Except.ok.inj hcopied
      obtain ⟨rfl, rfl⟩ := Prod.mk.inj (not_not.mp (raiseIf_eq_ok.mp hmatch))
      exact .inr ⟨bytes, rfl, rfl, hput⟩

theorem stageFromHost_cases (h : stageFromHost H site found index i disk = .ok (staged, disk')) :
    ∃ source, found.host.resolve i.hostPath = .ok source ∧
      ((found.host.file source = none ∧ i.required = false ∧ disk' = disk ∧
        staged = { destination := i.destination, present := false, sizeBytes := 0,
                   source := .str i.hostPath }) ∨
      ∃ bytes, found.host.file source = some (.ok bytes) ∧
        staged = { destination := i.destination, present := true, sizeBytes := bytes.length,
                   sha256 := some (H bytes), source := .str i.hostPath } ∧
        site.put disk (site.destination i) { bytes := bytes, writer := .input index } =
          .ok disk') := by
  obtain ⟨source, hsource, h⟩ := bind_eq_ok.mp h
  refine ⟨source, hsource, ?_⟩
  cases hfile : found.host.file source with
  | none =>
      rw [hfile] at h
      simp only at h
      split at h
      · cases h
      · next hrequired =>
          obtain ⟨rfl, rfl⟩ := Prod.mk.inj (Except.ok.inj h)
          exact .inl ⟨rfl, by simpa using hrequired, rfl, rfl⟩
  | some contents =>
      rw [hfile] at h
      obtain ⟨bytes, hbytes, h⟩ := bind_eq_ok.mp h
      obtain ⟨disk₁, hput, h⟩ := bind_eq_ok.mp h
      obtain ⟨copied, hcopied, h⟩ := bind_eq_ok.mp h
      obtain ⟨rfl, rfl⟩ := Prod.mk.inj (Except.ok.inj h)
      rw [Site.measure_of_put hput] at hcopied
      obtain rfl := Except.ok.inj hcopied
      exact .inr ⟨bytes, by rw [hbytes], rfl, hput⟩

/-- The bytes the platform has for an input. -/
def Surroundings.supplies (H : Bytes → String) (location : ArtifactRow → String)
    (found : Surroundings) (i : InputFile) : Option Bytes :=
  match i.inputId, i.artifactId with
  | some inputId, _ => (found.depot.materializeInput H inputId).toOption.map fun r ↦ r.2.2
  | none, some artifactId =>
      (found.depot.materializeArtifact location artifactId).toOption.map fun r ↦ r.2.2
  | none, none =>
      (found.host.resolve i.hostPath).toOption.bind fun source ↦
        (found.host.file source).bind Except.toOption

/-- An input is recorded with the measures of its bytes, which are put at its destination; or,
when there are none and it is optional, as absent. -/
theorem stageInput_cases
    (h : stageInput H site location labels found index i disk = .ok (staged, disk')) :
    staged.destination = i.destination ∧
      ((found.supplies H location i = none ∧ i.required = false ∧ disk' = disk ∧
        staged.entry = i.measured none 0) ∨
      ∃ bytes, found.supplies H location i = some bytes ∧
        staged.entry = i.measured (some (H bytes)) bytes.length ∧
        site.put disk (site.destination i) { bytes := bytes, writer := .input index } =
          .ok disk') := by
  unfold stageInput at h
  unfold Surroundings.supplies
  split at h
  · next inputId hid =>
      rw [stageFromInput] at h
      rcases stageHeld_cases h with ⟨message, hheld, hrequired, rfl, rfl⟩ | ⟨bytes, hheld, rfl, hput⟩
      · exact ⟨rfl, .inl ⟨by simp [hheld, Except.toOption], hrequired, rfl, rfl⟩⟩
      · exact ⟨rfl, .inr ⟨bytes, by simp [hheld, Except.toOption], rfl, hput⟩⟩
  · next artifactId hid hartifact =>
      rw [stageFromArtifact] at h
      rcases stageHeld_cases h with ⟨message, hheld, hrequired, rfl, rfl⟩ | ⟨bytes, hheld, rfl, hput⟩
      · exact ⟨rfl, .inl ⟨by simp [hheld, Except.toOption], hrequired, rfl, rfl⟩⟩
      · exact ⟨rfl, .inr ⟨bytes, by simp [hheld, Except.toOption], rfl, hput⟩⟩
  · next hid hartifact =>
      obtain ⟨source, hsource, hcases⟩ := stageFromHost_cases h
      rcases hcases with ⟨hfile, hrequired, rfl, rfl⟩ | ⟨bytes, hfile, rfl, hput⟩
      · exact ⟨rfl, .inl ⟨by simp [hsource, hfile, Except.toOption], hrequired,
          rfl, rfl⟩⟩
      · exact ⟨rfl, .inr ⟨bytes, by simp [hsource, hfile, Except.toOption], rfl,
          hput⟩⟩

theorem stageAll_nil {finds : Nat → Surroundings} {all : List StagedInput}
    (h : stageAll H site location labels finds index [] disk = .ok (all, disk')) :
    all = [] ∧ disk' = disk := by
  obtain ⟨rfl, rfl⟩ := Prod.mk.inj (Except.ok.inj h)
  exact ⟨rfl, rfl⟩

theorem stageAll_cons {finds : Nat → Surroundings} {rest : List InputFile}
    {all : List StagedInput}
    (h : stageAll H site location labels finds index (i :: rest) disk = .ok (all, disk')) :
    ∃ first disk₁ others,
      stageInput H site location labels (finds index) index i disk = .ok (first, disk₁) ∧
      stageAll H site location labels finds (index + 1) rest disk₁ = .ok (others, disk') ∧
      all = first :: others := by
  obtain ⟨⟨first, disk₁⟩, hfirst, h⟩ := bind_eq_ok.mp h
  obtain ⟨⟨others, disk₂⟩, hothers, h⟩ := bind_eq_ok.mp h
  obtain ⟨rfl, rfl⟩ := Prod.mk.inj (Except.ok.inj h)
  exact ⟨first, disk₁, others, hfirst, hothers, rfl⟩

end Step

end ChipEvolve
