import ChipEvolve.Runtime.ResultFile

/-!
# Results with types

`ProcessAdapter.execute` (`adapter.py`) stands in two places: on the bytes that a process left,
and within an attempt, on a result that was read, in a workspace in which a lookup does not fail.
There it returns and raises what it does here, with the types forgotten.
-/

namespace ChipEvolve.Adapter

open Attempt
open Builtins (text?)
open Except (Alike)
open Payload (Fields)

/-! ## Declarations -/

/-- `(root / declared).resolve()` in the workspace of an attempt. -/
def lookIn (w : Workspace) (path : String) : Except String Place :=
  match w.resolve path with
  | none => .ok .outside
  | some key =>
      match w.content key with
      | none => .ok .absent
      | some content => .ok (.file key content)

def Item.ofTyped (a : ResultArtifact) : Item :=
  { kind := .str a.kind, path := .str a.path, metadata := a.metadata, mediaType := a.mediaType }

def Normalized.declaration (entry : Normalized) : Declaration :=
  { kind := entry.kind, storeKey := entry.storeKey, metadata := entry.metadata }

section Declare

variable {H : Bytes → String} {w : Workspace} {allowed : List Json} {allowReserved : Bool}
  {seen : List String}

theorem declare_eq_examine (item : ResultArtifact) :
    declare w allowed allowReserved seen item = (do
      let entry ← examine H (lookIn w) allowed allowReserved (.ofTyped item)
      raiseWhen (entry.storeKey ∈ seen)
        (.protocol ("artifact declared more than once: " ++ quoted entry.storeKey))
      pure entry.declaration) := by
  simp only [declare, examine, Item.ofTyped, lookIn, bind_assoc]
  refine bind_congr fun metadata ↦ bind_congr fun _ ↦ bind_congr fun _ ↦ ?_
  cases w.resolve item.path with
  | none => rfl
  | some key => cases hcontent : w.content key <;> simp [raiseWhen, hcontent] <;> rfl

theorem declareAll_typed (items : List ResultArtifact) :
    Attempt.declareAll w allowed allowReserved seen items =
      List.map Normalized.declaration <$>
        declareAll H (lookIn w) allowed allowReserved seen (items.map .ofTyped) := by
  induction items generalizing seen with
  | nil => rfl
  | cons item items ih =>
      simp only [Attempt.declareAll, declareAll, List.map_cons, declare_eq_examine (H := H), ih,
        bind_assoc, pure_bind, map_bind, bind_map_left, map_pure]
      rfl

theorem validated_typed {manifest : PluginManifest} {left : Left} {items : List ResultArtifact}
    {expected : List String} {requireExpected : Bool} (hlook : left.look = lookIn w) :
    Attempt.validateArtifactDeclarations w manifest items expected requireExpected allowReserved =
      List.map Normalized.declaration <$> validateArtifactDeclarations H manifest allowReserved left
        (items.map .ofTyped) expected requireExpected := by
  have hkinds : ∀ entries : List Normalized,
      (entries.map Normalized.declaration).map Declaration.kind = entries.map Normalized.kind :=
    fun entries ↦ by rw [List.map_map]; rfl
  unfold Attempt.validateArtifactDeclarations validateArtifactDeclarations
  cases requireExpected <;>
    simp only [declareAll_typed (H := H), hlook, hkinds, map_bind, bind_map_left, map_pure,
      Bool.false_eq_true, if_true, if_false]

end Declare

/-! ## Results -/

/-- What the class holds of a result with types. -/
structure Represents (fields : Fields) (r : AdapterResult) : Prop where
  status : Payload.member? fields "status" = some r.status.value
  exitCode : exitCode fields = some r.exitCode
  startedAt : Payload.json fields "started_at" = .str r.startedAt
  endedAt : Payload.json fields "ended_at" = .str r.endedAt
  metrics : Payload.items fields "metrics" = r.metrics
  artifacts : (Payload.items fields "artifacts").mapM Item.ofArtifact =
    .ok (r.artifacts.map Item.ofTyped)
  failure : Payload.json fields "failure" = r.failure.elim .null .obj
  version : r.schemaVersion = schemaVersion

/-- The two records of an execution say the same. -/
structure SameExecution (e : Execution) (e' : AdapterExecution) : Prop where
  result : Represents e.result e'.result
  artifacts : e.artifacts.map Normalized.declaration = e'.artifacts

/-- The result file as it is read, before it is compared with the exit code. -/
def readResult (read : Bytes → Except ReadError Json) (manifest : PluginManifest) (left : Left) :
    Checked Fields :=
  match left.resultFile with
  | none => .error (.protocol ("adapter " ++ quoted manifest.pluginId ++
      " produced no adapter_result.json"))
  | some bytes => parseResult read bytes

section Results

variable {H : Bytes → String} {read : Bytes → Except ReadError Json} {manifest : PluginManifest}
  {task : TaskSpec} {outcome : ProcessOutcome} {left : Left} {w : Workspace}
  {file : Checked AdapterResult} {fields : Fields} {r : AdapterResult}

theorem value_injective : Function.Injective RuntimeStatus.value := by
  intro a b h
  cases a <;> cases b <;> first | rfl | exact absurd h (by decide)

theorem represents_ownResult {status : RuntimeStatus} {code : Int} {failure : JsonObject} :
    Represents (ownResult outcome status code failure)
      (Attempt.ownResult outcome status code failure) :=
  ⟨rfl, rfl, rfl, rfl, rfl, rfl, rfl, rfl⟩

theorem succeeded_iff (h : Represents fields r) : succeeded fields ↔ r.status = .succeeded := by
  rw [succeeded, h.status, Option.some.injEq, value_injective.eq_iff]

/-- A result that the class accepted passes the checks of its types. -/
theorem validate_typed (hfields : Payload.PluginResult.validate fields = .ok ())
    (h : Represents fields r) : r.validate = .ok () := by
  have hcode : Payload.integer? (Payload.json fields "exit_code") = some r.exitCode := h.exitCode
  simp only [Payload.PluginResult.validate, Validated.bind_eq_ok, refuseIf_eq_ok, h.status, hcode,
    h.startedAt, h.endedAt, Option.any_some, Option.some.injEq, not_not,
    decide_eq_true_eq] at hfields
  obtain ⟨_, hterminal, _, hclean, htimes, _⟩ := hfields
  have hversion : validateVersion r.schemaVersion = .ok () := by rw [h.version]; rfl
  simp only [AdapterResult.validate, Validated.bind_eq_ok, refuseIf_eq_ok, hversion, true_and]
  refine ⟨not_not.mpr ?_, ?_, ?_⟩
  · obtain ⟨status, hmem, hvalue⟩ := List.mem_map.mp hterminal
    rwa [← value_injective hvalue]
  · rwa [value_injective.eq_iff, ne_eq, Option.some.injEq] at hclean
  · simpa [Json.truthy] using htimes

theorem decided_typed (outcome : ProcessOutcome) :
    decided outcome = none ∧ Attempt.decided outcome = none ∨
    ∃ result r, decided outcome = some result ∧ Attempt.decided outcome = some r ∧
      Represents result r := by
  unfold decided Attempt.decided
  split
  · exact .inr ⟨_, _, rfl, rfl, represents_ownResult⟩
  · split
    · exact .inr ⟨_, _, rfl, rfl, represents_ownResult⟩
    · cases outcome.exceeded with
      | none => exact .inl ⟨rfl, rfl⟩
      | some message => exact .inr ⟨_, _, rfl, rfl, represents_ownResult⟩

theorem loadResult_of_undecided (h : decided outcome = none) :
    loadResult read manifest outcome left = (do
      let result ← readResult read manifest left
      raiseWhen (outcome.returncode ≠ 0 ∧ succeeded result)
        (.protocol ("adapter claimed success with a non-zero process exit code (" ++
          toString outcome.returncode ++ ")"))
      raiseWhen (exitCode result ≠ some outcome.returncode)
        (.protocol ("result exit_code " ++ toString ((exitCode result).getD 0) ++
          " does not match the process exit code " ++ toString outcome.returncode))
      pure result) := by
  unfold loadResult readResult
  rw [h]
  cases left.resultFile <;> rfl

theorem validate_of_readResult (h : readResult read manifest left = .ok fields) :
    Payload.PluginResult.validate fields = .ok () := by
  unfold readResult at h
  split at h
  · cases h
  · obtain ⟨payload, _, hdict⟩ := parseResult_eq_ok.mp h
    exact Payload.PluginResult.validate_of_fromDict hdict

theorem loadResult_typed (hfile : Alike Represents (readResult read manifest left) file) :
    Alike Represents (loadResult read manifest outcome left)
      (Attempt.loadResult outcome file) := by
  unfold Attempt.loadResult
  rcases decided_typed outcome with ⟨hnone, hnone'⟩ | ⟨result, r, hsome, hsome', h⟩
  · rw [loadResult_of_undecided hnone, hnone']
    refine hfile.bind fun fields r hread h ↦ ?_
    have hvalid := validate_typed (validate_of_readResult hread) h
    have hcode : (some r.exitCode ≠ some outcome.returncode) ↔ outcome.returncode ≠ r.exitCode := by
      rw [ne_eq, ne_eq, Option.some.injEq, eq_comm]
    simp only [hvalid, succeeded_iff h, h.exitCode, hcode, Option.getD_some, translated]
    exact (Alike.refl _).bind fun _ _ _ _ ↦ (Alike.refl _).bind fun _ _ _ _ ↦ .ok h
  · unfold loadResult
    rw [hsome, hsome']
    exact .ok h

theorem attempted_typed (hlook : left.look = lookIn w)
    (hfile : Alike Represents (readResult read manifest left) file) :
    Alike SameExecution (attempted H read manifest task false outcome left) (do
      let result ← Attempt.loadResult outcome file
      let artifacts ← Attempt.validateArtifactDeclarations w manifest result.artifacts
        task.expectedArtifacts (result.status = .succeeded) false
      pure { result := result, artifacts := artifacts }) := by
  refine (loadResult_typed hfile).bind fun fields r _ h ↦ ?_
  have hsucceeded : decide (succeeded fields) = decide (r.status = .succeeded) :=
    decide_eq_decide.mpr (succeeded_iff h)
  rw [h.artifacts, hsucceeded, validated_typed (H := H) hlook]
  exact (Alike.of_map fun entries _ ↦ (rfl : entries.map Normalized.declaration = _)).bind
    fun entries artifacts _ hentries ↦ .ok ⟨h, hentries⟩

/-- Within an attempt the adapter returns what it returns on the file that the process left, and
it raises what it raises there. -/
theorem execute_typed (hlook : left.look = lookIn w)
    (hfile : Alike Represents (readResult read manifest left) file) :
    Alike SameExecution (execute H read manifest task false outcome left)
      (Attempt.execute manifest task outcome file w) := by
  unfold execute Attempt.execute
  refine (Alike.refl _).bind fun _ _ _ _ ↦ (Alike.refl _).bind fun _ _ _ _ ↦
    (Alike.refl _).bind fun _ _ _ _ ↦ ?_
  have h : Alike SameExecution (attempted H read manifest task false outcome left) _ :=
    attempted_typed hlook hfile
  unfold concluded
  dsimp only
  generalize attempted H read manifest task false outcome left = x at h ⊢
  generalize (do
    let result ← Attempt.loadResult outcome file
    let artifacts ← Attempt.validateArtifactDeclarations w manifest result.artifacts
      task.expectedArtifacts (decide (result.status = RuntimeStatus.succeeded)) false
    pure { result := result, artifacts := artifacts } : Checked AdapterExecution) = y at h ⊢
  cases h with
  | ok h => exact .ok h
  | error e =>
      cases e with
      | protocol message => exact .ok ⟨represents_ownResult, rfl⟩
      | other message => exact .error _

end Results

end ChipEvolve.Adapter
