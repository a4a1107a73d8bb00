import ChipEvolve.Contracts.Malformed
import ChipEvolve.Runtime.Attempt
import Mathlib.Data.Set.List

/-!
# After the adapter process

What `ProcessAdapter.execute` does once the process ended (`adapter.py`): `_load_result`,
`_validate_artifacts`, `validate_artifact_declarations` and `protocol_failure`, from the
bytes of the result file and in a workspace where looking up a path may itself raise.
A result is here what `PluginResult` holds, field by field, with the types its
`validate` tests.
-/

namespace ChipEvolve.Adapter

open Attempt
open Builtins (dictable hashable text?)
open Except (Raises Returns)
open Payload (Fields)

/-! ## What the process left -/

/-- What `json.loads(path.read_text(encoding="utf-8"))` raises. -/
inductive ReadError
  | osError (message : String)
  | valueError (message : String)
  | recursionError (message : String)

/-- `(root / declared).resolve()`: outside the root, inside it without a regular file, or a
regular file inside it, by its path relative to the root. -/
inductive Place
  | outside
  | absent
  | file (storeKey : String) (content : Bytes)
  deriving DecidableEq

/-- The bytes of the result file, if there is one, and where a declared path leads, when
looking it up does not raise. -/
structure Left where
  resultFile : Option Bytes
  look : String → Except String Place

/-! ## Results -/

/-- `PluginResult(…)`, as the platform writes it. -/
def ownResult (outcome : ProcessOutcome) (status : RuntimeStatus) (exitCode : Int)
    (failure : JsonObject) : Fields :=
  [("status", .member status.value), ("exit_code", .plain (.int exitCode)),
    ("started_at", .plain (.str outcome.startedAt)), ("ended_at", .plain (.str outcome.endedAt)),
    ("metrics", .tuple []), ("artifacts", .tuple []), ("failure", .plain (.obj failure)),
    ("provenance", .plain (.obj [])), ("schema_version", .plain (.int schemaVersion))]

/-- What the platform decided itself when it ended the process. -/
def decided (outcome : ProcessOutcome) : Option Fields :=
  if outcome.cancelled then
    some (ownResult outcome .cancelled outcome.returncode
      [("category", .str "cancelled"), ("message", .str "cancellation requested")])
  else if outcome.timedOut then
    some (ownResult outcome .timedOut outcome.returncode
      [("category", .str "timeout"), ("message", .str "adapter deadline exceeded")])
  else
    outcome.exceeded.map fun message ↦ ownResult outcome .failed outcome.returncode
      [("category", .str "resource_exceeded"), ("message", .str message),
        ("retryable", .bool false)]

/-- `protocol_failure` -/
def protocolFailure (outcome : ProcessOutcome) (message : String) : Fields :=
  ownResult outcome .failed (if outcome.returncode ≠ 0 then outcome.returncode else 1)
    [("category", .str "protocol_error"), ("message", .str message)]

def succeeded (result : Fields) : Prop :=
  Payload.member? result "status" = some RuntimeStatus.succeeded.value

instance (result : Fields) : Decidable (succeeded result) :=
  inferInstanceAs (Decidable (_ = _))

/-- `result.exit_code` -/
def exitCode (result : Fields) : Option Int :=
  Payload.integer? (Payload.json result "exit_code")

/-! ## `_load_result` -/

/-- `PluginResult.from_dict(json.loads(…))` and its `except` clause. -/
def parseResult (read : Bytes → Except ReadError Json) (bytes : Bytes) : Checked Fields :=
  match read bytes with
  | .error (.osError m) | .error (.valueError m) =>
      .error (.protocol ("invalid adapter_result.json: " ++ m))
  | .error (.recursionError m) => .error (.other m)
  | .ok payload =>
      match Payload.PluginResult.fromDict payload with
      | .error (.contract m) | .error (.valueError m) =>
          .error (.protocol ("invalid adapter_result.json: " ++ m))
      | .error (.typeError m) => .error (.other m)
      | .ok result => .ok result

/-- `_load_result` -/
def loadResult (read : Bytes → Except ReadError Json) (manifest : PluginManifest)
    (outcome : ProcessOutcome) (left : Left) : Checked Fields :=
  match decided outcome with
  | some result => .ok result
  | none =>
      match left.resultFile with
      | none => .error (.protocol ("adapter " ++ quoted manifest.pluginId ++
          " produced no adapter_result.json"))
      | some bytes => do
          let result ← parseResult read bytes
          raiseWhen (outcome.returncode ≠ 0 ∧ succeeded result)
            (.protocol ("adapter claimed success with a non-zero process exit code (" ++
              toString outcome.returncode ++ ")"))
          raiseWhen (exitCode result ≠ some outcome.returncode)
            (.protocol ("result exit_code " ++ toString ((exitCode result).getD 0) ++
              " does not match the process exit code " ++ toString outcome.returncode))
          pure result

/-! ## `validate_artifact_declarations` -/

/-- An item of the declarations. -/
structure Item where
  kind : Json
  path : Json
  metadata : Json
  mediaType : Json

/-- The item `_validate_artifacts` makes of one artifact of a result. -/
def Item.ofArtifact : Json → Checked Item
  | .obj m =>
      match JsonObject.get? m "kind", JsonObject.get? m "path" with
      | some kind, some path =>
          .ok { kind := kind, path := path,
                metadata := (JsonObject.get? m "metadata").getD (.obj []),
                mediaType := (JsonObject.get? m "media_type").getD .null }
      | _, _ => .error (.other "KeyError")
  | _ => .error (.other "object is not subscriptable")

/-- An entry of what is returned. -/
structure Normalized where
  kind : String
  storeKey : String
  sizeBytes : Nat
  sha256 : String
  mediaType : Json
  metadata : JsonObject

/-- `kind` passes the allowlist of the manifest. -/
def Allows (allowed : List Json) (allowReserved : Bool) (kind : String) : Prop :=
  allowed = [] ∨ (∃ k ∈ allowed, k = .str kind) ∨ allowReserved = true

section Declare

variable (H : Bytes → String) (look : String → Except String Place) (allowed : List Json)
  (allowReserved : Bool)

/-- The loop over the declarations, up to the test for duplicates. -/
def examine (item : Item) : Checked Normalized :=
  match item.kind, item.path with
  | .str kind, .str path => do
      let metadata ← metadataOf item.metadata
      translated "" (validateDeclaration kind path metadata allowReserved)
      raiseWhen (!allowed.isEmpty && !(allowed.any fun k ↦ text? k = some kind) && !allowReserved)
        (.protocol ("artifact kind " ++ quoted kind ++ " is not allowed by the manifest"))
      match look path with
      | .error m => .error (.other m)
      | .ok .outside =>
          .error (.protocol ("artifact path escapes the workspace: " ++ quoted path))
      | .ok .absent => .error (.protocol ("artifact is missing: " ++ quoted path))
      | .ok (.file key content) =>
          pure { kind := kind, storeKey := key, sizeBytes := content.length, sha256 := H content,
                 mediaType := item.mediaType, metadata := metadata.getD [] }
  | _, _ => .error (.protocol "artifact declaration needs kind and path")

def declareAll : List String → List Item → Checked (List Normalized)
  | _, [] => .ok []
  | seen, item :: items => do
      let entry ← examine H look allowed allowReserved item
      raiseWhen (entry.storeKey ∈ seen)
        (.protocol ("artifact declared more than once: " ++ quoted entry.storeKey))
      let rest ← declareAll (entry.storeKey :: seen) items
      pure (entry :: rest)

end Declare

section Execute

variable (H : Bytes → String) (read : Bytes → Except ReadError Json) (manifest : PluginManifest)
  (task : TaskSpec) (allowReserved : Bool) (outcome : ProcessOutcome) (left : Left)

/-- `validate_artifact_declarations` -/
def validateArtifactDeclarations (declarations : List Item) (expectedKinds : List String)
    (requireExpected : Bool) : Checked (List Normalized) := do
  let rules ← ruleObjects manifest.artifactRules
  let allowed ← allowedKinds rules
  let normalized ← declareAll H left.look allowed allowReserved [] declarations
  if requireExpected then requireKinds rules expectedKinds (normalized.map Normalized.kind)
  pure normalized

/-- What `execute` returns. -/
structure Execution where
  result : Fields
  artifacts : List Normalized

/-- The `try` block of `execute`. -/
def attempted : Checked Execution := do
  let result ← loadResult read manifest outcome left
  let declarations ← (Payload.items result "artifacts").mapM Item.ofArtifact
  let artifacts ← validateArtifactDeclarations H manifest allowReserved left declarations
    task.expectedArtifacts (succeeded result)
  pure { result := result, artifacts := artifacts }

/-- `execute` after the process ended. -/
def concluded : Checked Execution :=
  match attempted H read manifest task allowReserved outcome left with
  | .error (.protocol message) =>
      .ok { result := protocolFailure outcome message, artifacts := [] }
  | done => done

/-- `ProcessAdapter.execute`, for a process that ends so. -/
def execute : Checked Execution := do
  contract manifest.validate
  contract task.validate
  raiseWhen (task.pluginId ≠ some manifest.pluginId) (.other "task targets another plugin")
  concluded H read manifest task allowReserved outcome left

end Execute

/-! ## What is raised -/

/-- An exception that `execute` does not turn into a failed result. -/
def Escaping : Raised → Prop
  | .protocol _ => False
  | .other _ => True

section Rules

variable {p : Prop} [Decidable p] {message lead : String} {v : Validated} {u : Unit}

@[simp] theorem not_raises_raiseWhen : ¬Raises Escaping (raiseWhen p (.protocol message)) := by
  unfold raiseWhen
  split <;> simp [Escaping]

@[simp] theorem not_raises_translated : ¬Raises Escaping (translated lead v) := by
  cases v <;> simp [translated, Escaping]

@[simp] theorem raiseWhen_eq_ok {e : Raised} : raiseWhen p e = .ok u ↔ ¬p := by
  unfold raiseWhen
  split <;> simp_all

@[simp] theorem translated_eq_ok : translated lead v = .ok u ↔ v = .ok () := by
  cases v <;> simp [translated]

end Rules

/-- `PluginResult.from_dict` converts nothing that would be refused with a plain `ValueError`. -/
theorem fromDict_ne_valueError {payload : Json} {m : String} :
    Payload.PluginResult.fromDict payload ≠ .error (.valueError m) := by
  intro h
  have hraises : Raises (fun e ↦ e = .valueError m) (Payload.PluginResult.fromDict payload) :=
    ⟨_, h, rfl⟩
  cases payload with
  | obj members =>
      have hcontract : ∀ {α : Type} {x : Except String α},
          ¬Raises (fun e ↦ e = Payload.FromDictError.valueError m) (Payload.contractual x) := by
        rintro α (_ | _) <;> simp [Payload.contractual, Except.mapError]
      have hlisted : ∀ j : Option Json, ¬Raises (fun e ↦ e = Payload.FromDictError.valueError m)
          (Payload.given Payload.toTuple j) := by
        rintro (_ | j)
        · simp [Payload.given]
        · cases j <;>
            simp [Payload.given, Payload.toTuple, Payload.builtin, Builtins.iterate,
              Payload.FromDictError.ofFailure, Except.mapError]
      have hstatus : ∀ j : Option Json, ¬Raises (fun e ↦ e = Payload.FromDictError.valueError m)
          (Payload.toStatus j) := by
        rintro (_ | j)
        · simp [Payload.toStatus]
        · exact hcontract
      have hfields : ∀ C converted, ¬Raises (fun e ↦ e = Payload.FromDictError.valueError m)
          (Payload.instantiate C members converted) := by
        intro C converted
        unfold Payload.instantiate
        rw [Except.raises_mapM]
        rintro ⟨_, f, _, _, _, hargument⟩
        unfold Payload.argument at hargument
        split at hargument <;> simp at hargument
      simp only [Payload.PluginResult.fromDict, Except.raises_bind, Except.raises_pure, hcontract,
        hlisted, hstatus, hfields, and_false, exists_false, or_false] at hraises
  | _ => simp [Payload.PluginResult.fromDict] at hraises

section Load

variable {read : Bytes → Except ReadError Json} {manifest : PluginManifest}
  {outcome : ProcessOutcome} {left : Left} {bytes : Bytes} {result : Fields}

/-- The result agrees with the exit code of the process. -/
def Agrees (outcome : ProcessOutcome) (result : Fields) : Prop :=
  ¬(outcome.returncode ≠ 0 ∧ succeeded result) ∧ exitCode result = some outcome.returncode

theorem raises_parseResult : Raises Escaping (parseResult read bytes) ↔
    (∃ m, read bytes = .error (.recursionError m)) ∨
      ∃ payload, read bytes = .ok payload ∧ Payload.PluginResult.Escapes payload := by
  unfold parseResult
  split <;> rename_i hread
  · simp [hread, Escaping]
  · simp [hread, Escaping]
  · simp [hread, Escaping]
  · rename_i payload
    have hescapes := Payload.PluginResult.raises_fromDict payload
    simp only [hread, reduceCtorEq, exists_false, false_or, Except.ok.injEq, exists_eq_left']
    rw [← hescapes]
    split <;> rename_i hdict
    · simp [hdict, Escaping, Payload.FromDictError.Escaping]
    · exact absurd hdict fromDict_ne_valueError
    · simp [hdict, Escaping, Payload.FromDictError.Escaping]
    · simp [hdict]

theorem parseResult_eq_ok : parseResult read bytes = .ok result ↔
    ∃ payload, read bytes = .ok payload ∧ Payload.PluginResult.fromDict payload = .ok result := by
  unfold parseResult
  split <;> rename_i hread
  · simp [hread]
  · simp [hread]
  · simp [hread]
  · simp only [hread, Except.ok.injEq, exists_eq_left']
    split <;> rename_i hdict <;> simp [hdict]

/-- What escapes from reading a result file that the platform needs. -/
def FileEscapes (read : Bytes → Except ReadError Json) (outcome : ProcessOutcome) (left : Left) :
    Prop :=
  decided outcome = none ∧ ∃ bytes, left.resultFile = some bytes ∧
    ((∃ m, read bytes = .error (.recursionError m)) ∨
      ∃ payload, read bytes = .ok payload ∧ Payload.PluginResult.Escapes payload)

/-- The result that counts: the one the platform decided on, or else the one in the file, if it
is well formed and agrees with the exit code. -/
def Counts (read : Bytes → Except ReadError Json) (outcome : ProcessOutcome) (left : Left)
    (result : Fields) : Prop :=
  decided outcome = some result ∨
    decided outcome = none ∧ ∃ bytes payload, left.resultFile = some bytes ∧
      read bytes = .ok payload ∧ Payload.PluginResult.fromDict payload = .ok result ∧
        Agrees outcome result

theorem raises_loadResult :
    Raises Escaping (loadResult read manifest outcome left) ↔ FileEscapes read outcome left := by
  unfold loadResult FileEscapes
  split <;> rename_i hdecided
  · simp [hdecided]
  · split <;> rename_i hfile
    · simp [hfile, Escaping]
    · simp only [Except.raises_bind, Except.raises_pure, raises_parseResult, not_raises_raiseWhen,
        and_false, exists_false, or_false, hdecided, hfile, Option.some.injEq, exists_eq_left',
        true_and]

theorem loadResult_eq_ok :
    loadResult read manifest outcome left = .ok result ↔ Counts read outcome left result := by
  unfold loadResult Counts
  split <;> rename_i hdecided
  · simp [hdecided]
  · split <;> rename_i hfile
    · simp [hdecided, hfile]
    · simp only [Except.bind_eq_ok, parseResult_eq_ok, raiseWhen_eq_ok, hdecided, hfile,
        reduceCtorEq, false_or, true_and, Option.some.injEq, exists_and_left, exists_eq_left']
      constructor
      · rintro ⟨r, ⟨payload, hread, hdict⟩, hclaim, hcode, _, _, hsame⟩
        obtain rfl := Except.ok.inj hsame
        exact ⟨payload, hread, hdict, hclaim, not_not.mp hcode⟩
      · rintro ⟨payload, hread, hdict, hclaim, hcode⟩
        exact ⟨result, ⟨payload, hread, hdict⟩, hclaim, not_not.mpr hcode, (), (), rfl⟩

end Load

/-! ## Declarations -/

/-- The rules a manifest gives as objects. -/
def ruleMembers (rules : List Json) : List JsonObject := rules.filterMap fun
  | .obj members => some members
  | _ => none

/-- `{rule.get("kind") for rule in manifest.artifact_rules if rule.get("kind")}` -/
def allowedBy (rules : List Json) : List Json :=
  ((ruleMembers rules).map ruleKind).filter Json.truthy

/-- A rule that cannot be asked for its kind, or whose kind cannot be put into a set. -/
def BadRule : Json → Prop
  | .obj members => (ruleKind members).truthy = true ∧ hashable (ruleKind members) = false
  | _ => True

/-- A required rule whose kind is no text and counts as missing. -/
def Unsortable : Json → Prop
  | .obj members => ruleRequired members = true ∧
      (hashable (ruleKind members) = false ∨
        (ruleKind members).truthy = true ∧ text? (ruleKind members) = none)
  | _ => False

section Rule

variable {rules : List Json} {members : List JsonObject}

theorem ruleMembers_map : ruleMembers (members.map .obj) = members := by
  unfold ruleMembers
  rw [List.filterMap_map]
  exact List.filterMap_some

theorem ruleObjects_map : ruleObjects (members.map .obj) = .ok members := by
  induction members with
  | nil => rfl
  | cons m members ih =>
      unfold ruleObjects at ih ⊢
      rw [List.map_cons, List.mapM_cons, ih]
      rfl

theorem exists_members (h : ∀ rule ∈ rules, ∃ m, rule = .obj m) :
    ∃ members : List JsonObject, rules = members.map .obj := by
  have hrange : rules ∈ Set.range (List.map Json.obj) := by
    rw [Set.range_list_map]
    exact fun rule hrule ↦ (h rule hrule).imp fun _ ↦ Eq.symm
  exact hrange.imp fun _ ↦ Eq.symm

theorem raises_ruleObjects :
    Raises Escaping (ruleObjects rules) ↔ ∃ rule ∈ rules, ∀ m, rule ≠ .obj m := by
  unfold ruleObjects
  rw [Except.raises_mapM_of_forall]
  · refine exists_congr fun rule ↦ and_congr_right fun _ ↦ ?_
    cases rule <;> simp
  · intro rule _ h
    cases rule <;> simp_all [Escaping]

theorem ruleObjects_eq_ok : ruleObjects rules = .ok members ↔ rules = members.map .obj := by
  constructor
  · intro h
    have hobjects : ∀ rule ∈ rules, ∃ m, rule = .obj m := by
      by_contra hnot
      push Not at hnot
      have hraises := raises_ruleObjects.mpr hnot
      rw [h] at hraises
      exact Except.raises_ok hraises
    obtain ⟨members', rfl⟩ := exists_members hobjects
    rw [Except.ok.inj (ruleObjects_map.symm.trans h)]
  · rintro rfl
    exact ruleObjects_map

theorem raises_allowedKinds : Raises Escaping (allowedKinds members) ↔
    ∃ m ∈ members, BadRule (.obj m) := by
  unfold allowedKinds
  simp only [Except.raises_ite, Except.raises_ok, and_false, false_or, Except.raises_error,
    Escaping, and_true, List.all_eq_true, List.mem_filter, List.mem_map, not_forall, BadRule,
    Bool.not_eq_true]
  constructor
  · rintro ⟨_, ⟨⟨m, hm, rfl⟩, htruthy⟩, hhash⟩
    exact ⟨m, hm, htruthy, hhash⟩
  · rintro ⟨m, hm, htruthy, hhash⟩
    exact ⟨_, ⟨⟨m, hm, rfl⟩, htruthy⟩, hhash⟩

/-- Building the set of allowed kinds escapes where a rule is bad. -/
theorem raises_allowed : (Raises Escaping (ruleObjects rules) ∨ ∃ members,
      ruleObjects rules = .ok members ∧ Raises Escaping (allowedKinds members)) ↔
    ∃ rule ∈ rules, BadRule rule := by
  rw [raises_ruleObjects]
  simp only [ruleObjects_eq_ok, raises_allowedKinds]
  constructor
  · rintro (⟨rule, hrule, hnone⟩ | ⟨members, rfl, m, hm, hbad⟩)
    · refine ⟨rule, hrule, ?_⟩
      cases rule with
      | obj m => exact absurd rfl (hnone m)
      | _ => trivial
    · exact ⟨_, List.mem_map_of_mem hm, hbad⟩
  · rintro ⟨rule, hrule, hbad⟩
    by_cases hobjects : ∀ rule ∈ rules, ∃ m, rule = .obj m
    · obtain ⟨members, rfl⟩ := exists_members hobjects
      obtain ⟨m, hm, rfl⟩ := List.mem_map.mp hrule
      exact .inr ⟨members, rfl, m, hm, hbad⟩
    · push Not at hobjects
      exact .inl hobjects

theorem allowedKinds_eq_ok {allowed : List Json} : allowedKinds members = .ok allowed ↔
    (∀ m ∈ members, ¬BadRule (.obj m)) ∧ allowed = allowedBy (members.map .obj) := by
  have hgood : ((members.map ruleKind).filter Json.truthy).all hashable = true ↔
      ∀ m ∈ members, ¬BadRule (.obj m) := by
    simp only [List.all_eq_true, List.mem_filter, List.mem_map, and_imp, forall_exists_index,
      forall_apply_eq_imp_iff₂, BadRule, not_and, Bool.not_eq_false]
  rw [← hgood, allowedBy, ruleMembers_map]
  unfold allowedKinds
  dsimp only
  split <;> rename_i hhash <;> simp [hhash, eq_comm]

theorem good_rules (h : ∀ rule ∈ rules, ¬BadRule rule) : ∃ members,
    ruleObjects rules = .ok members ∧ rules = members.map .obj ∧
      allowedKinds members = .ok (allowedBy rules) := by
  have hobjects : ∀ rule ∈ rules, ∃ m, rule = .obj m := by
    intro rule hrule
    cases rule with
    | obj m => exact ⟨m, rfl⟩
    | _ => exact absurd trivial (h _ hrule)
  obtain ⟨members, rfl⟩ := exists_members hobjects
  exact ⟨members, ruleObjects_map, rfl,
    allowedKinds_eq_ok.mpr ⟨fun m hm ↦ h _ (List.mem_map_of_mem hm), rfl⟩⟩

theorem mapM_text_eq_none {kinds : List Json} :
    kinds.mapM text? = none ↔ ∃ k ∈ kinds, text? k = none := by
  induction kinds with
  | nil => simp
  | cons k kinds ih =>
      rw [List.mapM_cons, List.exists_mem_cons_iff, ← ih]
      cases text? k with
      | none => simp
      | some s => cases kinds.mapM text? <;> simp

/-- The kinds that are named and that no artifact has, before they are sorted. -/
def missingKinds (members : List JsonObject) (expected produced : List String) : List Json :=
  (expected.map Json.str ++ (members.filter ruleRequired).map ruleKind).filter fun k ↦
    k.truthy && !(produced.any fun kind ↦ text? k = some kind)

section Missing

variable {expected produced : List String}

theorem mem_missingKinds_str {kind : String} :
    Json.str kind ∈ missingKinds members expected produced ↔
      (kind ∈ expected ∨ ∃ m ∈ members, ruleRequired m = true ∧ ruleKind m = .str kind) ∧
        kind ≠ "" ∧ kind ∉ produced := by
  have hproduced : (∀ x ∈ produced, ¬kind = x) ↔ kind ∉ produced :=
    ⟨fun h hmem ↦ h kind hmem rfl, fun h x hx heq ↦ h (heq ▸ hx)⟩
  simp [missingKinds, Json.truthy, text?, hproduced, or_and_right, and_assoc]

theorem mem_missingKinds_other {k : Json} (hk : text? k = none) :
    k ∈ missingKinds members expected produced ↔
      k.truthy = true ∧ ∃ m ∈ members, ruleRequired m = true ∧ ruleKind m = k := by
  have hexpected : ∀ s, Json.str s ≠ k := by
    rintro s rfl
    cases hk
  simp [missingKinds, hexpected, hk, and_assoc]
  tauto

theorem required_hashable : (((members.filter ruleRequired).map ruleKind).all hashable = true) ↔
    ∀ m ∈ members, ruleRequired m = true → hashable (ruleKind m) = true := by
  simp only [List.all_eq_true, List.forall_mem_map, List.mem_filter, and_imp]

theorem requireKinds_eq : requireKinds members expected produced =
    if ∀ m ∈ members, ruleRequired m = true → hashable (ruleKind m) = true then
      if missingKinds members expected produced = [] then .ok ()
      else match (missingKinds members expected produced).mapM text? with
        | some kinds => .error (.protocol ("required artifact kinds missing: " ++
            ", ".intercalate (kinds.dedup.insertionSort (· ≤ ·))))
        | none => .error (.other "kinds cannot be sorted")
    else .error (.other "unhashable type") := by
  unfold requireKinds
  simp only [required_hashable, List.isEmpty_iff]
  rfl

/-- Where a kind is missing that is no text, the missing kinds cannot be listed. -/
theorem raises_requireKinds : Raises Escaping (requireKinds members expected produced) ↔
    ∃ m ∈ members, Unsortable (.obj m) := by
  have hnone : (∃ m ∈ members, ruleRequired m = true ∧ (ruleKind m).truthy = true ∧
      text? (ruleKind m) = none) ↔ (missingKinds members expected produced).mapM text? = none := by
    rw [mapM_text_eq_none]
    constructor
    · rintro ⟨m, hm, hrequired, htruthy, htext⟩
      exact ⟨_, (mem_missingKinds_other htext).mpr ⟨htruthy, m, hm, hrequired, rfl⟩, htext⟩
    · rintro ⟨k, hk, htext⟩
      obtain ⟨htruthy, m, hm, hrequired, rfl⟩ := (mem_missingKinds_other htext).mp hk
      exact ⟨m, hm, hrequired, htruthy, htext⟩
  have hsplit : (∃ m ∈ members, Unsortable (.obj m)) ↔
      (∃ m ∈ members, ruleRequired m = true ∧ hashable (ruleKind m) = false) ∨
        ∃ m ∈ members, ruleRequired m = true ∧ (ruleKind m).truthy = true ∧
          text? (ruleKind m) = none := by
    simp only [Unsortable, and_or_left, exists_or]
  rw [hsplit, hnone]
  rw [requireKinds_eq]
  by_cases hhash : ∀ m ∈ members, ruleRequired m = true → hashable (ruleKind m) = true
  · have hno : ¬∃ m ∈ members, ruleRequired m = true ∧ hashable (ruleKind m) = false := by
      rintro ⟨m, hm, hrequired, hfalse⟩
      rw [hhash m hm hrequired] at hfalse
      cases hfalse
    rw [if_pos hhash, or_iff_right hno]
    split
    · rename_i hempty
      simp [hempty]
    · split <;> rename_i hkinds <;> simp only [hkinds, Except.raises_error, Escaping, reduceCtorEq]
  · have hsome : ∃ m ∈ members, ruleRequired m = true ∧ hashable (ruleKind m) = false := by
      push Not at hhash
      simpa using hhash
    rw [if_neg hhash]
    exact iff_of_true (by simp [Escaping]) (.inl hsome)

theorem requireKinds_eq_ok (h : requireKinds members expected produced = .ok ()) :
    missingKinds members expected produced = [] := by
  rw [requireKinds_eq] at h
  split at h
  · split at h
    · assumption
    · split at h <;> cases h
  · cases h

end Missing

end Rule

/-! ## Items -/

section Items

variable {H : Bytes → String} {look : String → Except String Place} {allowed : List Json}
  {allowReserved : Bool} {item : Item} {items : List Item} {seen : List String}

/-- The checks before a declared path is looked up. -/
def Item.Declares (allowed : List Json) (allowReserved : Bool) (item : Item) (kind path : String)
    (metadata : Option JsonObject) : Prop :=
  item.kind = .str kind ∧ item.path = .str path ∧ metadataOf item.metadata = .ok metadata ∧
    validateDeclaration kind path metadata allowReserved = .ok () ∧
      Allows allowed allowReserved kind

/-- The declaration passes all checks, and its path leads to the file of that key. -/
def Item.Names (look : String → Except String Place) (allowed : List Json) (allowReserved : Bool)
    (item : Item) (key : String) : Prop :=
  ∃ kind path metadata content, item.Declares allowed allowReserved kind path metadata ∧
    look path = .ok (.file key content)

/-- What escapes from a declaration: metadata that `dict(…)` does not take, or a path that cannot
be looked up after the other checks passed. -/
def Item.Escapes (look : String → Except String Place) (allowed : List Json)
    (allowReserved : Bool) (item : Item) : Prop :=
  (∃ kind path, item.kind = .str kind ∧ item.path = .str path ∧
      item.metadata.truthy = true ∧ dictable item.metadata = false) ∨
    ∃ kind path metadata m, item.Declares allowed allowReserved kind path metadata ∧
      look path = .error m

/-- The declarations pass one after the other, each with a key that is not taken. -/
def Distinct (look : String → Except String Place) (allowed : List Json) (allowReserved : Bool) :
    List String → List Item → Prop
  | _, [] => True
  | seen, item :: items => ∃ key, item.Names look allowed allowReserved key ∧ key ∉ seen ∧
      Distinct look allowed allowReserved (key :: seen) items

theorem raises_metadataOf {metadata : Json} : Raises Escaping (metadataOf metadata) ↔
    metadata.truthy = true ∧ dictable metadata = false := by
  have hdict : Raises Escaping ((Builtins.dict metadata).mapError fun e ↦ .other e.message) ↔
      dictable metadata = false := by
    rw [← Bool.not_eq_true, ← Builtins.returns_dict]
    cases Builtins.dict metadata <;> simp [Except.mapError, Escaping]
  unfold metadataOf
  rw [Except.raises_ite, hdict]
  simp

theorem allows_iff {kind : String} :
    ¬((!allowed.isEmpty && !(allowed.any fun k ↦ text? k = some kind) && !allowReserved) = true) ↔
      Allows allowed allowReserved kind := by
  have htext : (allowed.any fun k ↦ text? k = some kind) = true ↔ ∃ k ∈ allowed, k = .str kind := by
    simp only [List.any_eq_true, decide_eq_true_eq]
    refine exists_congr fun k ↦ and_congr_right fun _ ↦ ?_
    cases k <;> simp [text?]
  rw [Allows, ← htext, ← List.isEmpty_iff]
  cases allowed.isEmpty <;> cases allowed.any fun k ↦ text? k = some kind <;> cases allowReserved <;>
    simp

theorem examine_eq_ok {entry : Normalized} :
    examine H look allowed allowReserved item = .ok entry ↔
      ∃ kind path metadata content, item.Declares allowed allowReserved kind path metadata ∧
        look path = .ok (.file entry.storeKey content) ∧
        entry = { kind := kind, storeKey := entry.storeKey, sizeBytes := content.length,
                  sha256 := H content, mediaType := item.mediaType,
                  metadata := metadata.getD [] } := by
  unfold examine
  split
  · rename_i kind path hkind hpath
    simp only [Except.bind_eq_ok, translated_eq_ok, raiseWhen_eq_ok, allows_iff]
    constructor
    · rintro ⟨metadata, hmetadata, _, hvalid, _, hallows, h⟩
      split at h
      · cases h
      · cases h
      · cases h
      · rename_i key content hlook
        obtain rfl := Except.ok.inj h
        exact ⟨kind, path, metadata, content, ⟨hkind, hpath, hmetadata, hvalid, hallows⟩, hlook,
          rfl⟩
    · rintro ⟨kind', path', metadata, content, ⟨hkind', hpath', hmetadata, hvalid, hallows⟩, hlook,
        hentry⟩
      obtain rfl := Json.str.inj (hkind.symm.trans hkind')
      obtain rfl := Json.str.inj (hpath.symm.trans hpath')
      refine ⟨metadata, hmetadata, (), hvalid, (), hallows, ?_⟩
      rw [hlook]
      exact congrArg Except.ok hentry.symm
  · rename_i hnot
    simp only [reduceCtorEq, false_iff]
    rintro ⟨kind, path, _, _, ⟨hkind, hpath, _⟩, _⟩
    exact hnot kind path hkind hpath

theorem raises_examine : Raises Escaping (examine H look allowed allowReserved item) ↔
    item.Escapes look allowed allowReserved := by
  unfold examine Item.Escapes
  split
  · rename_i kind path hkind hpath
    have hlook : ∀ metadata : Option JsonObject, (Raises Escaping (match look path with
        | .error m => (.error (.other m) : Checked Normalized)
        | .ok .outside =>
            .error (.protocol ("artifact path escapes the workspace: " ++ quoted path))
        | .ok .absent => .error (.protocol ("artifact is missing: " ++ quoted path))
        | .ok (.file key content) =>
            pure { kind := kind, storeKey := key, sizeBytes := content.length,
                   sha256 := H content, mediaType := item.mediaType,
                   metadata := metadata.getD [] }) ↔ ∃ m, look path = .error m) := by
      intro metadata
      split <;> rename_i hplace <;> simp [hplace, Escaping]
    simp only [Except.raises_bind, raises_metadataOf, not_raises_translated, not_raises_raiseWhen,
      false_or, translated_eq_ok, raiseWhen_eq_ok, allows_iff, hlook]
    constructor
    · rintro (hmetadata | ⟨metadata, hmetadata, _, hvalid, _, hallows, m, hm⟩)
      · exact .inl ⟨kind, path, hkind, hpath, hmetadata⟩
      · exact .inr ⟨kind, path, metadata, m, ⟨hkind, hpath, hmetadata, hvalid, hallows⟩, hm⟩
    · rintro (⟨_, _, _, _, hmetadata⟩ |
        ⟨kind', path', metadata, m, ⟨hkind', hpath', hmetadata, hvalid, hallows⟩, hm⟩)
      · exact .inl hmetadata
      · obtain rfl := Json.str.inj (hkind.symm.trans hkind')
        obtain rfl := Json.str.inj (hpath.symm.trans hpath')
        exact .inr ⟨metadata, hmetadata, (), hvalid, (), hallows, m, hm⟩
  · rename_i hnot
    simp only [Except.raises_error, Escaping, false_iff, not_or]
    refine ⟨?_, ?_⟩
    · rintro ⟨kind, path, hkind, hpath, _⟩
      exact hnot kind path hkind hpath
    · rintro ⟨kind, path, _, _, ⟨hkind, hpath, _⟩, _⟩
      exact hnot kind path hkind hpath

theorem exists_examine {key : String} :
    (∃ entry, examine H look allowed allowReserved item = .ok entry ∧ entry.storeKey = key) ↔
      item.Names look allowed allowReserved key := by
  simp only [examine_eq_ok, Item.Names]
  constructor
  · rintro ⟨entry, ⟨kind, path, metadata, content, hdeclares, hlook, _⟩, rfl⟩
    exact ⟨kind, path, metadata, content, hdeclares, hlook⟩
  · rintro ⟨kind, path, metadata, content, hdeclares, hlook⟩
    exact ⟨{ kind := kind, storeKey := key, sizeBytes := content.length, sha256 := H content,
             mediaType := item.mediaType, metadata := metadata.getD [] },
      ⟨kind, path, metadata, content, hdeclares, hlook, rfl⟩, rfl⟩

theorem returns_declareAll : Returns (declareAll H look allowed allowReserved seen items) ↔
    Distinct look allowed allowReserved seen items := by
  induction items generalizing seen with
  | nil => simp [declareAll, Distinct]
  | cons item items ih =>
      simp only [declareAll, Distinct, Except.returns_bind, Except.returns_pure, raiseWhen_eq_ok,
        and_true, ← exists_examine (H := H), ← ih]
      constructor
      · rintro ⟨entry, hentry, _, hfresh, hrest⟩
        exact ⟨_, ⟨entry, hentry, rfl⟩, hfresh, hrest⟩
      · rintro ⟨_, ⟨entry, hentry, rfl⟩, hfresh, hrest⟩
        exact ⟨entry, hentry, (), hfresh, hrest⟩

/-- The loop escapes at the first declaration that does, after all before it passed. -/
theorem raises_declareAll : Raises Escaping (declareAll H look allowed allowReserved seen items) ↔
    ∃ before item after, items = before ++ item :: after ∧
      Distinct look allowed allowReserved seen before ∧
        item.Escapes look allowed allowReserved := by
  induction items generalizing seen with
  | nil => simp [declareAll]
  | cons item items ih =>
      simp only [declareAll, Except.raises_bind, Except.raises_pure, not_raises_raiseWhen,
        raises_examine, raiseWhen_eq_ok, false_or, or_false, and_false, exists_false, ih]
      constructor
      · rintro (hitem | ⟨entry, hentry, _, hfresh, before, item', after, rfl, hbefore, hitem'⟩)
        · exact ⟨[], item, items, rfl, trivial, hitem⟩
        · exact ⟨item :: before, item', after, rfl,
            ⟨_, exists_examine.mp ⟨entry, hentry, rfl⟩, hfresh, hbefore⟩, hitem'⟩
      · rintro ⟨before, item', after, hsplit, hbefore, hitem'⟩
        cases before with
        | nil =>
            obtain ⟨rfl, rfl⟩ := List.cons.inj hsplit
            exact .inl hitem'
        | cons first before =>
            obtain ⟨rfl, rfl⟩ := List.cons.inj hsplit
            obtain ⟨_, hnames, hfresh, hbefore⟩ := hbefore
            obtain ⟨entry, hentry, rfl⟩ := (exists_examine (H := H)).mpr hnames
            exact .inr ⟨entry, hentry, (), hfresh, before, item', after, rfl, hbefore, hitem'⟩

end Items

/-! ## The whole execution -/

/-- What escapes from the checks of a list of declarations: a bad rule, a declaration that escapes
after all before it passed, or, where kinds are required and all declarations passed, a required
kind that is no text. -/
def DeclarationsEscape (manifest : PluginManifest) (allowReserved : Bool) (left : Left)
    (requireExpected : Prop) (declarations : List Item) : Prop :=
  let allowed := allowedBy manifest.artifactRules
  (∃ rule ∈ manifest.artifactRules, BadRule rule) ∨
    (∃ before item after, declarations = before ++ item :: after ∧
      Distinct left.look allowed allowReserved [] before ∧
        item.Escapes left.look allowed allowReserved) ∨
    requireExpected ∧ Distinct left.look allowed allowReserved [] declarations ∧
      ∃ rule ∈ manifest.artifactRules, Unsortable rule

section Whole

variable {H : Bytes → String} {read : Bytes → Except ReadError Json} {manifest : PluginManifest}
  {task : TaskSpec} {allowReserved : Bool} {outcome : ProcessOutcome} {left : Left}
  {declarations : List Item} {expected : List String} {require : Bool} {result : Fields}

theorem raises_validate :
    Raises Escaping (validateArtifactDeclarations H manifest allowReserved left declarations
        expected require) ↔
      DeclarationsEscape manifest allowReserved left (require = true) declarations := by
  unfold validateArtifactDeclarations DeclarationsEscape
  dsimp only
  by_cases hbad : ∃ rule ∈ manifest.artifactRules, BadRule rule
  · refine iff_of_true ?_ (.inl hbad)
    rw [Except.raises_bind]
    refine (raises_allowed.mpr hbad).imp id fun ⟨members, hmembers, hallowed⟩ ↦ ?_
    exact ⟨members, hmembers, Except.raises_bind.mpr (.inl hallowed)⟩
  · rw [or_iff_right hbad]
    push Not at hbad
    obtain ⟨members, hmembers, hobjects, hallowed⟩ := good_rules hbad
    have hdone : ∀ normalized : List Normalized, (Raises Escaping (do
        if require = true then requireKinds members expected (normalized.map Normalized.kind)
        pure normalized : Checked (List Normalized)) ↔
          require = true ∧ ∃ rule ∈ manifest.artifactRules, Unsortable rule) := by
      intro normalized
      dsimp only
      rw [Except.raises_ite, Except.raises_bind, raises_requireKinds, hobjects]
      simp only [Except.raises_pure, and_false, exists_false, or_false, List.mem_map,
        exists_exists_and_eq_and]
    rw [Except.raises_bind, hmembers]
    simp only [Except.raises_ok, false_or, Except.ok.injEq, exists_eq_left']
    rw [Except.raises_bind, hallowed]
    simp only [Except.raises_ok, false_or, Except.ok.injEq, exists_eq_left']
    rw [Except.raises_bind, raises_declareAll, ← returns_declareAll (H := H)]
    refine or_congr_right ?_
    constructor
    · rintro ⟨normalized, hnormalized, h⟩
      obtain ⟨hrequire, hrule⟩ := (hdone normalized).mp h
      exact ⟨hrequire, ⟨normalized, hnormalized⟩, hrule⟩
    · rintro ⟨hrequire, ⟨normalized, hnormalized⟩, hrule⟩
      exact ⟨normalized, hnormalized, (hdone normalized).mpr ⟨hrequire, hrule⟩⟩

/-- What `validate` tests of the artifacts of a result is what reading them takes. -/
theorem returns_ofArtifact {artifact : Json}
    (h : Payload.PluginResult.validateArtifact artifact = .ok ()) :
    Returns (Item.ofArtifact artifact) := by
  cases artifact with
  | obj m =>
      unfold Payload.PluginResult.validateArtifact at h
      rw [refuseIf_eq_ok, not_or] at h
      cases hkind : JsonObject.get? m "kind" with
      | none => exact absurd (by simp [Payload.part, hkind, text?]) h.1
      | some kind =>
          cases hpath : JsonObject.get? m "path" with
          | none => exact absurd (by simp [Payload.part, hpath, text?]) h.2
          | some path => simp [Item.ofArtifact, hkind, hpath]
  | _ => cases h

theorem validateArtifacts_of_validate {fields : Fields}
    (h : Payload.PluginResult.validate fields = .ok ()) :
    ∀ a ∈ Payload.items fields "artifacts",
      Payload.PluginResult.validateArtifact a = .ok () := by
  simp only [Payload.PluginResult.validate, Except.bind_eq_ok] at h
  obtain ⟨_, _, _, _, _, _, _, _, _, _, h⟩ := h
  split at h
  · obtain ⟨_, _, _, _, hartifacts⟩ := by simpa only [Except.bind_eq_ok] using h
    exact Except.forM_eq_ok.mp hartifacts
  · obtain ⟨_, _, hartifacts⟩ := by simpa only [Except.bind_eq_ok] using h
    exact Except.forM_eq_ok.mp hartifacts

/-- The declarations of a result that counts can be read. -/
theorem declarations_of_counts (h : Counts read outcome left result) :
    Returns ((Payload.items result "artifacts").mapM Item.ofArtifact) := by
  rw [Except.returns_mapM]
  rcases h with hdecided | ⟨_, _, _, _, _, hdict, _⟩
  · have hnone : Payload.items result "artifacts" = [] := by
      unfold decided at hdecided
      split at hdecided
      · cases hdecided
        rfl
      · split at hdecided
        · cases hdecided
          rfl
        · obtain ⟨message, _, rfl⟩ := Option.map_eq_some_iff.mp hdecided
          rfl
    simp [hnone]
  · exact fun a ha ↦ returns_ofArtifact
      (validateArtifacts_of_validate (Payload.PluginResult.validate_of_fromDict hdict) a ha)

theorem raises_attempted :
    Raises Escaping (attempted H read manifest task allowReserved outcome left) ↔
      FileEscapes read outcome left ∨ ∃ result declarations, Counts read outcome left result ∧
        (Payload.items result "artifacts").mapM Item.ofArtifact = .ok declarations ∧
          DeclarationsEscape manifest allowReserved left (succeeded result) declarations := by
  unfold attempted
  simp only [Except.raises_bind, Except.raises_pure, raises_loadResult, loadResult_eq_ok,
    raises_validate, and_false, exists_false, or_false, decide_eq_true_eq]
  refine or_congr_right (exists_congr fun result ↦ ?_)
  constructor
  · rintro ⟨hcounts, hraises | ⟨declarations, hdeclarations, hescape⟩⟩
    · exact absurd hraises (Except.not_raises_of_returns (declarations_of_counts hcounts))
    · exact ⟨declarations, hcounts, hdeclarations, hescape⟩
  · rintro ⟨declarations, hcounts, hdeclarations, hescape⟩
    exact ⟨hcounts, .inr ⟨declarations, hdeclarations, hescape⟩⟩

/-- A failed result of that category, without artifacts. -/
def ProtocolError (e : Execution) : Prop :=
  Payload.member? e.result "status" = some RuntimeStatus.failed.value ∧
    (∃ failure, Payload.json e.result "failure" = .obj failure ∧
      JsonObject.get? failure "category" = some (.str "protocol_error")) ∧
    Payload.items e.result "artifacts" = [] ∧ e.artifacts = []

theorem protocolError_protocolFailure {message : String} :
    ProtocolError { result := protocolFailure outcome message, artifacts := [] } :=
  ⟨rfl, ⟨_, rfl, rfl⟩, rfl, rfl⟩

/-- The result is the one the platform decided on, or what the plugin wrote and `validate`
accepts, or a protocol error. -/
def Classified (read : Bytes → Except ReadError Json) (outcome : ProcessOutcome) (left : Left)
    (e : Execution) : Prop :=
  decided outcome = some e.result ∨
    (∃ bytes payload, left.resultFile = some bytes ∧ read bytes = .ok payload ∧
      Payload.PluginResult.fromDict payload = .ok e.result ∧
        Payload.PluginResult.contract.validate e.result = .ok ()) ∨
    ProtocolError e

theorem classified_of_concluded {e : Execution}
    (h : concluded H read manifest task allowReserved outcome left = .ok e) :
    Classified read outcome left e := by
  unfold concluded at h
  split at h
  · obtain rfl := Except.ok.inj h
    exact .inr (.inr protocolError_protocolFailure)
  · unfold attempted at h
    simp only [Except.bind_eq_ok, loadResult_eq_ok] at h
    obtain ⟨result, hcounts, _, _, _, _, hsame⟩ := h
    obtain rfl := Except.ok.inj hsame
    rcases hcounts with hdecided | ⟨_, bytes, payload, hfile, hread, hdict, _⟩
    · exact .inl hdecided
    · exact .inr (.inl ⟨bytes, payload, hfile, hread, hdict,
        Payload.PluginResult.validate_of_fromDict hdict⟩)

theorem returns_concluded :
    Returns (concluded H read manifest task allowReserved outcome left) ↔
      ¬Raises Escaping (attempted H read manifest task allowReserved outcome left) := by
  unfold concluded
  split
  · rename_i hprotocol
    simp [hprotocol, Escaping]
  · rename_i hother
    cases h : attempted H read manifest task allowReserved outcome left with
    | ok e => simp
    | error e =>
        cases e with
        | protocol m => exact absurd h (hother m)
        | other m => simp [Escaping]

/-- What escapes from `execute` after the process ended: the result file, or the declarations of
the result that counts. -/
def Escapes (read : Bytes → Except ReadError Json) (manifest : PluginManifest)
    (allowReserved : Bool) (outcome : ProcessOutcome) (left : Left) : Prop :=
  FileEscapes read outcome left ∨ ∃ result declarations, Counts read outcome left result ∧
    (Payload.items result "artifacts").mapM Item.ofArtifact = .ok declarations ∧
      DeclarationsEscape manifest allowReserved left (succeeded result) declarations

/-- Whatever the process left, `execute` returns an execution, with a result of one of the three
kinds, exactly if nothing in it escapes. -/
theorem result_file_handled_iff :
    (∃ e, concluded H read manifest task allowReserved outcome left = .ok e ∧
        Classified read outcome left e) ↔
      ¬Escapes read manifest allowReserved outcome left := by
  have hescapes : Raises Escaping (attempted H read manifest task allowReserved outcome left) ↔
      Escapes read manifest allowReserved outcome left := raises_attempted
  rw [← hescapes, ← returns_concluded]
  exact ⟨fun ⟨e, he, _⟩ ↦ ⟨e, he⟩, fun ⟨e, he⟩ ↦ ⟨e, he, classified_of_concluded he⟩⟩

end Whole

namespace Sample

def manifest : PluginManifest where
  pluginId := "plugin"
  pluginVersion := "1"
  adapterEntry := ["run"]
  capabilities := ["flow"]
  supportedArch := ["any"]
  artifactRules := [.obj [("kind", .str "report"), ("required", .bool true)]]
  progressMarker := "@"

def task : TaskSpec where
  taskId := "task"
  projectId := "project"
  designId := "design"
  pluginId := some "plugin"

/-- The process exited by itself, with code 0. -/
def exited : ProcessOutcome := { returncode := 0, startedAt := "s", endedAt := "e" }

/-- A success with one artifact, whose metadata is a text. -/
def payload : Json := .obj [("schema_version", .int 3), ("status", .str "succeeded"),
  ("exit_code", .int 0), ("started_at", .str "s"), ("ended_at", .str "e"),
  ("artifacts", .arr [.obj [("kind", .str "report"), ("path", .str "report.txt"),
    ("metadata", .str "x")]])]

def text : String :=
  "\x7b\"schema_version\": 3, \"status\": \"succeeded\", \"exit_code\": 0, " ++
  "\"started_at\": \"s\", \"ended_at\": \"e\", \"artifacts\": " ++
  "[\x7b\"kind\": \"report\", \"path\": \"report.txt\", \"metadata\": \"x\"\x7d]\x7d"

/-- The file with that text, in a workspace where every path is a file. -/
def left : Left where
  resultFile := some text.toUTF8.toList
  look := fun path ↦ .ok (.file path [104, 105])

end Sample

/-- Metadata that is a text passes `validate`, and then `dict(…)` raises a `ValueError` that is no
`ContractError`. -/
theorem text_metadata_escapes :
    Sample.manifest.validate = .ok () ∧ Sample.task.validate = .ok () ∧
      ¬∃ e, concluded (fun _ ↦ "") (fun _ ↦ .ok Sample.payload) Sample.manifest Sample.task false
        Sample.exited Sample.left = .ok e := by
  refine ⟨by decide +kernel, by decide +kernel, ?_⟩
  have hraises : (concluded (fun _ ↦ "") (fun _ ↦ .ok Sample.payload) Sample.manifest Sample.task
      false Sample.exited Sample.left).isOk = false := by decide +kernel
  rintro ⟨e, he⟩
  rw [he] at hraises
  cases hraises

end ChipEvolve.Adapter
