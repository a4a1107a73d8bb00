import ChipEvolve.Contracts.RoundTrip

/-!
# What the `from_dict` methods raise

`TaskSpec`, `PluginManifest`, `PluginResult`, `ProgressReport` and `Metric` read from any
JSON value, in the order of the text (`contracts/task.py`, `input.py`, `resources.py`,
`progress.py`, `artifact.py`, `version.py`).  The conversions come before `instantiate`
and `validate`, and what they raise is not a `ContractError`.
-/

namespace ChipEvolve.Payload

open Builtins (Failure asSet asSet_eq_ok dict dictable hashable hashable_of_text iterable iterate
  pairable text? textPairable)
open Except (Raises Returns)

/-- An exception of a `from_dict`.  A `ContractError` is a `ValueError` too; `valueError` is one
that is not. -/
inductive FromDictError
  | contract (message : String)
  | typeError (message : String)
  | valueError (message : String)

/-- It is no `ContractError`. -/
def FromDictError.Escaping : FromDictError → Prop
  | contract _ => False
  | _ => True

abbrev Reads (α : Type) := Except FromDictError α

/-- The fields of a value by name. -/
abbrev Fields := List (String × Value)

/-- A check whose exceptions are all `ContractError`. -/
def contractual {α : Type} (x : Except String α) : Reads α := x.mapError .contract

def FromDictError.ofFailure : Failure → FromDictError
  | .typeError message => .typeError message
  | .valueError message => .valueError message

/-- A builtin, none of whose exceptions is a `ContractError`. -/
def builtin {α : Type} (x : Except Failure α) : Reads α := x.mapError .ofFailure

/-! ## Nested contracts -/

/-- `sorted(set(payload) - allowed)`, and the refusal of what is left. -/
def refuseUnknownKeys (name : String) (allowed : List String) (keys : List Json) : Reads Unit :=
  let unknown := keys.filter fun key ↦ !(text? key).any (· ∈ allowed)
  if unknown.all fun key ↦ (text? key).isSome then
    contractual (refuseIf (unknown ≠ []) ("unknown " ++ name ++ " fields: " ++
      ", ".intercalate ((unknown.filterMap text?).dedup.insertionSort (· ≤ ·))))
  else .error (.typeError "sequence item: expected str instance")

/-- `instantiate(cls, dict(payload))` and `validate`. -/
def construct (F : Flat) : Option JsonObject → Reads JsonObject
  | some members => contractual (F.fromDict (.obj members))
  | none => .error (.contract (F.name ++ " payload does not match its fields"))

namespace InputFile

def fromDict (payload : Json) : Reads JsonObject := do
  let keys ← builtin (asSet payload)
  refuseUnknownKeys "InputFile" inputFile.names keys
  contractual (refuseIf (¬keys.any fun key ↦ text? key = some "destination")
    "InputFile is missing: destination")
  construct inputFile (← builtin (dict payload))

end InputFile

namespace ResourceRequest

def fromDict (payload : Json) : Reads JsonObject := do
  let keys ← builtin (asSet payload)
  refuseUnknownKeys "ResourceRequest" resourceRequest.names keys
  construct resourceRequest (← builtin (dict payload))

end ResourceRequest

namespace RuntimeRequirements

/-- Without the version; keys that are no texts cannot be named in the message. -/
def ofDict : Option JsonObject → Reads JsonObject
  | some members => contractual (runtimeRequirements.fromDict (.obj members))
  | none => .error (.typeError "sequence item: expected str instance")

def fromDict (payload : Json) : Reads JsonObject :=
  if payload.isNull then .ok noRequirements else do ofDict (← builtin (dict payload))

end RuntimeRequirements

/-! ## Conversions -/

/-- `value[name] = convert(value[name])`, when the payload has the field. -/
def given (convert : Json → Reads Value) : Option Json → Reads (Option Value)
  | some j => (convert j).map some
  | none => .ok none

def toTuple (j : Json) : Reads Value := (builtin (iterate j)).map .tuple

def toInputFiles (j : Json) : Reads Value := do
  let items ← builtin (iterate j)
  (items.mapM InputFile.fromDict).map .records

def toResources (j : Json) : Reads Value :=
  if j.isNull then .ok (.plain .null) else (ResourceRequest.fromDict j).map .record

def toRequirements (j : Json) : Reads Value := (RuntimeRequirements.fromDict j).map .record

def toStatus : Option Json → Reads (Option Value)
  | some j => contractual ((Kind.toMember PluginResult.statuses "invalid PluginResult status" j).map
      some)
  | none => .error (.contract "invalid PluginResult status")

def toMemberOrNone (values : List String) (invalid : String) (j : Json) : Reads Value :=
  if j.isNull then .ok (.plain .null) else contractual (Kind.toMember values invalid j)

/-- `dict(value or {})`; a dictionary with other keys is refused by `validate_mapping` as an empty
tuple is. -/
def toMapping (j : Json) : Reads Value :=
  if j.truthy then
    (builtin (dict j)).map fun members ↦ (members.map fun m ↦ .plain (.obj m)).getD (.tuple [])
  else .ok (.plain (.obj []))

/-- One argument of `cls(**value)`. -/
def argument (C : Contract) (m : JsonObject) (converted : List (String × Option Value))
    (f : Field) : Reads (String × Value) :=
  match (converted.find? fun c ↦ c.1 = f.name).bind Prod.snd, m.get? f.name, f.absent with
  | some v, _, _ => .ok (f.name, v)
  | none, some j, _ => .ok (f.name, .plain j)
  | none, none, some v => .ok (f.name, v)
  | none, none, none => .error (.contract (Contract.missing C.name f))

/-- `instantiate` -/
def instantiate (C : Contract) (m : JsonObject) (converted : List (String × Option Value)) :
    Reads Fields :=
  C.fields.mapM (argument C m converted)

/-! ## The classes -/

namespace TaskSpec

def fromDict : Json → Reads Fields
  | .obj m => do
      contractual (contract.knownPayload m)
      let expected ← given toTuple (JsonObject.get? m "expected_artifacts")
      let staged ← given toInputFiles (JsonObject.get? m "staged_inputs")
      let resources ← given toResources (JsonObject.get? m "resources")
      let fields ← instantiate contract m [("expected_artifacts", expected),
        ("staged_inputs", staged), ("resources", resources)]
      contractual (validate fields)
      return fields
  | _ => .error (.contract "TaskSpec payload must be an object")

end TaskSpec

namespace PluginManifest

/-- The checks before the comparison of the timeout with zero. -/
def checkIdentity (v : Fields) : Validated := do
  validateVersionValue (json v "schema_version")
  validateIdentifierValue "plugin_id" (json v "plugin_id")
  validateIdentifierValue "plugin_version" (json v "plugin_version")
  ["adapter_entry", "capabilities", "supported_arch"].forM fun name ↦
    validateTexts name (items v name)
  validateEnvironment (json v "environment")
  validateMapping "toolkit" (json v "toolkit")

/-- `self.default_timeout_seconds <= 0` -/
def checkTimeout (j : Json) : Reads Unit :=
  match j.number? with
  | some q => contractual (refuseIf (q ≤ 0) "default_timeout_seconds must be positive")
  | none => .error (.typeError "'<=' not supported")

/-- The checks after it. -/
def checkMarker (v : Fields) : Validated := do
  validateMarker (json v "progress_marker")
  ifGiven requirementsValidate (record? v "requirements")

def check (v : Fields) : Reads Unit := do
  contractual (checkIdentity v)
  checkTimeout (json v "default_timeout_seconds")
  contractual (checkMarker v)

/-- The arguments of the constructor. -/
def arguments (m : JsonObject) : Reads Fields := do
  let entry ← given toTuple (JsonObject.get? m "adapter_entry")
  let capabilities ← given toTuple (JsonObject.get? m "capabilities")
  let arch ← given toTuple (JsonObject.get? m "supported_arch")
  let rules ← given toTuple (JsonObject.get? m "artifact_rules")
  let requirements ← given toRequirements (JsonObject.get? m "requirements")
  instantiate contract m [("adapter_entry", entry), ("capabilities", capabilities),
    ("supported_arch", arch), ("artifact_rules", rules), ("requirements", requirements)]

def fromDict : Json → Reads Fields
  | .obj m => do
      contractual (contract.knownPayload m)
      let fields ← arguments m
      check fields
      return fields
  | _ => .error (.contract "PluginManifest payload must be an object")

end PluginManifest

namespace PluginResult

def fromDict : Json → Reads Fields
  | .obj m => do
      contractual (contract.knownPayload m)
      let status ← toStatus (JsonObject.get? m "status")
      let metrics ← given toTuple (JsonObject.get? m "metrics")
      let artifacts ← given toTuple (JsonObject.get? m "artifacts")
      let fields ← instantiate contract m [("status", status), ("metrics", metrics),
        ("artifacts", artifacts)]
      contractual (validate fields)
      return fields
  | _ => .error (.contract "PluginResult payload must be an object")

end PluginResult

namespace ProgressReport

def phases : List String := ["started", "finished"]

def statuses : List String := ["succeeded", "failed", "cancelled"]

def fromDict : Json → Reads Fields
  | .obj m => do
      contractual (contract.knownPayload m)
      let phase ← given (toMemberOrNone phases "invalid progress phase") (JsonObject.get? m "phase")
      let status ← given (toMemberOrNone statuses "invalid progress status")
        (JsonObject.get? m "status")
      let detail ← given toMapping (JsonObject.get? m "detail")
      let fields ← instantiate contract m [("phase", phase), ("status", status),
        ("detail", detail)]
      contractual (validate fields)
      return fields
  | _ => .error (.contract "ProgressReport payload must be an object")

end ProgressReport

namespace Metric

def fromDict : Json → Reads Fields
  | .obj m => do
      contractual (contract.knownPayload m)
      let context ← given toMapping (JsonObject.get? m "context")
      let fields ← instantiate contract m [("context", context)]
      contractual (validate fields)
      return fields
  | _ => .error (.contract "Metric payload must be an object")

end Metric

/-! ## What the builtins raise -/

section Builtins

variable {α V : Type} [Builtins.Untyped V] {v : V} {x : Except String α} {y : Except Failure α}
  {a : α}

@[simp] theorem not_raises_contractual : ¬Raises FromDictError.Escaping (contractual x) := by
  cases x <;> simp [contractual, Except.mapError, FromDictError.Escaping]

@[simp] theorem contractual_eq_ok : contractual x = .ok a ↔ x = .ok a := by
  cases x <;> simp [contractual, Except.mapError]

@[simp] theorem builtin_eq_ok : builtin y = .ok a ↔ y = .ok a := by
  cases y <;> simp [builtin, Except.mapError]

theorem raises_builtin : Raises FromDictError.Escaping (builtin y) ↔ ¬Returns y := by
  cases y with
  | ok a => simp [builtin, Except.mapError]
  | error e => cases e <;> simp [builtin, Except.mapError, FromDictError.ofFailure,
      FromDictError.Escaping]

@[simp] theorem raises_iterate :
    Raises FromDictError.Escaping (builtin (iterate v)) ↔ iterable v = false := by
  rw [raises_builtin, ← Builtins.iterable_iff, Bool.not_eq_true]

theorem raises_dict : Raises FromDictError.Escaping (builtin (dict v)) ↔ dictable v = false := by
  rw [raises_builtin, Builtins.returns_dict, Bool.not_eq_true]

theorem raises_asSet : Raises FromDictError.Escaping (builtin (asSet v)) ↔
    iterable v = false ∨ ∃ keys, iterate v = .ok keys ∧ keys.all hashable = false := by
  rw [raises_builtin, Builtins.returns_asSet, ← Bool.not_eq_true, Builtins.iterable_iff]
  cases iterate v with
  | error e => simp
  | ok items => simp

end Builtins

/-! ## Nested contracts that open a set first -/

section Opened

variable {name : String} {allowed : List String} {keys : List Json} {j : Json}

/-- The keys that are no fields. -/
theorem mem_unknown {key : Json} :
    key ∈ (keys.filter fun key ↦ !(text? key).any (· ∈ allowed)) ↔
      key ∈ keys ∧ ∀ s ∈ allowed, key ≠ .str s := by
  rw [List.mem_filter]
  refine and_congr_right fun _ ↦ ?_
  cases key with
  | str t =>
      have hmem : (!(text? (Json.str t)).any (· ∈ allowed)) = true ↔ t ∉ allowed := by
        simp [text?]
      rw [hmem]
      refine ⟨fun hnot s hs heq ↦ ?_, fun hnot ht ↦ hnot t ht rfl⟩
      obtain rfl := Json.str.inj heq
      exact hnot hs
  | _ => simp [text?]

theorem raises_refuse : Raises FromDictError.Escaping (refuseUnknownKeys name allowed keys) ↔
    ∃ key ∈ keys, text? key = none := by
  unfold refuseUnknownKeys
  simp only [Except.raises_ite, not_raises_contractual, and_false, Except.raises_error,
    FromDictError.Escaping, and_true, false_or, List.all_eq_true, not_forall,
    Option.not_isSome_iff_eq_none, exists_prop, mem_unknown]
  constructor
  · rintro ⟨key, ⟨hkey, _⟩, htext⟩
    exact ⟨key, hkey, htext⟩
  · rintro ⟨key, hkey, htext⟩
    refine ⟨key, ⟨hkey, fun s _ heq ↦ ?_⟩, htext⟩
    rw [Json.text?_eq_some.mpr heq] at htext
    cases htext

theorem refuse_eq_ok : refuseUnknownKeys name allowed keys = .ok () ↔
    ∀ key ∈ keys, ∃ s ∈ allowed, key = .str s := by
  have hnone : (keys.filter fun key ↦ !(text? key).any (· ∈ allowed)) = [] ↔
      ∀ key ∈ keys, ∃ s ∈ allowed, key = .str s := by
    rw [List.eq_nil_iff_forall_not_mem]
    simp only [mem_unknown, not_and, not_forall, ne_eq, not_not, exists_prop]
  rw [← hnone]
  unfold refuseUnknownKeys
  constructor
  · intro h
    dsimp only at h
    split at h
    · simpa [refuseIf_eq_ok] using contractual_eq_ok.mp h
    · cases h
  · intro h
    simp [h, refuseIf]

/-- Opening a set and refusing its unknown members escapes where a member is no text, and passes
where all of them are fields. -/
theorem raises_opened {rest : List Json → Reads JsonObject} :
    Raises FromDictError.Escaping (do
        let keys ← builtin (asSet j)
        refuseUnknownKeys name allowed keys
        rest keys) ↔
      iterable j = false ∨ ∃ keys, iterate j = .ok keys ∧
        ((∃ key ∈ keys, text? key = none) ∨
          (∀ key ∈ keys, ∃ s ∈ allowed, key = .str s) ∧
            Raises FromDictError.Escaping (rest keys)) := by
  rw [Except.raises_bind, raises_asSet]
  simp only [Except.raises_bind, raises_refuse, builtin_eq_ok, asSet_eq_ok, or_assoc]
  refine or_congr_right ?_
  constructor
  · rintro (⟨keys, hkeys, hhash⟩ | ⟨keys, ⟨hkeys, _⟩, htext | ⟨_, hrefuse, hrest⟩⟩)
    · obtain ⟨key, hkey, hfalse⟩ := List.all_eq_false.mp hhash
      refine ⟨keys, hkeys, .inl ⟨key, hkey, ?_⟩⟩
      rw [← Option.not_isSome_iff_eq_none]
      exact fun htext ↦ hfalse (hashable_of_text htext)
    · exact ⟨keys, hkeys, .inl htext⟩
    · exact ⟨keys, hkeys, .inr ⟨refuse_eq_ok.mp hrefuse, hrest⟩⟩
  · rintro ⟨keys, hkeys, htext | ⟨hknown, hrest⟩⟩
    · cases hhash : keys.all hashable with
      | false => exact .inl ⟨keys, hkeys, hhash⟩
      | true => exact .inr ⟨keys, ⟨hkeys, hhash⟩, .inl htext⟩
    · have hhash : keys.all hashable = true := by
        refine List.all_eq_true.mpr fun key hkey ↦ ?_
        obtain ⟨s, _, rfl⟩ := hknown key hkey
        rfl
      exact .inr ⟨keys, ⟨hkeys, hhash⟩, .inr ⟨(), refuse_eq_ok.mpr hknown, hrest⟩⟩

/-- The members of a text are no field names. -/
theorem eq_nil_of_chars {keys : List Json} {s : String}
    (hallowed : ∀ a ∈ allowed, a.toList.length ≠ 1) (hkeys : iterate (.str s) = .ok keys)
    (hknown : ∀ key ∈ keys, ∃ a ∈ allowed, key = .str a) : keys = [] := by
  obtain rfl := Except.ok.inj hkeys
  by_contra hne
  obtain ⟨key, hkey⟩ := List.exists_mem_of_ne_nil _ hne
  obtain ⟨c, _, rfl⟩ := List.mem_map.mp hkey
  obtain ⟨a, ha, heq⟩ := hknown _ hkey
  obtain rfl := Json.str.inj heq
  exact hallowed _ ha (by simp)

theorem not_raises_construct {F : Flat} {members : Option JsonObject} :
    ¬Raises FromDictError.Escaping (construct F members) := by
  cases members with
  | none => simp [construct, FromDictError.Escaping]
  | some m => simp [construct]

theorem raises_dict_construct {F : Flat} :
    Raises FromDictError.Escaping (do construct F (← builtin (dict j))) ↔ dictable j = false := by
  rw [Except.raises_bind, raises_dict]
  simp [not_raises_construct]

end Opened

/-- What escapes from `InputFile.from_dict`: something that is no collection, a list with a member
that is no text, or a list of field names with the destination among them. -/
def InputFile.Escapes (j : Json) : Prop :=
  iterable j = false ∨ ∃ items, j = .arr items ∧
    ((∃ item ∈ items, text? item = none) ∨
      (∀ item ∈ items, ∃ s ∈ inputFile.names, item = .str s) ∧ .str "destination" ∈ items)

/-- What escapes from `ResourceRequest.from_dict`: something that is no collection, a list with a
member that is no text, or a list of field names. -/
def ResourceRequest.Escapes (j : Json) : Prop :=
  iterable j = false ∨ ∃ items, j = .arr items ∧
    ((∃ item ∈ items, text? item = none) ∨
      (∀ item ∈ items, ∃ s ∈ resourceRequest.names, item = .str s) ∧ items ≠ [])

/-- What escapes from `RuntimeRequirements.from_dict`: what is neither null nor a dictionary whose
keys are texts, nor the pairs of one. -/
def RuntimeRequirements.Escapes (j : Json) : Prop :=
  j.isNull = false ∧ (dictable j = false ∨
    ∃ items, j = .arr items ∧ ∃ item ∈ items, textPairable item = false)

section Nested

variable {j : Json}

/-- Of what can be iterated, only a list can hold a member that is no text, or be refused by
`dict(…)` after its members were found to be field names. -/
theorem escapes_opened {allowed : List String} {P : List Json → Prop}
    (hallowed : ∀ a ∈ allowed, a.toList.length ≠ 1 ∧ a.toList.length ≠ 2) (hnil : ¬P [])
    (hnames : ∀ items, P items → ∃ item, item ∈ items) :
    (∃ keys, iterate j = .ok keys ∧ ((∃ key ∈ keys, text? key = none) ∨
        (∀ key ∈ keys, ∃ s ∈ allowed, key = .str s) ∧ P keys ∧ dictable j = false)) ↔
      ∃ items, j = .arr items ∧ ((∃ item ∈ items, text? item = none) ∨
        (∀ item ∈ items, ∃ s ∈ allowed, item = .str s) ∧ P items) := by
  constructor
  · rintro ⟨keys, hkeys, h⟩
    cases j with
    | arr items =>
        obtain rfl := Except.ok.inj hkeys
        exact ⟨items, rfl, h.imp_right fun hrest ↦ ⟨hrest.1, hrest.2.1⟩⟩
    | str s =>
        rcases h with ⟨key, hkey, htext⟩ | ⟨hknown, hP, _⟩
        · obtain rfl := Except.ok.inj hkeys
          obtain ⟨c, _, rfl⟩ := List.mem_map.mp hkey
          cases htext
        · obtain rfl := eq_nil_of_chars (fun a ha ↦ (hallowed a ha).1) hkeys hknown
          exact absurd hP hnil
    | obj m =>
        rcases h with ⟨key, hkey, htext⟩ | ⟨_, _, hdict⟩
        · obtain rfl := Except.ok.inj hkeys
          obtain ⟨member, _, rfl⟩ := List.mem_map.mp hkey
          cases htext
        · cases hdict
    | null | bool | int | float => cases hkeys
  · rintro ⟨items, rfl, h⟩
    refine ⟨items, rfl, h.imp_right fun ⟨hknown, hP⟩ ↦ ⟨hknown, hP, ?_⟩⟩
    obtain ⟨item, hitem⟩ := hnames items hP
    obtain ⟨s, hs, rfl⟩ := hknown item hitem
    refine List.all_eq_false.mpr ⟨_, hitem, ?_⟩
    rw [Builtins.not_pairable_text (Json.shape_str s) (hallowed s hs).2]
    exact Bool.false_ne_true

theorem raises_inputFile :
    Raises FromDictError.Escaping (InputFile.fromDict j) ↔ InputFile.Escapes j := by
  unfold InputFile.fromDict InputFile.Escapes
  rw [raises_opened]
  refine or_congr_right ?_
  rw [← escapes_opened (P := fun items ↦ Json.str "destination" ∈ items) (by decide) (by simp)
    (fun _ h ↦ ⟨_, h⟩)]
  refine exists_congr fun keys ↦ and_congr_right fun _ ↦ or_congr_right (and_congr_right fun _ ↦ ?_)
  rw [Except.raises_bind]
  simp [raises_dict_construct, refuseIf_eq_ok, Json.text?_eq_some]

theorem raises_resourceRequest :
    Raises FromDictError.Escaping (ResourceRequest.fromDict j) ↔ ResourceRequest.Escapes j := by
  unfold ResourceRequest.fromDict ResourceRequest.Escapes
  rw [raises_opened]
  refine or_congr_right ?_
  rw [← escapes_opened (P := fun items ↦ items ≠ []) (by decide) (by simp)
    (fun _ h ↦ List.exists_mem_of_ne_nil _ h)]
  refine exists_congr fun keys ↦ and_congr_right fun hkeys ↦ or_congr_right
    (and_congr_right fun hknown ↦ ?_)
  rw [raises_dict_construct]
  refine ⟨fun hdict ↦ ⟨?_, hdict⟩, And.right⟩
  rintro rfl
  rw [Builtins.dictable_of_iterate_nil hkeys] at hdict
  cases hdict

theorem raises_ofDict {members : Option JsonObject} :
    Raises FromDictError.Escaping (RuntimeRequirements.ofDict members) ↔ members = none := by
  cases members <;> simp [RuntimeRequirements.ofDict, FromDictError.Escaping]

theorem raises_requirements :
    Raises FromDictError.Escaping (RuntimeRequirements.fromDict j) ↔
      RuntimeRequirements.Escapes j := by
  unfold RuntimeRequirements.fromDict RuntimeRequirements.Escapes
  rw [Except.raises_ite]
  simp only [Except.raises_ok, and_false, false_or, Bool.not_eq_true]
  refine and_congr_right fun _ ↦ ?_
  rw [Except.raises_bind, raises_dict]
  simp only [raises_ofDict, exists_eq_right]
  rw [builtin_eq_ok, Builtins.dict_eq_none]
  simp only [Json.shape_eq_list, List.all_eq_false, Bool.not_eq_true]
  cases dictable j <;> simp

end Nested

/-! ## Conversions -/

section Conversions

variable {j : Json} {given? : Option Json} {convert : Json → Reads Value}

theorem raises_given : Raises FromDictError.Escaping (given convert given?) ↔
    ∃ j ∈ given?, Raises FromDictError.Escaping (convert j) := by
  cases given? <;> simp [given]

theorem returns_toTuple : Returns (toTuple j) ↔ iterable j = true := by
  rw [toTuple, Except.returns_map, Builtins.iterable_iff]
  simp only [Returns, builtin_eq_ok]

theorem returns_given : Returns (given convert given?) ↔ ∀ j ∈ given?, Returns (convert j) := by
  cases given? <;> simp [given]

theorem raises_toTuple : Raises FromDictError.Escaping (toTuple j) ↔ iterable j = false := by
  simp [toTuple]

/-- What escapes from the loop over the staged inputs: no collection, or an item that escapes
after items that were all accepted. -/
def StagedEscapes (j : Json) : Prop :=
  iterable j = false ∨ ∃ before item after, iterate j = .ok (before ++ item :: after) ∧
    (∀ i ∈ before, Returns (InputFile.fromDict i)) ∧ InputFile.Escapes item

theorem raises_toInputFiles :
    Raises FromDictError.Escaping (toInputFiles j) ↔ StagedEscapes j := by
  unfold toInputFiles StagedEscapes
  rw [Except.raises_bind, raises_iterate]
  refine or_congr_right ?_
  simp only [Except.raises_map, Except.raises_mapM, raises_inputFile, builtin_eq_ok]
  constructor
  · rintro ⟨_, hitems, before, item, after, rfl, hbefore, hitem⟩
    exact ⟨before, item, after, hitems, hbefore, hitem⟩
  · rintro ⟨before, item, after, hitems, hbefore, hitem⟩
    exact ⟨_, hitems, before, item, after, rfl, hbefore, hitem⟩

theorem raises_toResources : Raises FromDictError.Escaping (toResources j) ↔
    j.isNull = false ∧ ResourceRequest.Escapes j := by
  unfold toResources
  rw [Except.raises_ite]
  simp [raises_resourceRequest]

theorem raises_toRequirements :
    Raises FromDictError.Escaping (toRequirements j) ↔ RuntimeRequirements.Escapes j := by
  simp [toRequirements, raises_requirements]

@[simp] theorem not_raises_toStatus : ¬Raises FromDictError.Escaping (toStatus given?) := by
  cases given? <;> simp [toStatus, FromDictError.Escaping]

@[simp] theorem not_raises_toMemberOrNone {values : List String} {invalid : String} :
    ¬Raises FromDictError.Escaping (toMemberOrNone values invalid j) := by
  unfold toMemberOrNone
  rw [Except.raises_ite]
  simp

theorem raises_toMapping : Raises FromDictError.Escaping (toMapping j) ↔
    j.truthy = true ∧ dictable j = false := by
  unfold toMapping
  rw [Except.raises_ite]
  simp [raises_dict]

@[simp] theorem not_raises_instantiate {C : Contract} {m : JsonObject}
    {converted : List (String × Option Value)} :
    ¬Raises FromDictError.Escaping (instantiate C m converted) := by
  unfold instantiate
  rw [Except.raises_mapM]
  rintro ⟨_, f, _, _, _, hraises⟩
  unfold argument at hraises
  split at hraises <;> simp [FromDictError.Escaping] at hraises

end Conversions

/-! ## The classes -/

/-- What a `from_dict` may do: return a value that its own `validate` accepts, or raise a
`ContractError`. -/
def Handled (C : Contract) (r : Reads Fields) : Prop :=
  (∀ fields, r = .ok fields → C.validate fields = .ok ()) ∧ ¬Raises FromDictError.Escaping r

/-- The payload gives the field, and what it gives meets `P`. -/
def Gives (m : JsonObject) (name : String) (P : Json → Prop) : Prop := ∃ j ∈ m.get? name, P j

/-- A field that `tuple(…)` does not take. -/
def Unlisted (m : JsonObject) (name : String) : Prop := Gives m name (iterable · = false)

theorem raises_listed {m : JsonObject} {name : String} :
    Raises FromDictError.Escaping (given toTuple (m.get? name)) ↔ Unlisted m name := by
  simp only [raises_given, raises_toTuple]
  rfl

theorem returns_listed {m : JsonObject} {name : String} :
    Returns (given toTuple (m.get? name)) ↔ ¬Unlisted m name := by
  simp [returns_given, returns_toTuple, Unlisted, Gives]

theorem exists_eq_ok {α : Type} {x : Reads α} : (∃ a, x = .ok a) ↔ Returns x := Iff.rfl

theorem exists_unit_eq_ok {x : Validated} : (∃ u, x = .ok u) ↔ x = .ok () :=
  ⟨fun ⟨_, h⟩ ↦ h, fun h ↦ ⟨_, h⟩⟩

/-- A condition that only an object can meet. -/
theorem exists_obj {m : JsonObject} {P : JsonObject → Prop} :
    (∃ m', Json.obj m = .obj m' ∧ P m') ↔ P m :=
  ⟨fun ⟨_, h, hP⟩ ↦ Json.obj.inj h ▸ hP, fun hP ↦ ⟨m, rfl, hP⟩⟩

namespace TaskSpec

/-- The artifacts cannot be iterated, or the staged inputs escape, or the resources do after all
staged inputs were accepted. -/
def Escapes (p : Json) : Prop :=
  ∃ m, p = .obj m ∧ contract.knownPayload m = .ok () ∧
    (Unlisted m "expected_artifacts" ∨ Gives m "staged_inputs" StagedEscapes ∨
      (∀ j ∈ JsonObject.get? m "staged_inputs", Returns (toInputFiles j)) ∧
        Gives m "resources" fun j ↦ j.isNull = false ∧ ResourceRequest.Escapes j)

theorem raises_fromDict (p : Json) :
    Raises FromDictError.Escaping (fromDict p) ↔ Escapes p := by
  cases p with
  | obj m =>
      rw [Escapes, exists_obj]
      simp only [fromDict, Except.raises_bind, not_raises_contractual, not_raises_instantiate,
        Except.raises_pure, false_or, or_false, and_false, exists_false, exists_and_right,
        contractual_eq_ok, exists_unit_eq_ok, exists_eq_ok, raises_listed, returns_listed]
      rw [returns_given]
      simp only [raises_given, raises_toInputFiles, raises_toResources, Gives]
      by_cases hlisted : Unlisted m "expected_artifacts" <;> simp [hlisted]
  | _ => simp [fromDict, Escapes, FromDictError.Escaping]

theorem validate_of_fromDict {p : Json} {fields : Fields} (h : fromDict p = .ok fields) :
    validate fields = .ok () := by
  cases p with
  | obj m =>
      simp only [fromDict, Except.bind_eq_ok] at h
      obtain ⟨_, _, _, _, _, _, _, _, fields', _, _, hvalid, hsame⟩ := h
      obtain rfl := Except.ok.inj hsame
      exact contractual_eq_ok.mp hvalid
  | _ => cases h

end TaskSpec

namespace PluginManifest

/-- A list cannot be iterated, or the requirements escape, or the manifest is otherwise well
formed up to a timeout that is no number. -/
def Escapes (p : Json) : Prop :=
  ∃ m, p = .obj m ∧ contract.knownPayload m = .ok () ∧
    (Unlisted m "adapter_entry" ∨ Unlisted m "capabilities" ∨ Unlisted m "supported_arch" ∨
      Unlisted m "artifact_rules" ∨ Gives m "requirements" RuntimeRequirements.Escapes ∨
      ∃ fields, arguments m = .ok fields ∧ checkIdentity fields = .ok () ∧
        (json fields "default_timeout_seconds").number? = none)

theorem raises_check {fields : Fields} : Raises FromDictError.Escaping (check fields) ↔
    checkIdentity fields = .ok () ∧ (json fields "default_timeout_seconds").number? = none := by
  have htimeout : Raises FromDictError.Escaping
      (checkTimeout (json fields "default_timeout_seconds")) ↔
        (json fields "default_timeout_seconds").number? = none := by
    unfold checkTimeout
    split <;> rename_i hnumber <;> simp [hnumber, FromDictError.Escaping]
  simp only [check, Except.raises_bind, not_raises_contractual, false_or, htimeout, and_false,
    exists_false, or_false, contractual_eq_ok, exists_and_right, exists_unit_eq_ok]

theorem raises_arguments {m : JsonObject} : Raises FromDictError.Escaping (arguments m) ↔
    Unlisted m "adapter_entry" ∨ Unlisted m "capabilities" ∨ Unlisted m "supported_arch" ∨
      Unlisted m "artifact_rules" ∨ Gives m "requirements" RuntimeRequirements.Escapes := by
  simp only [arguments, Except.raises_bind, not_raises_instantiate, and_false, exists_false,
    or_false, exists_and_right, exists_eq_ok, raises_listed, returns_listed]
  simp only [raises_given, raises_toRequirements, Gives]
  tauto

theorem raises_fromDict (p : Json) :
    Raises FromDictError.Escaping (fromDict p) ↔ Escapes p := by
  cases p with
  | obj m =>
      rw [Escapes, exists_obj]
      simp only [fromDict, Except.raises_bind, not_raises_contractual, Except.raises_pure,
        false_or, or_false, and_false, exists_false, exists_and_right, contractual_eq_ok,
        exists_unit_eq_ok, raises_arguments, raises_check, or_assoc]
  | _ => simp [fromDict, Escapes, FromDictError.Escaping]

/-- The checks in their two parts are those of `validate`. -/
theorem check_eq_ok {fields : Fields} : check fields = .ok () ↔ validate fields = .ok () := by
  have htimeout : checkTimeout (json fields "default_timeout_seconds") = .ok () ↔
      validateTimeout (json fields "default_timeout_seconds") = .ok () := by
    unfold checkTimeout validateTimeout
    cases (json fields "default_timeout_seconds").number? <;> simp
  have hunit : ∀ {x : Reads Unit} {y : Reads Unit}, (do x; y) = .ok () ↔ x = .ok () ∧ y = .ok () :=
    fun {x y} ↦ by cases x <;> simp [bind, Except.bind]
  simp only [check, hunit, contractual_eq_ok, htimeout, checkIdentity, checkMarker, validate,
    Validated.bind_eq_ok, and_assoc]

theorem validate_of_fromDict {p : Json} {fields : Fields} (h : fromDict p = .ok fields) :
    validate fields = .ok () := by
  cases p with
  | obj m =>
      simp only [fromDict, Except.bind_eq_ok] at h
      obtain ⟨_, _, fields', _, _, hvalid, hsame⟩ := h
      obtain rfl := Except.ok.inj hsame
      exact check_eq_ok.mp hvalid
  | _ => cases h

end PluginManifest

namespace PluginResult

/-- The status is one of the enumeration, and the metrics or the artifacts cannot be iterated. -/
def Escapes (p : Json) : Prop :=
  ∃ m, p = .obj m ∧ contract.knownPayload m = .ok () ∧
    Gives m "status" (∃ s ∈ statuses, · = .str s) ∧
    (Unlisted m "metrics" ∨ Unlisted m "artifacts")

theorem returns_toMember {values : List String} {invalid : String} {j : Json} :
    Returns (Kind.toMember values invalid j) ↔ ∃ s ∈ values, j = .str s := by
  cases j with
  | str t =>
      by_cases ht : t ∈ values
      · simp [Kind.toMember, ht]
      · simp only [Kind.toMember, if_neg ht, Except.returns_error, false_iff]
        rintro ⟨s, hs, heq⟩
        exact ht (Json.str.inj heq ▸ hs)
  | _ => simp [Kind.toMember]

theorem returns_contractual {α : Type} {x : Except String α} :
    Returns (contractual x) ↔ Returns x := by
  simp only [Returns, contractual_eq_ok]

theorem returns_toStatus {m : JsonObject} : Returns (toStatus (m.get? "status")) ↔
    Gives m "status" (∃ s ∈ statuses, · = .str s) := by
  unfold Gives
  cases m.get? "status" <;> simp [toStatus, returns_contractual, returns_toMember]

theorem raises_fromDict (p : Json) :
    Raises FromDictError.Escaping (fromDict p) ↔ Escapes p := by
  cases p with
  | obj m =>
      rw [Escapes, exists_obj]
      simp only [fromDict, Except.raises_bind, not_raises_contractual, not_raises_instantiate,
        not_raises_toStatus, Except.raises_pure, false_or, or_false, and_false, exists_false,
        exists_and_right, contractual_eq_ok, exists_unit_eq_ok, exists_eq_ok, raises_listed,
        returns_listed, returns_toStatus]
      by_cases hlisted : Unlisted m "metrics" <;> simp [hlisted]
  | _ => simp [fromDict, Escapes, FromDictError.Escaping]

theorem validate_of_fromDict {p : Json} {fields : Fields} (h : fromDict p = .ok fields) :
    validate fields = .ok () := by
  cases p with
  | obj m =>
      simp only [fromDict, Except.bind_eq_ok] at h
      obtain ⟨_, _, _, _, _, _, _, _, fields', _, _, hvalid, hsame⟩ := h
      obtain rfl := Except.ok.inj hsame
      exact contractual_eq_ok.mp hvalid
  | _ => cases h

end PluginResult

namespace ProgressReport

/-- The phase and the status are null or of their enumerations, and the detail is true and no
dictionary can be made of it. -/
def Escapes (p : Json) : Prop :=
  ∃ m, p = .obj m ∧ contract.knownPayload m = .ok () ∧
    (∀ j ∈ JsonObject.get? m "phase", j.isNull = true ∨ ∃ s ∈ phases, j = .str s) ∧
    (∀ j ∈ JsonObject.get? m "status", j.isNull = true ∨ ∃ s ∈ statuses, j = .str s) ∧
    Gives m "detail" fun j ↦ j.truthy = true ∧ dictable j = false

theorem returns_toMemberOrNone {values : List String} {invalid : String} {j : Json} :
    Returns (toMemberOrNone values invalid j) ↔ j.isNull = true ∨ ∃ s ∈ values, j = .str s := by
  unfold toMemberOrNone
  split
  · simp_all
  · simp_all [PluginResult.returns_contractual, PluginResult.returns_toMember]

theorem raises_fromDict (p : Json) :
    Raises FromDictError.Escaping (fromDict p) ↔ Escapes p := by
  cases p with
  | obj m =>
      rw [Escapes, exists_obj]
      simp only [fromDict, Except.raises_bind, not_raises_contractual, not_raises_instantiate,
        not_raises_toMemberOrNone, Except.raises_pure, false_or, or_false, and_false, exists_false,
        exists_and_right, contractual_eq_ok, exists_unit_eq_ok, exists_eq_ok, raises_given,
        returns_given, returns_toMemberOrNone, raises_toMapping, Gives]
  | _ => simp [fromDict, Escapes, FromDictError.Escaping]

theorem validate_of_fromDict {p : Json} {fields : Fields} (h : fromDict p = .ok fields) :
    validate fields = .ok () := by
  cases p with
  | obj m =>
      simp only [fromDict, Except.bind_eq_ok] at h
      obtain ⟨_, _, _, _, _, _, _, _, fields', _, _, hvalid, hsame⟩ := h
      obtain rfl := Except.ok.inj hsame
      exact contractual_eq_ok.mp hvalid
  | _ => cases h

end ProgressReport

namespace Metric

/-- The context is true and no dictionary can be made of it. -/
def Escapes (p : Json) : Prop :=
  ∃ m, p = .obj m ∧ contract.knownPayload m = .ok () ∧
    Gives m "context" fun j ↦ j.truthy = true ∧ dictable j = false

theorem raises_fromDict (p : Json) :
    Raises FromDictError.Escaping (fromDict p) ↔ Escapes p := by
  cases p with
  | obj m =>
      rw [Escapes, exists_obj]
      simp only [fromDict, Except.raises_bind, not_raises_contractual, not_raises_instantiate,
        Except.raises_pure, false_or, or_false, and_false, exists_false,
        exists_and_right, contractual_eq_ok, exists_unit_eq_ok, raises_given, raises_toMapping,
        Gives]
  | _ => simp [fromDict, Escapes, FromDictError.Escaping]

theorem validate_of_fromDict {p : Json} {fields : Fields} (h : fromDict p = .ok fields) :
    validate fields = .ok () := by
  cases p with
  | obj m =>
      simp only [fromDict, Except.bind_eq_ok] at h
      obtain ⟨_, _, _, _, fields', _, _, hvalid, hsame⟩ := h
      obtain rfl := Except.ok.inj hsame
      exact contractual_eq_ok.mp hvalid
  | _ => cases h

end Metric

/-- Each of the five classes handles a payload exactly when it does not escape. -/
theorem malformed_payloads_handled_iff (p : Json) :
    (Handled TaskSpec.contract (TaskSpec.fromDict p) ↔ ¬TaskSpec.Escapes p) ∧
      (Handled PluginManifest.contract (PluginManifest.fromDict p) ↔ ¬PluginManifest.Escapes p) ∧
      (Handled PluginResult.contract (PluginResult.fromDict p) ↔ ¬PluginResult.Escapes p) ∧
      (Handled ProgressReport.contract (ProgressReport.fromDict p) ↔ ¬ProgressReport.Escapes p) ∧
      (Handled Metric.contract (Metric.fromDict p) ↔ ¬Metric.Escapes p) := by
  refine ⟨?_, ?_, ?_, ?_, ?_⟩
  · rw [← TaskSpec.raises_fromDict]
    exact and_iff_right fun _ h ↦ TaskSpec.validate_of_fromDict h
  · rw [← PluginManifest.raises_fromDict]
    exact and_iff_right fun _ h ↦ PluginManifest.validate_of_fromDict h
  · rw [← PluginResult.raises_fromDict]
    exact and_iff_right fun _ h ↦ PluginResult.validate_of_fromDict h
  · rw [← ProgressReport.raises_fromDict]
    exact and_iff_right fun _ h ↦ ProgressReport.validate_of_fromDict h
  · rw [← Metric.raises_fromDict]
    exact and_iff_right fun _ h ↦ Metric.validate_of_fromDict h

/-- A task whose expected artifacts are a number. -/
def Sample.unlistedTask : Json := .obj (Sample.task ++ [("expected_artifacts", .int 5)])

theorem unlisted_artifacts_escape :
    ¬Handled TaskSpec.contract (TaskSpec.fromDict Sample.unlistedTask) := by
  have hread : (TaskSpec.fromDict Sample.unlistedTask).isOk = false := by decide +kernel
  have hcontract : (match TaskSpec.fromDict Sample.unlistedTask with
      | .error (.contract _) => true
      | _ => false) = false := by decide +kernel
  intro h
  cases hresult : TaskSpec.fromDict Sample.unlistedTask with
  | ok fields => simp [hresult, Except.isOk, Except.toBool] at hread
  | error e =>
      refine h.2 ⟨e, hresult, ?_⟩
      cases e with
      | contract message => simp [hresult] at hcontract
      | _ => trivial

end ChipEvolve.Payload
