import ChipEvolve.Contracts.RoundTrip
import ChipEvolve.Outcome
import Mathlib.Data.List.Infix

/-!
# The plugin registry

`Provenance`, `Admission` and `PluginRegistry` with the functions that load a plugin
from its directory (`registry.py`).  A directory is what the file system answers about
it; an admissions directory has at most one record for each plugin id.
-/

namespace ChipEvolve.Registry

open Builtins (text?)
open Except (bind_eq_ok forM_eq_ok)

/-! ## Exceptions and files -/

/-- An exception, by the class that the callers tell apart: `RegistryError`,
`ContractError`, `OSError` or `JSONDecodeError`, and every other. -/
inductive Raised where
  | registry (message : String)
  | contract (message : String)
  | unread (message : String)
  | other (message : String)

def Raised.message : Raised → String
  | registry message | contract message | unread message | other message => message

abbrev Checked := Except Raised

def raiseIf (p : Prop) [Decidable p] (e : Raised) : Checked Unit :=
  if p then .error e else .ok ()

/-- `str(value)` and `repr(value)`, of values that are no texts. -/
structure Printing where
  str : Json → String
  repr : Json → String

def Printing.text (py : Printing) : Json → String
  | .str s => s
  | value => py.str value

def Printing.quote (py : Printing) : Json → String
  | .str s => quoted s
  | value => py.repr value

/-- Where `(directory / name).resolve()` leads. -/
structure Target where
  path : String
  absolute : path.toList.head? = some '/'
  inside : Bool
  isFile : Bool
  executable : Bool

/-- A file that matches `*.plugin.json`, and what reading and parsing it gives. -/
structure ManifestFile where
  name : String
  read : Checked Json

/-- A plugin directory: its manifests by name, and its `provenance.json` if that is a
file. -/
structure PluginDirectory where
  isDir : Bool := true
  manifests : List ManifestFile
  provenance : Option (Checked Json) := none
  target : String → Checked Target

/-- The records of an admissions directory, by plugin id. -/
abbrev Admissions := String → Option (Checked Json)

/-- An `admissions_root`: the records under the path as it is written, and those under what
`expanduser().resolve()` makes of it, if that raises nothing. -/
structure AdmissionsRoot where
  written : Admissions
  resolved : Checked Admissions

/-! ## Provenance -/

/-- What a plugin declares about its own origin. -/
structure Provenance where
  license : Option String := none
  sourceUrl : Option String := none
  sourceCommit : Option String := none
  notes : Option String := none

/-- `sorted(set(payload) - known)` -/
def unknownFields (known : List String) (p : JsonObject) : List String :=
  ((p.map Prod.fst).filter fun key ↦ key ∉ known).dedup.insertionSort (· ≤ ·)

/-- The exception for a payload that is no object.  The items of a list and the characters
of a text are taken for keys first. -/
def notMapping (subject : String) (known : List String) (payload : Json) : Raised :=
  match Builtins.iterate payload with
  | .error e => .other e.message
  | .ok items =>
      match items.filter fun item ↦ !(text? item).any (· ∈ known) with
      | [] => .other "AttributeError: no attribute 'get'"
      | unknown =>
          match unknown.mapM text? with
          | some keys => .registry ("unknown " ++ subject ++ ": " ++
              ", ".intercalate (keys.dedup.insertionSort (· ≤ ·)))
          | none => .other "TypeError: the keys are no texts"

/-- The fields of a provenance, sorted. -/
def provenanceFields : List String := ["license", "notes", "source_commit", "source_url"]

def isTextOrNull : Json → Bool
  | .str _ | .null => true
  | _ => false

/-- Every field is a text if it is there; the first that is not is named. -/
def requireTexts (field : String → Json) : Checked Unit :=
  match provenanceFields.find? fun name ↦ !isTextOrNull (field name) with
  | some name => .error (.registry ("provenance field " ++ name ++ " must be a string"))
  | none => .ok ()

def Provenance.fromDict : Json → Checked Provenance
  | .obj p => do
      let field := fun name ↦ (JsonObject.get? p name).getD .null
      raiseIf (unknownFields provenanceFields p ≠ []) (.registry ("unknown provenance fields: " ++
        ", ".intercalate (unknownFields provenanceFields p)))
      requireTexts field
      return { license := text? (field "license")
               sourceUrl := text? (field "source_url")
               sourceCommit := text? (field "source_commit")
               notes := text? (field "notes") }
  | payload => .error (notMapping "provenance fields" provenanceFields payload)

/-! ## Admission -/

/-- `ADMITTED` -/
def admitted : String := "admitted"

/-- `SOURCE_AUDIT_ONLY` -/
def sourceAuditOnly : String := "source-audit-only"

/-- `UNKNOWN` -/
def unknown : String := "unknown"

/-- `EXECUTABLE_LICENSES`, sorted. -/
def executableLicenses : List String := ["green", "yellow"]

/-- The platform's trust decision about one plugin. -/
structure Admission where
  pluginId : String
  status : String := unknown
  licenseReview : Json := .null
  approvedCommit : Json := .null
  reviewer : Json := .null
  reason : Json := .null

def translate : Validated → Checked Unit
  | .ok _ => .ok ()
  | .error message => .error (.contract message)

section Printing

variable (py : Printing)

/-- The licence review of an admitted plugin. -/
def checkReview (pluginId : String) (review : Json) : Checked Unit :=
  match if review.truthy then review else .str "" with
  | .str s =>
      raiseIf (s.toLower ∉ executableLicenses) (.registry (quoted pluginId ++
        " is marked admitted but its licence review is " ++ py.quote review ++
        "; admitted requires one of ['green', 'yellow']"))
  | _ => .error (.other "AttributeError: no attribute 'lower'")

def Admission.validate (a : Admission) : Checked Unit := do
  translate (validateIdentifier "plugin_id" a.pluginId)
  raiseIf (a.status ∉ [admitted, sourceAuditOnly, unknown])
    (.registry ("unknown admission status " ++ quoted a.status))
  if a.status = admitted then do
    checkReview py a.pluginId a.licenseReview
    raiseIf (¬a.approvedCommit.truthy) (.registry (quoted a.pluginId ++
      " is admitted without a pinned commit; an unpinned branch tip is not admissible"))
  else
    raiseIf (¬a.reason.truthy) (.registry (quoted a.pluginId ++ " is " ++ quoted a.status ++
      " with no reason recorded"))

def admissionFields : List String :=
  ["plugin_id", "status", "license_review", "approved_commit", "reviewer", "reason"]

def Admission.fromDict (pluginId : String) : Json → Checked Admission
  | .obj p => do
      let field := fun name ↦ (JsonObject.get? p name).getD .null
      raiseIf (unknownFields admissionFields p ≠ []) (.registry ("unknown admission fields for " ++
        quoted pluginId ++ ": " ++ ", ".intercalate (unknownFields admissionFields p)))
      raiseIf (!(field "plugin_id").isNull ∧ text? (field "plugin_id") ≠ some pluginId)
        (.registry ("admission record for " ++ quoted pluginId ++ " declares " ++
          py.quote (field "plugin_id")))
      let admission : Admission :=
        { pluginId := pluginId
          status := py.text ((JsonObject.get? p "status").getD (.str unknown))
          licenseReview := field "license_review", approvedCommit := field "approved_commit"
          reviewer := field "reviewer", reason := field "reason" }
      admission.validate py
      return admission
  | payload =>
      .error (notMapping ("admission fields for " ++ quoted pluginId) admissionFields payload)

end Printing

/-! ## Manifests -/

/-- A manifest, as `PluginManifest.from_dict` reads it. -/
abbrev Manifest := Payload.PluginManifest.contract.Instance

namespace Manifest

variable (m : Manifest)

def text (name : String) : String := (text? (Payload.json m.named name)).getD ""

def texts (name : String) : List String := (Payload.items m.named name).filterMap text?

def pluginId : String := text m "plugin_id"

def pluginVersion : String := text m "plugin_version"

def identity : String × String := (pluginId m, pluginVersion m)

def adapterEntry : List String := texts m "adapter_entry"

def capabilities : List String := texts m "capabilities"

def artifactRules : List Json := Payload.items m.named "artifact_rules"

end Manifest

/-- The messages of the exceptions of `from_dict` that are no `ContractError`. -/
def isTypeError (message : String) : Bool :=
  "TypeError".toList.isPrefixOf message.toList ||
    message = "cannot convert dictionary update sequence"

/-- `PluginManifest.from_dict` -/
def manifestFromDict : Json → Checked Manifest
  | .obj p =>
      match Payload.PluginManifest.contract.fromDict p with
      | .ok m => .ok m
      | .error message => .error (if isTypeError message then .other message else .contract message)
  | _ => .error (.contract "PluginManifest payload must be an object")

/-! ## Replacing a field -/

section Replacing

variable {C : Payload.Contract} {fields : List Payload.Field} {values : List Payload.Value}
  {name : String} {value : Payload.Value}

theorem shaped_replaced (hshaped : List.Forall₂ (fun f v ↦ f.kind.Shaped v) fields values)
    (hvalue : ∀ f ∈ fields, f.name = name → f.kind.Shaped value) :
    List.Forall₂ (fun f v ↦ f.kind.Shaped v) fields
      (List.zipWith (fun f v ↦ if f.name = name then value else v) fields values) := by
  induction hshaped with
  | nil => exact .nil
  | @cons f v fields values hf _ ih =>
      rw [List.forall_mem_cons] at hvalue
      refine .cons ?_ (ih hvalue.2)
      by_cases hname : f.name = name
      · simpa [hname] using hvalue.1 hname
      · simpa [hname] using hf

/-- `dataclasses.replace(value, name=…)` -/
def replace (v : C.Instance) (name : String) (value : Payload.Value)
    (hvalue : ∀ f ∈ C.fields, f.name = name → f.kind.Shaped value) : C.Instance :=
  ⟨List.zipWith (fun f x ↦ if f.name = name then value else x) C.fields v.values,
    shaped_replaced v.shaped hvalue⟩

theorem named_replaced (hshaped : List.Forall₂ (fun f v ↦ f.kind.Shaped v) fields values) :
    (fields.zip (List.zipWith (fun f v ↦ if f.name = name then value else v) fields values)).map
        (fun (f, v) ↦ (f.name, v)) =
      ((fields.zip values).map fun (f, v) ↦ (f.name, v)).map fun (n, v) ↦
        (n, if n = name then value else v) := by
  induction hshaped with
  | nil => rfl
  | cons _ _ ih =>
      simp only [List.zipWith_cons_cons, List.zip_cons_cons, List.map_cons, ih]

theorem value?_replaced {named : List (String × Payload.Value)} {field : String} :
    Payload.value? (named.map fun (n, v) ↦ (n, if n = name then value else v)) field =
      (Payload.value? named field).map fun v ↦ if field = name then value else v := by
  induction named with
  | nil => rfl
  | cons member named ih =>
      unfold Payload.value? at ih ⊢
      by_cases hfield : member.1 = field
      · simp [hfield]
      · simpa [List.find?_cons, hfield] using ih

end Replacing

namespace Manifest

/-- A manifest with another entry. -/
def withEntry (m : Manifest) (entry : List String) : Manifest :=
  replace m "adapter_entry" (.tuple (entry.map .str)) (by
    intro f hf hname
    simp only [Payload.PluginManifest.contract, List.mem_cons, List.not_mem_nil, or_false] at hf
    rcases hf with rfl | rfl | rfl | rfl | rfl | rfl | rfl | rfl | rfl | rfl | rfl | rfl
    case inr.inr.inl => exact ⟨_, rfl⟩
    all_goals exact absurd hname (by decide))

theorem value?_withEntry {m : Manifest} {entry : List String} {field : String} :
    Payload.value? (m.withEntry entry).named field =
      (Payload.value? m.named field).map fun v ↦
        if field = "adapter_entry" then .tuple (entry.map .str) else v := by
  have hnamed : (m.withEntry entry).named = m.named.map fun (n, v) ↦
      (n, if n = "adapter_entry" then .tuple (entry.map .str) else v) :=
    named_replaced m.shaped
  rw [hnamed, value?_replaced]

/-- Another entry of nonempty texts leaves a manifest valid. -/
theorem validate_withEntry {m : Manifest} {entry : List String} (h : m.validate = .ok ())
    (hentry : entry ≠ [] ∧ ∀ item ∈ entry, item ≠ "") : (m.withEntry entry).validate = .ok () := by
  have hsame : ∀ field, field ≠ "adapter_entry" →
      Payload.value? (m.withEntry entry).named field = Payload.value? m.named field := by
    intro field hfield
    rw [value?_withEntry]
    simp [hfield]
  have hitems : Payload.items (m.withEntry entry).named "adapter_entry" = entry.map .str := by
    have hmem : "adapter_entry" ∈ m.named.map Prod.fst := by
      rw [Payload.Contract.names_named]
      decide
    obtain ⟨member, hmember, hname⟩ := List.mem_map.mp hmem
    have hsome : (m.named.find? fun n ↦ n.1 = "adapter_entry").isSome = true :=
      List.find?_isSome.mpr ⟨member, hmember, by simpa using hname⟩
    obtain ⟨found, hfound⟩ := Option.isSome_iff_exists.mp hsome
    unfold Payload.items
    rw [value?_withEntry]
    simp [Payload.value?, hfound]
  have hvalid : Payload.validateTexts "adapter_entry" (entry.map .str) = .ok () := by
    have htexts : Payload.allTexts (entry.map .str) = true := by
      simpa [Payload.allTexts, text?] using hentry.2
    simp [Payload.validateTexts, refuseIf, hentry.1, htexts]
  change Payload.PluginManifest.validate m.named = .ok () at h
  change Payload.PluginManifest.validate (m.withEntry entry).named = .ok ()
  unfold Payload.PluginManifest.validate at h ⊢
  have hjson : ∀ field, field ≠ "adapter_entry" →
      Payload.json (m.withEntry entry).named field = Payload.json m.named field := by
    intro field hfield
    rw [Payload.json, hsame field hfield, Payload.json]
  have hrecord : Payload.record? (m.withEntry entry).named "requirements" =
      Payload.record? m.named "requirements" := by
    rw [Payload.record?, hsame _ (by decide), Payload.record?]
  rw [hjson _ (by decide), hjson _ (by decide), hjson _ (by decide), hjson _ (by decide),
    hjson _ (by decide), hjson _ (by decide), hjson _ (by decide), hrecord]
  simp only [Validated.bind_eq_ok, forM_eq_ok] at h ⊢
  obtain ⟨hversion, hid, hpluginVersion, htexts, hrest⟩ := h
  refine ⟨hversion, hid, hpluginVersion, ?_, hrest⟩
  intro name hname
  by_cases hfield : name = "adapter_entry"
  · rw [hfield, hitems]
    exact hvalid
  · rw [Payload.items, hsame name hfield]
    exact htexts name hname

end Manifest

/-! ## Loading -/

def startsWith (lead item : String) : Bool := lead.toList.isPrefixOf item.toList

/-- An entry that is not relative to its directory and climbs out of it. -/
def climbs (item : String) : Bool :=
  startsWith "../" item || decide ("/../".toList <:+: item.toList)

/-- `item[2:]` -/
def withoutDot (item : String) : String := String.ofList (item.toList.drop 2)

/-- The adapter entry with the paths of the directory resolved. -/
def resolveEntry (d : PluginDirectory) (pluginId : String) : List String → Checked (List String)
  | [] => .ok []
  | item :: items => do
      let entry ←
        if startsWith "./" item then do
          let candidate ← d.target (withoutDot item)
          raiseIf (candidate.inside = false)
            (.registry (quoted pluginId ++ " adapter entry escapes its own directory: " ++
              quoted item))
          pure candidate.path
        else do
          raiseIf (climbs item = true) (.registry (quoted pluginId ++
            " adapter entry climbs out of its directory: " ++ quoted item))
          pure item
      let entries ← resolveEntry d pluginId items
      pure (entry :: entries)

def loadProvenance (d : PluginDirectory) : Checked Provenance :=
  match d.provenance with
  | none => .ok {}
  | some (.ok payload) => Provenance.fromDict payload
  | some (.error (.unread _)) => .ok { notes := some "provenance.json is unreadable" }
  | some (.error e) => .error e

section Loading

variable (py : Printing)

def loadAdmission (pluginId : String) : Option Admissions → Checked Admission
  | none => .ok { pluginId := pluginId
                  reason := .str ("no admissions directory was configured, so no plugin is " ++
                    "admitted; the platform keeps its own trust records") }
  | some admissions =>
      match admissions pluginId with
      | none => .ok { pluginId := pluginId
                      reason := .str ("no admission record at " ++ pluginId ++ ".json; a " ++
                        "capability is reviewed before it may execute") }
      | some (.ok payload) => Admission.fromDict py pluginId payload
      | some (.error (.unread message)) =>
          .ok { pluginId := pluginId
                reason := .str ("admission record is unreadable: " ++ message) }
      | some (.error e) => .error e

def checkReviewedCommit (admission : Admission) (provenance : Provenance) : Checked Unit :=
  let declared := provenance.sourceCommit.getD ""
  raiseIf (admission.approvedCommit.truthy = true ∧ declared ≠ "" ∧
      text? admission.approvedCommit ≠ some declared)
    (.registry (quoted admission.pluginId ++ " declares source_commit " ++ quoted declared ++
      " but the admitted revision is " ++ py.quote admission.approvedCommit ++
      "; the checkout is not the revision that was reviewed"))

structure RegisteredPlugin where
  manifest : Manifest
  admission : Admission
  provenance : Provenance := {}
  manifestPath : String := ""
  adapterEntry : List String := []

namespace RegisteredPlugin

def executable (p : RegisteredPlugin) : Bool := p.admission.status = admitted

def identity (p : RegisteredPlugin) : String × String := p.manifest.identity

end RegisteredPlugin

/-- What is wrong with a manifest, for the caller of `from_directory`. -/
def invalidManifest (name : String) : Raised → Raised
  | .unread message | .contract message =>
      .registry ("invalid manifest " ++ name ++ ": " ++ message)
  | e => e

/-- The manifest in a file. -/
def ManifestFile.manifest (file : ManifestFile) : Checked Manifest := do
  let payload ← file.read
  manifestFromDict payload

def loadPlugin (d : PluginDirectory) (admissions : Option Admissions) (file : ManifestFile) :
    Checked RegisteredPlugin := do
  let manifest ← file.manifest.mapError (invalidManifest file.name)
  let entry ← resolveEntry d manifest.pluginId manifest.adapterEntry
  let provenance ← loadProvenance d
  let admission ← loadAdmission py manifest.pluginId admissions
  checkReviewedCommit py admission provenance
  return { manifest := manifest.withEntry entry, admission := admission, provenance := provenance
           manifestPath := file.name, adapterEntry := entry }

/-! ## The registry -/

/-- The registered plugins, in order, one for each identity. -/
structure PluginRegistry where
  plugins : List RegisteredPlugin
  distinct : (plugins.map RegisteredPlugin.identity).Nodup

def PluginRegistry.empty : PluginRegistry := ⟨[], .nil⟩

theorem nodup_add {plugins : List RegisteredPlugin} {plugin : RegisteredPlugin}
    (hdistinct : (plugins.map RegisteredPlugin.identity).Nodup)
    (hfresh : plugin.identity ∉ plugins.map RegisteredPlugin.identity) :
    ((plugins ++ [plugin]).map RegisteredPlugin.identity).Nodup := by
  rw [List.map_append, List.map_singleton]
  exact hdistinct.append (List.nodup_singleton _)
    (List.disjoint_singleton.mpr hfresh)

def PluginRegistry.register (registry : PluginRegistry) (plugin : RegisteredPlugin) :
    Checked PluginRegistry := do
  translate plugin.manifest.validate
  plugin.admission.validate py
  raiseIf (plugin.admission.pluginId ≠ plugin.manifest.pluginId) (.registry ("intake declares " ++
    quoted plugin.admission.pluginId ++ " but the manifest declares " ++
    quoted plugin.manifest.pluginId))
  if hfresh : plugin.identity ∉ registry.plugins.map RegisteredPlugin.identity then
    pure ⟨registry.plugins ++ [plugin], nodup_add registry.distinct hfresh⟩
  else
    throw (.registry ("plugin " ++ plugin.manifest.pluginId ++ "@" ++
      plugin.manifest.pluginVersion ++ " is already registered"))

/-- The manifests of one directory are registered in order. -/
def registerDirectory (admissions : Option Admissions) (d : PluginDirectory) :
    List ManifestFile → PluginRegistry → Checked PluginRegistry
  | [], registry => .ok registry
  | file :: files, registry => do
      let plugin ← loadPlugin py d admissions file
      let registry ← registry.register py plugin
      registerDirectory admissions d files registry

/-- The directories of the root are registered in order. -/
def registerDirectories (admissions : Option Admissions) :
    List PluginDirectory → Checked PluginRegistry :=
  (·.foldlM (fun registry d ↦
    if d.isDir then registerDirectory py admissions d d.manifests registry else pure registry)
    PluginRegistry.empty)

/-- The admissions that the registry looks into. -/
def resolveRoot : Option AdmissionsRoot → Checked (Option Admissions)
  | none => .ok none
  | some root => root.resolved.map some

/-- `PluginRegistry.from_directory`, of the children of the root by name. -/
def fromDirectory (root : Option AdmissionsRoot) (directories : List PluginDirectory) :
    Checked PluginRegistry := do
  let admissions ← resolveRoot root
  registerDirectories py admissions directories

end Loading

/-! ## The catalogue -/

structure CatalogueEntry where
  pluginId : String
  pluginVersion : String
  capabilities : List String
  admission : String
  executable : Bool
  reason : Json
  reviewer : Json
  licenseReview : Json
  declared : Provenance
  adapterEntry : List String

def RegisteredPlugin.entry (p : RegisteredPlugin) : CatalogueEntry where
  pluginId := p.manifest.pluginId
  pluginVersion := p.manifest.pluginVersion
  capabilities := p.manifest.capabilities
  admission := p.admission.status
  executable := p.executable
  reason := p.admission.reason
  reviewer := p.admission.reviewer
  licenseReview := p.admission.licenseReview
  declared := p.provenance
  adapterEntry := if p.adapterEntry.isEmpty then p.manifest.adapterEntry else p.adapterEntry

/-- `PluginRegistry.catalogue`, by plugin id and version. -/
def PluginRegistry.catalogue (registry : PluginRegistry) : List CatalogueEntry :=
  (registry.plugins.insertionSort fun p q ↦
    p.identity.1 < q.identity.1 ∨ (p.identity.1 = q.identity.1 ∧ p.identity.2 ≤ q.identity.2)).map
    RegisteredPlugin.entry

end ChipEvolve.Registry
