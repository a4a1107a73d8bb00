import ChipEvolve.Registry.Validator

/-!
# What the registry resolves

`PluginRegistry.resolve` (`registry.py`), and what is known of a plugin that a registry made by
`from_directory` resolves for execution.
-/

namespace ChipEvolve.Registry

open Builtins (text?)
open Except (bind_eq_ok)

namespace Manifest

def supportedArch (m : Manifest) : List String := texts m "supported_arch"

end Manifest

/-! ## Resolving -/

namespace PluginRegistry

variable (registry : PluginRegistry)

/-- The registered plugins of an id, of one version if one is asked for. -/
def matching (pluginId : String) (version : Option String) : List RegisteredPlugin :=
  registry.plugins.filter fun p ↦
    p.manifest.pluginId = pluginId && version.all fun v ↦ p.manifest.pluginVersion = v

end PluginRegistry

/-- `plugin {id}@{version}` -/
def RegisteredPlugin.label (p : RegisteredPlugin) (pluginId : String) : String :=
  "plugin " ++ pluginId ++ "@" ++ p.manifest.pluginVersion

/-- What is asked of the one plugin that matches. -/
def RegisteredPlugin.checkSuited (py : Printing) (p : RegisteredPlugin) (pluginId : String)
    (capability arch : Option String) (requireAdmitted : Bool) : Checked Unit := do
  raiseIf (requireAdmitted = true ∧ p.executable = false) (.registry ("plugin " ++
    quoted pluginId ++ " is not admitted (" ++ p.admission.status ++ ": " ++
    py.text p.admission.reason ++ ")"))
  raiseIf (capability.getD "" ≠ "" ∧ capability.getD "" ∉ p.manifest.capabilities)
    (.registry (p.label pluginId ++ " lacks capability " ++ quoted (capability.getD "")))
  raiseIf (arch.getD "" ≠ "" ∧ arch.getD "" ∉ p.manifest.supportedArch)
    (.registry (p.label pluginId ++ " does not support architecture " ++ quoted (arch.getD "")))

namespace PluginRegistry

variable (registry : PluginRegistry)

def resolve (py : Printing) (pluginId : String) (version capability arch : Option String)
    (requireAdmitted : Bool := true) : Checked Manifest :=
  match registry.matching pluginId version with
  | [] => .error (.registry ("unknown plugin: " ++ pluginId ++
      if version.getD "" = "" then "" else "@" ++ version.getD ""))
  | [p] => do
      p.checkSuited py pluginId capability arch requireAdmitted
      return p.manifest
  | several => .error (.registry ("plugin " ++ quoted pluginId ++
      " has several versions; choose one of: " ++ ", ".intercalate
        ((several.map fun p ↦ p.manifest.pluginVersion).insertionSort (· ≤ ·))))

end PluginRegistry

section Resolve

variable {py : Printing} {registry : PluginRegistry} {p : RegisteredPlugin} {m : Manifest}
  {pluginId : String} {version capability arch : Option String} {requireAdmitted : Bool}

theorem raiseIf_eq_ok {q : Prop} [Decidable q] {e : Raised} : raiseIf q e = .ok () ↔ ¬q := by
  unfold raiseIf
  split_ifs with h
  · simp [h]
  · simp [h]

theorem checkSuited_eq_ok :
    p.checkSuited py pluginId capability arch requireAdmitted = .ok () ↔
      (requireAdmitted = true → p.executable = true) ∧
      (capability.getD "" ≠ "" → capability.getD "" ∈ p.manifest.capabilities) ∧
      (arch.getD "" ≠ "" → arch.getD "" ∈ p.manifest.supportedArch) := by
  have hadmission : ¬(requireAdmitted = true ∧ p.executable = false) ↔
      (requireAdmitted = true → p.executable = true) := by simp
  have hasked : ∀ (asked : Option String) (offered : List String),
      ¬(asked.getD "" ≠ "" ∧ asked.getD "" ∉ offered) ↔
        (asked.getD "" ≠ "" → asked.getD "" ∈ offered) := by
    intro asked offered
    simp
  rw [← hadmission, ← hasked capability, ← hasked arch]
  unfold RegisteredPlugin.checkSuited
  constructor
  · intro h
    obtain ⟨_, hadmitted, h⟩ := bind_eq_ok.mp h
    obtain ⟨_, hcapability, harch⟩ := bind_eq_ok.mp h
    exact ⟨raiseIf_eq_ok.mp hadmitted, raiseIf_eq_ok.mp hcapability, raiseIf_eq_ok.mp harch⟩
  · rintro ⟨hadmitted, hcapability, harch⟩
    exact bind_eq_ok.mpr ⟨(), raiseIf_eq_ok.mpr hadmitted,
      bind_eq_ok.mpr ⟨(), raiseIf_eq_ok.mpr hcapability, raiseIf_eq_ok.mpr harch⟩⟩

theorem mem_matching : p ∈ registry.matching pluginId version ↔
    p ∈ registry.plugins ∧ p.manifest.pluginId = pluginId ∧
      ∀ v, version = some v → p.manifest.pluginVersion = v := by
  unfold PluginRegistry.matching
  cases version with
  | none => simp
  | some v => simp

/-- The manifest of the only plugin that matches, if that plugin is suited. -/
theorem resolve_eq_ok :
    registry.resolve py pluginId version capability arch requireAdmitted = .ok m ↔
      ∃ p, registry.matching pluginId version = [p] ∧
        p.checkSuited py pluginId capability arch requireAdmitted = .ok () ∧ p.manifest = m := by
  unfold PluginRegistry.resolve
  split
  · next h => simp [h]
  · next p h =>
      simp only [h, bind_eq_ok, List.cons.injEq, and_true]
      constructor
      · rintro ⟨_, hsuited, hm⟩
        exact ⟨p, rfl, hsuited, Except.ok.inj hm⟩
      · rintro ⟨_, rfl, hsuited, rfl⟩
        exact ⟨(), hsuited, rfl⟩
  · next hnil hsingle =>
      refine iff_of_false (by simp) ?_
      rintro ⟨p, hp, _⟩
      exact hsingle p hp

end Resolve

/-! ## What a registry holds -/

/-- An item of an entry and what the loader makes of it. -/
def Contained (d : PluginDirectory) (item resolved : String) : Prop :=
  if startsWith "./" item then
    ∃ t, d.target (withoutDot item) = .ok t ∧ t.inside = true ∧ resolved = t.path
  else climbs item = false ∧ resolved = item

/-- The record of the platform that lets a plugin run. -/
structure Admits (py : Printing) (admissions : Option Admissions) (pluginId : String)
    (record : JsonObject) : Prop where
  kept : admissions.bind (· pluginId) = some (.ok (.obj record))
  owner : ((JsonObject.get? record "plugin_id").getD .null).isNull = true ∨
    text? ((JsonObject.get? record "plugin_id").getD .null) = some pluginId
  status : py.text ((JsonObject.get? record "status").getD (.str unknown)) = admitted
  license : ∃ review, JsonObject.get? record "license_review" = some (.str review) ∧
    review.toLower ∈ executableLicenses
  commit : ((JsonObject.get? record "approved_commit").getD .null).truthy = true

/-- A plugin as its directory and the records of the platform have it. -/
structure Loaded (py : Printing) (admissions : Option Admissions) (d : PluginDirectory)
    (declared : Manifest) (p : RegisteredPlugin) : Prop where
  isDir : d.isDir = true
  read : ∃ file ∈ d.manifests, file.manifest = .ok declared
  manifest : p.manifest = declared.withEntry p.adapterEntry
  entry : List.Forall₂ (Contained d) declared.adapterEntry p.adapterEntry
  reviewed : ReviewedCommit d admissions declared
  executable : p.executable = true → ∃ record, Admits py admissions declared.pluginId record

section Loading

variable {py : Printing} {admissions : Option Admissions} {d : PluginDirectory}
  {pluginId : String} {admission : Admission} {provenance : Provenance}

theorem contained_of_resolveEntry {items entry : List String}
    (h : resolveEntry d pluginId items = .ok entry) : List.Forall₂ (Contained d) items entry := by
  induction items generalizing entry with
  | nil =>
      obtain rfl := Except.ok.inj h
      exact .nil
  | cons item items ih =>
      unfold resolveEntry at h
      by_cases hdot : startsWith "./" item = true
      · rw [if_pos hdot] at h
        obtain ⟨t, ht, h⟩ := bind_eq_ok.mp h
        obtain ⟨_, hinside, h⟩ := bind_eq_ok.mp h
        obtain ⟨_, hpath, h⟩ := bind_eq_ok.mp h
        obtain rfl := Except.ok.inj hpath
        obtain ⟨rest, hrest, h⟩ := bind_eq_ok.mp h
        obtain rfl := Except.ok.inj h
        have hcontained : Contained d item t.path := by
          rw [Contained, if_pos hdot]
          exact ⟨t, ht, by simpa using raiseIf_eq_ok.mp hinside, rfl⟩
        exact .cons hcontained (ih hrest)
      · rw [if_neg hdot] at h
        obtain ⟨_, hclimbs, h⟩ := bind_eq_ok.mp h
        obtain ⟨_, hitem, h⟩ := bind_eq_ok.mp h
        obtain rfl := Except.ok.inj hitem
        obtain ⟨rest, hrest, h⟩ := bind_eq_ok.mp h
        obtain rfl := Except.ok.inj h
        have hcontained : Contained d item item := by
          rw [Contained, if_neg hdot]
          exact ⟨by simpa using raiseIf_eq_ok.mp hclimbs, rfl⟩
        exact .cons hcontained (ih hrest)

theorem sourceCommit_of_loadProvenance (h : loadProvenance d = .ok provenance) :
    provenance.sourceCommit = declaredCommit d := by
  unfold loadProvenance at h
  unfold declaredCommit
  split at h
  · next hnone =>
      obtain rfl := Except.ok.inj h
      rw [hnone]
  · next hpayload =>
      obtain ⟨p, rfl, hcommit⟩ := Provenance.fromDict_ok h
      rw [hpayload, hcommit]
  · next hunread =>
      obtain rfl := Except.ok.inj h
      rw [hunread]
  · cases h

theorem license_of_checkReview {review : Json} (h : checkReview py pluginId review = .ok ()) :
    ∃ s, review = .str s ∧ s.toLower ∈ executableLicenses := by
  unfold checkReview at h
  by_cases htruthy : review.truthy = true
  · rw [if_pos htruthy] at h
    cases review with
    | str s => exact ⟨s, rfl, not_not.mp (raiseIf_eq_ok.mp h)⟩
    | _ => cases h
  · rw [if_neg htruthy] at h
    exact absurd (not_not.mp (raiseIf_eq_ok.mp h)) (by decide +kernel)

/-- A record that is accepted and admits its plugin. -/
theorem Admission.admits_of_fromDict {record : JsonObject}
    (h : Admission.fromDict py pluginId (.obj record) = .ok admission)
    (hkept : admissions.bind (· pluginId) = some (.ok (.obj record)))
    (hadmitted : admission.status = admitted) : Admits py admissions pluginId record := by
  obtain ⟨_, _, h⟩ := bind_eq_ok.mp h
  obtain ⟨_, howner, h⟩ := bind_eq_ok.mp h
  obtain ⟨_, hvalid, h⟩ := bind_eq_ok.mp h
  obtain rfl := Except.ok.inj h
  obtain ⟨_, _, hvalid⟩ := bind_eq_ok.mp hvalid
  obtain ⟨_, _, hvalid⟩ := bind_eq_ok.mp hvalid
  rw [if_pos hadmitted] at hvalid
  obtain ⟨_, hreview, hcommit⟩ := bind_eq_ok.mp hvalid
  obtain ⟨review, hfield, hlicense⟩ := license_of_checkReview hreview
  refine ⟨hkept, ?_, hadmitted, ⟨review, ?_, hlicense⟩, not_not.mp (raiseIf_eq_ok.mp hcommit)⟩
  · have hnot := raiseIf_eq_ok.mp howner
    rw [not_and_or, not_not] at hnot
    exact hnot.imp (fun hnull ↦ by simpa using hnull) id
  · change (JsonObject.get? record "license_review").getD .null = .str review at hfield
    cases hget : JsonObject.get? record "license_review" with
    | some value =>
        rw [hget] at hfield
        exact congrArg some hfield
    | none =>
        rw [hget] at hfield
        cases hfield

theorem loadAdmission_spec (h : loadAdmission py pluginId admissions = .ok admission) :
    admission.approvedCommit = approvedCommit admissions pluginId ∧
      (admission.status = admitted → ∃ record, Admits py admissions pluginId record) := by
  have hunknown : unknown ≠ admitted := by decide
  unfold loadAdmission at h
  split at h
  · obtain rfl := Except.ok.inj h
    exact ⟨rfl, fun hstatus ↦ absurd hstatus hunknown⟩
  · next records =>
      split at h
      · next hnone =>
          obtain rfl := Except.ok.inj h
          exact ⟨by simp [approvedCommit, hnone], fun hstatus ↦ absurd hstatus hunknown⟩
      · next payload hpayload =>
          obtain ⟨record, rfl, _, _, hcommit⟩ := Admission.fromDict_ok h
          exact ⟨by simp [approvedCommit, hpayload, hcommit],
            fun hstatus ↦ ⟨record, Admission.admits_of_fromDict h hpayload hstatus⟩⟩
      · next hunread =>
          obtain rfl := Except.ok.inj h
          exact ⟨by simp [approvedCommit, hunread], fun hstatus ↦ absurd hstatus hunknown⟩
      · cases h

theorem loaded_of_loadPlugin {file : ManifestFile} {p : RegisteredPlugin} (hdir : d.isDir = true)
    (hfile : file ∈ d.manifests) (h : loadPlugin py d admissions file = .ok p) :
    ∃ declared, Loaded py admissions d declared p := by
  obtain ⟨declared, hread, h⟩ := bind_eq_ok.mp h
  obtain ⟨entry, hentry, h⟩ := bind_eq_ok.mp h
  obtain ⟨provenance, hprovenance, h⟩ := bind_eq_ok.mp h
  obtain ⟨admission, hadmission, h⟩ := bind_eq_ok.mp h
  obtain ⟨_, hcommit, h⟩ := bind_eq_ok.mp h
  obtain rfl := Except.ok.inj h
  obtain ⟨happroved, hadmits⟩ := loadAdmission_spec hadmission
  have hmanifest : file.manifest = .ok declared := by
    cases hfound : file.manifest with
    | ok m => rwa [hfound] at hread
    | error e =>
        rw [hfound] at hread
        cases hread
  exact ⟨declared, hdir, ⟨file, hfile, hmanifest⟩, rfl, contained_of_resolveEntry hentry,
    (checkReviewedCommit_iff happroved (sourceCommit_of_loadProvenance hprovenance)).mp hcommit,
    fun hexecutable ↦ hadmits (of_decide_eq_true hexecutable)⟩

theorem plugins_of_register {registry registry' : PluginRegistry} {p : RegisteredPlugin}
    (h : registry.register py p = .ok registry') :
    registry'.plugins = registry.plugins ++ [p] := by
  obtain ⟨_, _, h⟩ := bind_eq_ok.mp h
  obtain ⟨_, _, h⟩ := bind_eq_ok.mp h
  obtain ⟨_, _, h⟩ := bind_eq_ok.mp h
  split at h
  · rw [← Except.ok.inj h]
  · cases h

variable {directories : List PluginDirectory}

/-- Every plugin comes from one of the directories. -/
def PluginRegistry.Sourced (py : Printing) (admissions : Option Admissions)
    (directories : List PluginDirectory) (registry : PluginRegistry) : Prop :=
  ∀ p ∈ registry.plugins, ∃ d ∈ directories, ∃ declared, Loaded py admissions d declared p

theorem sourced_of_registerDirectory {files : List ManifestFile}
    {registry registry' : PluginRegistry} (hd : d ∈ directories) (hdir : d.isDir = true)
    (hfiles : ∀ file ∈ files, file ∈ d.manifests)
    (hsourced : registry.Sourced py admissions directories)
    (h : registerDirectory py admissions d files registry = .ok registry') :
    registry'.Sourced py admissions directories := by
  induction files generalizing registry with
  | nil =>
      obtain rfl := Except.ok.inj h
      exact hsourced
  | cons file files ih =>
      rw [List.forall_mem_cons] at hfiles
      obtain ⟨p, hp, h⟩ := bind_eq_ok.mp h
      obtain ⟨next, hnext, h⟩ := bind_eq_ok.mp h
      refine ih hfiles.2 (fun q hq ↦ ?_) h
      rw [plugins_of_register hnext, List.mem_append, List.mem_singleton] at hq
      rcases hq with hq | rfl
      · exact hsourced q hq
      · exact ⟨d, hd, loaded_of_loadPlugin hdir hfiles.1 hp⟩

theorem sourced_of_fromDirectory {root : Option AdmissionsRoot} {registry : PluginRegistry}
    (hroot : resolveRoot root = .ok admissions)
    (h : fromDirectory py root directories = .ok registry) :
    registry.Sourced py admissions directories := by
  have hempty : PluginRegistry.empty.Sourced py admissions directories := List.forall_mem_nil _
  obtain ⟨_, hresolved, h⟩ := bind_eq_ok.mp h
  obtain rfl := Except.ok.inj (hroot.symm.trans hresolved)
  refine Except.foldlM_keeps (fun registry d registry' hd hsourced hstep ↦ ?_) hempty h
  split at hstep
  · next hdir => exact sourced_of_registerDirectory hd hdir (fun _ hfile ↦ hfile) hsourced hstep
  · obtain rfl := Except.ok.inj hstep
    exact hsourced

end Loading

/-! ## What is resolved for execution -/

/-- A manifest that may be executed: what a directory declares, with its own paths in the entry,
at the revision that the record of the platform admits. -/
structure Approved (py : Printing) (admissions : Option Admissions)
    (directories : List PluginDirectory) (m : Manifest) : Prop where
  source : ∃ d ∈ directories, d.isDir = true ∧ ∃ declared,
    (∃ file ∈ d.manifests, file.manifest = .ok declared) ∧ declared.identity = m.identity ∧
    (∃ entry, m = declared.withEntry entry ∧
      List.Forall₂ (Contained d) declared.adapterEntry entry) ∧
    ReviewedCommit d admissions declared
  admitted : ∃ record, Admits py admissions m.pluginId record

section Executing

variable {py : Printing} {admissions : Option Admissions} {directories : List PluginDirectory}
  {registry : PluginRegistry} {m : Manifest} {pluginId : String}
  {version capability arch : Option String}

theorem PluginRegistry.Sourced.approved (hsourced : registry.Sourced py admissions directories)
    (h : registry.resolve py pluginId version capability arch = .ok m) :
    Approved py admissions directories m := by
  obtain ⟨p, hmatching, hsuited, rfl⟩ := resolve_eq_ok.mp h
  obtain ⟨hp, _, _⟩ := mem_matching.mp (hmatching ▸ List.mem_singleton_self p)
  obtain ⟨d, hd, declared, hloaded⟩ := hsourced p hp
  have hidentity : declared.identity = p.manifest.identity := by
    rw [hloaded.manifest, identity_withEntry]
  refine ⟨⟨d, hd, hloaded.isDir, declared, hloaded.read, hidentity,
    ⟨p.adapterEntry, hloaded.manifest, hloaded.entry⟩, hloaded.reviewed⟩, ?_⟩
  obtain ⟨record, hrecord⟩ := hloaded.executable ((checkSuited_eq_ok.mp hsuited).1 rfl)
  exact ⟨record, (Prod.mk.inj hidentity).1 ▸ hrecord⟩

end Executing

end ChipEvolve.Registry
