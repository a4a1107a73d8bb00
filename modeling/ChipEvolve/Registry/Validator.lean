import ChipEvolve.Registry.Loader

/-!
# The plugin validator

`validate_directory` and its checks (`validate.py`): a second walk over the files that
`_load_plugin` reads, which reports instead of refusing.  An exception that a check does
not catch ends the report.
-/

namespace ChipEvolve.Registry

open Builtins (text?)
open Except (bind_eq_ok)

/-! ## Reports -/

/-- A note of the report, by what it says. -/
inductive Note where
  | several (count : Nat)
  | manifest (file pluginId pluginVersion : String) (capabilities : List String)
  | notExecutable (item : String)
  | absoluteEntry (item : String)
  | reservedKinds (kinds : List String)
  | noProvenance
  | admissionNotExamined
  | noRecord (pluginId : String)
  | record (status : String) (licenseReview reviewer : Json)
  | willRefuse

def Note.text (py : Printing) : Note → String
  | several count => toString count ++ " manifests in one directory; a platform registers each, " ++
      "and a plugin_id with several versions must be disambiguated by the caller"
  | manifest file pluginId pluginVersion capabilities => file ++ ": " ++ pluginId ++ "@" ++
      pluginVersion ++ ", capabilities " ++ ", ".intercalate capabilities
  | notExecutable item => "adapter_entry " ++ quoted item ++ " is not marked executable; a " ++
      "manifest that runs it through an interpreter does not need this, one that runs it " ++
      "directly does"
  | absoluteEntry item => "adapter_entry[0] " ++ quoted item ++ " is absolute: not checked for " ++
      "existence, because it may exist only where the plugin is deployed"
  | reservedKinds kinds => "artifact_rules list platform-reserved kinds (" ++
      ", ".intercalate kinds ++ "); allowed, and it grants no authority to declare them"
  | noProvenance => "no provenance.json: the plugin states no origin. That is allowed, and a " ++
      "reviewer will have less to go on"
  | admissionNotExamined => "no --admissions-root given, so admission was not examined; a " ++
      "platform decides that, not this tool"
  | noRecord pluginId => "no admission record at " ++ pluginId ++ ".json: the plugin is " ++
      "discoverable and will refuse to execute until a platform reviews it"
  | record status licenseReview reviewer => "admission record: status=" ++ status ++
      " licence_review=" ++ py.text licenseReview ++ " reviewer=" ++ py.text reviewer
  | willRefuse => "the platform will list this plugin and refuse to run it"

/-- Findings, in the order they were found. -/
structure Report where
  errors : List String := []
  notes : List Note := []

namespace Report

def append (r r' : Report) : Report := ⟨r.errors ++ r'.errors, r.notes ++ r'.notes⟩

instance : Append Report := ⟨append⟩

def error (message : String) : Report := { errors := [message] }

def note (n : Note) : Report := { notes := [n] }

def ok (r : Report) : Bool := r.errors.isEmpty

@[simp] theorem ok_append {r r' : Report} : (r ++ r').ok = (r.ok && r'.ok) := by
  change (r.errors ++ r'.errors).isEmpty = (r.errors.isEmpty && r'.errors.isEmpty)
  cases r.errors <;> rfl

@[simp] theorem notes_append {r r' : Report} : (r ++ r').notes = r.notes ++ r'.notes := rfl

@[simp] theorem ok_error (message : String) : (error message).ok = false := rfl

@[simp] theorem ok_note (n : Note) : (note n).ok = true := rfl

@[simp] theorem ok_empty : ({} : Report).ok = true := rfl

end Report

/-- `except (OSError, json.JSONDecodeError, RegistryError)`, around what was read. -/
def reporting {α : Type} (lead : String) (x : Checked α) (found : α → Report) : Checked Report :=
  match x with
  | .ok a => .ok (found a)
  | .error (.unread message) | .error (.registry message) => .ok (.error (lead ++ message))
  | .error e => .error e

/-! ## Checks -/

/-- One item of `adapter_entry`. -/
def checkItem (d : PluginDirectory) (item : String) : Checked Report :=
  if startsWith "./" item then do
    let target ← d.target (withoutDot item)
    if target.inside = false then
      pure (.error ("adapter_entry " ++ quoted item ++ " resolves outside the plugin " ++
        "directory, which the platform refuses"))
    else if target.isFile = false then
      pure (.error ("adapter_entry " ++ quoted item ++ " names a file that is absent"))
    else if target.executable = false then pure (.note (.notExecutable item))
    else pure {}
  else if climbs item then
    .ok (.error ("adapter_entry " ++ quoted item ++ " climbs out of the plugin directory, " ++
      "which the platform refuses"))
  else .ok {}

/-- The reports of a loop, one after the other. -/
def collect {α : Type} (check : α → Checked Report) : List α → Checked Report
  | [] => .ok {}
  | a :: rest => do
      let first ← check a
      let others ← collect check rest
      pure (first ++ others)

def checkEntry (m : Manifest) (d : PluginDirectory) : Checked Report := do
  let found ← collect (checkItem d) m.adapterEntry
  let first := m.adapterEntry.headD ""
  pure (found ++ if startsWith "/" first then .note (.absoluteEntry first) else {})

section Printing

variable (py : Printing)

def checkArtifactRules (m : Manifest) : Checked Report := do
  let rules ← m.artifactRules.mapM fun
    | .obj rule => pure ((JsonObject.get? rule "kind").getD .null)
    | _ => throw (.other "AttributeError: no attribute 'get'")
  let reserved := (rules.filterMap text?).filter fun kind ↦ kind ∈ reservedArtifactKinds
  let kinds := rules.map py.text
  pure ((if reserved.isEmpty then {}
      else .note (.reservedKinds (reserved.insertionSort (· ≤ ·)))) ++
    if kinds.Nodup then {} else .error "artifact_rules declare the same kind more than once")

def checkProvenance (d : PluginDirectory) : Checked Report :=
  match d.provenance with
  | none => .ok (.note .noProvenance)
  | some file =>
      reporting "provenance.json is not valid provenance: " (file >>= Provenance.fromDict)
        fun _ ↦ {}

def checkAdmission (pluginId : String) : Option Admissions → Checked Report
  | none => .ok (.note .admissionNotExamined)
  | some admissions =>
      match admissions pluginId with
      | none => .ok (.note (.noRecord pluginId))
      | some file =>
          reporting "admission record is not admissible: "
            (file >>= Admission.fromDict py pluginId) fun admission ↦
              .note (.record admission.status admission.licenseReview admission.reviewer) ++
                if admission.status = admitted then {} else .note .willRefuse

/-- One manifest of the directory. -/
def checkManifest (d : PluginDirectory) (admissions : Option Admissions) (file : ManifestFile) :
    Checked Report :=
  match file.read with
  | .error (.unread message) => .ok (.error (file.name ++ " is not readable JSON: " ++ message))
  | .error e => .error e
  | .ok payload =>
      match manifestFromDict payload with
      | .error (.contract message) => .ok (.error (file.name ++ ": " ++ message))
      | .error e => .error e
      | .ok m => do
          let entry ← checkEntry m d
          let rules ← checkArtifactRules py m
          let admission ← checkAdmission py m.pluginId admissions
          pure (.note (.manifest file.name m.pluginId m.pluginVersion m.capabilities) ++ entry ++
            rules ++ admission)

/-- The validator looks for the records under its root as that is written. -/
def writtenAdmissions (root : Option AdmissionsRoot) : Option Admissions :=
  root.map AdmissionsRoot.written

def validateDirectory (d : PluginDirectory) (root : Option AdmissionsRoot) : Checked Report :=
  if d.isDir = false then .ok (.error "not a directory")
  else if d.manifests = [] then .ok (.error "no *.plugin.json in this directory")
  else do
    let found ← collect (checkManifest py d (writtenAdmissions root)) d.manifests
    let provenance ← checkProvenance d
    pure ((if 1 < d.manifests.length then .note (.several d.manifests.length) else {}) ++ found ++
      provenance)

end Printing

/-! ## What a report without errors says -/

section Entries

variable {d : PluginDirectory} {item pluginId : String} {items : List String} {report : Report}

/-- An item that the loader resolves. -/
def Resolves (d : PluginDirectory) (item : String) : Prop :=
  if startsWith "./" item then ∃ t, d.target (withoutDot item) = .ok t ∧ t.inside = true
  else climbs item = false

theorem resolves_of_checkItem (h : checkItem d item = .ok report) (hok : report.ok = true) :
    Resolves d item := by
  unfold checkItem at h
  unfold Resolves
  split at h
  · next hdot =>
      rw [if_pos hdot]
      obtain ⟨t, ht, h⟩ := bind_eq_ok.mp h
      refine ⟨t, ht, ?_⟩
      by_contra hinside
      simp only [Bool.not_eq_true] at hinside
      rw [if_pos hinside] at h
      obtain rfl := Except.ok.inj h
      cases hok
  · next hdot =>
      rw [if_neg hdot]
      split at h
      · obtain rfl := Except.ok.inj h
        cases hok
      · next hclimbs => simpa using hclimbs

theorem resolveEntry_of_resolves (hitems : ∀ item ∈ items, Resolves d item ∧ item ≠ "") :
    ∃ entry, resolveEntry d pluginId items = .ok entry ∧ entry.length = items.length ∧
      ∀ item ∈ entry, item ≠ "" := by
  induction items with
  | nil => exact ⟨[], rfl, rfl, by simp⟩
  | cons item items ih =>
      rw [List.forall_mem_cons] at hitems
      obtain ⟨⟨hresolves, hitem⟩, hrest⟩ := hitems
      obtain ⟨entry, hentry, hlength, hnonempty⟩ := ih hrest
      unfold Resolves at hresolves
      by_cases hdot : startsWith "./" item = true
      · rw [if_pos hdot] at hresolves
        obtain ⟨t, ht, hinside⟩ := hresolves
        refine ⟨t.path :: entry, ?_, by simp [hlength], ?_⟩
        · simp [resolveEntry, hdot, ht, hinside, hentry, raiseIf, bind, Except.bind, pure,
            Except.pure]
        · rw [List.forall_mem_cons]
          refine ⟨fun hempty ↦ ?_, hnonempty⟩
          have habsolute := t.absolute
          rw [hempty] at habsolute
          cases habsolute
      · rw [if_neg hdot] at hresolves
        refine ⟨item :: entry, ?_, by simp [hlength], ?_⟩
        · simp [resolveEntry, hdot, hresolves, hentry, raiseIf, bind, Except.bind, pure,
            Except.pure]
        · rw [List.forall_mem_cons]
          exact ⟨hitem, hnonempty⟩

/-- A loop without errors has none at any item, and keeps the notes of each. -/
theorem mem_collect {α : Type} {check : α → Checked Report} {xs : List α}
    (h : collect check xs = .ok report) (hok : report.ok = true) :
    ∀ x ∈ xs, ∃ found, check x = .ok found ∧ found.ok = true ∧ found.notes ⊆ report.notes := by
  induction xs generalizing report with
  | nil => simp
  | cons x xs ih =>
      obtain ⟨first, hfirst, h⟩ := bind_eq_ok.mp h
      obtain ⟨others, hothers, h⟩ := bind_eq_ok.mp h
      obtain rfl := Except.ok.inj h
      rw [Report.ok_append, Bool.and_eq_true] at hok
      rw [List.forall_mem_cons, Report.notes_append]
      refine ⟨⟨first, hfirst, hok.1, List.subset_append_left _ _⟩, fun y hy ↦ ?_⟩
      obtain ⟨found, hfound, hfoundOk, hnotes⟩ := ih hothers hok.2 y hy
      exact ⟨found, hfound, hfoundOk, fun n hn ↦ List.mem_append_right _ (hnotes hn)⟩

theorem checkEntry_resolves {m : Manifest} (h : checkEntry m d = .ok report)
    (hok : report.ok = true) : ∀ item ∈ m.adapterEntry, Resolves d item := by
  obtain ⟨found, hfound, h⟩ := bind_eq_ok.mp h
  obtain rfl := Except.ok.inj h
  rw [Report.ok_append, Bool.and_eq_true] at hok
  intro item hitem
  obtain ⟨_, hchecked, hclean, _⟩ := mem_collect hfound hok.1 item hitem
  exact resolves_of_checkItem hchecked hclean

end Entries

section Records

variable {py : Printing} {d : PluginDirectory} {admissions : Option Admissions}
  {pluginId : String} {report : Report} {admission : Admission} {provenance : Provenance}

theorem reporting_ok {α : Type} {lead : String} {x : Checked α} {found : α → Report}
    (h : reporting lead x found = .ok report) (hok : report.ok = true) :
    ∃ a, x = .ok a ∧ report = found a := by
  unfold reporting at h
  split at h
  · exact ⟨_, rfl, (Except.ok.inj h).symm⟩
  · obtain rfl := Except.ok.inj h
    cases hok
  · obtain rfl := Except.ok.inj h
    cases hok
  · cases h

theorem Provenance.fromDict_ok {payload : Json} (h : Provenance.fromDict payload = .ok provenance) :
    ∃ p, payload = .obj p ∧
      provenance.sourceCommit = text? ((JsonObject.get? p "source_commit").getD .null) := by
  cases payload with
  | obj p =>
      obtain ⟨_, _, h⟩ := bind_eq_ok.mp h
      obtain ⟨_, _, h⟩ := bind_eq_ok.mp h
      obtain rfl := Except.ok.inj h
      exact ⟨p, rfl, rfl⟩
  | _ => cases h

theorem Admission.fromDict_ok {payload : Json}
    (h : Admission.fromDict py pluginId payload = .ok admission) :
    ∃ p, payload = .obj p ∧ admission.pluginId = pluginId ∧ admission.validate py = .ok () ∧
      admission.approvedCommit = (JsonObject.get? p "approved_commit").getD .null := by
  cases payload with
  | obj p =>
      obtain ⟨_, _, h⟩ := bind_eq_ok.mp h
      obtain ⟨_, _, h⟩ := bind_eq_ok.mp h
      obtain ⟨_, hvalid, h⟩ := bind_eq_ok.mp h
      obtain rfl := Except.ok.inj h
      exact ⟨p, rfl, rfl, hvalid, rfl⟩
  | _ => cases h

/-- The commit a directory declares. -/
def declaredCommit (d : PluginDirectory) : Option String :=
  match d.provenance with
  | some (.ok (.obj p)) => text? ((JsonObject.get? p "source_commit").getD .null)
  | _ => none

/-- The commit that the record of a plugin approves. -/
def approvedCommit (admissions : Option Admissions) (pluginId : String) : Json :=
  match admissions.bind (· pluginId) with
  | some (.ok (.obj p)) => (JsonObject.get? p "approved_commit").getD .null
  | _ => .null

/-- A provenance that was not reported is loaded. -/
theorem loadProvenance_of_check (h : checkProvenance d = .ok report) (hok : report.ok = true) :
    ∃ provenance, loadProvenance d = .ok provenance ∧
      provenance.sourceCommit = declaredCommit d := by
  unfold checkProvenance at h
  unfold loadProvenance
  split at h
  · next hnone => exact ⟨{}, by rw [hnone], by rw [declaredCommit, hnone]⟩
  · next file hfile =>
      obtain ⟨provenance, hread, _⟩ := reporting_ok h hok
      obtain ⟨payload, rfl, hpayload⟩ := bind_eq_ok.mp hread
      obtain ⟨p, rfl, hcommit⟩ := Provenance.fromDict_ok hpayload
      refine ⟨provenance, by rw [hfile]; exact hpayload, ?_⟩
      rw [hcommit, declaredCommit, hfile]

/-- The status in a record, as it is read; a file that cannot be read gives none. -/
def recordStatus (py : Printing) (pluginId : String) : Checked Json → Checked String
  | .ok payload => (Admission.fromDict py pluginId payload).map Admission.status
  | .error (.unread _) => .ok unknown
  | .error e => .error e

/-- The record of a plugin, if there is one, has a status. -/
def Decided (py : Printing) (admissions : Option Admissions) (pluginId : String) : Prop :=
  ∀ file, admissions.bind (· pluginId) = some file →
    ∃ status, recordStatus py pluginId file = .ok status

/-- The notes give one status, this one. -/
def Says (report : Report) (status : String) : Prop :=
  (∃ review reviewer, Note.record status review reviewer ∈ report.notes) ∧
    ∀ noted review reviewer, Note.record noted review reviewer ∈ report.notes → noted = status

/-- A check without errors notes the status of the record, and none if there is no record. -/
theorem noted_of_checkAdmission (h : checkAdmission py pluginId admissions = .ok report)
    (hok : report.ok = true) :
    (∀ file, admissions.bind (· pluginId) = some file → ∃ status,
      recordStatus py pluginId file = .ok status ∧ Says report status) ∧
    ((∃ status review reviewer, Note.record status review reviewer ∈ report.notes) →
      ∃ file, admissions.bind (· pluginId) = some file) := by
  unfold checkAdmission at h
  split at h
  · obtain rfl := Except.ok.inj h
    exact ⟨by simp, by simp [Report.note]⟩
  · next records =>
      split at h
      · next hnone =>
          obtain rfl := Except.ok.inj h
          exact ⟨by simp [hnone], by simp [Report.note]⟩
      · next file hfile =>
          refine ⟨fun file' hfile' ↦ ?_, fun _ ↦ ⟨file, hfile⟩⟩
          obtain rfl := Option.some.inj (hfile.symm.trans hfile')
          obtain ⟨admission, hread, rfl⟩ := reporting_ok h hok
          obtain ⟨payload, rfl, hpayload⟩ := bind_eq_ok.mp hread
          refine ⟨admission.status, by simp [recordStatus, hpayload, Except.map], ?_⟩
          have hnotes : ∀ n ∈ (if admission.status = admitted then {} else
              Report.note .willRefuse : Report).notes, n = .willRefuse := by
            split <;> simp [Report.note]
          refine ⟨⟨_, _, List.mem_cons_self⟩, fun noted review reviewer hmem ↦ ?_⟩
          rcases List.mem_cons.mp hmem with heq | hmem
          · exact (Note.record.inj heq).1
          · cases hnotes _ hmem

/-- An admission that is loaded belongs to the plugin and is valid; if there is a record, it
has the status and the commit of that. -/
theorem of_loadAdmission (hid : validateIdentifier "plugin_id" pluginId = .ok ())
    (h : loadAdmission py pluginId admissions = .ok admission) :
    admission.pluginId = pluginId ∧ admission.validate py = .ok () ∧
      admission.approvedCommit = approvedCommit admissions pluginId ∧
      ∀ file, admissions.bind (· pluginId) = some file →
        recordStatus py pluginId file = .ok admission.status := by
  have hunknown : ∀ reason, reason ≠ "" →
      Admission.validate py { pluginId := pluginId, reason := .str reason } = .ok () := by
    intro reason hreason
    simp [Admission.validate, hid, translate, raiseIf, unknown, admitted, sourceAuditOnly,
      Json.truthy, hreason, bind, Except.bind]
  unfold loadAdmission at h
  split at h
  · obtain rfl := Except.ok.inj h
    exact ⟨rfl, hunknown _ (by simp), rfl, by simp⟩
  · next records =>
      have hfound : ∀ {file file'}, records pluginId = some file →
          (some records).bind (· pluginId) = some file' → file = file' :=
        fun hfile hfile' ↦ Option.some.inj (hfile.symm.trans hfile')
      split at h
      · next hnone =>
          obtain rfl := Except.ok.inj h
          exact ⟨rfl, hunknown _ (by simp), by simp [approvedCommit, hnone], by simp [hnone]⟩
      · next payload hpayload =>
          obtain ⟨p, rfl, hsame, hvalid, hcommit⟩ := Admission.fromDict_ok h
          refine ⟨hsame, hvalid, by simp [approvedCommit, hpayload, hcommit], fun file hfile ↦ ?_⟩
          obtain rfl := hfound hpayload hfile
          simp [recordStatus, h, Except.map]
      · next message hunread =>
          obtain rfl := Except.ok.inj h
          refine ⟨rfl, hunknown _ (by simp), by simp [approvedCommit, hunread], fun file hfile ↦ ?_⟩
          obtain rfl := hfound hunread hfile
          rfl
      · cases h

/-- The admission of a plugin is loaded exactly when its record has a status. -/
theorem loadAdmission_iff (hid : validateIdentifier "plugin_id" pluginId = .ok ()) :
    (∃ admission, loadAdmission py pluginId admissions = .ok admission) ↔
      Decided py admissions pluginId := by
  constructor
  · rintro ⟨admission, h⟩ file hfile
    exact ⟨_, (of_loadAdmission hid h).2.2.2 file hfile⟩
  · intro h
    unfold loadAdmission
    split
    · exact ⟨_, rfl⟩
    · next records =>
        split
        · exact ⟨_, rfl⟩
        · next payload hpayload =>
            obtain ⟨status, hstatus⟩ := h _ hpayload
            obtain ⟨admission, hadmission, _⟩ := Except.map_eq_ok.mp hstatus
            exact ⟨admission, hadmission⟩
        · exact ⟨_, rfl⟩
        · next e hcaught hfile =>
            obtain ⟨status, hstatus⟩ := h _ hfile
            cases e with
            | unread message => exact absurd rfl (hcaught message)
            | _ => cases hstatus

end Records

/-! ## Validated directories -/

section Directories

variable {py : Printing} {d : PluginDirectory} {root : Option AdmissionsRoot}
  {admissions : Option Admissions} {file : ManifestFile} {files : List ManifestFile}
  {m : Manifest} {report : Report}

theorem identity_withEntry {entry : List String} : (m.withEntry entry).identity = m.identity := by
  have hsame : ∀ field, field ≠ "adapter_entry" →
      Payload.json (m.withEntry entry).named field = Payload.json m.named field := by
    intro field hfield
    rw [Payload.json, Manifest.value?_withEntry]
    unfold Payload.json
    cases Payload.value? m.named field <;> simp [hfield]
  unfold Manifest.identity Manifest.pluginId Manifest.pluginVersion Manifest.text
  rw [hsame _ (by decide), hsame _ (by decide)]

theorem valid_of_manifest (h : file.manifest = .ok m) : m.validate = .ok () := by
  obtain ⟨payload, _, h⟩ := bind_eq_ok.mp h
  cases payload with
  | obj p =>
      simp only [manifestFromDict] at h
      split at h
      · next m' hread =>
          obtain rfl := Except.ok.inj h
          exact (Payload.Contract.fromDict_eq_ok hread).2.1
      · cases h
  | _ => cases h

/-- The parts of a valid manifest that the registry reads. -/
theorem manifest_parts (h : m.validate = .ok ()) :
    validateIdentifier "plugin_id" m.pluginId = .ok () ∧ m.adapterEntry ≠ [] ∧
      ∀ item ∈ m.adapterEntry, item ≠ "" := by
  change Payload.PluginManifest.validate m.named = .ok () at h
  unfold Payload.PluginManifest.validate at h
  simp only [Validated.bind_eq_ok, Except.forM_eq_ok] at h
  obtain ⟨_, hid, _, htexts, _⟩ := h
  have hentry := htexts "adapter_entry" (by simp)
  rw [Payload.validateTexts, refuseIf_eq_ok, not_or, not_not] at hentry
  obtain ⟨hempty, hall⟩ := hentry
  refine ⟨?_, ?_, ?_⟩
  · unfold Manifest.pluginId Manifest.text
    cases hjson : Payload.json m.named "plugin_id" with
    | str s =>
        rw [hjson] at hid
        exact hid
    | _ =>
        rw [hjson] at hid
        cases hid
  · intro hnone
    unfold Manifest.adapterEntry Manifest.texts at hnone
    rw [List.filterMap_eq_nil_iff] at hnone
    refine hempty (List.isEmpty_iff.mpr (List.eq_nil_iff_forall_not_mem.mpr fun item hitem ↦ ?_))
    have htext := List.all_eq_true.mp hall item hitem
    rw [hnone item hitem] at htext
    cases htext
  · intro item hitem
    obtain ⟨j, hj, htext⟩ := List.mem_filterMap.mp hitem
    have hnonempty := List.all_eq_true.mp hall j hj
    rw [htext] at hnonempty
    simpa using hnonempty

/-- What a report without errors means for the loader. -/
structure Cleared (py : Printing) (d : PluginDirectory) (admissions : Option Admissions)
    (report : Report) : Prop where
  isDir : d.isDir = true
  manifests : ∀ file ∈ d.manifests, ∃ m found, file.manifest = .ok m ∧
    (∀ item ∈ m.adapterEntry, Resolves d item) ∧
    checkAdmission py m.pluginId admissions = .ok found ∧ found.ok = true ∧
    found.notes ⊆ report.notes
  provenance : ∃ found, checkProvenance d = .ok found ∧ found.ok = true

theorem cleared_of_ok (h : validateDirectory py d root = .ok report) (hok : report.ok = true) :
    Cleared py d (writtenAdmissions root) report := by
  unfold validateDirectory at h
  split at h
  · obtain rfl := Except.ok.inj h
    cases hok
  · next hdir =>
      split at h
      · obtain rfl := Except.ok.inj h
        cases hok
      · obtain ⟨found, hfound, h⟩ := bind_eq_ok.mp h
        obtain ⟨provenance, hprovenance, h⟩ := bind_eq_ok.mp h
        obtain rfl := Except.ok.inj h
        simp only [Report.ok_append, Bool.and_eq_true] at hok
        refine ⟨by simpa using hdir, fun file hfile ↦ ?_, provenance, hprovenance, hok.2⟩
        obtain ⟨r, hr, hclean, hnotes⟩ := mem_collect hfound hok.1.2 file hfile
        unfold checkManifest at hr
        split at hr
        · obtain rfl := Except.ok.inj hr
          cases hclean
        · cases hr
        · next payload hpayload =>
            split at hr
            · obtain rfl := Except.ok.inj hr
              cases hclean
            · cases hr
            · next m hm =>
                obtain ⟨entry, hentry, hr⟩ := bind_eq_ok.mp hr
                obtain ⟨rules, _, hr⟩ := bind_eq_ok.mp hr
                obtain ⟨admission, hadmission, hr⟩ := bind_eq_ok.mp hr
                obtain rfl := Except.ok.inj hr
                simp only [Report.ok_append, Bool.and_eq_true] at hclean
                refine ⟨m, admission, bind_eq_ok.mpr ⟨payload, hpayload, hm⟩,
                  checkEntry_resolves hentry hclean.1.1.2, hadmission, hclean.2, fun n hn ↦ ?_⟩
                simp only [Report.notes_append] at hnotes ⊢
                exact List.mem_append_left _ (List.mem_append_right _
                  (hnotes (List.mem_append_right _ hn)))

/-- The check of the admission of a manifest is part of the report. -/
theorem Cleared.admission (h : Cleared py d admissions report) (hfile : file ∈ d.manifests)
    (hm : file.manifest = .ok m) : ∃ found, checkAdmission py m.pluginId admissions = .ok found ∧
      found.ok = true ∧ found.notes ⊆ report.notes := by
  obtain ⟨m', found, hm', _, hfound⟩ := h.manifests file hfile
  obtain rfl := Except.ok.inj (hm.symm.trans hm')
  exact ⟨found, hfound⟩

/-- The commit a record approves is the one the directory declares, if both name one. -/
def ReviewedCommit (d : PluginDirectory) (admissions : Option Admissions) (m : Manifest) : Prop :=
  (approvedCommit admissions m.pluginId).truthy = true →
    ∀ declared, declaredCommit d = some declared → declared ≠ "" →
      text? (approvedCommit admissions m.pluginId) = some declared

theorem checkReviewedCommit_iff {admission : Admission} {provenance : Provenance}
    (happroved : admission.approvedCommit = approvedCommit admissions m.pluginId)
    (hdeclared : provenance.sourceCommit = declaredCommit d) :
    checkReviewedCommit py admission provenance = .ok () ↔ ReviewedCommit d admissions m := by
  unfold checkReviewedCommit raiseIf ReviewedCommit
  rw [happroved, hdeclared]
  cases declaredCommit d with
  | none => simp
  | some declared =>
      by_cases htruthy : (approvedCommit admissions m.pluginId).truthy = true
      · by_cases hempty : declared = "" <;> simp [htruthy, hempty]
      · simp [htruthy]

/-- A plugin as the loader makes it of a manifest. -/
structure Prepared (py : Printing) (d : PluginDirectory) (admissions : Option Admissions)
    (file : ManifestFile) (m : Manifest) (plugin : RegisteredPlugin) : Prop where
  read : file.manifest = .ok m
  path : plugin.manifestPath = file.name
  manifest : plugin.manifest = m.withEntry plugin.adapterEntry
  valid : plugin.manifest.validate = .ok ()
  admitted : plugin.admission.validate py = .ok ()
  owner : plugin.admission.pluginId = plugin.manifest.pluginId
  decided : ∀ file', admissions.bind (· m.pluginId) = some file' →
    recordStatus py m.pluginId file' = .ok plugin.admission.status
  reviewed : ReviewedCommit d admissions m
  loads : loadPlugin py d admissions file = .ok plugin

theorem Prepared.identity {plugin : RegisteredPlugin}
    (h : Prepared py d admissions file m plugin) : plugin.identity = m.identity := by
  rw [RegisteredPlugin.identity, h.manifest, identity_withEntry]

section Cleared

variable {written : Option Admissions} (hcleared : Cleared py d written report)
include hcleared

/-- A manifest of a cleared directory is loaded when its record is read and the checkout is the
reviewed one. -/
theorem loadPlugin_of_decided (hfile : file ∈ d.manifests) (hm : file.manifest = .ok m)
    (hdecided : Decided py admissions m.pluginId) (hreviewed : ReviewedCommit d admissions m) :
    ∃ plugin, loadPlugin py d admissions file = .ok plugin := by
  obtain ⟨m', _, hm', hresolves, _⟩ := hcleared.manifests file hfile
  obtain rfl := Except.ok.inj (hm.symm.trans hm')
  obtain ⟨hid, _, hitems⟩ := manifest_parts (valid_of_manifest hm)
  obtain ⟨entry, hentry, _⟩ : ∃ entry, resolveEntry d m.pluginId m.adapterEntry = .ok entry ∧
      entry.length = m.adapterEntry.length ∧ ∀ item ∈ entry, item ≠ "" :=
    resolveEntry_of_resolves fun item hitem ↦ ⟨hresolves item hitem, hitems item hitem⟩
  obtain ⟨r, hr, hclean⟩ := hcleared.provenance
  obtain ⟨provenance, hprovenance, hdeclared⟩ := loadProvenance_of_check hr hclean
  obtain ⟨admission, hadmission⟩ := (loadAdmission_iff hid).mpr hdecided
  have hcommit : checkReviewedCommit py admission provenance = .ok () :=
    (checkReviewedCommit_iff (of_loadAdmission hid hadmission).2.2.1 hdeclared).mpr hreviewed
  refine ⟨⟨m.withEntry entry, admission, provenance, file.name, entry⟩, ?_⟩
  unfold loadPlugin
  simp only [hm, Except.mapError, hentry, hprovenance, hadmission, hcommit, bind, Except.bind]
  rfl

/-- What is loaded of a cleared directory can be registered. -/
theorem prepared_of_loadPlugin {plugin : RegisteredPlugin} (hfile : file ∈ d.manifests)
    (hload : loadPlugin py d admissions file = .ok plugin) :
    ∃ m, Prepared py d admissions file m plugin := by
  obtain ⟨m, _, hm, hresolves, _⟩ := hcleared.manifests file hfile
  obtain ⟨hid, hnonempty, hitems⟩ := manifest_parts (valid_of_manifest hm)
  obtain ⟨entry, hentry, hlength, hentries⟩ :
      ∃ entry, resolveEntry d m.pluginId m.adapterEntry = .ok entry ∧
        entry.length = m.adapterEntry.length ∧ ∀ item ∈ entry, item ≠ "" :=
    resolveEntry_of_resolves fun item hitem ↦ ⟨hresolves item hitem, hitems item hitem⟩
  obtain ⟨r, hr, hclean⟩ := hcleared.provenance
  obtain ⟨provenance, hprovenance, hdeclared⟩ := loadProvenance_of_check hr hclean
  have hload' := hload
  unfold loadPlugin at hload'
  simp only [hm, Except.mapError, hentry, hprovenance, bind, Except.bind] at hload'
  cases hadmission : loadAdmission py m.pluginId admissions with
  | error e =>
      rw [hadmission] at hload'
      cases hload'
  | ok admission =>
      rw [hadmission] at hload'
      obtain ⟨howner, hvalid, happroved, hstatus⟩ := of_loadAdmission hid hadmission
      obtain ⟨_, hcommit, hplugin⟩ := bind_eq_ok.mp hload'
      obtain rfl := Except.ok.inj hplugin
      have hidentity : (m.withEntry entry).identity = m.identity := identity_withEntry
      refine ⟨m, hm, rfl, rfl, ?_, hvalid, ?_, hstatus,
        (checkReviewedCommit_iff happroved hdeclared).mp hcommit, hload⟩
      · refine Manifest.validate_withEntry (valid_of_manifest hm)
          ⟨fun hempty ↦ hnonempty ?_, hentries⟩
        rw [hempty] at hlength
        exact List.length_eq_zero_iff.mp hlength.symm
      · rw [howner]
        exact (Prod.mk.inj hidentity).1.symm

end Cleared

/-- A plugin that passes its checks is registered unless its identity is taken. -/
theorem register_eq_ok {registry registry' : PluginRegistry} {plugin : RegisteredPlugin}
    (hprepared : Prepared py d admissions file m plugin) :
    registry.register py plugin = .ok registry' ↔
      registry'.plugins = registry.plugins ++ [plugin] := by
  have hfresh : plugin.identity ∉ registry.plugins.map RegisteredPlugin.identity ↔
      ((registry.plugins ++ [plugin]).map RegisteredPlugin.identity).Nodup := by
    refine ⟨nodup_add registry.distinct, fun h hmem ↦ ?_⟩
    rw [List.map_append, List.nodup_append] at h
    exact h.2.2 _ hmem _ (by simp) rfl
  unfold PluginRegistry.register
  simp only [translate, hprepared.valid, hprepared.admitted, hprepared.owner, raiseIf, bind,
    Except.bind, ne_eq, not_true_eq_false, if_false]
  split
  · constructor
    · intro h
      rw [← Except.ok.inj h]
    · intro h
      obtain ⟨plugins, hdistinct⟩ := registry'
      subst h
      rfl
  · next htaken =>
      refine iff_of_false (fun h ↦ ?_) fun h ↦ htaken (hfresh.mpr ?_)
      · cases h
      · rw [← h]
        exact registry'.distinct

/-- The plugins of a directory, one for each manifest in order. -/
def Prepares (py : Printing) (d : PluginDirectory) (admissions : Option Admissions) :
    List ManifestFile → List RegisteredPlugin → Prop :=
  List.Forall₂ fun file plugin ↦ ∃ m, Prepared py d admissions file m plugin

/-- A cleared directory is registered exactly when every manifest is loaded and no identity
comes twice; then there is a plugin for each manifest, in order. -/
theorem registerDirectory_eq_ok {written : Option Admissions} {registry registry' : PluginRegistry}
    (hcleared : Cleared py d written report) (hfiles : ∀ file ∈ files, file ∈ d.manifests) :
    registerDirectory py admissions d files registry = .ok registry' ↔
      ∃ plugins, Prepares py d admissions files plugins ∧
        registry'.plugins = registry.plugins ++ plugins := by
  induction files generalizing registry with
  | nil =>
      constructor
      · intro h
        obtain rfl := Except.ok.inj h
        exact ⟨[], .nil, by simp⟩
      · rintro ⟨plugins, hplugins, h⟩
        obtain rfl := List.forall₂_nil_left_iff.mp hplugins
        obtain ⟨plugins, hdistinct⟩ := registry'
        rw [List.append_nil] at h
        subst h
        rfl
  | cons file files ih =>
      rw [List.forall_mem_cons] at hfiles
      constructor
      · intro h
        obtain ⟨plugin, hload, hregister⟩ := bind_eq_ok.mp h
        obtain ⟨next, hnext, hlater⟩ := bind_eq_ok.mp hregister
        obtain ⟨m, hprep⟩ := prepared_of_loadPlugin hcleared hfiles.1 hload
        obtain ⟨plugins, hrest, hplugins⟩ := (ih hfiles.2).mp hlater
        rw [(register_eq_ok hprep).mp hnext, List.append_assoc] at hplugins
        exact ⟨plugin :: plugins, .cons ⟨m, hprep⟩ hrest, hplugins⟩
      · rintro ⟨_, hprepares, hplugins⟩
        obtain ⟨plugin, rest, ⟨m, hprep⟩, hrest, rfl⟩ := List.forall₂_cons_left_iff.mp hprepares
        have hdistinct := registry'.distinct
        rw [hplugins, ← List.singleton_append, ← List.append_assoc, List.map_append,
          List.nodup_append] at hdistinct
        refine bind_eq_ok.mpr ⟨plugin, hprep.loads, ?_⟩
        refine bind_eq_ok.mpr ⟨⟨registry.plugins ++ [plugin], hdistinct.1⟩,
          (register_eq_ok hprep).mpr rfl, (ih hfiles.2).mpr ⟨rest, hrest, ?_⟩⟩
        rw [hplugins, List.append_assoc, List.singleton_append]

theorem Prepares.identities {plugins : List RegisteredPlugin}
    (hprepared : Prepares py d admissions files plugins) :
    (files.map fun file ↦ file.manifest.toOption.map Manifest.identity) =
      plugins.map (some ∘ RegisteredPlugin.identity) := by
  induction hprepared with
  | nil => rfl
  | cons hfile _ ih =>
      obtain ⟨m, hprep⟩ := hfile
      rw [List.map_cons, List.map_cons, ih, hprep.read, Function.comp_apply, hprep.identity]
      rfl

/-- No two manifests of the directory name the same plugin and version. -/
def Distinct (d : PluginDirectory) : Prop :=
  (d.manifests.map fun file ↦ file.manifest.toOption.map Manifest.identity).Nodup

theorem Prepares.distinct_iff {plugins : List RegisteredPlugin}
    (hprepared : Prepares py d admissions d.manifests plugins) :
    Distinct d ↔ (plugins.map RegisteredPlugin.identity).Nodup := by
  rw [Distinct, hprepared.identities, ← List.map_map,
    List.nodup_map_iff (Option.some_injective _)]

/-- The loader accepts the directory: it raises nothing, registers every manifest, and what
the catalogue says of a plugin with a record is what the report says. -/
def Loads (py : Printing) (d : PluginDirectory) (root : Option AdmissionsRoot)
    (report : Report) : Prop :=
  ∃ registry, fromDirectory py root [d] = .ok registry ∧
    (∀ file ∈ d.manifests, ∃ m, file.manifest = .ok m ∧ ∃ plugin ∈ registry.plugins,
      plugin.manifestPath = file.name ∧ plugin.manifest = m.withEntry plugin.adapterEntry) ∧
    ∀ entry ∈ registry.catalogue, ∀ admissions, resolveRoot root = .ok admissions →
      (admissions.bind (· entry.pluginId)).isSome = true →
        ∃ found, checkAdmission py entry.pluginId (writtenAdmissions root) = .ok found ∧
          found.notes ⊆ report.notes ∧
          (∃ status review reviewer, Note.record status review reviewer ∈ found.notes) ∧
          ∀ status review reviewer, Note.record status review reviewer ∈ found.notes →
            (entry.executable = true ↔ status = admitted)

/-- The record that the loader finds, if any, has a status, and the record that the validator
finds lets the plugin run if and only if this one does. -/
def SameDecision (py : Printing) (written admissions : Option Admissions) (pluginId : String) :
    Prop :=
  ∀ file, admissions.bind (· pluginId) = some file →
    ∃ status, recordStatus py pluginId file = .ok status ∧
      ∃ file' status', written.bind (· pluginId) = some file' ∧
        recordStatus py pluginId file' = .ok status' ∧ (status = admitted ↔ status' = admitted)

theorem SameDecision.decided {written : Option Admissions} {pluginId : String}
    (h : SameDecision py written admissions pluginId) : Decided py admissions pluginId := by
  intro file hfile
  obtain ⟨status, hstatus, _⟩ := h file hfile
  exact ⟨status, hstatus⟩

/-- With one and the same place for the records there is one decision. -/
theorem Cleared.sameDecision (h : Cleared py d admissions report) (hfile : file ∈ d.manifests)
    (hm : file.manifest = .ok m) : SameDecision py admissions admissions m.pluginId := by
  intro record hrecord
  obtain ⟨found, hfound, hclean, _⟩ := h.admission hfile hm
  obtain ⟨status, hstatus, _⟩ := (noted_of_checkAdmission hfound hclean).1 record hrecord
  exact ⟨status, hstatus, record, status, hrecord, hstatus, Iff.rfl⟩

theorem fromDirectory_eq_ok {registry : PluginRegistry} (hdir : d.isDir = true) :
    fromDirectory py root [d] = .ok registry ↔ ∃ admissions, resolveRoot root = .ok admissions ∧
      registerDirectory py admissions d d.manifests PluginRegistry.empty = .ok registry := by
  unfold fromDirectory
  simp only [bind_eq_ok, registerDirectories, List.foldlM_cons, List.foldlM_nil, hdir, if_true]
  simp [pure, Except.pure]

/-- A directory that is reported without errors is loaded exactly when the root resolves, no
identity comes twice, the checkout is the one that was reviewed, and what the loader finds
recorded of a plugin is what the validator found. -/
theorem validated_loads_iff (h : validateDirectory py d root = .ok report)
    (hok : report.ok = true) :
    Loads py d root report ↔ ∃ admissions, resolveRoot root = .ok admissions ∧ Distinct d ∧
      ∀ file ∈ d.manifests, ∀ m, file.manifest = .ok m → ReviewedCommit d admissions m ∧
        SameDecision py (writtenAdmissions root) admissions m.pluginId := by
  have hcleared := cleared_of_ok h hok
  have hall : ∀ file ∈ d.manifests, file ∈ d.manifests := fun _ hfile ↦ hfile
  constructor
  · rintro ⟨registry, hregistry, _, hsays⟩
    obtain ⟨admissions, hroot, hregister⟩ := (fromDirectory_eq_ok hcleared.isDir).mp hregistry
    obtain ⟨plugins, hprepares, hplugins⟩ := (registerDirectory_eq_ok hcleared hall).mp hregister
    have hplugins : registry.plugins = plugins := hplugins
    refine ⟨admissions, hroot, hprepares.distinct_iff.mpr (hplugins ▸ registry.distinct), ?_⟩
    intro file hfile m hm
    obtain ⟨plugin, hplugin, m', hprep⟩ := (Pointwise.mem hprepares).1 file hfile
    obtain rfl := Except.ok.inj (hm.symm.trans hprep.read)
    refine ⟨hprep.reviewed, fun record hrecord ↦ ⟨_, hprep.decided record hrecord, ?_⟩⟩
    have hid : plugin.entry.pluginId = m.pluginId := (Prod.mk.inj hprep.identity).1
    have hentry : plugin.entry ∈ registry.catalogue := by
      refine List.mem_map_of_mem ((List.mem_insertionSort _).mpr ?_)
      rwa [hplugins]
    obtain ⟨found, hfound, _, hnoted, hagrees⟩ := hsays _ hentry admissions hroot (by
      rw [hid, hrecord]
      rfl)
    rw [hid] at hfound
    obtain ⟨found', hfound', hclean, _⟩ := hcleared.admission hfile hm
    obtain rfl := Except.ok.inj (hfound.symm.trans hfound')
    obtain ⟨hrecorded, hwritten⟩ := noted_of_checkAdmission hfound hclean
    obtain ⟨file', hfile'⟩ := hwritten hnoted
    obtain ⟨status, hstatus, ⟨review, reviewer, hnote⟩, _⟩ := hrecorded file' hfile'
    refine ⟨file', status, hfile', hstatus, ?_⟩
    rw [← hagrees status review reviewer hnote]
    exact decide_eq_true_iff.symm
  · rintro ⟨admissions, hroot, hdistinct, hmanifests⟩
    obtain ⟨plugins, hprepares⟩ : ∃ plugins, Prepares py d admissions d.manifests plugins := by
      refine Pointwise.exists_of_forall fun file hfile ↦ ?_
      obtain ⟨m, _, hm, _⟩ := hcleared.manifests file hfile
      obtain ⟨hreviewed, hsame⟩ := hmanifests file hfile m hm
      obtain ⟨plugin, hload⟩ := loadPlugin_of_decided hcleared hfile hm hsame.decided hreviewed
      exact ⟨plugin, prepared_of_loadPlugin hcleared hfile hload⟩
    refine ⟨⟨plugins, hprepares.distinct_iff.mp hdistinct⟩, (fromDirectory_eq_ok
      hcleared.isDir).mpr ⟨admissions, hroot, (registerDirectory_eq_ok hcleared hall).mpr
      ⟨plugins, hprepares, rfl⟩⟩, ?_, ?_⟩
    · intro file hfile
      obtain ⟨plugin, hplugin, m, hprep⟩ := (Pointwise.mem hprepares).1 file hfile
      exact ⟨m, hprep.read, plugin, hplugin, hprep.path, hprep.manifest⟩
    · intro entry hentry admissions' hroot' hsome
      obtain rfl := Except.ok.inj (hroot.symm.trans hroot')
      obtain ⟨plugin, hplugin, rfl⟩ := List.mem_map.mp hentry
      have hplugin : plugin ∈ plugins := by simpa using hplugin
      obtain ⟨file, hfile, m, hprep⟩ := (Pointwise.mem hprepares).2 plugin hplugin
      have hid : plugin.entry.pluginId = m.pluginId := (Prod.mk.inj hprep.identity).1
      rw [hid] at hsome ⊢
      obtain ⟨record, hrecord⟩ := Option.isSome_iff_exists.mp hsome
      obtain ⟨status, hstatus, file', status', hfile', hstatus', hsame⟩ :=
        (hmanifests file hfile m hprep.read).2 record hrecord
      obtain rfl := Except.ok.inj ((hprep.decided record hrecord).symm.trans hstatus)
      obtain ⟨found, hfound, hclean, hnotes⟩ := hcleared.admission hfile hprep.read
      obtain ⟨status'', hstatus'', ⟨review, reviewer, hnote⟩, hunique⟩ :=
        (noted_of_checkAdmission hfound hclean).1 file' hfile'
      obtain rfl := Except.ok.inj (hstatus'.symm.trans hstatus'')
      refine ⟨found, hfound, hnotes, ⟨status', review, reviewer, hnote⟩, ?_⟩
      intro noted review reviewer hmem
      rw [hunique noted review reviewer hmem, ← hsame]
      exact decide_eq_true_iff

end Directories

/-! ## A directory -/

def samplePrinting : Printing := ⟨fun _ ↦ "", fun _ ↦ ""⟩

/-- A directory whose manifests declare version 1 of these plugins. -/
def sampleDirectory (plugins : List (String × String)) : PluginDirectory where
  manifests := plugins.map fun (name, pluginId) ↦
    { name := name
      read := .ok (.obj [("plugin_id", .str pluginId), ("plugin_version", .str "1"),
        ("adapter_entry", .arr [.str "./run"]), ("capabilities", .arr [.str "c"]),
        ("supported_arch", .arr [.str "x86_64"]), ("schema_version", .int 3)]) }
  provenance := some (.ok (.obj [("source_commit", .str "c0ffee")]))
  target _ := .ok ⟨"/plugins/run", rfl, true, true, true⟩

/-- Records that admit one plugin at the commit of the directory and keep back another. -/
def sampleRecords (pluginId : String) : Option (Checked Json) :=
  if pluginId = "p" then some (.ok (.obj [("status", .str "admitted"),
    ("license_review", .str "Green"), ("approved_commit", .str "c0ffee")]))
  else if pluginId = "q" then some (.ok (.obj [("reason", .str "not reviewed")]))
  else none

def sampleRoot : AdmissionsRoot := ⟨sampleRecords, .ok sampleRecords⟩

theorem sampleDirectory_validated (plugins : List (String × String))
    (h : (validateDirectory samplePrinting (sampleDirectory plugins) sampleRoot).toOption.any
      Report.ok = true) :
    ∃ report, validateDirectory samplePrinting (sampleDirectory plugins) sampleRoot = .ok report ∧
      report.ok = true := by
  obtain ⟨report, hreport, hok⟩ := (Option.any_eq_true _ _).mp h
  exact ⟨report, Except.toOption_eq_some.mp hreport, hok⟩

theorem sampleDirectory_reviewed (plugins : List (String × String)) (m : Manifest) :
    ReviewedCommit (sampleDirectory plugins) (some sampleRecords) m := by
  intro htruthy declared hdeclared _
  have hcommit : some "c0ffee" = some declared := hdeclared
  rw [← hcommit]
  unfold approvedCommit at htruthy ⊢
  by_cases hp : m.pluginId = "p"
  · simp [sampleRecords, hp, JsonObject.get?, text?]
  · by_cases hq : m.pluginId = "q"
    · simp [sampleRecords, hq, JsonObject.get?, Json.truthy] at htruthy
    · simp [sampleRecords, hp, hq, Json.truthy] at htruthy

theorem validated_loads_reviewed :
    ∃ report, validateDirectory samplePrinting
        (sampleDirectory [("p.plugin.json", "p"), ("q.plugin.json", "q")]) sampleRoot =
      .ok report ∧ Loads samplePrinting
        (sampleDirectory [("p.plugin.json", "p"), ("q.plugin.json", "q")]) sampleRoot report := by
  obtain ⟨report, hreport, hok⟩ :=
    sampleDirectory_validated [("p.plugin.json", "p"), ("q.plugin.json", "q")] (by decide +kernel)
  have hdistinct : Distinct (sampleDirectory [("p.plugin.json", "p"), ("q.plugin.json", "q")]) := by
    unfold Distinct
    decide +kernel
  refine ⟨report, hreport, (validated_loads_iff hreport hok).mpr
    ⟨some sampleRecords, rfl, hdistinct, fun file hfile m hm ↦ ?_⟩⟩
  exact ⟨sampleDirectory_reviewed _ m, (cleared_of_ok hreport hok).sameDecision hfile hm⟩

/-- The validator notes that there are two manifests, and the loader refuses the second. -/
theorem repeated_identity_refused :
    ¬∀ (py : Printing) (d : PluginDirectory) (root : Option AdmissionsRoot) (report : Report),
      validateDirectory py d root = .ok report → report.ok = true → Loads py d root report := by
  intro h
  obtain ⟨report, hreport, hok⟩ :=
    sampleDirectory_validated [("a.plugin.json", "p"), ("b.plugin.json", "p")] (by decide +kernel)
  obtain ⟨registry, hregistry, _⟩ := h _ _ _ _ hreport hok
  have hrefused : (fromDirectory samplePrinting sampleRoot
      [sampleDirectory [("a.plugin.json", "p"), ("b.plugin.json", "p")]]).toOption.isNone = true := by
    decide +kernel
  rw [hregistry] at hrefused
  cases hrefused

end ChipEvolve.Registry
