import ChipEvolve.Disk
import ChipEvolve.Runtime.ResultFile
import ChipEvolve.Runtime.Submission

/-!
# What a reported success stands for

`ProcessAdapter.execute` (`adapter.py`) on a workspace with symbolic links: what follows
from a result that says `succeeded`.  The checks look at the exit code, at where each
declared path leads and at the kinds that are declared, but not at how much a file holds.
-/

namespace ChipEvolve.Adapter

open Attempt
open Except (bind_eq_ok)
open Payload (Fields)

/-! ## The workspace -/

/-- The files when the process has ended, with the number of links `resolve` follows before it
raises.  A workspace that has a result file is a directory. -/
structure Tree where
  disk : Disk Bytes
  workspace : FilePath
  limit : Nat
  resultFile : Option Bytes
  directory : ∀ root, Names.follow disk.names.link limit workspace = some root →
    resultFile.isSome → disk.content (disk.names.node root) = none

namespace Tree

variable (t : Tree)

/-- `path.resolve()` -/
def resolve (path : FilePath) : Option FilePath :=
  Names.follow t.disk.names.link t.limit path

def root : Option FilePath := t.resolve t.workspace

/-- The regular file at a place. -/
def bytes (place : FilePath) : Option Bytes := t.disk.content (t.disk.names.node place)

/-- `str(path)` of a relative path. -/
def relative (parts : FilePath) : String :=
  if parts = [] then "." else "/".intercalate parts

/-- `(root / declared).resolve()`, `relative_to(root)` and `is_file()` -/
def look (declared : String) : Except String Place :=
  if '\x00' ∈ declared.toList then .error "embedded null byte"
  else
    match t.root with
    | none => .error "Symlink loop"
    | some root =>
        match t.resolve (root ++ pathParts declared) with
        | none => .error "Symlink loop"
        | some path =>
            if root.isPrefixOf path then
              match t.bytes path with
              | some content => .ok (.file (relative (path.drop root.length)) content)
              | none => .ok .absent
            else .ok .outside

def left : Left where
  resultFile := t.resultFile
  look := t.look

/-- A store key names a regular file strictly inside the resolved workspace: no component of its
path is a link. -/
def Holds (key : String) (content : Bytes) : Prop :=
  ∃ root rel, t.root = some root ∧ rel ≠ [] ∧ key = "/".intercalate rel ∧
    t.disk.names.Clear (root ++ rel) ∧ t.bytes (root ++ rel) = some content

variable {t}

/-- A file that is found lies inside the workspace, whatever links the declared path went through. -/
theorem holds_of_look {declared key : String} {content : Bytes}
    (hfile : t.resultFile.isSome) (h : t.look declared = .ok (.file key content)) :
    t.Holds key content := by
  unfold look at h
  split at h
  · cases h
  · split at h
    · cases h
    · rename_i root hroot
      split at h
      · cases h
      · rename_i path hpath
        split at h
        · rename_i hinside
          split at h
          · rename_i content' hbytes
            obtain ⟨rfl, rfl⟩ := Place.file.inj (Except.ok.inj h)
            obtain ⟨rel, rfl⟩ := List.isPrefixOf_iff_prefix.mp hinside
            have hrel : rel ≠ [] := by
              rintro rfl
              have hnone := t.directory root hroot hfile
              rw [List.append_nil] at hbytes
              rw [Tree.bytes, hnone] at hbytes
              cases hbytes
            refine ⟨root, rel, hroot, hrel, ?_, Names.clear_of_follow _ _ _ hpath, hbytes⟩
            simp [relative, hrel]
          · cases h
        · cases h

end Tree

/-! ## What is claimed of a success -/

/-- The task expects the kind, or a required rule of the manifest names it. -/
def Needs (manifest : PluginManifest) (task : TaskSpec) (kind : String) : Prop :=
  kind ∈ task.expectedArtifacts ∨
    kind ≠ "" ∧ ∃ rule, .obj rule ∈ manifest.artifactRules ∧ ruleRequired rule = true ∧
      ruleKind rule = .str kind

structure Honest (H : Bytes → String) (manifest : PluginManifest) (task : TaskSpec)
    (outcome : ProcessOutcome) (t : Tree) (e : Execution) : Prop where
  exited : outcome.returncode = 0 ∧ outcome.cancelled = false ∧ outcome.timedOut = false ∧
    outcome.exceeded = none
  distinct : (e.artifacts.map Normalized.storeKey).Nodup
  inside : ∀ a ∈ e.artifacts, ∃ content, t.Holds a.storeKey content ∧
    a.sizeBytes = content.length ∧ a.sha256 = H content
  unreserved : ∀ a ∈ e.artifacts, a.kind ∉ reservedArtifactKinds
  allowed : manifest.artifactRules ≠ [] → ∀ a ∈ e.artifacts,
    ∃ rule, .obj rule ∈ manifest.artifactRules ∧ ruleKind rule = .str a.kind
  complete : ∀ kind, Needs manifest task kind → ∃ a ∈ e.artifacts, a.kind = kind ∧
    ∃ content, t.Holds a.storeKey content ∧ a.sizeBytes = content.length ∧ content ≠ []

/-- The artifacts the result file lists. -/
def listed (read : Bytes → Except ReadError Json) (t : Tree) : List Json :=
  match t.resultFile.map read with
  | some (.ok payload) =>
      match Payload.PluginResult.fromDict payload with
      | .ok result => Payload.items result "artifacts"
      | .error _ => []
  | _ => []

/-- The result file lists, for each kind that is needed, one path at least that leads to a file
which is not empty; and if it lists anything and the manifest has rules, one of these has a
kind. -/
def Stocked (read : Bytes → Except ReadError Json) (manifest : PluginManifest) (task : TaskSpec)
    (t : Tree) : Prop :=
  (∀ kind, Needs manifest task kind → ∃ m path key content, .obj m ∈ listed read t ∧
    JsonObject.get? m "kind" = some (.str kind) ∧ JsonObject.get? m "path" = some (.str path) ∧
      t.look path = .ok (.file key content) ∧ content ≠ []) ∧
  (manifest.artifactRules ≠ [] → listed read t ≠ [] →
    ∃ rule, .obj rule ∈ manifest.artifactRules ∧ (ruleKind rule).truthy = true)

/-! ## What the checks establish -/

section Checks

variable {H : Bytes → String} {read : Bytes → Except ReadError Json} {manifest : PluginManifest}
  {task : TaskSpec} {allowReserved : Bool} {outcome : ProcessOutcome} {t : Tree} {e : Execution}

/-- The loop returns one entry for each declaration, with keys that are all distinct. -/
theorem declareAll_sound {look : String → Except String Place} {allowed : List Json}
    {seen : List String} {items : List Item} {entries : List Normalized}
    (h : declareAll H look allowed allowReserved seen items = .ok entries) :
    List.Forall₂ (fun item entry ↦ examine H look allowed allowReserved item = .ok entry)
        items entries ∧
      (entries.map Normalized.storeKey).Nodup ∧ ∀ a ∈ entries, a.storeKey ∉ seen := by
  induction items generalizing seen entries with
  | nil =>
      obtain rfl : [] = entries := Except.ok.inj h
      simp
  | cons item items ih =>
      simp only [declareAll, bind_eq_ok, raiseWhen_eq_ok] at h
      obtain ⟨entry, hentry, _, hfresh, rest, hrest, hsame⟩ := h
      obtain rfl := Except.ok.inj hsame
      obtain ⟨hrelated, hnodup, hseen⟩ := ih hrest
      refine ⟨.cons hentry hrelated, ?_, ?_⟩
      · rw [List.map_cons, List.nodup_cons]
        refine ⟨?_, hnodup⟩
        intro hmem
        obtain ⟨a, ha, heq⟩ := List.mem_map.mp hmem
        exact hseen a ha (heq ▸ List.mem_cons_self)
      · rw [List.forall_mem_cons]
        exact ⟨hfresh, fun a ha hmem ↦ hseen a ha (List.mem_cons_of_mem _ hmem)⟩

theorem succeeded_ownResult {status : RuntimeStatus} {code : Int} {failure : JsonObject} :
    succeeded (ownResult outcome status code failure) ↔ status = .succeeded := by
  change some status.value = some RuntimeStatus.succeeded.value ↔ _
  cases status <;> decide

/-- None of the results the platform decides on is a success. -/
theorem not_succeeded_of_decided {result : Fields} (h : decided outcome = some result) :
    ¬succeeded result := by
  unfold decided at h
  split at h
  · cases h
    simp [succeeded_ownResult]
  · split at h
    · cases h
      simp [succeeded_ownResult]
    · obtain ⟨message, _, rfl⟩ := Option.map_eq_some_iff.mp h
      simp [succeeded_ownResult]

theorem decided_eq_none : decided outcome = none ↔
    outcome.cancelled = false ∧ outcome.timedOut = false ∧ outcome.exceeded = none := by
  unfold decided
  cases outcome.cancelled <;> cases outcome.timedOut <;> simp

theorem expected_nonempty (h : task.validate = .ok ()) {kind : String}
    (hkind : kind ∈ task.expectedArtifacts) : kind ≠ "" := by
  unfold TaskSpec.validate at h
  -- the checks before that of `expected_artifacts`
  iterate 15 replace h := (Validated.of_bind h).2
  have hall := not_not.mp (refuseIf_eq_ok.mp h)
  simpa using List.all_eq_true.mp hall kind hkind

/-- What an execution went through that returned a success. -/
structure Accepted (H : Bytes → String) (read : Bytes → Except ReadError Json)
    (manifest : PluginManifest) (task : TaskSpec) (allowReserved : Bool)
    (outcome : ProcessOutcome) (t : Tree) (e : Execution) (items : List Item)
    (rules : List JsonObject) : Prop where
  valid : task.validate = .ok ()
  file : t.resultFile.isSome
  listed : (listed read t).mapM Item.ofArtifact = .ok items
  undecided : decided outcome = none
  exited : outcome.returncode = 0
  objects : manifest.artifactRules = rules.map .obj
  declared : declareAll H t.look (allowedBy manifest.artifactRules) allowReserved [] items =
    .ok e.artifacts
  required : missingKinds rules task.expectedArtifacts (e.artifacts.map Normalized.kind) = []

theorem exists_accepted
    (h : execute H read manifest task allowReserved outcome t.left = .ok e)
    (hs : succeeded e.result) :
    ∃ items rules, Accepted H read manifest task allowReserved outcome t e items rules := by
  simp only [execute, bind_eq_ok] at h
  obtain ⟨_, _, _, htask, _, _, h⟩ := h
  have hvalid : task.validate = .ok () := by
    cases hvalidate : task.validate with
    | ok u => rfl
    | error m =>
        rw [hvalidate] at htask
        cases htask
  unfold concluded at h
  split at h
  · obtain rfl := Except.ok.inj h
    exact absurd hs (by simp [protocolFailure, succeeded_ownResult])
  · simp only [attempted, bind_eq_ok, loadResult_eq_ok] at h
    obtain ⟨result, hcounts, items, hitems, artifacts, hvalidate, hsame⟩ := h
    obtain rfl := Except.ok.inj hsame
    rcases hcounts with hdecided | ⟨hnone, bytes, payload, hfile, hread, hdict, hclaim, _⟩
    · exact absurd hs (not_succeeded_of_decided hdecided)
    · have hfile' : t.resultFile = some bytes := hfile
      have hlisted : Adapter.listed read t = Payload.items result "artifacts" := by
        simp [Adapter.listed, hfile', hread, hdict]
      simp only [validateArtifactDeclarations, bind_eq_ok] at hvalidate
      obtain ⟨rules, hrules, allowed, hallowed, entries, hentries, hvalidate⟩ := hvalidate
      have hobjects := ruleObjects_eq_ok.mp hrules
      have hset := (allowedKinds_eq_ok.mp hallowed).2
      rw [← hobjects] at hset
      rw [if_pos (by simpa using hs)] at hvalidate
      obtain ⟨_, hrequire, hsame⟩ := bind_eq_ok.mp hvalidate
      obtain rfl := Except.ok.inj hsame
      exact ⟨items, rules,
        { valid := hvalid
          file := by rw [hfile']; rfl
          listed := hlisted ▸ hitems
          undecided := hnone
          exited := by
            by_contra hcode
            exact hclaim ⟨hcode, hs⟩
          objects := hobjects
          declared := hset ▸ hentries
          required := requireKinds_eq_ok hrequire }⟩

theorem validateDeclaration_eq_ok {kind path : String} {metadata : Option JsonObject}
    (h : validateDeclaration kind path metadata false = .ok ()) :
    kind ≠ "" ∧ kind ∉ reservedArtifactKinds := by
  simp only [validateDeclaration, ArtifactDeclaration.validate, bind_eq_ok] at h
  obtain ⟨_, ⟨_, hidentifier, _, hreserved, _⟩, _⟩ := h
  refine ⟨?_, fun hmem ↦ (refuseIf_eq_ok.mp hreserved) ⟨hmem, Bool.false_ne_true⟩⟩
  rintro rfl
  cases hidentifier

theorem ofArtifact_eq_ok {artifact : Json} {item : Item} (h : Item.ofArtifact artifact = .ok item) :
    ∃ m, artifact = .obj m ∧ JsonObject.get? m "kind" = some item.kind ∧
      JsonObject.get? m "path" = some item.path := by
  cases artifact with
  | obj m =>
      simp only [Item.ofArtifact] at h
      split at h
      · rename_i kind path hkind hpath
        obtain rfl := Except.ok.inj h
        exact ⟨m, rfl, hkind, hpath⟩
      · cases h
  | _ => cases h

namespace Accepted

variable {items : List Item} {rules : List JsonObject}

/-- What the result file and the workspace say of an artifact that is returned. -/
theorem source (h : Accepted H read manifest task false outcome t e items rules)
    {a : Normalized} (ha : a ∈ e.artifacts) :
    ∃ m path content, .obj m ∈ Adapter.listed read t ∧
      JsonObject.get? m "kind" = some (.str a.kind) ∧ JsonObject.get? m "path" = some (.str path) ∧
        t.look path = .ok (.file a.storeKey content) ∧ a.sizeBytes = content.length ∧
          a.sha256 = H content ∧ a.kind ≠ "" ∧ a.kind ∉ reservedArtifactKinds ∧
            Allows (allowedBy manifest.artifactRules) false a.kind := by
  obtain ⟨item, hitem, hexamine⟩ := (Pointwise.mem (declareAll_sound h.declared).1).2 a ha
  obtain ⟨kind, path, metadata, content, ⟨hkind, hpath, _, hvalid, hallows⟩, hlook, hentry⟩ :=
    examine_eq_ok.mp hexamine
  obtain ⟨artifact, hartifact, hof⟩ := (Except.mem_of_mapM h.listed).2 item hitem
  obtain ⟨m, rfl, hmkind, hmpath⟩ := ofArtifact_eq_ok hof
  have hname : a.kind = kind := by rw [hentry]
  obtain ⟨hne, hfree⟩ := validateDeclaration_eq_ok hvalid
  rw [hkind, ← hname] at hmkind
  rw [hpath] at hmpath
  rw [← hname] at hne hfree hallows
  exact ⟨m, path, content, hartifact, hmkind, hmpath, hlook, by rw [hentry], by rw [hentry], hne,
    hfree, hallows⟩

/-- An artifact of the result file is returned under the key its path leads to. -/
theorem returned (h : Accepted H read manifest task false outcome t e items rules)
    {m : JsonObject} {kind path key : String} {content : Bytes}
    (hm : .obj m ∈ Adapter.listed read t) (hkind : JsonObject.get? m "kind" = some (.str kind))
    (hpath : JsonObject.get? m "path" = some (.str path))
    (hlook : t.look path = .ok (.file key content)) :
    ∃ a ∈ e.artifacts, a.kind = kind ∧ a.storeKey = key ∧ a.sizeBytes = content.length := by
  obtain ⟨item, hitem, hof⟩ := (Except.mem_of_mapM h.listed).1 _ hm
  obtain ⟨m', heq, hmkind, hmpath⟩ := ofArtifact_eq_ok hof
  obtain rfl := Json.obj.inj heq
  obtain ⟨a, ha, hexamine⟩ := (Pointwise.mem (declareAll_sound h.declared).1).1 item hitem
  obtain ⟨kind', path', metadata, content', ⟨hkind', hpath', _⟩, hlook', hentry⟩ :=
    examine_eq_ok.mp hexamine
  have hname : kind' = kind := by
    rw [hkind, hkind'] at hmkind
    exact (Json.str.inj (Option.some.inj hmkind)).symm
  have hwhere : path' = path := by
    rw [hpath, hpath'] at hmpath
    exact (Json.str.inj (Option.some.inj hmpath)).symm
  rw [hwhere, hlook] at hlook'
  obtain ⟨hkey, rfl⟩ := Place.file.inj (Except.ok.inj hlook')
  exact ⟨a, ha, by rw [hentry, hname], hkey.symm, by rw [hentry]⟩

/-- Every kind that is needed is declared. -/
theorem declares (h : Accepted H read manifest task false outcome t e items rules) {kind : String}
    (hneeds : Needs manifest task kind) : kind ∈ e.artifacts.map Normalized.kind := by
  by_contra hnot
  have hmissing : Json.str kind ∈ missingKinds rules task.expectedArtifacts
      (e.artifacts.map Normalized.kind) := by
    rw [mem_missingKinds_str]
    rcases hneeds with hexpected | ⟨hne, rule, hrule, hrequired, hkind⟩
    · exact ⟨.inl hexpected, expected_nonempty h.valid hexpected, hnot⟩
    · rw [h.objects] at hrule
      obtain ⟨m, hm, heq⟩ := List.mem_map.mp hrule
      obtain rfl := Json.obj.inj heq
      exact ⟨.inr ⟨m, hm, hrequired, hkind⟩, hne, hnot⟩
  rw [h.required] at hmissing
  cases hmissing

end Accepted

theorem mem_allowedBy {rules : List Json} {kind : Json} :
    kind ∈ allowedBy rules ↔ (∃ m, .obj m ∈ rules ∧ ruleKind m = kind) ∧ kind.truthy = true := by
  have hmembers : ∀ m, m ∈ ruleMembers rules ↔ .obj m ∈ rules := by
    intro m
    unfold ruleMembers
    rw [List.mem_filterMap]
    constructor
    · rintro ⟨rule, hrule, heq⟩
      cases rule with
      | obj m' =>
          obtain rfl := Option.some.inj heq
          exact hrule
      | _ => cases heq
    · exact fun h ↦ ⟨_, h, rfl⟩
  simp only [allowedBy, List.mem_filter, List.mem_map, hmembers]

/-- An execution that returns a success is honest exactly if, beyond what is checked, no kind that
is needed is declared with empty files only, and the rules name a kind. -/
theorem success_honest_iff (h : execute H read manifest task false outcome t.left = .ok e)
    (hs : succeeded e.result) :
    Honest H manifest task outcome t e ↔ Stocked read manifest task t := by
  obtain ⟨items, rules, haccepted⟩ := exists_accepted h hs
  constructor
  · intro honest
    refine ⟨?_, ?_⟩
    · intro kind hneeds
      obtain ⟨a, ha, rfl, content, _, hsize, hnonempty⟩ := honest.complete kind hneeds
      obtain ⟨m, path, content', hm, hkind, hpath, hlook, hsize', _⟩ := haccepted.source ha
      refine ⟨m, path, a.storeKey, content', hm, hkind, hpath, hlook, ?_⟩
      rintro rfl
      rw [hsize', List.length_nil] at hsize
      exact hnonempty (List.length_eq_zero_iff.mp hsize.symm)
    · intro hrules hlisted
      obtain ⟨artifact, hartifact⟩ := List.exists_mem_of_ne_nil _ hlisted
      obtain ⟨item, hitem, _⟩ := (Except.mem_of_mapM haccepted.listed).1 artifact hartifact
      obtain ⟨a, ha, _⟩ := (Pointwise.mem (declareAll_sound haccepted.declared).1).1 item hitem
      obtain ⟨_, _, _, _, _, _, _, _, _, hne, _⟩ := haccepted.source ha
      obtain ⟨rule, hrule, hkind⟩ := honest.allowed hrules a ha
      refine ⟨rule, hrule, ?_⟩
      rw [hkind]
      simpa [Json.truthy] using hne
  · rintro ⟨hstocked, hnamed⟩
    refine ⟨⟨haccepted.exited, decided_eq_none.mp haccepted.undecided⟩,
      (declareAll_sound haccepted.declared).2.1, ?_, ?_, ?_, ?_⟩
    · intro a ha
      obtain ⟨m, path, content, _, _, _, hlook, hsize, hdigest, _⟩ := haccepted.source ha
      exact ⟨content, Tree.holds_of_look haccepted.file hlook, hsize, hdigest⟩
    · intro a ha
      obtain ⟨_, _, _, _, _, _, _, _, _, _, hfree, _⟩ := haccepted.source ha
      exact hfree
    · intro hrules a ha
      obtain ⟨m, _, _, hm, _, _, _, _, _, _, _, hallows⟩ := haccepted.source ha
      obtain ⟨rule, hrule, htruthy⟩ := hnamed hrules (List.ne_nil_of_mem hm)
      rcases hallows with hnone | ⟨_, hmem, rfl⟩ | hreserved
      · have hkind : ruleKind rule ∈ allowedBy manifest.artifactRules :=
          mem_allowedBy.mpr ⟨⟨rule, hrule, rfl⟩, htruthy⟩
        rw [hnone] at hkind
        cases hkind
      · exact (mem_allowedBy.mp hmem).1
      · cases hreserved
    · intro kind hneeds
      obtain ⟨m, path, key, content, hm, hkind, hpath, hlook, hnonempty⟩ := hstocked kind hneeds
      obtain ⟨a, ha, hname, rfl, hsize⟩ := haccepted.returned hm hkind hpath hlook
      exact ⟨a, ha, hname, content, Tree.holds_of_look haccepted.file hlook, hsize, hnonempty⟩

end Checks

namespace Sample

/-- A success with one artifact. -/
def reported : Json := .obj [("schema_version", .int 3), ("status", .str "succeeded"),
  ("exit_code", .int 0), ("started_at", .str "s"), ("ended_at", .str "e"),
  ("artifacts", .arr [.obj [("kind", .str "report"), ("path", .str "report.txt")]])]

def reportedText : String :=
  "\x7b\"schema_version\": 3, \"status\": \"succeeded\", \"exit_code\": 0, " ++
  "\"started_at\": \"s\", \"ended_at\": \"e\", \"artifacts\": " ++
  "[\x7b\"kind\": \"report\", \"path\": \"report.txt\"\x7d]\x7d"

/-- A workspace with `report.txt`, which holds this. -/
def tree (content : Bytes) : Tree where
  disk := { content := fun node ↦
    if node = .own ["work", "report.txt"] then some content else none }
  workspace := ["work"]
  limit := 40
  resultFile := some reportedText.toUTF8.toList
  directory := by
    intro root hroot _
    obtain rfl : ["work"] = root := Option.some.inj hroot
    rfl

/-- The execution with that file in the workspace. -/
def run (content : Bytes) : Checked Execution :=
  execute (fun _ ↦ "") (fun _ ↦ .ok reported) manifest task false exited (tree content).left

end Sample

theorem success_honest_iff_sample : ∃ e, Sample.run [104, 105] = .ok e ∧
    (Honest (fun _ ↦ "") Sample.manifest Sample.task Sample.exited (Sample.tree [104, 105]) e ↔
      Stocked (fun _ ↦ .ok Sample.reported) Sample.manifest Sample.task
        (Sample.tree [104, 105])) := by
  have hsucceeded : (match Sample.run [104, 105] with
      | .ok e => decide (succeeded e.result)
      | .error _ => false) = true := by decide +kernel
  cases h : Sample.run [104, 105] with
  | ok e =>
      rw [h] at hsucceeded
      exact ⟨e, rfl, success_honest_iff h (by simpa using hsucceeded)⟩
  | error _ =>
      rw [h] at hsucceeded
      cases hsucceeded

/-- A required artifact may be an empty file. -/
theorem empty_report_succeeds : ∃ e, Sample.run [] = .ok e ∧ succeeded e.result ∧
    ¬Honest (fun _ ↦ "") Sample.manifest Sample.task Sample.exited (Sample.tree []) e := by
  have hempty : (match Sample.run [] with
      | .ok e => decide (succeeded e.result) && e.artifacts.all fun a ↦ a.sizeBytes = 0
      | .error _ => false) = true := by decide +kernel
  cases h : Sample.run [] with
  | ok e =>
      rw [h] at hempty
      obtain ⟨hsucceeded, hsizes⟩ := Bool.and_eq_true_iff.mp hempty
      refine ⟨e, rfl, by simpa using hsucceeded, ?_⟩
      intro honest
      have hneeds : Needs Sample.manifest Sample.task "report" :=
        .inr ⟨by decide, _, List.mem_singleton.mpr rfl, rfl, rfl⟩
      obtain ⟨a, ha, _, content, _, hsize, hnonempty⟩ := honest.complete "report" hneeds
      have hzero : a.sizeBytes = 0 := by simpa using List.all_eq_true.mp hsizes a ha
      exact hnonempty (List.length_eq_zero_iff.mp (hsize.symm.trans hzero))
  | error _ =>
      rw [h] at hempty
      cases hempty

end ChipEvolve.Adapter
