import ChipEvolve.Contracts.Plugin
import ChipEvolve.Runtime.Staging
import Mathlib.Data.List.Pairwise

/-!
# The files an adapter finds

`WorkflowRuntime._run_attempt` (`runtime.py`) up to the start of the adapter
process: the staged inputs, and then the files the platform puts into the same
directory, of `_stage_inputs`, `_write_protocol_receipt` and
`ProcessAdapter.execute` (`adapter.py`).  `TaskSpec.validate` compares
destinations as texts, while files are placed by normalised path.
-/

namespace ChipEvolve

open Except (bind_eq_ok)

/-! ## Up to the start of the process -/

/-- The texts the platform prints into a workspace. -/
structure Documents where
  inputManifest : List StagedInput → Bytes
  receipt : TaskSpec → Bytes
  request : TaskSpec → Bytes

def receiptFilename : String := "runtime_protocol_receipt.json"

def requestFilename : String := "adapter_request.json"

/-- `path.with_suffix(path.suffix + ".tmp")` of the request. -/
def requestTemporary : String := "adapter_request.json.tmp"

def resultFilename : String := "adapter_result.json"

def logFilename : String := "adapter.log"

namespace Site

/-- `path.unlink(missing_ok=True)` -/
def remove (site : Site) (disk : Disk Written) (name : FilePath) :
    Except RuntimeError (Disk Written) :=
  match site.refuses disk name with
  | some message => .error (.os message)
  | none => .ok (disk.unlink name)

/-- `source.replace(target)` -/
def replace (site : Site) (disk : Disk Written) (source target : FilePath) :
    Except RuntimeError (Disk Written) :=
  match site.refuses disk target with
  | some message => .error (.os message)
  | none => .ok (disk.rename source target)

/-- `path.open("a")` -/
def openAppend (site : Site) (disk : Disk Written) (path : FilePath) :
    Except RuntimeError (Disk Written) :=
  match site.refuses disk path with
  | some message => .error (.os message)
  | none =>
      match disk.touch path { bytes := [], writer := .platform } with
      | some disk' => .ok disk'
      | none => .error (.os "Too many levels of symbolic links")

/-- `_write_protocol_receipt` -/
def writeReceipt (site : Site) (documents : Documents) (manifest : PluginManifest)
    (task : TaskSpec) (disk : Disk Written) : Except RuntimeError (Disk Written) :=
  if !manifest.requirements.requireProtocolReceipt then .ok disk
  else
    match task.inputs.get? "experiment_protocol" with
    | some (.obj _) =>
        site.put disk (site.root ++ [receiptFilename])
          { bytes := documents.receipt task, writer := .platform }
    | _ =>
        .error (.store (.runtimeStore (quoted manifest.pluginId ++
          " requires an immutable experiment_protocol in inputs")))

/-- `Path(workspace).expanduser().resolve()` -/
def resolvedRoot (site : Site) (disk : Disk Written) : Except RuntimeError FilePath :=
  match disk.names.place site.root with
  | some root => .ok root
  | none => .error (.os "Symlink loop")

/-- `ProcessAdapter.execute` up to the start of the process, which may fail for reasons of its
own. -/
def execute (site : Site) (documents : Documents) (starts : Except RuntimeError Unit)
    (manifest : PluginManifest) (task : TaskSpec) (disk : Disk Written) :
    Except RuntimeError (Disk Written) := do
  manifest.validate.mapError .contract
  task.validate.mapError .contract
  raiseIf (task.pluginId ≠ some manifest.pluginId)
    (.value ("task targets " ++ (task.pluginId.map quoted).getD "None" ++ " but the manifest is " ++
      quoted manifest.pluginId))
  let root ← site.resolvedRoot disk
  let disk ← site.remove disk (root ++ [resultFilename])
  let disk ← site.put disk (root ++ [requestTemporary])
    { bytes := documents.request task, writer := .platform }
  let disk ← site.replace disk (root ++ [requestTemporary]) (root ++ [requestFilename])
  let disk ← site.openAppend disk (root ++ [logFilename])
  starts
  return disk

/-- The files of the workspace before the attempt. -/
def before (disk : Disk Bytes) : Disk Written :=
  { names := disk.names
    content := fun node ↦ (disk.content node).map fun bytes ↦
      { bytes := bytes, writer := .earlier } }

/-- `_run_attempt` up to the start of the adapter process: the inputs that were recorded, and the
files the adapter finds. -/
def runAttempt (site : Site) (H : Bytes → String) (location : ArtifactRow → String)
    (documents : Documents) (finds : Nat → Surroundings) (starts : Except RuntimeError Unit)
    (manifest : PluginManifest) (task : TaskSpec) (disk : Disk Bytes) :
    Except RuntimeError (List StagedInput × Disk Written) := do
  let (staged, disk) ← stageInputs H site location documents.inputManifest finds task (before disk)
  staged.forM fun s ↦ s.validate.mapError RuntimeError.contract
  verifyInputManifest H task staged
  let disk ← site.writeReceipt documents manifest task disk
  let disk ← site.execute documents starts manifest task disk
  return (staged, disk)

end Site

/-! ## What the staging writes -/

section Placements

variable (H : Bytes → String) (site : Site) (location : ArtifactRow → String)
  (finds : Nat → Surroundings)

/-- The writes of the loop of `_stage_inputs` from an index on. -/
def placements : Nat → List InputFile → List (FilePath × Written)
  | _, [] => []
  | index, i :: rest =>
      (((finds index).supplies H location i).toList.map fun bytes ↦
        (site.destination i, { bytes := bytes, writer := .input index })) ++
        placements (index + 1) rest

variable {H site location finds}

theorem mem_placements {index : Nat} {inputs : List InputFile} {w : FilePath × Written} :
    w ∈ placements H site location finds index inputs ↔
      ∃ offset i bytes, inputs[offset]? = some i ∧
        (finds (index + offset)).supplies H location i = some bytes ∧
        w = (site.destination i, { bytes := bytes, writer := .input (index + offset) }) := by
  induction inputs generalizing index with
  | nil => simp [placements]
  | cons i rest ih =>
      simp only [placements, List.mem_append, List.mem_map, Option.mem_toList, ih]
      constructor
      · rintro (⟨bytes, hbytes, rfl⟩ | ⟨offset, i', bytes, hi, hbytes, rfl⟩)
        · exact ⟨0, i, bytes, rfl, hbytes, rfl⟩
        · refine ⟨offset + 1, i', bytes, hi, ?_, ?_⟩ <;>
            rw [show index + (offset + 1) = index + 1 + offset by omega]
          exact hbytes
      · rintro ⟨offset, i', bytes, hi, hbytes, rfl⟩
        cases offset with
        | zero =>
            obtain rfl := Option.some.inj hi
            exact .inl ⟨bytes, hbytes, rfl⟩
        | succ offset =>
            rw [show index + (offset + 1) = index + 1 + offset by omega] at hbytes ⊢
            exact .inr ⟨offset, i', bytes, hi, hbytes, rfl⟩

theorem mem_placements_of_supplies {inputs : List InputFile} {index : Nat} {i : InputFile}
    {bytes : Bytes} (hi : inputs[index]? = some i)
    (hbytes : (finds index).supplies H location i = some bytes) :
    (site.destination i, { bytes := bytes, writer := .input index }) ∈
      placements H site location finds 0 inputs :=
  mem_placements.mpr ⟨index, i, bytes, hi, by rwa [Nat.zero_add], by rw [Nat.zero_add]⟩

/-- Every write of the staging has a writer of its own. -/
theorem placements_nodup (index : Nat) (inputs : List InputFile) :
    ((placements H site location finds index inputs).map Prod.snd).Nodup := by
  induction inputs generalizing index with
  | nil => simp [placements]
  | cons i rest ih =>
      rw [placements, List.map_append, List.nodup_append]
      refine ⟨?_, ih (index + 1), ?_⟩
      · cases (finds index).supplies H location i <;> simp
      · intro v hv w hw heq
        obtain ⟨head, hhead, rfl⟩ := List.mem_map.mp hv
        obtain ⟨bytes, _, rfl⟩ := List.mem_map.mp hhead
        obtain ⟨later, hlater, rfl⟩ := List.mem_map.mp hw
        obtain ⟨offset, i', bytes', _, _, rfl⟩ := mem_placements.mp hlater
        have hwriter := congrArg Written.writer heq
        simp only [Writer.input.injEq] at hwriter
        omega

theorem writeAll_placements {labels : JsonObject} {index : Nat} {inputs : List InputFile}
    {disk disk' : Disk Written} {staged : List StagedInput}
    (h : stageAll H site location labels finds index inputs disk = .ok (staged, disk')) :
    Disk.writeAll (placements H site location finds index inputs) disk = some disk' := by
  induction inputs generalizing index disk staged with
  | nil =>
      obtain ⟨rfl, rfl⟩ := stageAll_nil h
      rfl
  | cons i rest ih =>
      obtain ⟨first, disk₁, others, hfirst, hothers, rfl⟩ := stageAll_cons h
      rw [placements]
      obtain ⟨_, hcases⟩ := stageInput_cases hfirst
      rcases hcases with ⟨hsupplies, _, rfl, _⟩ | ⟨bytes, hsupplies, _, hput⟩
      · simpa [hsupplies] using ih hothers
      · simp only [hsupplies, Option.toList_some, List.map_cons, List.map_nil,
          List.singleton_append, Disk.writeAll, Site.put_eq_ok hput, Option.bind_some]
        exact ih hothers

/-- The record of an input says what was placed for it, or that nothing was. -/
theorem staged_spec {labels : JsonObject} {index : Nat} {inputs : List InputFile}
    {disk disk' : Disk Written} {staged : List StagedInput}
    (h : stageAll H site location labels finds index inputs disk = .ok (staged, disk'))
    {offset : Nat} {s : StagedInput} (hs : staged[offset]? = some s) :
    ∃ i, inputs[offset]? = some i ∧ s.destination = i.destination ∧
      s.entry = match (finds (index + offset)).supplies H location i with
        | some bytes => i.measured (some (H bytes)) bytes.length
        | none => i.measured none 0 := by
  induction inputs generalizing index disk staged offset with
  | nil =>
      obtain ⟨rfl, rfl⟩ := stageAll_nil h
      simp at hs
  | cons i rest ih =>
      obtain ⟨first, disk₁, others, hfirst, hothers, rfl⟩ := stageAll_cons h
      cases offset with
      | zero =>
          obtain rfl := Option.some.inj hs
          obtain ⟨hdestination, hcases⟩ := stageInput_cases hfirst
          refine ⟨i, rfl, hdestination, ?_⟩
          rcases hcases with ⟨hsupplies, _, _, hentry⟩ | ⟨bytes, hsupplies, hentry, _⟩
          · rw [Nat.add_zero, hsupplies, hentry]
          · rw [Nat.add_zero, hsupplies, hentry]
      | succ offset =>
          rw [show index + (offset + 1) = index + 1 + offset by omega]
          exact ih hothers hs

theorem length_staged {labels : JsonObject} {index : Nat} {inputs : List InputFile}
    {disk disk' : Disk Written} {staged : List StagedInput}
    (h : stageAll H site location labels finds index inputs disk = .ok (staged, disk')) :
    staged.length = inputs.length := by
  induction inputs generalizing index disk staged with
  | nil =>
      obtain ⟨rfl, rfl⟩ := stageAll_nil h
      rfl
  | cons i rest ih =>
      obtain ⟨first, disk₁, others, hfirst, hothers, rfl⟩ := stageAll_cons h
      rw [List.length_cons, List.length_cons, ih hothers]

end Placements

/-! ## What the platform writes afterwards -/

/-- The names after the result has been removed and the request has got its name. -/
def handedOver (n : Names) (root : FilePath) : Names :=
  (n.unlink (root ++ [resultFilename])).rename (root ++ [requestTemporary])
    (root ++ [requestFilename])

/-- The file a path leads to is left alone by all that is written, removed and renamed between
the staging and the start of the adapter. -/
structure Spared (n : Names) (root : FilePath) (written : List FilePath) (path : FilePath)
    (node : FileNode) : Prop where
  leads : n.leads path = some node
  stays : (handedOver n root).leads path = some node
  unwritten : ∀ p ∈ written, n.leads p ≠ some node
  temporary : (n.unlink (root ++ [resultFilename])).leads (root ++ [requestTemporary]) ≠ some node
  unremoved : node ≠ .own (root ++ [resultFilename])
  unreplaced : node ≠ .own (root ++ [requestFilename])

section HandOver

variable {site : Site} {documents : Documents} {starts : Except RuntimeError Unit}
  {manifest : PluginManifest} {task : TaskSpec} {disk disk' : Disk Written} {root : FilePath}

theorem execute_spec (h : site.execute documents starts manifest task disk = .ok disk') :
    ∃ root disk₁, disk.names.place site.root = some root ∧
      (disk.unlink (root ++ [resultFilename])).write (root ++ [requestTemporary])
        { bytes := documents.request task, writer := .platform } = some disk₁ ∧
      (disk₁.rename (root ++ [requestTemporary]) (root ++ [requestFilename])).touch
        (root ++ [logFilename]) { bytes := [], writer := .platform } = some disk' := by
  obtain ⟨_, _, h⟩ := bind_eq_ok.mp h
  obtain ⟨_, _, h⟩ := bind_eq_ok.mp h
  obtain ⟨_, _, h⟩ := bind_eq_ok.mp h
  obtain ⟨root, hroot, h⟩ := bind_eq_ok.mp h
  obtain ⟨disk₁, hremove, h⟩ := bind_eq_ok.mp h
  obtain ⟨disk₂, hput, h⟩ := bind_eq_ok.mp h
  obtain ⟨disk₃, hreplace, h⟩ := bind_eq_ok.mp h
  obtain ⟨disk₄, hopen, h⟩ := bind_eq_ok.mp h
  obtain ⟨_, _, h⟩ := bind_eq_ok.mp h
  obtain rfl := Except.ok.inj h
  refine ⟨root, disk₂, ?_, ?_, ?_⟩
  · unfold Site.resolvedRoot at hroot
    split at hroot
    · next hplace => rw [hplace, Except.ok.inj hroot]
    · cases hroot
  · unfold Site.remove at hremove
    split at hremove
    · cases hremove
    · obtain rfl := Except.ok.inj hremove
      exact Site.put_eq_ok hput
  · unfold Site.replace at hreplace
    split at hreplace
    · cases hreplace
    · obtain rfl := Except.ok.inj hreplace
      unfold Site.openAppend at hopen
      split at hopen
      · cases hopen
      · split at hopen
        · next htouch => rw [htouch, Except.ok.inj hopen]
        · cases hopen

/-- The receipt, if the manifest asks for one. -/
theorem writeReceipt_spec (h : site.writeReceipt documents manifest task disk = .ok disk') :
    ∃ ws, Disk.writeAll ws disk = some disk' ∧
      ws.map Prod.fst = (if manifest.requirements.requireProtocolReceipt then
        [site.root ++ [receiptFilename]] else []) ∧
      ∀ w ∈ ws, w.2.writer = .platform := by
  unfold Site.writeReceipt at h
  split at h
  · next hrequire =>
      obtain rfl := Except.ok.inj h
      have hnone : manifest.requirements.requireProtocolReceipt = false := by simpa using hrequire
      exact ⟨[], rfl, by simp [hnone], by simp⟩
  · next hrequire =>
      have hsome : manifest.requirements.requireProtocolReceipt = true := by simpa using hrequire
      split at h
      · refine ⟨[(site.root ++ [receiptFilename],
          { bytes := documents.receipt task, writer := .platform })], ?_, by simp [hsome], by simp⟩
        rw [Disk.writeAll, Site.put_eq_ok h]
        rfl
      · cases h

section Spare

variable {ws : List (FilePath × Written)} {disk₁ disk₂ disk₃ : Disk Written}
  {request empty a : Written} {path : FilePath}

/-- What another writer wrote is there before the renaming exactly when it was there and nothing
was written to the file, nor was it removed. -/
theorem content_unrenamed_iff (hws : Disk.writeAll ws disk = some disk₁)
    (hothers : ∀ w ∈ ws, w.2 ≠ a) (hrequest : request ≠ a)
    (hwrite : (disk₁.unlink (root ++ [resultFilename])).write (root ++ [requestTemporary])
      request = some disk₂) (node : FileNode) :
    disk₂.content node = some a ↔ disk.content node = some a ∧
      (∀ p ∈ ws.map Prod.fst, disk.names.leads p ≠ some node) ∧
      (disk.names.unlink (root ++ [resultFilename])).leads (root ++ [requestTemporary]) ≠
        some node ∧
      node ≠ .own (root ++ [resultFilename]) := by
  have hnames : (disk₁.unlink (root ++ [resultFilename])).names =
      disk.names.unlink (root ++ [resultFilename]) := by
    rw [Disk.unlink, Disk.names_of_writeAll hws]
  rw [← hnames, List.forall_mem_map]
  constructor
  · intro hcontent
    rcases Disk.content_of_write hwrite node with ⟨_, hnew⟩ | ⟨hleads, hold⟩
    · exact absurd (Option.some.inj (hnew.symm.trans hcontent)) hrequest
    · rw [hold, Disk.content_unlink] at hcontent
      split at hcontent
      · cases hcontent
      · next hremoved =>
          rcases Disk.content_traced hws hcontent with ⟨hfirst, hne⟩ | ⟨w, hw, _, hvalue⟩
          · exact ⟨hfirst, hne, hleads, hremoved⟩
          · exact absurd hvalue (hothers w hw)
  · rintro ⟨hcontent, hne, hleads, hremoved⟩
    have hkept := ((Disk.content_of_write hwrite node).resolve_left fun h ↦ hleads h.1).2
    rw [hkept, Disk.content_unlink, if_neg hremoved, Disk.content_kept hws hne, hcontent]

/-- What another writer wrote is found by a path in the end exactly when it was found before and
the file was spared. -/
theorem read_handedOver_iff (hws : Disk.writeAll ws disk = some disk₁)
    (hothers : ∀ w ∈ ws, w.2 ≠ a) (hrequest : request ≠ a) (hempty : a ≠ empty)
    (hwrite : (disk₁.unlink (root ++ [resultFilename])).write (root ++ [requestTemporary])
      request = some disk₂)
    (htouch : (disk₂.rename (root ++ [requestTemporary]) (root ++ [requestFilename])).touch
      (root ++ [logFilename]) empty = some disk₃)
    (htrace : ∀ node, disk.content node = some a → disk.names.leads path = some node) :
    disk₃.read path = some a ↔
      disk.read path = some a ∧ ∃ node, Spared disk.names root (ws.map Prod.fst) path node := by
  have hunrenamed := content_unrenamed_iff hws hothers hrequest hwrite
  have hnames : disk₃.names = handedOver disk.names root := by
    rw [Disk.names_of_touch htouch, Disk.rename, Disk.names_of_write hwrite, Disk.unlink,
      Disk.names_of_writeAll hws, handedOver]
  -- an input at the name of the temporary file was overwritten there
  have htemporary : disk₂.content (.own (root ++ [requestTemporary])) ≠ some a := by
    intro hcontent
    obtain ⟨hfirst, _, hleads, _⟩ := (hunrenamed _).mp hcontent
    obtain ⟨hclear, hinode⟩ := Names.own_of_leads (htrace _ hfirst)
    refine hleads (Names.leads_own (hclear.unlink _) ?_)
    simp [Names.unlink, Function.update_apply, hinode]
  rw [Disk.read, hnames, Option.bind_eq_some_iff]
  constructor
  · rintro ⟨node, hstays, hcontent⟩
    rw [Disk.content_touch htouch hempty, Disk.content_rename] at hcontent
    split at hcontent
    · cases hcontent
    · split at hcontent
      · exact absurd hcontent htemporary
      · next hreplaced =>
          obtain ⟨hfirst, hne, hleads, hremoved⟩ := (hunrenamed _).mp hcontent
          refine ⟨?_, node, htrace _ hfirst, hstays, hne, hleads, hremoved, hreplaced⟩
          rw [Disk.read, htrace _ hfirst, Option.bind_some, hfirst]
  · rintro ⟨hread, node, hspared⟩
    have hfirst : disk.content node = some a := by
      rwa [Disk.read, hspared.leads, Option.bind_some] at hread
    have hcontent := (hunrenamed node).mpr
      ⟨hfirst, hspared.unwritten, hspared.temporary, hspared.unremoved⟩
    refine ⟨node, hspared.stays, ?_⟩
    rw [Disk.content_touch htouch hempty, Disk.content_rename, if_neg, if_neg hspared.unreplaced,
      hcontent]
    rintro rfl
    exact htemporary hcontent

end Spare

end HandOver

/-! ## The inputs an adapter finds -/

/-- The file at the destination of an input that was recorded as present: it is below the
workspace, has the recorded digest and size, and nothing was written to it after the input. -/
structure Delivered (H : Bytes → String) (site : Site) (root : FilePath) (disk : Disk Written)
    (index : Nat) (s : StagedInput) : Prop where
  inside : disk.names.Inside root (site.root ++ pathParts s.destination)
  intact : ∃ bytes, disk.read (site.root ++ pathParts s.destination) =
      some { bytes := bytes, writer := .input index } ∧
    s.sha256 = some (H bytes) ∧ s.sizeBytes = bytes.length

/-- The input at an index of the task is there when it is staged. -/
def Supplied (H : Bytes → String) (location : ArtifactRow → String) (finds : Nat → Surroundings)
    (task : TaskSpec) (index : Nat) (i : InputFile) : Prop :=
  task.stagedInputs[index]? = some i ∧ ((finds index).supplies H location i).isSome

/-- The files the platform writes by a fixed path of the workspace. -/
def fixedPaths (site : Site) (manifest : PluginManifest) : List FilePath :=
  (site.root ++ [inputManifestFilename]) ::
    if manifest.requirements.requireProtocolReceipt then [site.root ++ [receiptFilename]] else []

/-- The destinations of the inputs that are there lead to different files below the workspace,
none of them a file of the platform. -/
structure Undisturbed (H : Bytes → String) (location : ArtifactRow → String)
    (finds : Nat → Surroundings) (site : Site) (manifest : PluginManifest) (task : TaskSpec)
    (n : Names) (root : FilePath) : Prop where
  distinct : ∀ j k i i', Supplied H location finds task j i → Supplied H location finds task k i' →
    j ≠ k → n.leads (site.destination i) ≠ n.leads (site.destination i')
  spared : ∀ k i, Supplied H location finds task k i →
    ∃ node, Spared n root (fixedPaths site manifest) (site.destination i) node
  inside : ∀ k i, Supplied H location finds task k i →
    (handedOver n root).Inside root (site.destination i)

section Delivery

variable {H : Bytes → String} {site : Site} {location : ArtifactRow → String}
  {documents : Documents} {finds : Nat → Surroundings} {starts : Except RuntimeError Unit}
  {manifest : PluginManifest} {task : TaskSpec} {disk : Disk Bytes} {staged : List StagedInput}
  {disk₀ disk₁ disk' : Disk Written}

theorem stageInputs_spec {document : List StagedInput → Bytes}
    (h : stageInputs H site location document finds task disk₀ = .ok (staged, disk')) :
    (task.stagedInputs = [] ∧ staged = [] ∧ disk' = disk₀) ∨
      ∃ disk₁, stageAll H site location task.labels finds 0 task.stagedInputs disk₀ =
          .ok (staged, disk₁) ∧
        disk₁.write (site.root ++ [inputManifestFilename])
          { bytes := document staged, writer := .platform } = some disk' := by
  unfold stageInputs at h
  split at h
  · next hempty =>
      obtain ⟨rfl, rfl⟩ := Prod.mk.inj (Except.ok.inj h)
      exact .inl ⟨List.isEmpty_iff.mp hempty, rfl, rfl⟩
  · obtain ⟨⟨staged', disk₁⟩, hstaged, h⟩ := bind_eq_ok.mp h
    obtain ⟨disk₂, hput, h⟩ := bind_eq_ok.mp h
    obtain ⟨rfl, rfl⟩ := Prod.mk.inj (Except.ok.inj h)
    exact .inr ⟨disk₁, hstaged, Site.put_eq_ok hput⟩

/-- The bytes with the writer of an index are those of the input at that index. -/
theorem written_by_input {bytes : Bytes} {index : Nat} {node : FileNode}
    (hstaged : stageAll H site location task.labels finds 0 task.stagedInputs
      (Site.before disk) = .ok (staged, disk₁))
    (hcontent : disk₁.content node = some { bytes := bytes, writer := .input index }) :
    ∃ i, task.stagedInputs[index]? = some i ∧
      (finds index).supplies H location i = some bytes ∧
      disk.names.leads (site.destination i) = some node := by
  rcases Disk.content_traced (writeAll_placements hstaged) hcontent with
    ⟨hbefore, _⟩ | ⟨w, hw, hleads, hvalue⟩
  · obtain ⟨b, _, hwritten⟩ := Option.map_eq_some_iff.mp hbefore
    cases hwritten
  · obtain ⟨offset, i, bytes', hi, hsupplies, rfl⟩ := mem_placements.mp hw
    rw [Nat.zero_add] at hsupplies hvalue
    obtain ⟨rfl, hwriter⟩ := Written.mk.inj hvalue
    obtain rfl := Writer.input.inj hwriter
    exact ⟨i, hi, hsupplies, hleads⟩

/-- After the staging, the destinations can all be read back exactly when they lead to different
files. -/
theorem placements_read_iff
    (hstaged : stageAll H site location task.labels finds 0 task.stagedInputs
      (Site.before disk) = .ok (staged, disk₁)) :
    (∀ w ∈ placements H site location finds 0 task.stagedInputs, disk₁.read w.1 = some w.2) ↔
      ∀ j k i i', Supplied H location finds task j i → Supplied H location finds task k i' →
        j ≠ k → disk.names.leads (site.destination i) ≠ disk.names.leads (site.destination i') := by
  have hnodup : ((placements H site location finds 0 task.stagedInputs).map Prod.snd).Nodup :=
    placements_nodup 0 task.stagedInputs
  rw [Disk.read_all_iff hnodup (writeAll_placements hstaged)]
  constructor
  · rintro hpairwise j k i i' ⟨hj, hsome⟩ ⟨hk, hsome'⟩ hne
    obtain ⟨bytes, hbytes⟩ := Option.isSome_iff_exists.mp hsome
    obtain ⟨bytes', hbytes'⟩ := Option.isSome_iff_exists.mp hsome'
    have hsymm : Std.Symm fun v w : FilePath × Written ↦
        (Site.before disk).names.leads v.1 ≠ (Site.before disk).names.leads w.1 :=
      ⟨fun _ _ h ↦ h.symm⟩
    refine hpairwise.forall (mem_placements_of_supplies hj hbytes)
      (mem_placements_of_supplies hk hbytes') fun heq ↦ ?_
    exact hne (Writer.input.inj (congrArg (fun w ↦ w.2.writer) heq))
  · intro hdistinct
    refine (List.Nodup.of_map _ hnodup).pairwise_of_forall_ne fun v hv w hw hne ↦ ?_
    obtain ⟨j, i, bytes, hi, hbytes, rfl⟩ := mem_placements.mp hv
    obtain ⟨k, i', bytes', hi', hbytes', rfl⟩ := mem_placements.mp hw
    rw [Nat.zero_add] at hbytes hbytes'
    refine hdistinct j k i i' ⟨hi, by rw [hbytes]; rfl⟩ ⟨hi', by rw [hbytes']; rfl⟩ ?_
    rintro rfl
    obtain rfl := Option.some.inj (hi.symm.trans hi')
    obtain rfl := Option.some.inj (hbytes.symm.trans hbytes')
    exact hne rfl

/-- One input: it was read back after the staging, its file was spared since, and that file is
below the workspace. -/
theorem delivered_iff {later : List (FilePath × Written)} {disk₂ disk₃ : Disk Written}
    {root : FilePath} {request : Bytes} {index : Nat} {i : InputFile} {bytes : Bytes}
    {s : StagedInput}
    (hstaged : stageAll H site location task.labels finds 0 task.stagedInputs
      (Site.before disk) = .ok (staged, disk₁))
    (hlater : Disk.writeAll later disk₁ = some disk₂)
    (hplatform : ∀ w ∈ later, w.2.writer = .platform)
    (hwrite : (disk₂.unlink (root ++ [resultFilename])).write (root ++ [requestTemporary])
      { bytes := request, writer := .platform } = some disk₃)
    (htouch : (disk₃.rename (root ++ [requestTemporary]) (root ++ [requestFilename])).touch
      (root ++ [logFilename]) { bytes := [], writer := .platform } = some disk')
    (hi : task.stagedInputs[index]? = some i)
    (hbytes : (finds index).supplies H location i = some bytes) (hs : staged[index]? = some s) :
    Delivered H site root disk' index s ↔
      disk₁.read (site.destination i) = some { bytes := bytes, writer := .input index } ∧
      (∃ node, Spared disk.names root (later.map Prod.fst) (site.destination i) node) ∧
      (handedOver disk.names root).Inside root (site.destination i) := by
  have hnames : disk₁.names = disk.names := Disk.names_of_writeAll (writeAll_placements hstaged)
  have hnames' : disk'.names = handedOver disk.names root := by
    rw [Disk.names_of_touch htouch, Disk.rename, Disk.names_of_write hwrite, Disk.unlink,
      Disk.names_of_writeAll hlater, hnames, handedOver]
  have hread : ∀ b : Bytes, disk'.read (site.destination i) =
        some { bytes := b, writer := .input index } ↔
      disk₁.read (site.destination i) = some { bytes := b, writer := .input index } ∧
        ∃ node, Spared disk.names root (later.map Prod.fst) (site.destination i) node := by
    intro b
    rw [← hnames]
    refine read_handedOver_iff hlater (fun w hw heq ↦ ?_) (by simp) (by simp) hwrite htouch
      fun node hnode ↦ ?_
    · have hwriter := hplatform w hw
      rw [heq] at hwriter
      cases hwriter
    · obtain ⟨i', hi', _, hleads⟩ := written_by_input hstaged hnode
      obtain rfl := Option.some.inj (hi.symm.trans hi')
      rwa [hnames]
  obtain ⟨i', hi', hdestination, hentry⟩ := staged_spec hstaged hs
  obtain rfl := Option.some.inj (hi.symm.trans hi')
  rw [Nat.zero_add, hbytes] at hentry
  have hsha256 : s.sha256 = some (H bytes) := congrArg ManifestEntry.sha256 hentry
  have hsize : s.sizeBytes = bytes.length := congrArg ManifestEntry.sizeBytes hentry
  have hpath : site.root ++ pathParts s.destination = site.destination i := by
    rw [hdestination, Site.destination]
  constructor
  · rintro ⟨hinside, b, hb, _, _⟩
    rw [hpath] at hinside hb
    obtain ⟨hfirst, hspared⟩ := (hread b).mp hb
    obtain ⟨node, _, hcontent⟩ := Option.bind_eq_some_iff.mp hfirst
    obtain ⟨i', hi', hb', _⟩ := written_by_input hstaged hcontent
    obtain rfl := Option.some.inj (hi.symm.trans hi')
    obtain rfl := Option.some.inj (hbytes.symm.trans hb')
    exact ⟨hfirst, hspared, hnames' ▸ hinside⟩
  · rintro ⟨hfirst, hspared, hinside⟩
    refine ⟨?_, bytes, ?_, hsha256, hsize⟩
    · rwa [hpath, hnames']
    · rw [hpath]
      exact (hread bytes).mpr ⟨hfirst, hspared⟩

/-- An input is recorded as present exactly when it was there. -/
theorem present_iff
    (hstaged : stageAll H site location task.labels finds 0 task.stagedInputs
      (Site.before disk) = .ok (staged, disk₁)) (index : Nat) :
    (∃ s, staged[index]? = some s ∧ s.present = true) ↔
      ∃ i, Supplied H location finds task index i := by
  constructor
  · rintro ⟨s, hs, hpresent⟩
    obtain ⟨i, hi, _, hentry⟩ := staged_spec hstaged hs
    refine ⟨i, hi, ?_⟩
    rw [Nat.zero_add] at hentry
    have hentry := congrArg ManifestEntry.present hentry
    cases hsupplies : (finds index).supplies H location i with
    | some bytes => rfl
    | none =>
        rw [hsupplies] at hentry
        exact absurd (hpresent.symm.trans hentry) (by simp [InputFile.measured])
  · rintro ⟨i, hi, hsome⟩
    obtain ⟨bytes, hbytes⟩ := Option.isSome_iff_exists.mp hsome
    have hlt : index < staged.length := by
      rw [length_staged hstaged]
      exact (List.getElem?_eq_some_iff.mp hi).1
    refine ⟨staged[index], List.getElem?_eq_getElem hlt, ?_⟩
    obtain ⟨i', hi', _, hentry⟩ := staged_spec hstaged (List.getElem?_eq_getElem hlt)
    obtain rfl := Option.some.inj (hi.symm.trans hi')
    rw [Nat.zero_add, hbytes] at hentry
    exact congrArg ManifestEntry.present hentry

end Delivery

/-- The adapter finds every input that was recorded as present, as it was recorded, exactly when
the destinations of the inputs that are there lead to different files below the workspace, none of
them a file of the platform. -/
theorem staged_inputs_delivered_iff {site : Site} {H : Bytes → String}
    {location : ArtifactRow → String} {documents : Documents} {finds : Nat → Surroundings}
    {starts : Except RuntimeError Unit} {manifest : PluginManifest} {task : TaskSpec}
    {disk : Disk Bytes} {staged : List StagedInput} {disk' : Disk Written}
    (h : site.runAttempt H location documents finds starts manifest task disk =
      .ok (staged, disk')) :
    ∃ root, disk.names.place site.root = some root ∧
      ((∀ index s, staged[index]? = some s → s.present = true →
          Delivered H site root disk' index s) ↔
        Undisturbed H location finds site manifest task disk.names root) := by
  obtain ⟨⟨staged', disk₁⟩, hstage, h⟩ := bind_eq_ok.mp h
  obtain ⟨_, _, h⟩ := bind_eq_ok.mp h
  obtain ⟨_, _, h⟩ := bind_eq_ok.mp h
  obtain ⟨disk₂, hreceipt, h⟩ := bind_eq_ok.mp h
  obtain ⟨disk₃, hexecute, h⟩ := bind_eq_ok.mp h
  obtain ⟨rfl, rfl⟩ := Prod.mk.inj (Except.ok.inj h)
  obtain ⟨ws, hws, hpaths, hplatform⟩ := writeReceipt_spec hreceipt
  obtain ⟨root, disk₄, hroot, hwrite, htouch⟩ := execute_spec hexecute
  rcases stageInputs_spec hstage with ⟨hempty, rfl, rfl⟩ | ⟨disk₅, hstaged, hmanifest⟩
  · refine ⟨root, by rwa [Disk.names_of_writeAll hws] at hroot, ?_⟩
    refine iff_of_true (by simp) ⟨?_, ?_, ?_⟩ <;> simp [Supplied, hempty]
  have hlater : Disk.writeAll ((site.root ++ [inputManifestFilename],
      { bytes := documents.inputManifest staged', writer := .platform }) :: ws) disk₅ =
        some disk₂ := by
    rw [Disk.writeAll, hmanifest]
    exact hws
  have hnames : disk₂.names = disk.names := by
    rw [Disk.names_of_writeAll hlater, Disk.names_of_writeAll (writeAll_placements hstaged)]
    rfl
  refine ⟨root, hnames ▸ hroot, ?_⟩
  have hfixed : ((site.root ++ [inputManifestFilename],
      { bytes := documents.inputManifest staged', writer := Writer.platform }) :: ws).map
        Prod.fst = fixedPaths site manifest := by
    rw [List.map_cons, hpaths, fixedPaths]
  have hone : ∀ k i bytes s, task.stagedInputs[k]? = some i →
      (finds k).supplies H location i = some bytes → staged'[k]? = some s →
      (Delivered H site root disk₃ k s ↔
        disk₅.read (site.destination i) = some { bytes := bytes, writer := .input k } ∧
        (∃ node, Spared disk.names root (fixedPaths site manifest) (site.destination i) node) ∧
        (handedOver disk.names root).Inside root (site.destination i)) := by
    intro k i bytes s hi hbytes hs
    rw [← hfixed]
    exact delivered_iff hstaged hlater (by simpa using hplatform) hwrite htouch hi hbytes hs
  have hread := placements_read_iff hstaged
  constructor
  · intro hall
    have hgood : ∀ k i bytes, task.stagedInputs[k]? = some i →
        (finds k).supplies H location i = some bytes →
        disk₅.read (site.destination i) = some { bytes := bytes, writer := .input k } ∧
        (∃ node, Spared disk.names root (fixedPaths site manifest) (site.destination i) node) ∧
        (handedOver disk.names root).Inside root (site.destination i) := by
      intro k i bytes hi hbytes
      obtain ⟨s, hs, hpresent⟩ := (present_iff hstaged k).mpr ⟨i, hi, by rw [hbytes]; rfl⟩
      exact (hone k i bytes s hi hbytes hs).mp (hall k s hs hpresent)
    refine ⟨hread.mp fun w hw ↦ ?_, ?_, ?_⟩
    · obtain ⟨offset, i, bytes, hi, hbytes, rfl⟩ := mem_placements.mp hw
      rw [Nat.zero_add] at hbytes ⊢
      exact (hgood offset i bytes hi hbytes).1
    · rintro k i ⟨hi, hsome⟩
      obtain ⟨bytes, hbytes⟩ := Option.isSome_iff_exists.mp hsome
      exact (hgood k i bytes hi hbytes).2.1
    · rintro k i ⟨hi, hsome⟩
      obtain ⟨bytes, hbytes⟩ := Option.isSome_iff_exists.mp hsome
      exact (hgood k i bytes hi hbytes).2.2
  · rintro ⟨hdistinct, hspared, hinside⟩ k s hs hpresent
    obtain ⟨i, hi, hsome⟩ := (present_iff hstaged k).mp ⟨s, hs, hpresent⟩
    obtain ⟨bytes, hbytes⟩ := Option.isSome_iff_exists.mp hsome
    exact (hone k i bytes s hi hbytes hs).mpr
      ⟨hread.mpr hdistinct _ (mem_placements_of_supplies hi hbytes), hspared k i ⟨hi, hsome⟩,
        hinside k i ⟨hi, hsome⟩⟩

/-! ## Workspaces without links -/

/-- The destinations that are not free, by their components: the workspace itself and the files
of the platform. -/
def takenParts (manifest : PluginManifest) : List FilePath :=
  [[], [inputManifestFilename], [requestTemporary], [resultFilename], [requestFilename]] ++
    if manifest.requirements.requireProtocolReceipt then [[receiptFilename]] else []

theorem handedOver_plain (root : FilePath) : handedOver {} root = {} := by
  simp [handedOver]

theorem spared_plain_iff {site : Site} {manifest : PluginManifest} {parts : FilePath} :
    (∃ node, Spared {} site.root (fixedPaths site manifest) (site.root ++ parts) node) ↔
      parts ∉ (takenParts manifest).tail := by
  have hspared : (∃ node, Spared {} site.root (fixedPaths site manifest) (site.root ++ parts)
      node) ↔ site.root ++ parts ∉ fixedPaths site manifest ∧
        parts ≠ [requestTemporary] ∧ parts ≠ [resultFilename] ∧ parts ≠ [requestFilename] := by
    constructor
    · rintro ⟨node, hleads, _, hunwritten, htemporary, hunremoved, hunreplaced⟩
      obtain rfl := Option.some.inj ((Names.leads_plain _).symm.trans hleads)
      refine ⟨fun hmem ↦ hunwritten _ hmem (Names.leads_plain _), ?_, ?_, ?_⟩
      · rintro rfl
        exact htemporary (by simp)
      · rintro rfl
        exact hunremoved rfl
      · rintro rfl
        exact hunreplaced rfl
    · rintro ⟨hfixed, htemporary, hremoved, hreplaced⟩
      refine ⟨.own (site.root ++ parts), Names.leads_plain _, ?_, ?_, ?_, ?_, ?_⟩
      · rw [handedOver_plain, Names.leads_plain]
      · intro p hp heq
        obtain rfl : p = site.root ++ parts := by simpa using heq
        exact hfixed hp
      · simpa using Ne.symm htemporary
      · simpa using hremoved
      · simpa using hreplaced
  rw [hspared]
  cases hrequire : manifest.requirements.requireProtocolReceipt <;>
    simp [fixedPaths, takenParts, hrequire]
  tauto

/-- Without links, inputs are disturbed when two destinations have the same components or one
has those of a file of the platform. -/
theorem undisturbed_plain_iff {H : Bytes → String} {location : ArtifactRow → String}
    {finds : Nat → Surroundings} {site : Site} {manifest : PluginManifest} {task : TaskSpec} :
    Undisturbed H location finds site manifest task {} site.root ↔
      (∀ j k i i', Supplied H location finds task j i → Supplied H location finds task k i' →
        j ≠ k → pathParts i.destination ≠ pathParts i'.destination) ∧
      ∀ k i, Supplied H location finds task k i →
        pathParts i.destination ∉ takenParts manifest := by
  have hleads : ∀ i i', (({} : Names).leads (site.destination i) ≠
      ({} : Names).leads (site.destination i')) ↔
        pathParts i.destination ≠ pathParts i'.destination := by
    intro i i'
    simp [Site.destination]
  have htaken : ∀ i, pathParts i.destination ∉ takenParts manifest ↔
      (∃ node, Spared {} site.root (fixedPaths site manifest) (site.destination i) node) ∧
        (handedOver {} site.root).Inside site.root (site.destination i) := by
    intro i
    rw [Site.destination, spared_plain_iff, handedOver_plain, Names.inside_plain]
    simp [takenParts]
    tauto
  constructor
  · rintro ⟨hdistinct, hspared, hinside⟩
    refine ⟨fun j k i i' hj hk hne ↦ (hleads i i').mp (hdistinct j k i i' hj hk hne), ?_⟩
    exact fun k i hk ↦ (htaken i).mpr ⟨hspared k i hk, hinside k i hk⟩
  · rintro ⟨hdistinct, hfree⟩
    refine ⟨fun j k i i' hj hk hne ↦ (hleads i i').mpr (hdistinct j k i i' hj hk hne), ?_, ?_⟩
    · exact fun k i hk ↦ ((htaken i).mp (hfree k i hk)).1
    · exact fun k i hk ↦ ((htaken i).mp (hfree k i hk)).2

/-! ## Two spellings of one destination -/

namespace Sample

/-- Two uploads of one byte each, placed at the given destinations. -/
def pair (first second : String) : List InputFile :=
  [{ destination := first, inputId := some "input-1" },
    { destination := second, inputId := some "input-2" }]

def pairDigest (b : UInt8) : String := hash [[97], [98]] [b]

def pairManifest (first second : String) : Bytes :=
  JsonText.utf8 (JsonText.array ManifestEntry.text
    [{ destination := first, present := true, sha256 := some (pairDigest 97), sizeBytes := 1 },
      { destination := second, present := true, sha256 := some (pairDigest 98), sizeBytes := 1 }])

def pairHash (first second : String) : Bytes → String := hash [[97], [98], pairManifest first second]

def pairDepot : Depot where
  objects := fun name ↦
    if name = pairDigest 97 then some [97] else if name = pairDigest 98 then some [98] else none
  uploaded :=
    [{ inputId := "input-1", storeKey := pairDigest 97, sizeBytes := 1, sha256 := pairDigest 97 },
      { inputId := "input-2", storeKey := pairDigest 98, sizeBytes := 1, sha256 := pairDigest 98 }]

def pairSubmit (first second : String) : Except RuntimeError RunRow × Kernel :=
  platform.submit (pairHash first second) host (call (pair first second)) { depot := pairDepot }

/-- The attempt at a task in an empty workspace, with the files of a depot. -/
def pairAttempt (H : Bytes → String) (depot : Depot) (task : TaskSpec) :
    Except RuntimeError (List StagedInput × Disk Written) :=
  Site.runAttempt { root := ["work"] } H (fun _ ↦ "")
    { inputManifest := fun _ ↦ [], receipt := fun _ ↦ [], request := fun _ ↦ [] }
    (fun _ ↦ ⟨host, depot⟩) (.ok ()) manifest task {}

end Sample

theorem staged_inputs_delivered_sample :
    ∃ staged disk, Sample.pairAttempt (Sample.hash [[97], [98]]) Sample.pairDepot
        (Sample.call (Sample.pair "a" "b")).task = .ok (staged, disk) ∧
      ∃ root, ((∀ index s, staged[index]? = some s → s.present = true →
          Delivered (Sample.hash [[97], [98]]) { root := ["work"] } root disk index s) ↔
        Undisturbed (Sample.hash [[97], [98]]) (fun _ ↦ "")
          (fun _ ↦ ⟨Sample.host, Sample.pairDepot⟩) { root := ["work"] }
          Sample.manifest (Sample.call (Sample.pair "a" "b")).task {} root) := by
  have hruns : (Sample.pairAttempt (Sample.hash [[97], [98]]) Sample.pairDepot
      (Sample.call (Sample.pair "a" "b")).task).toOption.isSome = true := by decide +kernel
  obtain ⟨⟨staged, disk⟩, hattempt⟩ := Option.isSome_iff_exists.mp hruns
  have hattempt := Except.toOption_eq_some.mp hattempt
  obtain ⟨root, _, hdelivered⟩ := staged_inputs_delivered_iff hattempt
  exact ⟨staged, disk, hattempt, root, hdelivered⟩

/-- The destinations `a` and `./a` are different texts and one file: the second input overwrites
the first, whose record stays. -/
theorem colliding_destinations_overwrite :
    Function.Injective (Sample.pairHash "a" "./a") ∧
      ∃ run staged disk s w, (Sample.pairSubmit "a" "./a").1 = .ok run ∧
        Sample.pairAttempt (Sample.pairHash "a" "./a") (Sample.pairSubmit "a" "./a").2.depot
          run.taskSpec = .ok (staged, disk) ∧
        staged[0]? = some s ∧ s.present = true ∧ s.destination = "a" ∧
        disk.read ["work", "a"] = some w ∧
        s.sha256 ≠ some (Sample.pairHash "a" "./a" w.bytes) := by
  have hruns : ((Sample.pairSubmit "a" "./a").1.toOption.any fun run ↦
      (Sample.pairAttempt (Sample.pairHash "a" "./a") (Sample.pairSubmit "a" "./a").2.depot
        run.taskSpec).toOption.any fun r ↦
          r.1[0]?.any fun s ↦ s.present && s.destination = "a" &&
            (r.2.read ["work", "a"]).any fun w ↦
              s.sha256 ≠ some (Sample.pairHash "a" "./a" w.bytes)) = true := by decide +kernel
  obtain ⟨run, hsubmit, hruns⟩ := (Option.any_eq_true _ _).mp hruns
  obtain ⟨⟨staged, disk⟩, hattempt, hruns⟩ := (Option.any_eq_true _ _).mp hruns
  obtain ⟨s, hs, hrow⟩ := (Option.any_eq_true _ _).mp hruns
  simp only [Bool.and_eq_true, decide_eq_true_eq, Option.any_eq_true] at hrow
  obtain ⟨⟨hpresent, hdestination⟩, w, hw, hdiffers⟩ := hrow
  exact ⟨Sample.hash_injective _, run, staged, disk, s, w, Except.toOption_eq_some.mp hsubmit,
    Except.toOption_eq_some.mp hattempt, hs, hpresent, hdestination, hw, hdiffers⟩

end ChipEvolve
