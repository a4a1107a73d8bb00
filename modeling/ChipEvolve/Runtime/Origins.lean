import ChipEvolve.Runtime.Bundle
import ChipEvolve.Runtime.Manifest

/-!
# Where a frozen input came from

`_freeze_host_inputs` uploads a host file and remembers its path among the labels of the task,
under a key made from the position of the declaration; `_stage_from_input` records what it
finds under that key (`runtime.py`).  The labels are the caller's, so a caller who names an
upload may put a path of his own there.
-/

namespace ChipEvolve

open Sql

/-! ## Labels -/

theorem hostSourceLabel_injective : Function.Injective hostSourceLabel := by
  intro m n h
  have hchars := congrArg String.toList h
  unfold hostSourceLabel at hchars
  rw [String.toList_append, String.toList_append, JsonText.toList_toString,
    JsonText.toList_toString] at hchars
  exact JsonText.toDigits_injective (List.append_cancel_left hchars)

/-- What a path leaves under its key, or what was there. -/
def recorded (origin : Option String) (before : Option Json) : Option Json :=
  match origin with
  | some source => some (.str source)
  | none => before

theorem get?_labelled (labels : JsonObject) (index : Nat) (origin : Option String) (key : String) :
    (labelled labels index origin).get? key =
      if hostSourceLabel index = key then recorded origin (labels.get? key)
      else labels.get? key := by
  cases origin with
  | none => exact (ite_self _).symm
  | some source => exact JsonObject.get?_set _ _ _ _

/-! ## What freezing does -/

section Freezing

variable {H : Bytes → String} {host : Host} {newId : Nat → String} {d d' : Depot}

/-- A declaration stays as it is; or it names a host file, which is read and uploaded. -/
inductive Freezes (H : Bytes → String) (host : Host) (inputId : String) (given : InputFile)
    (uploaded : List UploadedRow) : InputFile → Option String → Prop
  | keeps : Freezes H host inputId given uploaded given none
  | freezes {path source : String} {bytes : Bytes} (hpath : given.source = some path)
      (hsource : host.resolve path = .ok source) (hread : host.file source = some (.ok bytes))
      (hrow : { inputId := inputId, storeKey := H bytes, sizeBytes := bytes.length,
                sha256 := H bytes } ∈ uploaded) :
      Freezes H host inputId given uploaded
        { destination := given.destination, inputId := some inputId, required := given.required }
        (some source)

theorem Freezes.mono {inputId : String} {given stored : InputFile} {origin : Option String}
    {uploaded more : List UploadedRow} (h : Freezes H host inputId given uploaded stored origin)
    (hmore : uploaded ⊆ more) : Freezes H host inputId given more stored origin := by
  cases h with
  | keeps => exact .keeps
  | freezes hpath hsource hread hrow => exact .freezes hpath hsource hread (hmore hrow)

theorem Freezes.destination {inputId : String} {given stored : InputFile}
    {origin : Option String} {uploaded : List UploadedRow}
    (h : Freezes H host inputId given uploaded stored origin) :
    stored.destination = given.destination := by
  cases h <;> rfl

theorem uploaded_storeObject {bytes : Bytes} {u : Unit}
    (h : storeObject H (H bytes) bytes d = .ok u d') : d'.uploaded = d.uploaded := by
  rcases Bundle.storeObject_cases H bytes d with ⟨_, _, _, hok⟩ | ⟨e, herror⟩ | ⟨_, hok⟩
  · rw [hok] at h
    obtain ⟨_, rfl⟩ := EStateM.Result.ok.inj h
    rfl
  · rw [herror] at h
    cases h
  · rw [hok] at h
    obtain ⟨_, rfl⟩ := EStateM.Result.ok.inj h
    rfl

theorem uploaded_insertUploaded {row : UploadedRow} {u : Unit}
    (h : insertUploaded row d = .ok u d') : d'.uploaded = d.uploaded ++ [row] := by
  have h := IntakeM.get_bind_eq_ok.mp h
  split at h
  · cases h
  · obtain ⟨_, rfl⟩ := EStateM.Result.ok.inj h
    rfl

theorem ingestInputFile_eq_ok {inputId path : String} {row : UploadedRow}
    (h : ingestInputFile H host inputId path d = .ok row d') :
    ∃ source bytes, host.resolve path = .ok source ∧ host.file source = some (.ok bytes) ∧
      row = { inputId := inputId, storeKey := H bytes, sizeBytes := bytes.length,
              sha256 := H bytes } ∧
      d'.uploaded = d.uploaded ++ [row] := by
  obtain ⟨source, hsource, h⟩ := IntakeM.ofExcept_bind_eq_ok.mp h
  cases hfile : host.file source with
  | none =>
      rw [hfile] at h
      cases h
  | some contents =>
      rw [hfile] at h
      obtain ⟨bytes, hbytes, h⟩ := IntakeM.ofExcept_bind_eq_ok.mp h
      obtain ⟨_, d₁, hstore, h⟩ := IntakeM.bind_eq_ok.mp h
      obtain ⟨_, d₂, hinsert, h⟩ := IntakeM.bind_eq_ok.mp h
      obtain ⟨rfl, rfl⟩ := EStateM.Result.ok.inj h
      refine ⟨source, bytes, hsource, hbytes ▸ hfile, rfl, ?_⟩
      rw [uploaded_insertUploaded hinsert, uploaded_storeObject hstore]

theorem freezeInput_eq_ok (hresolved : ∀ path source, host.resolve path = .ok source →
      host.resolve source = .ok source) {inputId : String} {given stored : InputFile}
    {origin : Option String} (h : freezeInput H host inputId given d = .ok (stored, origin) d') :
    d.uploaded ⊆ d'.uploaded ∧ Freezes H host inputId given d'.uploaded stored origin := by
  unfold freezeInput at h
  cases hpath : given.source with
  | none =>
      rw [hpath] at h
      obtain ⟨hpair, rfl⟩ := EStateM.Result.ok.inj h
      obtain ⟨rfl, rfl⟩ := Prod.mk.inj hpair
      exact ⟨List.Subset.refl _, .keeps⟩
  | some path =>
      rw [hpath] at h
      obtain ⟨source, hsource, h⟩ := IntakeM.ofExcept_bind_eq_ok.mp h
      split at h
      · obtain ⟨hpair, rfl⟩ := EStateM.Result.ok.inj h
        obtain ⟨rfl, rfl⟩ := Prod.mk.inj hpair
        exact ⟨List.Subset.refl _, .keeps⟩
      · obtain ⟨row, d₁, hingest, h⟩ := IntakeM.bind_eq_ok.mp h
        obtain ⟨hpair, rfl⟩ := EStateM.Result.ok.inj h
        obtain ⟨rfl, rfl⟩ := Prod.mk.inj hpair
        obtain ⟨source', bytes, hsource', hread, rfl, huploaded⟩ := ingestInputFile_eq_ok hingest
        obtain rfl := Except.ok.inj ((hresolved path source hsource).symm.trans hsource')
        rw [huploaded]
        exact ⟨List.subset_append_left _ _,
          .freezes hpath hsource hread (List.mem_append_right _ (List.mem_singleton_self _))⟩

/-- Freezing writes under the key of each declaration it freezes, and nowhere else. -/
theorem freezeInputs_eq_ok (hresolved : ∀ path source, host.resolve path = .ok source →
      host.resolve source = .ok source) {index : Nat} {inputs stored : List InputFile}
    {labels labels' : JsonObject}
    (h : freezeInputs H host newId index inputs labels d = .ok (stored, labels') d') :
    d.uploaded ⊆ d'.uploaded ∧
      stored.map InputFile.destination = inputs.map InputFile.destination ∧
      (∀ key, (∀ j, key ≠ hostSourceLabel (index + j)) → labels'.get? key = labels.get? key) ∧
      ∀ j : Nat, ∀ given, inputs[j]? = some given → ∃ frozen origin, stored[j]? = some frozen ∧
        Freezes H host (newId (index + j)) given d'.uploaded frozen origin ∧
        labels'.get? (hostSourceLabel (index + j)) =
          recorded origin (labels.get? (hostSourceLabel (index + j))) := by
  induction inputs generalizing index stored labels labels' d with
  | nil =>
      obtain ⟨hpair, rfl⟩ := EStateM.Result.ok.inj h
      obtain ⟨rfl, rfl⟩ := Prod.mk.inj hpair
      exact ⟨List.Subset.refl _, rfl, fun _ _ ↦ rfl, fun j given hgiven ↦ by simp at hgiven⟩
  | cons first inputs ih =>
      obtain ⟨⟨frozen, origin⟩, d₁, hfirst, h⟩ := IntakeM.bind_eq_ok.mp h
      obtain ⟨⟨others, labels₁⟩, d₂, hrest, h⟩ := IntakeM.bind_eq_ok.mp h
      obtain ⟨hpair, rfl⟩ := EStateM.Result.ok.inj h
      obtain ⟨rfl, rfl⟩ := Prod.mk.inj hpair
      obtain ⟨hgrows, hfreezes⟩ := freezeInput_eq_ok hresolved hfirst
      obtain ⟨hmore, hdestinations, hkept, hall⟩ := ih hrest
      have hother : ∀ j, hostSourceLabel index ≠ hostSourceLabel (index + 1 + j) := fun j heq ↦ by
        have := hostSourceLabel_injective heq
        omega
      refine ⟨List.Subset.trans hgrows hmore, ?_, fun key hkey ↦ ?_, fun j given hgiven ↦ ?_⟩
      · rw [List.map_cons, List.map_cons, hdestinations, hfreezes.destination]
      · have hfirst : hostSourceLabel index ≠ key := Ne.symm (hkey 0)
        have hlater : ∀ j, key ≠ hostSourceLabel (index + 1 + j) := fun j ↦ by
          rw [Nat.add_assoc, Nat.add_comm 1 j]
          exact hkey (j + 1)
        rw [hkept key hlater, get?_labelled, if_neg hfirst]
      · cases j with
        | zero =>
            obtain rfl := Option.some.inj hgiven
            refine ⟨frozen, origin, rfl, hfreezes.mono hmore, ?_⟩
            rw [Nat.add_zero, hkept _ hother, get?_labelled, if_pos rfl]
        | succ j =>
            obtain ⟨frozen', origin', hstored, hfreezes', hlabel⟩ := hall j given hgiven
            rw [Nat.add_assoc, Nat.add_comm 1 j] at hfreezes' hlabel
            refine ⟨frozen', origin', hstored, hfreezes', hlabel.trans ?_⟩
            have hne := hother j
            rw [Nat.add_assoc, Nat.add_comm 1 j] at hne
            rw [get?_labelled, if_neg hne]

/-- The task of a new run: its declarations, the labels and the uploads. -/
theorem Platform.froze_of_submit (hresolved : ∀ path source, host.resolve path = .ok source →
      host.resolve source = .ok source) {p : Platform} {a : SubmitCall} {k : Kernel} {run : RunRow}
    (haccepted : (p.submit H host a k).1 = .ok run) (hcreated : run ∉ k.tables.runs) :
    a.task.validate = .ok () ∧
      run.taskSpec.stagedInputs.map InputFile.destination =
        a.task.stagedInputs.map InputFile.destination ∧
      ∀ j : Nat, ∀ given, a.task.stagedInputs[j]? = some given →
      ∃ stored origin, run.taskSpec.stagedInputs[j]? = some stored ∧
        Freezes H host (a.newId j) given (p.submit H host a k).2.depot.uploaded stored origin ∧
        run.taskSpec.labels.get? (hostSourceLabel j) =
          recorded origin (a.task.labels.get? (hostSourceLabel j)) := by
  obtain ⟨depot, hprepare, rfl⟩ := created_of_submit haccepted hcreated
  obtain ⟨frozen, entries, hvalid, _, hfreeze, _, htask⟩ := prepare_eq_ok hprepare
  obtain ⟨⟨stored, labels⟩, d₁, hinputs, hfreeze⟩ := IntakeM.bind_eq_ok.mp hfreeze
  obtain ⟨rfl, rfl⟩ := EStateM.Result.ok.inj hfreeze
  obtain ⟨_, hdestinations, _, hall⟩ := freezeInputs_eq_ok hresolved hinputs
  refine ⟨hvalid, by rw [htask]; exact hdestinations, fun j given hgiven ↦ ?_⟩
  obtain ⟨stored', origin, hstored, hfreezes, hlabel⟩ := hall j given hgiven
  rw [Nat.zero_add] at hfreezes hlabel
  exact ⟨stored', origin, by rw [htask]; exact hstored, hfreezes, by rw [htask]; exact hlabel⟩

end Freezing

/-! ## What staging records -/

section Recording

variable {H : Bytes → String} {site : Site} {location : ArtifactRow → String}
  {labels : JsonObject} {finds : Nat → Surroundings} {index : Nat} {inputs : List InputFile}
  {staged : List StagedInput} {disk disk' : Disk Written}

theorem getElem?_of_stageAll
    (h : stageAll H site location labels finds index inputs disk = .ok (staged, disk')) :
    inputs.map InputFile.destination = staged.map StagedInput.destination ∧
      ∀ j : Nat, ∀ stored, inputs[j]? = some stored → ∃ s disk₁ disk₂, staged[j]? = some s ∧
        stageInput H site location labels (finds (index + j)) (index + j) stored disk₁ =
          .ok (s, disk₂) := by
  induction inputs generalizing index staged disk with
  | nil =>
      obtain ⟨rfl, _⟩ := stageAll_nil h
      exact ⟨rfl, fun j stored hstored ↦ by simp at hstored⟩
  | cons i rest ih =>
      obtain ⟨first, disk₁, others, hfirst, hothers, rfl⟩ := stageAll_cons h
      obtain ⟨hdestinations, hall⟩ := ih hothers
      refine ⟨?_, fun j stored hstored ↦ ?_⟩
      · rw [List.map_cons, List.map_cons, hdestinations, (stageInput_cases hfirst).1]
      · cases j with
        | zero =>
            obtain rfl := Option.some.inj hstored
            exact ⟨first, disk, disk₁, rfl, hfirst⟩
        | succ j =>
            obtain ⟨s, before, after, hs, hstage⟩ := hall j stored hstored
            rw [Nat.add_assoc, Nat.add_comm 1 j] at hstage
            exact ⟨s, before, after, hs, hstage⟩

/-- The source that is recorded for an upload: the label, when its bytes are placed. -/
theorem source_of_stageInput {stored : InputFile} {inputId : String} {s : StagedInput}
    {found : Surroundings} (hid : stored.inputId = some inputId)
    (h : stageInput H site location labels found index stored disk = .ok (s, disk')) :
    ((∃ message, found.depot.materializeInput H inputId = .error message) ∧ s.source = .null) ∨
      (∃ held, found.depot.materializeInput H inputId = .ok held) ∧
        s.source = (labels.get? (hostSourceLabel index)).getD .null := by
  simp only [stageInput, hid, stageFromInput] at h
  rcases stageHeld_cases h with ⟨message, hheld, _, rfl, _⟩ | ⟨bytes, hheld, rfl, _⟩
  · exact .inl ⟨⟨message, hheld⟩, rfl⟩
  · exact .inr ⟨⟨_, hheld⟩, rfl⟩

theorem foldl_replace {rows : List StagedInput}
    (hnodup : ((rows ++ staged).map StagedInput.destination).Nodup) :
    staged.foldl (fun rows s ↦ rows.filter (fun r ↦ r.destination ≠ s.destination) ++ [s]) rows =
      rows ++ staged := by
  induction staged generalizing rows with
  | nil => exact (List.append_nil rows).symm
  | cons s staged ih =>
      have hother : rows.filter (fun r ↦ r.destination ≠ s.destination) = rows := by
        refine List.filter_eq_self.mpr fun r hr ↦ decide_eq_true fun heq ↦ ?_
        rw [List.map_append, List.nodup_append] at hnodup
        exact hnodup.2.2 _ (List.mem_map_of_mem hr) _ (List.mem_map_of_mem List.mem_cons_self) heq
      rw [List.foldl_cons, hother, ih (by simpa using hnodup), List.append_assoc]
      rfl

/-- An attempt without rows gets a row for each input, in their order. -/
theorem inputs_recordInputs {w : Bundle.World} {attemptId : AttemptId}
    (hfresh : w.inputs attemptId = []) (htaken : staged.all StagedInput.recordable = true)
    (hnodup : (staged.map StagedInput.destination).Nodup) :
    (w.recordInputs attemptId staged).inputs attemptId = staged := by
  unfold Bundle.World.recordInputs
  rw [if_pos htaken]
  simp only [Function.update_self, hfresh]
  exact foldl_replace hnodup

end Recording

/-! ## Recorded sources -/

/-- What a recorded source may say of a declaration: the path of the host file that was read for
it and uploaded; and nothing when the caller gave the upload. -/
structure Attributed (H : Bytes → String) (host : Host) (inputId : String)
    (uploaded : List UploadedRow) (given stored : InputFile) (s : StagedInput) : Prop where
  frozen : stored.inputId.isSome → s.source ≠ .null → ∃ source, s.source = .str source ∧
    Freezes H host inputId given uploaded stored (some source)
  given : given.inputId.isSome → s.source = .null

section Attribution

variable {H : Bytes → String} {host : Host} {task : TaskSpec}

theorem InputFile.inputId_of_source {i : InputFile} (h : i.validate = .ok ()) {path : String}
    (hpath : i.source = some path) : i.inputId = none := by
  have hone := refuseIf_eq_ok.mp (Validated.of_bind (Validated.of_bind h).2).1
  rw [not_not, locations, hpath] at hone
  cases hid : i.inputId with
  | none => rfl
  | some inputId =>
      rw [hid] at hone
      simp at hone

theorem TaskSpec.stagedInputs_valid (h : task.validate = .ok ()) :
    (∀ i ∈ task.stagedInputs, i.validate = .ok ()) ∧
      (task.stagedInputs.map InputFile.destination).Nodup := by
  unfold validate at h
  -- the checks before those of `staged_inputs`
  iterate 10 replace h := (Validated.of_bind h).2
  obtain ⟨hinputs, h⟩ := Validated.of_bind h
  exact ⟨Except.forM_eq_ok.mp hinputs, not_not.mp (refuseIf_eq_ok.mp (Validated.of_bind h).1)⟩

/-- One declaration: what is recorded for it tells the truth unless the caller has named an upload
that is there and has put something under its key. -/
theorem attributed_iff {labels labels' : JsonObject} {site : Site}
    {location : ArtifactRow → String} {found : Surroundings} {index : Nat} {inputId : String}
    {given stored : InputFile} {origin : Option String} {uploaded : List UploadedRow}
    {s : StagedInput} {disk disk' : Disk Written} (hvalid : given.validate = .ok ())
    (hfreezes : Freezes H host inputId given uploaded stored origin)
    (hlabel : labels'.get? (hostSourceLabel index) =
      recorded origin (labels.get? (hostSourceLabel index)))
    (hstage : stageInput H site location labels' found index stored disk = .ok (s, disk')) :
    Attributed H host inputId uploaded given stored s ↔
      ∀ inputId', given.inputId = some inputId' →
        (labels.get? (hostSourceLabel index)).getD .null = .null ∨
          ∃ message, found.depot.materializeInput H inputId' = .error message := by
  have hsource := fun {inputId'} (hid : stored.inputId = some inputId') ↦
    source_of_stageInput hid hstage
  rw [hlabel] at hsource
  cases hfreezes with
  | keeps =>
      cases hid : given.inputId with
      | none => exact iff_of_true ⟨by simp [hid], by simp [hid]⟩ (by simp)
      | some inputId' =>
          rcases hsource hid with ⟨hlost, hnull⟩ | ⟨⟨held, hheld⟩, hnamed⟩
          · refine iff_of_true ⟨fun _ hne ↦ absurd hnull hne, fun _ ↦ hnull⟩ ?_
            rintro _ ⟨⟩
            exact .inr hlost
          · constructor
            · rintro ⟨_, hnull⟩ _ ⟨⟩
              exact .inl (hnamed.symm.trans (hnull (by simp [hid])))
            · intro hcond
              rcases hcond inputId' rfl with hnull | ⟨message, hlost⟩
              · have hnull : s.source = .null := hnamed.trans hnull
                exact ⟨fun _ hne ↦ absurd hnull hne, fun _ ↦ hnull⟩
              · rw [hheld] at hlost
                cases hlost
  | freezes hpath hresolve hread hrow =>
      have hnone := InputFile.inputId_of_source hvalid hpath
      refine iff_of_true ⟨fun _ hne ↦ ?_, by simp [hnone]⟩ (by simp [hnone])
      rcases hsource rfl with ⟨_, hnull⟩ | ⟨_, hnamed⟩
      · exact absurd hnull hne
      · exact ⟨_, hnamed, .freezes hpath hresolve hread hrow⟩

end Attribution

/-- What an attempt of a new run records about the origin of its uploads is true exactly when no
upload that the caller has named, and that can be placed, has a label under its key. -/
theorem host_provenance_iff {H : Bytes → String} {host : Host}
    (hresolved : ∀ path source, host.resolve path = .ok source →
      host.resolve source = .ok source)
    {p : Platform} {a : SubmitCall} {k : Kernel} {run : RunRow}
    (haccepted : (p.submit H host a k).1 = .ok run) (hcreated : run ∉ k.tables.runs)
    {finds : Nat → Surroundings} {staged : List StagedInput}
    (hstaged : StagesAs H run.taskSpec finds staged)
    (htaken : staged.all StagedInput.recordable = true)
    {w : Bundle.World} {attemptId : AttemptId} (hfresh : w.inputs attemptId = []) :
    (∀ index given stored, a.task.stagedInputs[index]? = some given →
        run.taskSpec.stagedInputs[index]? = some stored →
        ∀ s ∈ (w.recordInputs attemptId staged).inputs attemptId,
          s.destination = stored.destination →
            Attributed H host (a.newId index) (p.submit H host a k).2.depot.uploaded given stored
              s) ↔
      ∀ index given inputId, a.task.stagedInputs[index]? = some given →
        given.inputId = some inputId →
          (a.task.labels.get? (hostSourceLabel index)).getD .null = .null ∨
            ∃ message, (finds index).depot.materializeInput H inputId = .error message := by
  obtain ⟨htask, hdestinations, hfrozen⟩ := Platform.froze_of_submit hresolved haccepted hcreated
  obtain ⟨hinputs, hnodup⟩ := TaskSpec.stagedInputs_valid htask
  obtain ⟨site, location, disk, disk', hall⟩ := hstaged.stageAll
  obtain ⟨hplaced, hstages⟩ := getElem?_of_stageAll hall
  rw [← hdestinations, hplaced] at hnodup
  rw [inputs_recordInputs hfresh htaken hnodup]
  refine forall_congr' fun index ↦ ⟨fun h given inputId hgiven hid ↦ ?_,
    fun h given stored hgiven hstored s hs hdestination ↦ ?_⟩
  · obtain ⟨stored, origin, hstored, hfreezes, hlabel⟩ := hfrozen index given hgiven
    obtain ⟨s, disk₁, disk₂, hs, hstage⟩ := hstages index stored hstored
    rw [Nat.zero_add] at hstage
    exact (attributed_iff (hinputs given (List.mem_of_getElem? hgiven)) hfreezes hlabel
      hstage).mp (h given stored hgiven hstored s (List.mem_of_getElem? hs)
        (stageInput_cases hstage).1) inputId hid
  · obtain ⟨stored', origin, hstored', hfreezes, hlabel⟩ := hfrozen index given hgiven
    obtain rfl := Option.some.inj (hstored'.symm.trans hstored)
    obtain ⟨s', disk₁, disk₂, hs', hstage⟩ := hstages index stored' hstored
    rw [Nat.zero_add] at hstage
    obtain rfl : s = s' := List.inj_on_of_nodup_map hnodup hs (List.mem_of_getElem? hs')
      (hdestination.trans (stageInput_cases hstage).1.symm)
    exact (attributed_iff (hinputs given (List.mem_of_getElem? hgiven)) hfreezes hlabel
      hstage).mpr fun inputId hid ↦ h given inputId hgiven hid

/-! ## A label of the caller's -/

namespace Sample

/-- A required file of the host. -/
def hostFile : InputFile := { destination := "b", source := some "/data/b" }

def fileHost : Host where
  isFile := fun path ↦ path = "/data/b"
  resolve := .ok
  file := fun path ↦ if path = "/data/b" then some (.ok [98]) else none

/-- The digests of the upload, of the file, and of the manifest of both. -/
def originHash : Bytes → String :=
  hash [[97], [98], JsonText.utf8 (JsonText.array ManifestEntry.text
    [optionalUpload.measured (some (hash [[97]] [97])) 1,
      hostFile.measured (some (hash [[97], [98]] [98])) 1])]

/-- A call that names an upload and a file of the host, with labels. -/
def labelledCall (labels : JsonObject) : SubmitCall :=
  { call [optionalUpload, hostFile] with
    task := { (call [optionalUpload, hostFile]).task with labels := labels } }

def labelledRun (labels : JsonObject) : Except RuntimeError RunRow × Kernel :=
  platform.submit originHash fileHost (labelledCall labels) { depot := keptDepot }

def labelledLeft (labels : JsonObject) : Surroundings := ⟨fileHost, (labelledRun labels).2.depot⟩

/-- The attempt stages what the submission left. -/
theorem of_labelled (labels : JsonObject) (test : RunRow → List StagedInput → Bool)
    (h : ((labelledRun labels).1.toOption.any fun run ↦
      (stageInputs originHash { root := [] } (fun _ ↦ "") (fun _ ↦ [])
        (fun _ ↦ labelledLeft labels) run.taskSpec {}).toOption.any fun s ↦
          s.1.all StagedInput.recordable && test run s.1) = true) :
    ∃ run staged, (labelledRun labels).1 = .ok run ∧
      StagesAs originHash run.taskSpec (fun _ ↦ labelledLeft labels) staged ∧
      staged.all StagedInput.recordable = true ∧ test run staged = true := by
  obtain ⟨run, hsubmit, hany⟩ := (Option.any_eq_true _ _).mp h
  obtain ⟨⟨staged, disk⟩, hstaged, htest⟩ := (Option.any_eq_true _ _).mp hany
  obtain ⟨htaken, htest⟩ := Bool.and_eq_true_iff.mp htest
  exact ⟨run, staged, Except.toOption_eq_some.mp hsubmit,
    ⟨_, _, _, _, disk, Except.toOption_eq_some.mp hstaged⟩, htaken, htest⟩

def forgedLabels : JsonObject := [(hostSourceLabel 0, .str "/etc/forged")]

/-- The caller's upload is recorded as a copy of a file that nobody has read. -/
theorem forged_source_recorded :
    ∃ run staged, (labelledRun forgedLabels).1 = .ok run ∧
      StagesAs originHash run.taskSpec (fun _ ↦ labelledLeft forgedLabels) staged ∧
      staged.all StagedInput.recordable = true ∧
      ¬∀ index given stored, (labelledCall forgedLabels).task.stagedInputs[index]? = some given →
        run.taskSpec.stagedInputs[index]? = some stored →
        ∀ s ∈ (({} : Bundle.World).recordInputs "a1" staged).inputs "a1",
          s.destination = stored.destination →
            Attributed originHash fileHost ((labelledCall forgedLabels).newId index)
              (labelledRun forgedLabels).2.depot.uploaded given stored s := by
  obtain ⟨run, staged, hsubmit, hstages, htaken, htest⟩ := of_labelled forgedLabels
    (fun run staged ↦ (run.taskSpec.stagedInputs[0]?).any (·.destination = "a") &&
      ((({} : Bundle.World).recordInputs "a1" staged).inputs "a1").any fun s ↦
        s.destination = "a" && !s.source.isNull) (by decide +kernel)
  refine ⟨run, staged, hsubmit, hstages, htaken, fun hclaim ↦ ?_⟩
  obtain ⟨hstored, hrow⟩ := Bool.and_eq_true_iff.mp htest
  obtain ⟨stored, hstored, hdestination⟩ := (Option.any_eq_true _ _).mp hstored
  obtain ⟨s, hs, hrow⟩ := List.any_eq_true.mp hrow
  obtain ⟨hplaced, hnamed⟩ := Bool.and_eq_true_iff.mp hrow
  have hnull := (hclaim 0 optionalUpload stored rfl hstored s hs
    ((of_decide_eq_true hplaced).trans (of_decide_eq_true hdestination).symm)).given rfl
  rw [hnull] at hnamed
  cases hnamed

/-- Without labels the file of the host is recorded with its path, and the upload without. -/
theorem host_provenance_unlabelled :
    ∃ run staged, (labelledRun []).1 = .ok run ∧
      StagesAs originHash run.taskSpec (fun _ ↦ labelledLeft []) staged ∧
      (staged.any fun s ↦ s.destination = "b" && s.sourceInputId = some "frozen-1" &&
        !s.source.isNull) = true ∧
      ∀ index given stored, (labelledCall []).task.stagedInputs[index]? = some given →
        run.taskSpec.stagedInputs[index]? = some stored →
        ∀ s ∈ (({} : Bundle.World).recordInputs "a1" staged).inputs "a1",
          s.destination = stored.destination →
            Attributed originHash fileHost ((labelledCall []).newId index)
              (labelledRun []).2.depot.uploaded given stored s := by
  obtain ⟨run, staged, hsubmit, hstages, htaken, hfrozen⟩ := of_labelled []
    (fun _ staged ↦ staged.any fun s ↦ s.destination = "b" &&
      s.sourceInputId = some "frozen-1" && !s.source.isNull) (by decide +kernel)
  refine ⟨run, staged, hsubmit, hstages, hfrozen, (host_provenance_iff (fun _ _ h ↦ ?_) hsubmit
    (by simp) hstages htaken rfl).mpr fun _ _ _ _ _ ↦ .inl rfl⟩
  rfl

end Sample

end ChipEvolve
