import ChipEvolve.Runtime.Staging

/-!
# The digest of a submission and the digest of what was staged

`_input_manifest_digest` and `_stage_inputs` measure each input on their own.  For
host files and artifacts the branches agree.  For an uploaded input the
submission always hashes the record, while the staging of an optional one whose
object is missing or does not match records it as absent.
-/

namespace ChipEvolve

open Except (bind_eq_ok)

/-! ## The text of a manifest -/

namespace ManifestEntry

/-- The entry as the parts its text is made of. -/
def parts (e : ManifestEntry) : String × Bool × Option String × Nat :=
  (e.destination, e.present, e.sha256, e.sizeBytes)

theorem parts_injective : Function.Injective parts := by
  rintro ⟨d, p, s, n⟩ ⟨d', p', s', n'⟩ h
  simpa [parts] using h

theorem selfDelimiting_text : JsonText.SelfDelimiting text := by
  have hdigests : JsonText.SelfDelimiting (JsonText.nullable JsonText.text) :=
    JsonText.selfDelimiting_text.nullable JsonText.text_ne_nil
      fun s ↦ by rw [JsonText.head?_text]; decide
  have hsize := (JsonText.selfDelimiting_natural (by decide : Char.isDigit '}' = false)).after
    (JsonText.key ',' "size_bytes")
  have hsha256 := (hdigests.seq hsize).after (JsonText.key ',' "sha256")
  have hpresent := (JsonText.selfDelimiting_boolean.seq hsha256).after (JsonText.key ',' "present")
  have hentry := (JsonText.selfDelimiting_text.seq hpresent).after
    (JsonText.key '{' "destination")
  intro e e' xs ys heq
  unfold text at heq
  exact hentry.comp parts_injective e e' xs ys heq

theorem head?_text (e : ManifestEntry) : e.text.head? = some '{' := rfl

theorem text_ne_nil (e : ManifestEntry) : e.text ≠ [] := fun hnil ↦ by
  simpa [hnil] using e.head?_text

end ManifestEntry

/-- Different lists of entries have different digests. -/
theorem manifestDigest_injective {H : Bytes → String} (hH : Function.Injective H) :
    Function.Injective (manifestDigest H) := by
  have harray : JsonText.SelfDelimiting (JsonText.array ManifestEntry.text) :=
    ManifestEntry.selfDelimiting_text.array ManifestEntry.text_ne_nil
      fun e ↦ by rw [ManifestEntry.head?_text]; decide
  exact hH.comp (JsonText.utf8_injective.comp harray.injective)

/-! ## Objects that were lost -/

namespace Depot

/-- The object of an uploaded input is there and is what its record says. -/
def Intact (H : Bytes → String) (d : Depot) (inputId : String) : Prop :=
  ∃ row bytes, d.uploadedInput? inputId = some row ∧ d.objects row.sha256 = some bytes ∧
    bytes.length = row.sizeBytes ∧ H bytes = row.sha256

/-- An optional uploaded input that staging will not find. -/
def Loses (H : Bytes → String) (d : Depot) (i : InputFile) : Prop :=
  i.required = false ∧ ∃ inputId, i.inputId = some inputId ∧ ¬d.Intact H inputId

theorem materializeInput_eq_ok {H : Bytes → String} {d : Depot} {inputId : String}
    {r : String × Nat × Bytes} (h : d.materializeInput H inputId = .ok r) :
    ∃ row bytes, d.uploadedInput? inputId = some row ∧ d.objects row.sha256 = some bytes ∧
      bytes.length = row.sizeBytes ∧ H bytes = row.sha256 ∧
      r = (row.sha256, row.sizeBytes, bytes) := by
  unfold materializeInput at h
  split at h
  · cases h
  · next row hrow =>
      split at h
      · cases h
      · next bytes hbytes =>
          split at h
          · cases h
          · next hmatch =>
              rw [not_or, not_not, not_not] at hmatch
              exact ⟨row, bytes, hrow, hbytes, hmatch.1, hmatch.2, (Except.ok.inj h).symm⟩

theorem intact_iff {H : Bytes → String} {d : Depot} {inputId : String} :
    d.Intact H inputId ↔ ∃ r, d.materializeInput H inputId = .ok r := by
  constructor
  · rintro ⟨row, bytes, hrow, hbytes, hsize, hdigest⟩
    exact ⟨(row.sha256, row.sizeBytes, bytes), by
      simp [materializeInput, hrow, hbytes, hsize, hdigest]⟩
  · rintro ⟨r, hr⟩
    obtain ⟨row, bytes, hrow, hbytes, hsize, hdigest, _⟩ := materializeInput_eq_ok hr
    exact ⟨row, bytes, hrow, hbytes, hsize, hdigest⟩

end Depot

/-- The object store, the rows and the unfrozen host paths of a task are as they were. -/
structure Unchanged (s s' : Surroundings) (task : TaskSpec) : Prop where
  objects : s'.depot.objects = s.depot.objects
  workspaceFile : s'.depot.workspaceFile = s.depot.workspaceFile
  uploaded : ∀ inputId row, s.depot.uploadedInput? inputId = some row →
    s'.depot.uploadedInput? inputId = some row
  artifacts : ∀ artifactId row, s.depot.artifact? artifactId = some row →
    s'.depot.artifact? artifactId = some row
  host : ∀ i ∈ task.stagedInputs, i.inputId = none → i.artifactId = none →
    s'.host.resolve i.hostPath = s.host.resolve i.hostPath ∧
      ∀ source, s.host.resolve i.hostPath = .ok source → s'.host.file source = s.host.file source

namespace Unchanged

variable {H : Bytes → String} {location : ArtifactRow → String} {s s' : Surroundings}
  {task : TaskSpec}

theorem refl (s : Surroundings) (task : TaskSpec) : Unchanged s s task :=
  ⟨rfl, rfl, fun _ _ h ↦ h, fun _ _ h ↦ h, fun _ _ _ _ ↦ ⟨rfl, fun _ _ ↦ rfl⟩⟩

theorem materializeInput_eq (h : Unchanged s s' task) {inputId : String} {row : UploadedRow}
    (hrow : s.depot.uploadedInput? inputId = some row) :
    s'.depot.materializeInput H inputId = s.depot.materializeInput H inputId := by
  simp only [Depot.materializeInput, h.uploaded inputId row hrow, hrow, h.objects]

theorem materializeArtifact_eq (h : Unchanged s s' task) {artifactId : String}
    {row : ArtifactRow} (hrow : s.depot.artifact? artifactId = some row) :
    s'.depot.materializeArtifact location artifactId =
      s.depot.materializeArtifact location artifactId := by
  simp only [Depot.materializeArtifact, h.artifacts artifactId row hrow, hrow,
    Depot.artifactFile, h.objects, h.workspaceFile]

end Unchanged

/-! ## The two measures of one input -/

section Measures

variable {H : Bytes → String} {site : Site} {location : ArtifactRow → String}
  {labels : JsonObject} {s found : Surroundings} {task : TaskSpec} {i : InputFile} {index : Nat}
  {disk disk' : Disk Written} {staged : StagedInput} {e : ManifestEntry}

theorem measured_absent_ne (i : InputFile) (digest : String) (size : Nat) :
    i.measured none 0 ≠ i.measured (some digest) size := by
  simp [InputFile.measured]

/-- An upload is hashed by its record; it is staged as such unless its object was lost. -/
theorem entry_of_stageFromInput {inputId : String} {source : Json}
    (hid : i.inputId = some inputId) (hsame : Unchanged s found task)
    (hmeasure : measureInput H s.host s.depot i = .ok e)
    (h : stageFromInput H site found inputId source index i disk = .ok (staged, disk')) :
    staged.entry = e ↔ ¬s.depot.Loses H i := by
  simp only [measureInput, hid] at hmeasure
  obtain ⟨row, hrow, hentry⟩ := bind_eq_ok.mp hmeasure
  obtain rfl := Except.ok.inj hentry
  have hfound : s.depot.uploadedInput? inputId = some row := by
    unfold Depot.getUploadedInput at hrow
    split at hrow
    · next row' hrow' => rw [hrow', Except.ok.inj hrow]
    · cases hrow
  have hloses : s.depot.Loses H i ↔
      i.required = false ∧ ∀ r, s.depot.materializeInput H inputId ≠ .ok r := by
    simp [Depot.Loses, hid, Depot.intact_iff]
  rw [stageFromInput] at h
  rw [hloses]
  rcases stageHeld_cases h with ⟨message, hheld, hrequired, rfl, _⟩ | ⟨bytes, hheld, rfl, _⟩
  · rw [hsame.materializeInput_eq hfound] at hheld
    have hlost : ∀ r, s.depot.materializeInput H inputId ≠ .ok r := fun r ↦ by simp [hheld]
    exact iff_of_false (measured_absent_ne i row.sha256 row.sizeBytes)
      (not_not.mpr ⟨hrequired, hlost⟩)
  · rw [hsame.materializeInput_eq hfound] at hheld
    obtain ⟨row', bytes', hrow', _, _, _, hr⟩ := Depot.materializeInput_eq_ok hheld
    obtain rfl := Option.some.inj (hfound.symm.trans hrow')
    obtain ⟨hdigest, hsize, _⟩ : H bytes = row.sha256 ∧ bytes.length = row.sizeBytes ∧ _ := by
      simpa using hr
    refine iff_of_true ?_ fun hlost ↦ hlost.2 _ hheld
    simp [StagedInput.entry, InputFile.measured, hdigest, hsize]

/-- The branches for artifacts agree, present or not. -/
theorem entry_of_stageFromArtifact {artifactId : String} (hid : i.inputId = none)
    (hartifact : i.artifactId = some artifactId) (hsame : Unchanged s found task)
    (hmeasure : measureInput H s.host s.depot i = .ok e)
    (h : stageFromArtifact H site location found artifactId index i disk =
      .ok (staged, disk')) : staged.entry = e := by
  simp only [measureInput, hid, hartifact] at hmeasure
  obtain ⟨row, hrow, hentry⟩ := bind_eq_ok.mp hmeasure
  have hfound : s.depot.artifact? artifactId = some row := by
    unfold Depot.getArtifact at hrow
    split at hrow
    · next row' hrow' => rw [hrow', Except.ok.inj hrow]
    · cases hrow
  have hentry := (Except.ok.inj hentry).symm
  rw [stageFromArtifact] at h
  rcases stageHeld_cases h with ⟨message, hheld, hrequired, rfl, _⟩ | ⟨bytes, hheld, rfl, _⟩
  · rw [hsame.materializeArtifact_eq hfound] at hheld
    have habsent : s.depot.artifactPresent row = false := by
      simp only [Depot.materializeArtifact, hfound] at hheld
      unfold Depot.artifactPresent
      cases hfile : s.depot.artifactFile row with
      | error e => rfl
      | ok file =>
          cases file with
          | none => rfl
          | some bytes => simp [hfile] at hheld
    rw [hentry, habsent, hrequired]
    rfl
  · rw [hsame.materializeArtifact_eq hfound] at hheld
    simp only [Depot.materializeArtifact, hfound] at hheld
    cases hfile : s.depot.artifactFile row with
    | error e => simp [hfile] at hheld
    | ok file =>
        cases file with
        | none => simp [hfile] at hheld
        | some bytes' =>
            obtain ⟨hdigest, hsize, _⟩ :
                row.sha256 = H bytes ∧ row.sizeBytes = bytes.length ∧ _ := by
              simpa [hfile] using hheld
            have hpresent : s.depot.artifactPresent row = true := by
              simp [Depot.artifactPresent, hfile]
            rw [hentry, hpresent]
            simp [StagedInput.entry, InputFile.measured, hdigest, hsize]

/-- The branches for host files agree, present or not. -/
theorem entry_of_stageFromHost (hi : i ∈ task.stagedInputs) (hid : i.inputId = none)
    (hartifact : i.artifactId = none) (hsame : Unchanged s found task)
    (hmeasure : measureInput H s.host s.depot i = .ok e)
    (h : stageFromHost H site found index i disk = .ok (staged, disk')) : staged.entry = e := by
  simp only [measureInput, hid, hartifact] at hmeasure
  obtain ⟨source, hsource, hentry⟩ := bind_eq_ok.mp hmeasure
  obtain ⟨hresolve, hfile⟩ := hsame.host i hi hid hartifact
  obtain ⟨source', hsource', hcases⟩ := stageFromHost_cases h
  rw [hresolve, hsource] at hsource'
  obtain rfl := Except.ok.inj hsource'
  rw [hfile source hsource] at hcases
  rcases hcases with ⟨hnone, hrequired, _, rfl⟩ | ⟨bytes, hbytes, rfl, _⟩
  · rw [hnone] at hentry
    simp only [hrequired, Bool.false_eq_true, if_false] at hentry
    exact Except.ok.inj hentry
  · rw [hbytes] at hentry
    exact Except.ok.inj hentry

theorem entry_of_stageInput (hi : i ∈ task.stagedInputs) (hsame : Unchanged s found task)
    (hmeasure : measureInput H s.host s.depot i = .ok e)
    (h : stageInput H site location labels found index i disk = .ok (staged, disk')) :
    staged.entry = e ↔ ¬s.depot.Loses H i := by
  unfold stageInput at h
  split at h
  · next hid => exact entry_of_stageFromInput hid hsame hmeasure h
  · next hid hartifact =>
      refine iff_of_true (entry_of_stageFromArtifact hid hartifact hsame hmeasure h) ?_
      rintro ⟨_, inputId, hsome, _⟩
      simp [hid] at hsome
  · next hid hartifact =>
      refine iff_of_true (entry_of_stageFromHost hi hid hartifact hsame hmeasure h) ?_
      rintro ⟨_, inputId, hsome, _⟩
      simp [hid] at hsome

end Measures

/-! ## The two digests -/

section Digests

variable {H : Bytes → String} {s : Surroundings} {task : TaskSpec}

theorem entries_of_stageAll {site : Site} {location : ArtifactRow → String} {labels : JsonObject}
    {finds : Nat → Surroundings} (hsame : ∀ index, Unchanged s (finds index) task)
    {inputs : List InputFile} {entries : List ManifestEntry}
    (hmeasure : List.Forall₂ (fun i e ↦ measureInput H s.host s.depot i = .ok e) inputs entries)
    (hsub : ∀ i ∈ inputs, i ∈ task.stagedInputs) {index : Nat} {disk disk' : Disk Written}
    {staged : List StagedInput}
    (h : stageAll H site location labels finds index inputs disk = .ok (staged, disk')) :
    staged.map StagedInput.entry = entries ↔ ∀ i ∈ inputs, ¬s.depot.Loses H i := by
  induction hmeasure generalizing index disk staged with
  | nil =>
      obtain ⟨rfl, rfl⟩ := stageAll_nil h
      simp
  | @cons i e inputs entries hi _ ih =>
      obtain ⟨first, disk₁, others, hfirst, hothers, rfl⟩ := stageAll_cons h
      have hhead := entry_of_stageInput (hsub i List.mem_cons_self) (hsame index) hi hfirst
      have htail := ih (fun i' hi' ↦ hsub i' (List.mem_cons_of_mem i hi')) hothers
      rw [List.map_cons, List.cons.injEq, hhead, htail, List.forall_mem_cons]

/-- The attempt stages the task, each input finding its surroundings, and records the list. -/
def StagesAs (H : Bytes → String) (task : TaskSpec) (finds : Nat → Surroundings)
    (staged : List StagedInput) : Prop :=
  ∃ site location document disk disk',
    stageInputs H site location document finds task disk = .ok (staged, disk')

theorem StagesAs.stageAll {finds : Nat → Surroundings} {staged : List StagedInput}
    (h : StagesAs H task finds staged) : ∃ site location disk disk',
      stageAll H site location task.labels finds 0 task.stagedInputs disk =
        .ok (staged, disk') := by
  obtain ⟨site, location, document, disk, disk', h⟩ := h
  refine ⟨site, location, disk, ?_⟩
  unfold stageInputs at h
  split at h
  · next hempty =>
      obtain ⟨rfl, rfl⟩ := Prod.mk.inj (Except.ok.inj h)
      exact ⟨disk, by rw [List.isEmpty_iff.mp hempty]; rfl⟩
  · obtain ⟨⟨staged', disk₁⟩, hstaged, h⟩ := bind_eq_ok.mp h
    obtain ⟨disk₂, _, h⟩ := bind_eq_ok.mp h
    obtain ⟨rfl, rfl⟩ := Prod.mk.inj (Except.ok.inj h)
    exact ⟨disk₁, hstaged⟩

/-- With a digest recorded, the check compares the entries. -/
theorem verifyInputManifest_eq_ok_iff (hH : Function.Injective H) (hne : ∀ b, H b ≠ "")
    {entries : List ManifestEntry}
    (hrecorded : task.inputManifestSha256 = some (manifestDigest H entries))
    (staged : List StagedInput) :
    verifyInputManifest H task staged = .ok () ↔ staged.map StagedInput.entry = entries := by
  have hdigest : manifestDigest H entries ≠ "" := hne _
  rw [verifyInputManifest, raiseIf_eq_ok, hrecorded, Option.getD_some]
  simp only [ne_eq, hdigest, not_false_eq_true, true_and, not_not, Option.some.injEq]
  exact (manifestDigest_injective hH).eq_iff

end Digests

/-- When nothing has changed, the check of an attempt accepts what was staged, and that is what
was measured at submission, exactly when no optional upload has lost its object; and whatever has
changed, what the check accepts is what was measured. -/
theorem staging_digest_agrees_iff {H : Bytes → String} (hH : Function.Injective H)
    (hne : ∀ b, H b ≠ "") (p : Platform) (host : Host) (a : SubmitCall) (k : Kernel)
    {run : RunRow} (haccepted : (p.submit H host a k).1 = .ok run)
    (hcreated : run ∉ k.tables.runs) {depot : Depot}
    (hdepot : depot = (p.submit H host a k).2.depot) :
    ∃ measured, run.taskSpec.stagedInputs.mapM (measureInput H host depot) = .ok measured ∧
      ∀ finds staged, StagesAs H run.taskSpec finds staged →
        (verifyInputManifest H run.taskSpec staged = .ok () →
          staged.map StagedInput.entry = measured) ∧
        ((∀ index, Unchanged ⟨host, depot⟩ (finds index) run.taskSpec) →
          ((verifyInputManifest H run.taskSpec staged = .ok () ∧
              staged.map StagedInput.entry = measured) ↔
            ∀ i ∈ run.taskSpec.stagedInputs, ¬depot.Loses H i)) := by
  obtain ⟨depot', hprepare, hafter⟩ := Platform.created_of_submit haccepted hcreated
  obtain rfl : depot' = depot := hafter.symm.trans hdepot.symm
  obtain ⟨frozen, measured, _, _, _, hmeasured, htask⟩ := prepare_eq_ok hprepare
  have hinputs : run.taskSpec.stagedInputs = frozen.stagedInputs := by rw [htask]
  have hrecorded : run.taskSpec.inputManifestSha256 = some (manifestDigest H measured) := by
    rw [htask]
  rw [← hinputs] at hmeasured
  refine ⟨measured, hmeasured, fun finds staged hstages ↦ ?_⟩
  have hverify := verifyInputManifest_eq_ok_iff hH hne hrecorded staged
  refine ⟨hverify.mp, fun hsame ↦ ?_⟩
  obtain ⟨site, location, disk, disk', hall⟩ := hstages.stageAll
  rw [hverify, and_self]
  exact entries_of_stageAll hsame (Except.forall₂_of_mapM hmeasured) (fun i hi ↦ hi) hall

namespace Sample

/-- An optional upload, and the manifest it makes. -/
def optionalUpload : InputFile :=
  { destination := "a", inputId := some "input-1", required := false }

def uploadManifest (digest : String) : Bytes :=
  JsonText.utf8 (JsonText.array ManifestEntry.text [optionalUpload.measured (some digest) 1])

/-- A depot with one uploaded input, whose object is there or not. -/
def uploadDepot (digest : String) (object : Option Bytes) : Depot where
  objects := fun name ↦ if name = digest then object else none
  uploaded := [{ inputId := "input-1", storeKey := digest, sizeBytes := 1, sha256 := digest }]

def uploadRun (H : Bytes → String) (depot : Depot) : Except RuntimeError RunRow × Kernel :=
  platform.submit H host (call [optionalUpload]) { depot := depot }

/-- The attempt finds what the submission left. -/
def uploadLeft (H : Bytes → String) (depot : Depot) : Surroundings := ⟨host, (uploadRun H depot).2.depot⟩

theorem of_staged (H : Bytes → String) (depot : Depot) (test : RunRow → List StagedInput → Bool)
    (h : ((uploadRun H depot).1.toOption.any fun run ↦
      (stageInputs H { root := [] } (fun _ ↦ "") (fun _ ↦ []) (fun _ ↦ uploadLeft H depot)
        run.taskSpec {}).toOption.any fun s ↦ test run s.1) = true) :
    ∃ run staged, (uploadRun H depot).1 = .ok run ∧
      StagesAs H run.taskSpec (fun _ ↦ uploadLeft H depot) staged ∧ test run staged = true := by
  obtain ⟨run, hsubmit, hany⟩ := (Option.any_eq_true _ _).mp h
  obtain ⟨⟨staged, disk⟩, hstaged, htest⟩ := (Option.any_eq_true _ _).mp hany
  exact ⟨run, staged, Except.toOption_eq_some.mp hsubmit,
    ⟨_, _, _, _, disk, Except.toOption_eq_some.mp hstaged⟩, htest⟩

def keptHash : Bytes → String := hash [[97], uploadManifest (hash [[97]] [97])]

def keptDepot : Depot := uploadDepot (hash [[97]] [97]) (some [97])

def lostHash : Bytes → String := hash [uploadManifest "a"]

def lostDepot : Depot := uploadDepot "a" none

end Sample

theorem staging_digest_agrees_sample :
    ∃ run staged measured, (Sample.uploadRun Sample.keptHash Sample.keptDepot).1 = .ok run ∧
      run.taskSpec.stagedInputs.mapM (measureInput Sample.keptHash Sample.host
        (Sample.uploadRun Sample.keptHash Sample.keptDepot).2.depot) = .ok measured ∧
      verifyInputManifest Sample.keptHash run.taskSpec staged = .ok () ∧
      staged.map StagedInput.entry = measured := by
  obtain ⟨run, staged, hsubmit, hstages, hids⟩ := Sample.of_staged Sample.keptHash
    Sample.keptDepot (fun run _ ↦ run.taskSpec.stagedInputs.all fun i ↦ i.inputId = some "input-1")
    (by decide +kernel)
  have hkept : ((Sample.uploadRun Sample.keptHash Sample.keptDepot).2.depot.materializeInput
      Sample.keptHash "input-1").toOption.isSome = true := by decide +kernel
  obtain ⟨held, hheld⟩ := Option.isSome_iff_exists.mp hkept
  obtain ⟨measured, hmeasured, hagrees⟩ := staging_digest_agrees_iff (Sample.hash_injective _)
    (Sample.hash_ne_empty _) Sample.platform Sample.host (Sample.call [Sample.optionalUpload])
    { depot := Sample.keptDepot } hsubmit (by simp) rfl
  refine ⟨run, staged, measured, hsubmit, hmeasured, ?_⟩
  refine ((hagrees _ staged hstages).2 fun _ ↦ Unchanged.refl _ _).mpr ?_
  rintro i hi ⟨_, inputId, hid, hlost⟩
  obtain rfl : inputId = "input-1" := by
    simpa [hid] using List.all_eq_true.mp hids i hi
  exact hlost (Depot.intact_iff.mpr ⟨held, Except.toOption_eq_some.mp hheld⟩)

/-- An optional upload whose object is missing: the submission hashed its record, the attempt
finds it absent, and the run is refused although nothing has changed. -/
theorem lost_upload_refused :
    Function.Injective Sample.lostHash ∧ (∀ b, Sample.lostHash b ≠ "") ∧
      ∃ run staged, (Sample.uploadRun Sample.lostHash Sample.lostDepot).1 = .ok run ∧
        StagesAs Sample.lostHash run.taskSpec
          (fun _ ↦ Sample.uploadLeft Sample.lostHash Sample.lostDepot) staged ∧
        verifyInputManifest Sample.lostHash run.taskSpec staged ≠ .ok () := by
  refine ⟨Sample.hash_injective _, Sample.hash_ne_empty _, ?_⟩
  obtain ⟨run, staged, hsubmit, hstages, htest⟩ := Sample.of_staged Sample.lostHash
    Sample.lostDepot (fun run staged ↦
      !(verifyInputManifest Sample.lostHash run.taskSpec staged).isOk) (by decide +kernel)
  refine ⟨run, staged, hsubmit, hstages, fun hok ↦ ?_⟩
  rw [hok] at htest
  exact absurd htest (by decide)

end ChipEvolve
