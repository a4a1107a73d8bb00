import ChipEvolve.Paging
import ChipEvolve.Runtime.Submission
import ChipEvolve.TwoRuns

/-!
# One submission, two stores

`WorkflowRuntime.submit` on two stores that agree on what the submitted task names.  What a
store holds besides enters in two places only: an object that is not the bytes it is named
after, and a run under the key or the task id of the submission.
-/

namespace ChipEvolve

open Sql TwoRuns

/-! ## Depots that agree -/

/-- The ids of the inputs and of the artifacts that a submission may look up. -/
structure Known where
  inputs : String → Prop
  artifacts : String → Prop

/-- The ids that an input names are known. -/
def Known.Names (K : Known) (i : InputFile) : Prop :=
  (∀ id, i.inputId = some id → K.inputs id) ∧ ∀ id, i.artifactId = some id → K.artifacts id

namespace Depot

variable (H : Bytes → String)

/-- Every object is the bytes it is named after. -/
def Undamaged (d : Depot) : Prop :=
  ∀ bytes existing, d.objects (H bytes) = some existing → existing = bytes

/-- The rows that the known ids name are the same, and so are the files of the artifacts; the
artifacts are those of two lists. -/
structure Alike (K : Known) (rows rows' : List ArtifactRow) (d d' : Depot) : Prop where
  rows : d.artifacts = rows
  rows' : d'.artifacts = rows'
  uploaded : ∀ id, K.inputs id → d.uploadedInput? id = d'.uploadedInput? id
  artifact : ∀ id, K.artifacts id → d.artifact? id = d'.artifact? id
  file : ∀ id row, K.artifacts id → d.artifact? id = some row →
    d.artifactFile row = d'.artifactFile row
  undamaged : d.Undamaged H
  undamaged' : d'.Undamaged H

/-- The depot with the bytes under their digest. -/
def stored (bytes : Bytes) (d : Depot) : Depot :=
  { d with objects := Function.update d.objects (H bytes) (some bytes) }

/-- The depot with another row of an uploaded input. -/
def uploading (row : UploadedRow) (d : Depot) : Depot := { d with uploaded := d.uploaded ++ [row] }

variable {H} {K : Known} {rows rows' : List ArtifactRow} {d d' : Depot}

theorem objects_stored (bytes : Bytes) :
    (d.stored H bytes).objects = Function.update d.objects (H bytes) (some bytes) := rfl

theorem Undamaged.stored (h : d.Undamaged H) (hinjective : Function.Injective H) (bytes : Bytes) :
    (d.stored H bytes).Undamaged H := by
  intro bytes' existing hexisting
  rw [objects_stored] at hexisting
  by_cases heq : bytes' = bytes
  · subst heq
    rw [Function.update_self] at hexisting
    exact (Option.some.inj hexisting).symm
  · rw [Function.update_of_ne (fun hdigest ↦ heq (hinjective hdigest))] at hexisting
    exact h bytes' existing hexisting

theorem get_bind_apply {β : Type} (g : Depot → IntakeM β) (d : Depot) :
    (get >>= g) d = g d d := rfl

theorem storeObject_eq (h : d.Undamaged H) (bytes : Bytes) :
    storeObject H (H bytes) bytes d = .ok ⟨⟩ (d.stored H bytes) := by
  unfold storeObject
  rw [get_bind_apply]
  cases hobject : d.objects (H bytes) with
  | none => rfl
  | some existing =>
      obtain rfl := h bytes existing hobject
      have hsame : d.stored H existing = d := by
        unfold stored
        rw [← hobject, Function.update_eq_self]
      simp only [ne_eq, not_true_eq_false, or_self, if_false]
      rw [hsame]
      rfl

namespace Alike

theorem stored (h : d.Alike H K rows rows' d') (hinjective : Function.Injective H) (bytes : Bytes) :
    (d.stored H bytes).Alike H K rows rows' (d'.stored H bytes) := by
  refine ⟨h.rows, h.rows', h.uploaded, h.artifact, fun id row hid hrow ↦ ?_,
    h.undamaged.stored hinjective bytes, h.undamaged'.stored hinjective bytes⟩
  have hfile := h.file id row hid hrow
  unfold artifactFile at hfile ⊢
  cases hstorage : row.storage with
  | workspace =>
      rw [hstorage] at hfile
      exact hfile
  | object =>
      simp only [hstorage, Except.ok.injEq] at hfile ⊢
      rw [objects_stored, objects_stored]
      by_cases hdigest : row.sha256 = H bytes
      · rw [hdigest, Function.update_self, Function.update_self]
      · rw [Function.update_of_ne hdigest, Function.update_of_ne hdigest, hfile]

theorem uploading (h : d.Alike H K rows rows' d') (row : UploadedRow) :
    (d.uploading row).Alike H K rows rows' (d'.uploading row) := by
  refine ⟨h.rows, h.rows', fun id hid ↦ ?_, h.artifact, h.file, h.undamaged, h.undamaged'⟩
  have hsame := h.uploaded id hid
  unfold uploadedInput? at hsame ⊢
  unfold Depot.uploading
  rw [Table.get?_append, Table.get?_append, hsame]

end Alike

end Depot

/-! ## The preparation of a task -/

section Preparation

variable {H : Bytes → String} {host : Host} {K : Known} {rows rows' : List ArtifactRow}
  {d d' : Depot} {newId : Nat → String}

theorem related_storeObject (hinjective : Function.Injective H) (h : d.Alike H K rows rows' d')
    (bytes : Bytes) :
    Related (Depot.Alike H K rows rows') (storeObject H (H bytes) bytes)
      (storeObject H (H bytes) bytes) (fun _ ↦ True) d d' :=
  .inl ⟨⟨⟩, _, _, Depot.storeObject_eq h.undamaged bytes, Depot.storeObject_eq h.undamaged' bytes,
    h.stored hinjective bytes, trivial⟩

theorem related_insertUploaded (h : d.Alike H K rows rows' d') {row : UploadedRow}
    (hrow : K.inputs row.inputId) :
    Related (Depot.Alike H K rows rows') (insertUploaded row) (insertUploaded row)
      (fun _ ↦ True) d d' := by
  have htaken : ∀ d : Depot, (d.uploaded.any fun r ↦ r.inputId = row.inputId) =
      (d.uploadedInput? row.inputId).isSome := fun d ↦ List.isSome_find?.symm
  unfold insertUploaded
  refine Related.read ?_
  rw [htaken, htaken, h.uploaded _ hrow]
  split
  · exact Related.raises h
  · exact Related.writes (h.uploading row) trivial

theorem related_ingestInputFile (hinjective : Function.Injective H) (h : d.Alike H K rows rows' d')
    {inputId : String} (hid : K.inputs inputId) (path : String) :
    Related (Depot.Alike H K rows rows') (ingestInputFile H host inputId path)
      (ingestInputFile H host inputId path) (fun row ↦ row.inputId = inputId) d d' := by
  unfold ingestInputFile
  refine Related.bind (Related.lift h rfl) fun source e e' he _ ↦ ?_
  cases host.file source with
  | none => exact Related.raises he
  | some contents =>
      refine Related.bind (Related.lift he rfl) fun bytes e e' he _ ↦ ?_
      refine Related.bind (related_storeObject hinjective he bytes) fun _ e e' he _ ↦ ?_
      refine Related.bind (related_insertUploaded he hid) fun _ e e' he _ ↦ ?_
      exact Related.returns he rfl

variable (hinjective : Function.Injective H) (hfresh : ∀ index, K.inputs (newId index))

include hinjective hfresh

theorem related_freezeInput (h : d.Alike H K rows rows' d') (index : Nat) {i : InputFile}
    (hi : K.Names i) :
    Related (Depot.Alike H K rows rows') (freezeInput H host (newId index) i)
      (freezeInput H host (newId index) i) (fun p ↦ K.Names p.1) d d' := by
  unfold freezeInput
  cases i.source with
  | none => exact Related.returns h hi
  | some path =>
      refine Related.bind (Related.lift h rfl) fun source e e' he _ ↦ ?_
      split
      · exact Related.returns he hi
      · refine Related.bind (related_ingestInputFile hinjective he (hfresh index) source)
          fun row e e' he hrow ↦ Related.returns he ⟨fun id hid ↦ ?_, nofun⟩
        obtain rfl := Option.some.inj hid
        exact hrow ▸ hfresh index

theorem related_freezeInputs {inputs : List InputFile} (hnamed : ∀ i ∈ inputs, K.Names i)
    (h : d.Alike H K rows rows' d') (index : Nat) (labels : JsonObject) :
    Related (Depot.Alike H K rows rows') (freezeInputs H host newId index inputs labels)
      (freezeInputs H host newId index inputs labels) (fun p ↦ ∀ i ∈ p.1, K.Names i) d d' := by
  induction inputs generalizing d d' index labels with
  | nil => exact Related.returns h nofun
  | cons i rest ih =>
      rw [List.forall_mem_cons] at hnamed
      unfold freezeInputs
      refine Related.bind (related_freezeInput hinjective hfresh h index hnamed.1)
        fun p e e' he hp ↦ ?_
      refine Related.bind (ih hnamed.2 he _ _) fun q e e' he hq ↦ Related.returns he ?_
      exact List.forall_mem_cons.mpr ⟨hp, hq⟩

theorem related_freezeHostInputs {task : TaskSpec} (hnamed : ∀ i ∈ task.stagedInputs, K.Names i)
    (h : d.Alike H K rows rows' d') :
    Related (Depot.Alike H K rows rows') (freezeHostInputs H host newId task)
      (freezeHostInputs H host newId task)
      (fun frozen ↦ (∀ i ∈ frozen.stagedInputs, K.Names i) ∧ frozen.taskId = task.taskId)
      d d' := by
  unfold freezeHostInputs
  refine Related.bind (related_freezeInputs hinjective hfresh hnamed h 0 task.labels)
    fun p e e' he hp ↦ Related.returns he ⟨hp, rfl⟩

omit hinjective hfresh in
theorem checkInput_alike (h : d.Alike H K rows rows' d') (allowedRoots : List String)
    {i : InputFile} (hi : K.Names i) :
    checkInput host allowedRoots d i = checkInput host allowedRoots d' i := by
  unfold checkInput
  cases hinput : i.inputId with
  | some inputId => simp only [h.uploaded inputId (hi.1 inputId hinput)]
  | none =>
      cases hartifact : i.artifactId with
      | none => rfl
      | some artifactId => simp only [h.artifact artifactId (hi.2 artifactId hartifact)]

omit hinjective hfresh in
theorem measureInput_alike (h : d.Alike H K rows rows' d') {i : InputFile} (hi : K.Names i) :
    measureInput H host d i = measureInput H host d' i := by
  unfold measureInput
  cases hinput : i.inputId with
  | some inputId =>
      simp only [Depot.getUploadedInput, h.uploaded inputId (hi.1 inputId hinput)]
  | none =>
      cases hartifact : i.artifactId with
      | none => rfl
      | some artifactId =>
          have hknown := hi.2 artifactId hartifact
          simp only [Depot.getArtifact, ← h.artifact artifactId hknown]
          cases hrow : d.artifact? artifactId with
          | none => rfl
          | some row =>
              have hpresent : d.artifactPresent row = d'.artifactPresent row := by
                unfold Depot.artifactPresent
                rw [h.file artifactId row hknown hrow]
              simp only [bind, Except.bind, hpresent]

variable (host) in
theorem related_prepare (allowedRoots : List String) {task : TaskSpec}
    (hnamed : ∀ i ∈ task.stagedInputs, K.Names i) (h : d.Alike H K rows rows' d') :
    Related (Depot.Alike H K rows rows') (prepare H host allowedRoots newId task)
      (prepare H host allowedRoots newId task)
      (fun prepared ↦ (∀ i ∈ prepared.stagedInputs, K.Names i) ∧ prepared.taskId = task.taskId)
      d d' := by
  unfold prepare
  refine Related.bind (Related.lift h rfl) fun _ e e' he _ ↦ Related.read ?_
  refine Related.bind (Related.lift he ?_) fun _ e e' he _ ↦ ?_
  · exact Except.forM_congr fun i hi ↦ checkInput_alike he allowedRoots (hnamed i hi)
  refine Related.bind (related_freezeHostInputs hinjective hfresh hnamed he)
    fun frozen e e' he hfrozen ↦ Related.read ?_
  refine Related.bind (Related.lift he ?_) fun digest e e' he _ ↦ Related.returns he hfrozen
  unfold inputManifestDigest
  rw [Except.mapM_congr fun i hi ↦ measureInput_alike he (hfrozen.1 i hi)]

end Preparation

/-! ## The transaction -/

section Transaction

variable {H : Bytes → String} {K : Known} {rows rows' : List ArtifactRow} {d d' : Depot}
  {t t' : Tables} {a : Submission}

theorem comparable_alike (h : d.Alike H K rows rows' d') {task : TaskSpec}
    (hnamed : ∀ i ∈ task.stagedInputs, K.Names i) :
    comparable d.custody task = comparable d'.custody task := by
  have hinput : ∀ i, K.Names i → byDigest d.custody i = byDigest d'.custody i := by
    intro i hi
    have huploaded : digestOf d.custody.uploadedSha256 "unknown uploaded input: " i.inputId =
        digestOf d'.custody.uploadedSha256 "unknown uploaded input: " i.inputId := by
      cases hid : i.inputId with
      | none => rfl
      | some id => simp only [digestOf, Depot.custody, h.uploaded id (hi.1 id hid)]
    have hregistered : digestOf d.custody.artifactSha256 "no such artifact: " i.artifactId =
        digestOf d'.custody.artifactSha256 "no such artifact: " i.artifactId := by
      cases hid : i.artifactId with
      | none => rfl
      | some id => simp only [digestOf, Depot.custody, h.artifact id (hi.2 id hid)]
    unfold byDigest
    rw [huploaded, hregistered]
  unfold comparable
  rw [Except.mapM_congr fun i hi ↦ hinput i (hnamed i hi)]

theorem equivalentTaskSpecs_alike (h : d.Alike H K rows rows' d') {first second : TaskSpec}
    (hfirst : ∀ i ∈ first.stagedInputs, K.Names i)
    (hsecond : ∀ i ∈ second.stagedInputs, K.Names i) :
    equivalentTaskSpecs d.custody first second = equivalentTaskSpecs d'.custody first second := by
  unfold equivalentTaskSpecs
  rw [comparable_alike h hfirst, comparable_alike h hsecond]

/-- No row bears the ids. -/
structure Tables.Lacks (t : Tables) (runId : RunId) (stageRunId : StageRunId) : Prop where
  run : ∀ run ∈ t.runs, run.runId ≠ runId
  stage : ∀ s ∈ t.stages, s.stageRunId ≠ stageRunId ∧ s.runId ≠ runId
  attempt : ∀ a ∈ t.attempts, a.stageRunId ≠ stageRunId

/-- A submission that finds no run creates one. -/
theorem handled_createRun (hfresh : t.Lacks a.runId a.stageRunId) (hnone : a.existing? t = none)
    (pluginId : String) :
    handled (createRun a pluginId { db := t, saved := some t }) =
      (.ok a.runRow, { db := (Effect.create a pluginId).apply t }) := by
  have hrun : t.refusesRun a.runRow = false := by
    rw [Tables.refusesRun, List.any_eq_false]
    intro r hr hclash
    rcases Bool.or_eq_true_iff.mp hclash with hid | hkey
    · exact hfresh.run r hr (of_decide_eq_true hid)
    · obtain ⟨hsome, heq⟩ := Bool.and_eq_true_iff.mp hkey
      obtain ⟨key, hkey⟩ := Option.isSome_iff_exists.mp hsome
      have hwanted : a.idempotencyKey = some key := (of_decide_eq_true heq).symm.trans hkey
      unfold Submission.existing? at hnone
      rw [hwanted] at hnone
      exact List.find?_eq_none.mp hnone r hr (decide_eq_true hkey)
  have hfound : ((t.insertRun a.runRow).run? a.runId).isSome = true := by
    rw [Tables.run?, Table.get?_isSome_iff]
    exact List.mem_map_of_mem (List.mem_append_right _ (List.mem_singleton_self a.runRow))
  have hstage : (t.insertRun a.runRow).refusesStage (a.stageRow pluginId) = false := by
    rw [Tables.refusesStage, Bool.or_eq_false_iff, List.any_eq_false]
    refine ⟨fun s hs hclash ↦ ?_, ?_⟩
    swap
    · change ((t.insertRun a.runRow).run? a.runId).isNone = false
      rwa [Option.isNone_eq_false_iff]
    obtain ⟨hstage, hrun⟩ := hfresh.stage s hs
    rcases Bool.or_eq_true_iff.mp hclash with hid | hboth
    · exact hstage (of_decide_eq_true hid)
    · exact hrun (of_decide_eq_true (Bool.and_eq_true_iff.mp hboth).1)
  simp only [createRun, executeChecked_bind, hrun, hstage]
  rfl

theorem reuseRun_alike {custody custody' : Custody} {run : RunRow}
    (hequal : equivalentTaskSpecs custody run.taskSpec a.task =
      equivalentTaskSpecs custody' run.taskSpec a.task)
    (hstages : t.listStages run.runId = t'.listStages run.runId) :
    ∃ r, handled (reuseRun custody a run { db := t, saved := some t }) = (r, { db := t }) ∧
      handled (reuseRun custody' a run { db := t', saved := some t' }) = (r, { db := t' }) ∧
      ∀ run', r = .ok run' → run' = run := by
  unfold reuseRun
  rw [← hequal]
  cases equivalentTaskSpecs custody run.taskSpec a.task with
  | error e => exact ⟨.error e, rfl, rfl, fun _ h ↦ nomatch h⟩
  | ok equal =>
      cases equal with
      | false => exact ⟨.error (.runtimeStore _), rfl, rfl, fun _ h ↦ nomatch h⟩
      | true =>
          simp only [query_bind, ← hstages]
          cases t.listStages run.runId with
          | nil => exact ⟨.error (.index _), rfl, rfl, fun _ h ↦ nomatch h⟩
          | cons stage stages =>
              by_cases hversion : stage.pluginVersion = a.pluginVersion
              · simp only [hversion, ne_eq, not_true_eq_false, if_false]
                exact ⟨.ok run, rfl, rfl, fun run' h ↦ (Except.ok.inj h).symm⟩
              · simp only [hversion, ne_eq, not_false_eq_true, if_true]
                exact ⟨.error (.runtimeStore _), rfl, rfl, fun _ h ↦ nomatch h⟩

/-- On stores that agree on the run it finds, a submission answers alike; it changes neither,
and returns the run it found if it returns, or it creates a run in both. -/
theorem submitRun_alike (h : d.Alike H K rows rows' d')
    (hnamed : ∀ i ∈ a.task.stagedInputs, K.Names i) (hfresh : t.Lacks a.runId a.stageRunId)
    (hfresh' : t'.Lacks a.runId a.stageRunId) (hfound : a.existing? t = a.existing? t')
    (hreuse : ∀ run, a.existing? t = some run → (∀ i ∈ run.taskSpec.stagedInputs, K.Names i) ∧
      t.listStages run.runId = t'.listStages run.runId) :
    (∃ r, exec (submitRun d.custody a) t = (r, t) ∧ exec (submitRun d'.custody a) t' = (r, t') ∧
        ∀ run, r = .ok run → a.existing? t = some run) ∨
      ∃ pluginId, exec (submitRun d.custody a) t =
          (.ok a.runRow, (Effect.create a pluginId).apply t) ∧
        exec (submitRun d'.custody a) t' =
          (.ok a.runRow, (Effect.create a pluginId).apply t') := by
  by_cases hopens : a.Opens
  swap
  · obtain ⟨e, herror⟩ := submitRun_closed hopens
    exact .inl ⟨.error e, herror _ _, herror _ _, fun _ h ↦ nomatch h⟩
  obtain ⟨pluginId, hplugin, hexec⟩ := @exec_submitRun d.custody a t hopens
  obtain ⟨pluginId', hplugin', hexec'⟩ := @exec_submitRun d'.custody a t' hopens
  obtain rfl := Option.some.inj (hplugin.symm.trans hplugin')
  cases hexisting : a.existing? t with
  | some run =>
      obtain ⟨hrun, hstages⟩ := hreuse run hexisting
      obtain ⟨r, hr, hr', hok⟩ :=
        reuseRun_alike (equivalentTaskSpecs_alike h hrun hnamed) hstages
      simp only [hexisting] at hexec
      simp only [← hfound, hexisting] at hexec'
      refine .inl ⟨r, by rw [hexec, hr], by rw [hexec', hr'], fun run' hrun' ↦ ?_⟩
      rw [hok run' hrun']
  | none =>
      simp only [hexisting] at hexec
      simp only [← hfound, hexisting] at hexec'
      refine .inr ⟨pluginId, ?_, ?_⟩
      · rw [hexec, handled_createRun hfresh hexisting]
      · rw [hexec', handled_createRun hfresh' (hfound.symm.trans hexisting)]

end Transaction

/-! ## The submission -/

/-- The run that the key of a call names, or the task id of an idempotent call without a key. -/
def SubmitCall.existing? (a : SubmitCall) (t : Tables) : Option RunRow :=
  match a.idempotencyKey with
  | some key => t.runByKey? key
  | none => if a.idempotent then t.findRunByTaskId a.task.taskId else none

section Lookup

variable {a : SubmitCall} {t : Tables} {q : RunRow → Bool}

theorem head?_filter {l : List RunRow} (h : ∀ run, l.head? = some run → q run = true) :
    (l.filter q).head? = l.head? := by
  cases l with
  | nil => rfl
  | cons run rest => rw [List.filter_cons_of_pos (h run rfl), List.head?_cons, List.head?_cons]

theorem runByKey?_filter {key : String} (h : ∀ run, t.runByKey? key = some run → q run = true) :
    Tables.runByKey? { t with runs := t.runs.filter q } key = t.runByKey? key := by
  unfold Tables.runByKey? at h ⊢
  simp only [← List.head?_filter] at h ⊢
  rw [List.filter_comm, head?_filter h]

theorem findRunByTaskId_filter {taskId : String}
    (h : ∀ run, t.findRunByTaskId taskId = some run → q run = true) :
    Tables.findRunByTaskId { t with runs := t.runs.filter q } taskId =
      t.findRunByTaskId taskId := by
  have htrans : IsTrans RunRow fun r r' ↦ r.createdAt ≤ r'.createdAt :=
    ⟨fun _ _ _ h h' ↦ h.trans h'⟩
  have htotal : Std.Total fun r r' : RunRow ↦ r.createdAt ≤ r'.createdAt :=
    ⟨fun r r' ↦ Int.le_total r.createdAt r'.createdAt⟩
  unfold Tables.findRunByTaskId at h ⊢
  rw [List.filter_comm, ← Paging.filter_insertionSort, head?_filter h]

/-- A call that finds a run which a filter keeps finds it among those that it keeps. -/
theorem SubmitCall.existing?_filter (h : ∀ run, a.existing? t = some run → q run = true) :
    a.existing? { t with runs := t.runs.filter q } = a.existing? t := by
  unfold existing? at h ⊢
  cases hkey : a.idempotencyKey with
  | some key =>
      simp only [hkey] at h ⊢
      exact runByKey?_filter h
  | none =>
      simp only [hkey] at h ⊢
      split
      · next hidempotent =>
          rw [if_pos hidempotent] at h
          exact findRunByTaskId_filter h
      · rfl

theorem SubmitCall.mem_of_existing? {run : RunRow} (h : a.existing? t = some run) :
    run ∈ t.runs := by
  unfold existing? at h
  split at h
  · exact List.mem_of_find?_eq_some h
  · split at h
    · exact Tables.mem_of_findRunByTaskId h
    · cases h

end Lookup

section Submission

variable {H : Bytes → String} {K : Known}

/-- On kernels that agree on what a call may look up, `submit` answers alike. -/
theorem Platform.submit_alike (p : Platform) (host : Host) (a : SubmitCall) (k k' : Kernel)
    (hinjective : Function.Injective H)
    (hids : ∀ index, K.inputs (a.newId index))
    (h : k.depot.Alike H K k.depot.artifacts k'.depot.artifacts k'.depot)
    (hnamed : ∀ i ∈ a.task.stagedInputs, K.Names i) (hfresh : k.tables.Lacks a.runId a.stageRunId)
    (hfresh' : k'.tables.Lacks a.runId a.stageRunId)
    (hfound : a.existing? k.tables = a.existing? k'.tables)
    (hreuse : ∀ run, a.existing? k.tables = some run →
      (∀ i ∈ run.taskSpec.stagedInputs, K.Names i) ∧
        k.tables.listStages run.runId = k'.tables.listStages run.runId) :
    ∃ r l l', p.submit H host a k = (r, l) ∧ p.submit H host a k' = (r, l') ∧
      l.depot.artifacts = k.depot.artifacts ∧ l'.depot.artifacts = k'.depot.artifacts ∧
      ∀ run, r = .ok run → (∀ i ∈ run.taskSpec.stagedInputs, K.Names i) ∧
        ((a.existing? k.tables = some run ∧ l.tables = k.tables ∧ l'.tables = k'.tables) ∨
          ∃ stage : StageRow, run.runId = a.runId ∧ stage.runId = a.runId ∧
            stage.stageRunId = a.stageRunId ∧
            l.tables = (k.tables.insertRun run).insertStage stage ∧
            l'.tables = (k'.tables.insertRun run).insertStage stage) := by
  unfold submit
  rcases related_prepare host hinjective hids p.allowedInputRoots hnamed h with
    ⟨task, e, e', hprepare, hprepare', he, hstaged, htask⟩ | ⟨error, e, e', hprepare, hprepare', he⟩
  swap
  · rw [hprepare, hprepare']
    exact ⟨.error error, _, _, rfl, rfl, he.rows, he.rows', fun _ h ↦ nomatch h⟩
  rw [hprepare, hprepare']
  simp only
  cases p.resolveManifest a task with
  | error error => exact ⟨.error error, _, _, rfl, rfl, he.rows, he.rows', fun _ h ↦ nomatch h⟩
  | ok manifest =>
      have hexisting : ∀ t, (a.submission task manifest).existing? t = a.existing? t := by
        intro t
        unfold Submission.existing? SubmitCall.existing?
        rw [← htask]
        rfl
      have hpreparedAlike : (a.submission task manifest).existing? k.tables =
          (a.submission task manifest).existing? k'.tables := by
        rw [hexisting, hexisting, hfound]
      have halike := submitRun_alike he hstaged hfresh hfresh' hpreparedAlike (by rwa [hexisting])
      simp only
      rcases halike with ⟨r, hexec, hexec', hok⟩ | ⟨pluginId, hexec, hexec'⟩
      · rw [hexec, hexec']
        refine ⟨_, _, _, rfl, rfl, he.rows, he.rows', fun run hrun ↦ ?_⟩
        have hfound := hok run (mapError_eq_ok.mp hrun)
        rw [hexisting] at hfound
        exact ⟨(hreuse run hfound).1, .inl ⟨hfound, rfl, rfl⟩⟩
      · rw [hexec, hexec']
        refine ⟨_, _, _, rfl, rfl, he.rows, he.rows', fun run hrun ↦ ?_⟩
        obtain rfl := Except.ok.inj hrun
        exact ⟨hstaged, .inr ⟨(a.submission task manifest).stageRow pluginId, rfl, rfl, rfl,
          rfl, rfl⟩⟩

end Submission

end ChipEvolve
