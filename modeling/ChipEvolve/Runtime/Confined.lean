import ChipEvolve.Runtime.Bundle
import ChipEvolve.Store.Frame

/-!
# Steps that write one run

What is kept of a run are its rows, the artifacts of its attempts, their inputs and their
evidence.  A step is confined to some runs if its effect concerns no other run that there is, and
its artifacts belong to the attempts of no other.
-/

namespace ChipEvolve.Bundle

/-! ## Artifacts that a program adds -/

variable {H : Bytes → String}

/-- A program that adds no other artifacts than these, whether it returned or raised. -/
def Adds {α : Type} (p : ArtifactRow → Prop) (x : IntakeM α) : Prop :=
  ∀ d, ∃ new, (after x d).artifacts = d.artifacts ++ new ∧ ∀ row ∈ new, p row

namespace Adds

variable {α β : Type} {p : ArtifactRow → Prop}

theorem none {x : IntakeM α} (h : ∀ d, (after x d).artifacts = d.artifacts) : Adds p x :=
  fun d ↦ ⟨[], (h d).trans (List.append_nil _).symm, List.forall_mem_nil _⟩

theorem pure (a : α) : Adds p (pure a : IntakeM α) := none fun _ ↦ rfl

theorem throw (e : RuntimeError) : Adds p (throw e : IntakeM α) := none fun _ ↦ rfl

theorem bind {x : IntakeM α} {f : α → IntakeM β} (hx : Adds p x) (hf : ∀ a, Adds p (f a)) :
    Adds p (x >>= f) := by
  intro d
  obtain ⟨new, hnew, hp⟩ := hx d
  cases hd : x d with
  | error e d₁ =>
      have hfirst : after x d = d₁ := by rw [after, hd]
      have hboth : after (x >>= f) d = d₁ := by
        change after (EStateM.bind x f) d = d₁
        rw [after, EStateM.bind, hd]
      rw [hboth, ← hfirst]
      exact ⟨new, hnew, hp⟩
  | ok a d₁ =>
      have hfirst : after x d = d₁ := by rw [after, hd]
      have hboth : after (x >>= f) d = after (f a) d₁ := by
        change after (EStateM.bind x f) d = after (f a) d₁
        rw [after, EStateM.bind, hd, after]
      obtain ⟨new', hnew', hp'⟩ := hf a d₁
      refine ⟨new ++ new', ?_, fun row hrow ↦ (List.mem_append.mp hrow).elim (hp row) (hp' row)⟩
      rw [hboth, hnew', ← hfirst, hnew, List.append_assoc]

theorem get_bind {f : Depot → IntakeM β} (hf : ∀ d, Adds p (f d)) : Adds p (get >>= f) :=
  fun d ↦ hf d d

theorem ofExcept_bind {y : Except RuntimeError α} {f : α → IntakeM β} (hf : ∀ a, Adds p (f a)) :
    Adds p (ofExcept y >>= f) := by
  cases y with
  | ok a => exact hf a
  | error e => exact none fun _ ↦ rfl

end Adds

variable {p : ArtifactRow → Prop}

theorem adds_storeObject (bytes : Bytes) : Adds p (storeObject H (H bytes) bytes) := by
  refine Adds.none fun d ↦ ?_
  rcases storeObject_cases H bytes d with ⟨_, _, _, hok⟩ | ⟨e, herror⟩ | ⟨_, hok⟩
  · rw [after, hok]
  · rw [after, herror]
  · rw [after, hok]

theorem adds_insertArtifact {row : ArtifactRow} (hp : p row) : Adds p (insertArtifact row) := by
  intro d
  rcases insertArtifact_cases row d with ⟨e, herror⟩ | ⟨_, hok⟩
  · exact ⟨[], by rw [after, herror, List.append_nil], List.forall_mem_nil _⟩
  · refine ⟨[row], by rw [after, hok], fun new hnew ↦ ?_⟩
    rwa [List.mem_singleton.mp hnew]

theorem adds_insertUploaded (row : UploadedRow) : Adds p (insertUploaded row) := by
  refine Adds.get_bind fun d ↦ ?_
  split
  · exact Adds.throw _
  · exact Adds.none fun _ ↦ rfl

theorem adds_ingestInput (inputId : String) (content : Bytes) :
    Adds p (ingestInput H inputId content) :=
  (adds_storeObject content).bind fun _ ↦ adds_insertUploaded _

theorem adds_ingestInputFile (host : Host) (inputId path : String) :
    Adds p (ingestInputFile H host inputId path) := by
  refine Adds.ofExcept_bind fun source ↦ ?_
  split
  · exact Adds.throw _
  · exact Adds.ofExcept_bind fun bytes ↦
      (adds_storeObject bytes).bind fun _ ↦ (adds_insertUploaded _).bind fun _ ↦ Adds.pure _

theorem adds_freezeInput (host : Host) (inputId : String) (i : InputFile) :
    Adds p (freezeInput H host inputId i) := by
  unfold freezeInput
  split
  · exact Adds.pure _
  · refine Adds.ofExcept_bind fun source ↦ ?_
    split
    · exact Adds.pure _
    · exact (adds_ingestInputFile host inputId source).bind fun _ ↦ Adds.pure _

theorem adds_freezeInputs (host : Host) (newId : Nat → String) (index : Nat)
    (inputs : List InputFile) (labels : JsonObject) :
    Adds p (freezeInputs H host newId index inputs labels) := by
  induction inputs generalizing index labels with
  | nil => exact Adds.pure _
  | cons i rest ih =>
      exact (adds_freezeInput host (newId index) i).bind fun _ ↦
        (ih (index + 1) _).bind fun _ ↦ Adds.pure _

/-- A submission that is being prepared adds inputs and objects only. -/
theorem adds_prepare (host : Host) (allowedRoots : List String) (newId : Nat → String)
    (task : TaskSpec) : Adds p (prepare H host allowedRoots newId task) :=
  Adds.ofExcept_bind fun _ ↦ Adds.get_bind fun _ ↦ Adds.ofExcept_bind fun _ ↦
    ((adds_freezeInputs host newId 0 _ _).bind fun _ ↦ Adds.pure _).bind fun _ ↦
      Adds.get_bind fun _ ↦ Adds.ofExcept_bind fun _ ↦ Adds.pure _

theorem adds_registerFile (artifactId : String) (attemptId : AttemptId) (content : Bytes) :
    Adds (fun row ↦ row.attemptId = attemptId)
      (World.registerFile H artifactId attemptId content) := by
  refine Adds.ofExcept_bind fun _ ↦ Adds.get_bind fun d ↦ ?_
  split
  · exact Adds.pure _
  · exact (adds_storeObject _).bind fun _ ↦
      (@adds_insertArtifact (fun row ↦ row.attemptId = attemptId) _ rfl).bind fun _ ↦ Adds.pure _

/-- The attempts of a view are attempts of its run. -/
theorem hasAttempt_of_describeRun {w : World} {runId : RunId} {view : RunView}
    {stage : StageRow} {v : AttemptView} (hview : w.describeRun runId = .ok view)
    (hmem : (stage, v) ∈ view.attempts) :
    w.tables.hasAttempt runId v.attempt.attemptId = true := by
  rw [RunView.attempts, (describeRun_eq_ok hview).2.2, List.mem_flatMap] at hmem
  obtain ⟨s, hs, hmem⟩ := hmem
  obtain ⟨stage', hstage, rfl⟩ := List.mem_map.mp hs
  obtain ⟨v', hv', heq⟩ := List.mem_map.mp hmem
  obtain ⟨a, ha, rfl⟩ := List.mem_map.mp hv'
  obtain ⟨_, rfl⟩ := Prod.mk.inj heq
  obtain ⟨ha, hof⟩ := mem_listAttempts.mp ha
  obtain ⟨hstage, hrun⟩ := mem_listStages.mp hstage
  exact Tables.hasAttempt_iff.mpr
    ⟨a, ha, rfl, Tables.hasStage_iff.mpr ⟨stage', hstage, hrun, hof.symm⟩⟩

theorem tables_of_step {zip : Archive → Bytes} {w w' : World} {event : Event}
    (h : w.step H zip event = some w') :
    w'.tables = w.tables ∨ ∃ e : Effect, e.Enabled w.tables ∧ w'.tables = e.apply w.tables := by
  cases event with
  | operates client op =>
      obtain ⟨system, hsystem, rfl⟩ := Option.map_eq_some_iff.mp h
      rcases System.step_effect hsystem with hsame | ⟨e, _, henabled, happly⟩
      · exact .inl hsame
      · exact .inr ⟨e, henabled, happly⟩
  | recordsInputs attemptId staged =>
      obtain rfl := Option.some.inj h
      unfold World.recordInputs
      split <;> exact .inl rfl
  | captures attemptId filename =>
      unfold World.step at h
      dsimp only at h
      split at h
      · obtain rfl := Option.some.inj h
        unfold World.snapshotEvidence
        split
        · split <;> exact .inl rfl
        · exact .inl rfl
      · cases h
  | exports runId artifactId =>
      obtain rfl := Option.some.inj h
      rcases export_cases H zip w runId artifactId with ⟨_, hexport⟩ | ⟨_, _, _, _, _, hexport⟩ |
          ⟨_, _, _, _, _, _, _, _, _, hexport⟩
      · exact .inl (by rw [hexport])
      · exact .inl (by rw [hexport])
      · refine .inl ?_
        rw [hexport]
        split <;> rfl
  | registersArtifacts | ingestsInput | writes =>
      obtain rfl := Option.some.inj h
      exact .inl rfl

/-! ## What is kept of a run -/

namespace World

def withTables (w : World) (t : Tables) : World :=
  { w with system := { w.system with tables := t } }

def withKernel (w : World) (k : Kernel) : World := { w.withTables k.tables with depot := k.depot }

end World

structure RunRecord where
  rows : RunRows
  artifacts : List ArtifactRow
  inputs : List (List StagedInput)
  evidence : List (List (Option Bytes))

/-- The rows of a run, and what its attempts registered, staged and left as evidence. -/
def World.recordOf (w : World) (runId : RunId) : RunRecord :=
  let rows := w.tables.runRows runId
  { rows := rows
    artifacts := w.depot.artifacts.filter fun r ↦ w.tables.hasAttempt runId r.attemptId
    inputs := rows.attempts.map fun a ↦ w.inputs a.attemptId
    evidence := rows.attempts.map fun a ↦ capturedEvidence.map (w.evidence a.attemptId) }

/-- Of the runs there are, only these are written. -/
structure Confined (w w' : World) (written : RunId → Prop) : Prop where
  tables : w'.tables = w.tables ∨ ∃ e : Effect, e.Enabled w.tables ∧ w'.tables = e.apply w.tables ∧
    ∀ runId, e.Concerns w.tables runId → written runId ∨ w.tables.run? runId = none
  artifacts : ∃ new, w'.depot.artifacts = w.depot.artifacts ++ new ∧
    ∀ row ∈ new, ∀ runId, w.tables.hasAttempt runId row.attemptId = true → written runId
  inputs : w'.inputs = w.inputs
  evidence : w'.evidence = w.evidence

namespace Confined

variable {w w' : World} {written : RunId → Prop} {runId : RunId} {e : Effect}

theorem refl (w : World) : Confined w w written :=
  ⟨.inl rfl, ⟨[], (List.append_nil _).symm, List.forall_mem_nil _⟩, rfl, rfl⟩

theorem effect (henabled : e.Enabled w.tables)
    (hwritten : ∀ runId, e.Concerns w.tables runId → written runId ∨ w.tables.run? runId = none) :
    Confined w (w.withTables (e.apply w.tables)) written :=
  ⟨.inr ⟨e, henabled, rfl, hwritten⟩, ⟨[], (List.append_nil _).symm, List.forall_mem_nil _⟩,
    rfl, rfl⟩

theorem depot {depot : Depot} (h : ∃ new, depot.artifacts = w.depot.artifacts ++ new ∧
    ∀ row ∈ new, ∀ runId, w.tables.hasAttempt runId row.attemptId = true → written runId) :
    Confined w { w with depot := depot } written :=
  ⟨.inl rfl, h, rfl, rfl⟩

theorem wellFormed (h : Confined w w' written) (hwell : WellFormed w.tables) :
    WellFormed w'.tables := by
  rcases h.tables with hsame | ⟨e, henabled, happly, _⟩
  · rwa [hsame]
  · rw [happly]
    exact hwell.apply henabled

theorem hasAttempt (h : Confined w w' written) {attemptId : AttemptId}
    (hhas : w.tables.hasAttempt runId attemptId = true) :
    w'.tables.hasAttempt runId attemptId = true := by
  rcases h.tables with hsame | ⟨e, _, happly, _⟩
  · rwa [hsame]
  · rw [happly]
    exact Effect.hasAttempt_apply_of hhas

/-- The record of any other run stays as it is. -/
theorem recordOf (h : Confined w w' written) (hwell : WellFormed w.tables)
    (hrun : (w.tables.run? runId).isSome = true) (hnot : ¬written runId) :
    w'.recordOf runId = w.recordOf runId := by
  have hrows : w'.tables.runRows runId = w.tables.runRows runId := by
    rcases h.tables with hsame | ⟨e, henabled, happly, hwritten⟩
    · rw [hsame]
    · rw [happly]
      refine Effect.runRows_apply hwell henabled fun hconcerns ↦ ?_
      rcases hwritten runId hconcerns with hmine | hnone
      · exact hnot hmine
      · rw [hnone] at hrun
        cases hrun
  have hattempt (attemptId : AttemptId) :
      w'.tables.hasAttempt runId attemptId = w.tables.hasAttempt runId attemptId := by
    rw [Tables.hasAttempt_eq, Tables.hasAttempt_eq, hrows]
  have hartifacts : w'.depot.artifacts.filter (fun r ↦ w'.tables.hasAttempt runId r.attemptId) =
      w.depot.artifacts.filter fun r ↦ w.tables.hasAttempt runId r.attemptId := by
    obtain ⟨new, hnew, hother⟩ := h.artifacts
    have hnone : new.filter (fun r ↦ w.tables.hasAttempt runId r.attemptId) = [] :=
      List.filter_eq_nil_iff.mpr fun row hrow hhas ↦ hnot (hother row hrow runId hhas)
    simp only [hattempt, hnew, List.filter_append, hnone, List.append_nil]
  unfold World.recordOf
  rw [hrows, hartifacts, h.inputs, h.evidence]

end Confined

end ChipEvolve.Bundle
