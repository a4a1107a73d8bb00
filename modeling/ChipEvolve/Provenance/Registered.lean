import ChipEvolve.Provenance.Index
import ChipEvolve.Runtime.Attempt

/-!
# What has been registered

The artifacts and metrics that `register_artifacts` and `register_metrics` (`store.py`) can
leave in the tables: an artifact is measured when it is registered, and no two share an id; a
metric is held to its contract and to nothing else, neither to a name of its own nor to a
source that exists.
-/

namespace ChipEvolve.Provenance

/-- Ids as the store makes them: each row has one of its own, and that of an attempt has no
colon. -/
structure Named (t : Tables) : Prop where
  stages : Table.Unique StageRow.stageRunId t.stages
  attempts : Table.Unique AttemptRow.attemptId t.attempts
  plain : ∀ a ∈ t.attempts, ':' ∉ a.attemptId.toList

namespace Records

/-- `register_metrics`, which rolls back where a metric is refused. -/
def registerMetrics (x : Records) (attemptId : AttemptId) (metrics : List Metric) : Records :=
  match metrics.forM Metric.validate with
  | .ok _ => { x with metrics := x.metrics ++ metrics.map (Attempt.metricRow attemptId) }
  | .error _ => x

def registerArtifacts (H : Bytes → String) (x : Records) (attemptId : AttemptId)
    (declared : List Custody.Declared) : Records :=
  { x with depot := Bundle.registerArtifacts H attemptId declared x.depot }

/-- What can be in the store: at first neither artifacts nor metrics, and then what the two
methods register, while runs and attempts come and change. -/
inductive Registered (H : Bytes → String) : Records → Prop
  | start {x : Records} (hnamed : Named x.tables) (hartifacts : x.depot.artifacts = [])
      (hmetrics : x.metrics = []) : Registered H x
  | turns {x : Records} (hx : Registered H x) (system : System) (hnamed : Named system.tables) :
      Registered H { x with system := system }
  | artifacts {x : Records} (hx : Registered H x) (attemptId : AttemptId)
      (declared : List Custody.Declared) : Registered H (x.registerArtifacts H attemptId declared)
  | metrics {x : Records} (hx : Registered H x) (attemptId : AttemptId) (metrics : List Metric) :
      Registered H (x.registerMetrics attemptId metrics)

/-- The rows have ids of their own, and an artifact was measured as a whole. -/
structure Shelf (H : Bytes → String) (rows : List ArtifactRow) : Prop where
  unique : Table.Unique ArtifactRow.artifactId rows
  titled : ∀ row ∈ rows, row.artifactId ≠ ""
  measured : ∀ row ∈ rows, ∃ content, row.sha256 = H content ∧ row.sizeBytes = content.length

structure Catalogued (H : Bytes → String) (x : Records) : Prop where
  named : Named x.tables
  shelf : Shelf H x.depot.artifacts

end Records

section Registering

variable {H : Bytes → String} {d d' : Depot} {attemptId : AttemptId} {x : Records}

theorem artifacts_storeObject {bytes : Bytes} {u : Unit}
    (h : storeObject H (H bytes) bytes d = .ok u d') : d'.artifacts = d.artifacts := by
  rcases Bundle.storeObject_cases H bytes d with ⟨_, _, _, hok⟩ | ⟨e, herror⟩ | ⟨_, hok⟩
  · rw [hok] at h
    obtain ⟨_, rfl⟩ := EStateM.Result.ok.inj h
    rfl
  · rw [herror] at h
    cases h
  · rw [hok] at h
    obtain ⟨_, rfl⟩ := EStateM.Result.ok.inj h
    rfl

theorem ne_empty_of_validate {a : Artifact} (h : a.validate = .ok ()) : a.artifactId ≠ "" := by
  obtain ⟨hid, _⟩ := Validated.of_bind h
  intro hempty
  rw [hempty] at hid
  exact absurd hid (by decide)

theorem registerArtifact_eq_ok {declared : Custody.Declared} {u : Unit}
    (h : Bundle.registerArtifact H attemptId declared d = .ok u d') :
    ∃ row content, d'.artifacts = d.artifacts ++ [row] ∧ row.artifactId ≠ "" ∧
      (∀ old ∈ d.artifacts, old.artifactId ≠ row.artifactId) ∧
      row.sha256 = H content ∧ row.sizeBytes = content.length := by
  have h := IntakeM.get_bind_eq_ok.mp h
  cases hfile : d.workspaceFile attemptId declared.storeKey with
  | none =>
      rw [hfile] at h
      cases h
  | some found =>
      rw [hfile] at h
      cases found with
      | none => cases h
      | some bytes =>
          obtain ⟨_, hvalid, h⟩ := IntakeM.ofExcept_bind_eq_ok.mp h
          obtain ⟨_, d₁, hstore, hinsert⟩ := IntakeM.bind_eq_ok.mp h
          have hsame := artifacts_storeObject hstore
          rcases Bundle.insertArtifact_cases _ d₁ with ⟨e, herror⟩ | ⟨hfresh, hok⟩
          · rw [herror] at hinsert
            cases hinsert
          · rw [hok] at hinsert
            obtain ⟨_, rfl⟩ := EStateM.Result.ok.inj hinsert
            rw [hsame] at hfresh
            exact ⟨_, bytes, by rw [hsame],
              ne_empty_of_validate (mapError_eq_ok.mp hvalid), hfresh, rfl, rfl⟩

theorem shelf_registerArtifact (hshelf : Records.Shelf H d.artifacts) {declared : Custody.Declared}
    {u : Unit} (h : Bundle.registerArtifact H attemptId declared d = .ok u d') :
    Records.Shelf H d'.artifacts := by
  obtain ⟨row, content, hrows, htitled, hfresh, hdigest, hsize⟩ := registerArtifact_eq_ok h
  rw [hrows]
  refine ⟨hshelf.unique.append hfresh, fun r hr ↦ ?_, fun r hr ↦ ?_⟩
  · rcases List.mem_append.mp hr with hr | hr
    · exact hshelf.titled r hr
    · obtain rfl := List.mem_singleton.mp hr
      exact htitled
  · rcases List.mem_append.mp hr with hr | hr
    · exact hshelf.measured r hr
    · obtain rfl := List.mem_singleton.mp hr
      exact ⟨content, hdigest, hsize⟩

theorem shelf_forM (hshelf : Records.Shelf H d.artifacts) {declared : List Custody.Declared}
    {u : Unit} (h : declared.forM (Bundle.registerArtifact H attemptId) d = .ok u d') :
    Records.Shelf H d'.artifacts := by
  induction declared generalizing d with
  | nil =>
      obtain ⟨_, rfl⟩ := EStateM.Result.ok.inj h
      exact hshelf
  | cons first declared ih =>
      obtain ⟨_, d₁, hfirst, hrest⟩ := IntakeM.bind_eq_ok.mp h
      exact ih (shelf_registerArtifact hshelf hfirst) hrest

theorem shelf_registerArtifacts (hshelf : Records.Shelf H d.artifacts)
    (declared : List Custody.Declared) :
    Records.Shelf H (Bundle.registerArtifacts H attemptId declared d).artifacts := by
  unfold Bundle.registerArtifacts
  cases h : declared.forM (Bundle.registerArtifact H attemptId) d with
  | ok u d' => exact shelf_forM hshelf h
  | error e d' => exact hshelf

theorem Records.Registered.catalogued (h : x.Registered H) : x.Catalogued H := by
  induction h with
  | start hnamed hartifacts =>
      refine ⟨hnamed, ?_⟩
      rw [hartifacts]
      exact ⟨List.nodup_nil, by simp, by simp⟩
  | turns _ system hnamed ih => exact ⟨hnamed, ih.shelf⟩
  | artifacts _ attemptId declared ih =>
      exact ⟨ih.named, shelf_registerArtifacts ih.shelf declared⟩
  | metrics _ attemptId metrics ih =>
      unfold registerMetrics
      split
      · exact ⟨ih.named, ih.shelf⟩
      · exact ih

end Registering

end ChipEvolve.Provenance
