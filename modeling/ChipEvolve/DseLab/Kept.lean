import ChipEvolve.DseLab.Recorded

/-!
# The database of the laboratory

A sweep gets its points when it is made, numbered from zero in their order, and none later.
What a record writes over a point leaves its sweep, its ordinal and its parameters alone, and is
not written over again.
-/

namespace ChipEvolve.DseLab

/-! ## Points -/

namespace Point

/-- A point as it was made. -/
def blank (p : Point) : Point := { p with taskId := none, runId := none }

/-- A refusal, or a run of the point's own task. -/
def Reached (p : Point) (t : Tables) (runId : String) : Prop :=
  (∃ message, runId = refusedText message) ∨ HasRun t runId p.ownTaskId p.parameters

/-- What is recorded for the point is such an answer. -/
def Told (p : Point) (t : Tables) : Prop :=
  ∀ runId, p.runId = some runId → p.taskId = some p.ownTaskId ∧ p.Reached t runId

/-- A record may have been made of the point, and if there was one it is the same. -/
def Later (p q : Point) : Prop := q.blank = p.blank ∧ (p.runId.isSome = true → q = p)

variable {p q r : Point} {t t' : Tables} {runId : String}

theorem Later.refl : p.Later p := ⟨rfl, fun _ ↦ rfl⟩

theorem Later.trans (h : p.Later q) (h' : q.Later r) : p.Later r := by
  refine ⟨h'.1.trans h.1, fun hsome ↦ ?_⟩
  obtain rfl := h.2 hsome
  exact h'.2 hsome

theorem Later.runId_eq (h : p.Later q) (hrunId : p.runId = some runId) : q.runId = some runId := by
  rw [h.2 (hrunId ▸ rfl), hrunId]

theorem Reached.evolves (h : p.Reached t runId) (hevolves : Evolves t t') :
    p.Reached t' runId :=
  h.imp id fun hrun ↦ hrun.evolves hevolves

theorem Told.evolves (h : p.Told t) (hevolves : Evolves t t') : p.Told t' := by
  intro runId hrunId
  obtain ⟨htask, hreached⟩ := h runId hrunId
  exact ⟨htask, hreached.evolves hevolves⟩

theorem sweepId_of_blank (h : q.blank = p.blank) : q.sweepId = p.sweepId :=
  (congrArg Point.sweepId h :)

/-- A point that a comparison takes for submitted has a run. -/
theorem Told.hasRun (h : p.Told t) (hrefused : p.isRefused = false) :
    ∃ runId, p.runId = some runId ∧ HasRun t runId p.ownTaskId p.parameters := by
  unfold isRefused at hrefused
  obtain ⟨hstarts, hempty⟩ := Bool.or_eq_false_iff.mp hrefused
  cases hrunId : p.runId with
  | none => simp [hrunId] at hempty
  | some runId =>
      rcases (h runId hrunId).2 with ⟨message, rfl⟩ | hrun
      · rw [hrunId, Option.getD_some, refusedText, String.toList_append] at hstarts
        exact absurd hstarts (by simp [List.isPrefixOf])
      · exact ⟨runId, rfl, hrun⟩

end Point

/-! ## The database -/

namespace SweepStore

/-- The ordinals of the points of a sweep, in the order of the table. -/
def ordinals (t : SweepStore) (sweepId : String) : List Nat :=
  (t.points.filter fun p ↦ p.sweepId = sweepId).map Point.ordinal

structure Sound (t : SweepStore) : Prop where
  sweepIds : Table.Unique Sweep.sweepId t.sweeps
  pointIds : Table.Unique Point.pointId t.points
  numbered : ∀ sweep ∈ t.sweeps, ∃ n ≤ maxPointsPerSweep, t.ordinals sweep.sweepId = List.range n
  owned : ∀ p ∈ t.points, ∃ sweep ∈ t.sweeps, sweep.sweepId = p.sweepId

/-- Points stay what they were made, a record is never taken back, and no sweep gets a point
after its own. -/
structure Grows (t t' : SweepStore) : Prop where
  sweeps : ∀ sweep ∈ t.sweeps, sweep ∈ t'.sweeps
  points : ∀ p ∈ t.points, ∃ q ∈ t'.points, p.Later q
  ordinals : ∀ sweep ∈ t.sweeps, t'.ordinals sweep.sweepId = t.ordinals sweep.sweepId
  closed : ∀ q ∈ t'.points, ∀ sweep ∈ t.sweeps, sweep.sweepId = q.sweepId →
    ∃ p ∈ t.points, p.Later q

/-- The points of the sweep are the same. -/
def Spares (t t' : SweepStore) (sweepId : String) : Prop :=
  ∀ p : Point, p.sweepId = sweepId → (p ∈ t'.points ↔ p ∈ t.points)

variable {t t' : SweepStore} {p q : Point} {sweep : Sweep} {points : List Point} {sweepId : String}
variable {pointId taskId runId : String} {d : SweepDraws} {a : SweepRequest}

theorem Grows.refl (t : SweepStore) : t.Grows t :=
  ⟨fun _ h ↦ h, fun p h ↦ ⟨p, h, .refl⟩, fun _ _ ↦ rfl, fun q h _ _ _ ↦ ⟨q, h, .refl⟩⟩

/-- A record is not taken back. -/
theorem Grows.recorded (h : t.Grows t') (hp : p ∈ t.points) (hsome : p.runId.isSome = true) :
    p ∈ t'.points := by
  obtain ⟨q, hq, hlater⟩ := h.points p hp
  exact hlater.2 hsome ▸ hq

theorem Spares.refl : t.Spares t sweepId := fun _ _ ↦ .rfl

theorem mem_pointsOf : p ∈ t.pointsOf sweepId ↔ p ∈ t.points ∧ p.sweepId = sweepId := by
  unfold pointsOf
  rw [List.mem_insertionSort, List.mem_filter, decide_eq_true_iff]

theorem getSweep_eq_ok (h : t.getSweep sweepId = .ok (sweep, points)) :
    sweep ∈ t.sweeps ∧ sweep.sweepId = sweepId ∧ points = t.pointsOf sweepId := by
  unfold getSweep at h
  split at h
  · cases h
  · next found hfound =>
      obtain ⟨rfl, rfl⟩ := Prod.mk.inj (Except.ok.inj h)
      exact ⟨Table.mem_of_get? hfound, Table.key_of_get? hfound, rfl⟩

namespace Sound

/-- The table holds the points of a sweep in their order, so sorting them changes nothing. -/
theorem pointsOf (h : t.Sound) (hsweep : sweep ∈ t.sweeps) :
    (t.pointsOf sweep.sweepId).map Point.ordinal = t.ordinals sweep.sweepId := by
  obtain ⟨n, _, hordinals⟩ := h.numbered sweep hsweep
  have hsorted : (t.points.filter fun p ↦ p.sweepId = sweep.sweepId).Pairwise
      fun p q ↦ p.ordinal ≤ q.ordinal := by
    refine List.pairwise_map.mp ?_
    change (t.ordinals sweep.sweepId).Pairwise (· ≤ ·)
    rw [hordinals]
    exact List.pairwise_le_range
  unfold SweepStore.pointsOf
  rw [hsorted.insertionSort_eq]
  rfl

theorem length_pointsOf (h : t.Sound) (hsweep : sweep ∈ t.sweeps) :
    (t.pointsOf sweep.sweepId).length ≤ maxPointsPerSweep := by
  obtain ⟨n, hn, hordinals⟩ := h.numbered sweep hsweep
  have hlength := congrArg List.length ((h.pointsOf hsweep).trans hordinals)
  rw [List.length_map, List.length_range] at hlength
  omega

theorem nodup_pointsOf (h : t.Sound) : (t.pointsOf sweepId).Nodup :=
  (List.perm_insertionSort _ _).nodup_iff.mpr ((List.Nodup.of_map _ h.pointIds).filter _)

theorem eq_of_ordinal (h : t.Sound) (hp : p ∈ t.points) (hq : q ∈ t.points)
    (hsweepId : p.sweepId = q.sweepId) (hordinal : p.ordinal = q.ordinal) : p = q := by
  obtain ⟨sweep, hsweep, howner⟩ := h.owned q hq
  obtain ⟨n, _, hordinals⟩ := h.numbered sweep hsweep
  have hnodup : (t.ordinals sweep.sweepId).Nodup := hordinals ▸ List.nodup_range
  refine List.inj_on_of_nodup_map hnodup ?_ ?_ hordinal
  · exact List.mem_filter.mpr ⟨hp, by simp [hsweepId, howner]⟩
  · exact List.mem_filter.mpr ⟨hq, by simp [howner]⟩

end Sound

/-! ### `create_sweep` -/

/-- The points of a new sweep, from an ordinal on. -/
def newPoints (d : SweepDraws) : Nat → List JsonObject → List Point
  | _, [] => []
  | ordinal, parameters :: rest =>
      { pointId := d.pointId ordinal
        sweepId := d.sweepId
        ordinal := ordinal
        parameters := parameters } :: newPoints d (ordinal + 1) rest

theorem mem_newPoints {n : Nat} {specs : List JsonObject} (h : p ∈ newPoints d n specs) :
    p.sweepId = d.sweepId ∧ p.runId = none := by
  induction specs generalizing n with
  | nil => cases h
  | cons parameters rest ih =>
      rcases List.mem_cons.mp h with rfl | h
      · exact ⟨rfl, rfl⟩
      · exact ih h

theorem ordinals_newPoints {n : Nat} {specs : List JsonObject} :
    (newPoints d n specs).map Point.ordinal = List.range' n specs.length := by
  induction specs generalizing n with
  | nil => rfl
  | cons parameters rest ih => rw [newPoints, List.map_cons, ih, List.length_cons, List.range'_succ]

/-- An insertion that no constraint stops appends the new points and keeps the key. -/
theorem insertPoints_eq_some {n : Nat} {specs : List JsonObject} {points points' : List Point}
    (h : insertPoints d n specs points = some points') :
    points' = points ++ newPoints d n specs ∧
      (Table.Unique Point.pointId points → Table.Unique Point.pointId points') := by
  induction specs generalizing n points with
  | nil =>
      obtain rfl := Option.some.inj h
      exact ⟨(List.append_nil _).symm, id⟩
  | cons parameters rest ih =>
      unfold insertPoints at h
      dsimp only at h
      split at h
      · cases h
      · next hfree =>
          obtain ⟨heq, hunique⟩ := ih h
          refine ⟨by rw [heq, List.append_assoc]; rfl, fun hu ↦ hunique (hu.append ?_)⟩
          intro q hq hkey
          exact hfree (List.any_eq_true.mpr ⟨q, hq, by simp [hkey]⟩)

theorem createSweep_cases (a : SweepRequest) (d : SweepDraws) (t : SweepStore) :
    (∃ e, t.createSweep a d = (.error e, t)) ∨ ∃ sweep points,
      sweep.sweepId = d.sweepId ∧ (∀ other ∈ t.sweeps, other.sweepId ≠ d.sweepId) ∧
      a.points.length ≤ maxPointsPerSweep ∧ insertPoints d 0 a.points t.points = some points ∧
      t.createSweep a d = (.ok d.sweepId, { sweeps := t.sweeps ++ [sweep], points := points }) := by
  unfold createSweep
  split
  · exact .inl ⟨_, rfl⟩
  split
  · exact .inl ⟨_, rfl⟩
  split
  · exact .inl ⟨_, rfl⟩
  split
  · exact .inl ⟨_, rfl⟩
  next hlength =>
  split
  · exact .inl ⟨_, rfl⟩
  next hfresh =>
  split
  · exact .inl ⟨_, rfl⟩
  next points hpoints =>
  refine .inr ⟨_, points, rfl, fun other hother heq ↦ hfresh ?_, by omega, hpoints, rfl⟩
  exact List.any_eq_true.mpr ⟨other, hother, decide_eq_true heq⟩

section Created

variable {specs : List JsonObject}

theorem ordinals_created :
    SweepStore.ordinals ⟨t.sweeps ++ [sweep], t.points ++ newPoints d 0 specs⟩ sweepId =
      t.ordinals sweepId ++ if sweepId = d.sweepId then List.range specs.length else [] := by
  unfold ordinals
  rw [List.filter_append, List.map_append]
  congr 1
  split
  · next heq =>
      rw [List.filter_eq_self.mpr, ordinals_newPoints, List.range_eq_range']
      intro p hp
      exact decide_eq_true ((mem_newPoints hp).1.trans heq.symm)
  · next hne =>
      rw [List.filter_eq_nil_iff.mpr, List.map_nil]
      intro p hp heq
      exact hne ((of_decide_eq_true heq).symm.trans (mem_newPoints hp).1)

theorem Sound.created (h : t.Sound) (hsweepId : sweep.sweepId = d.sweepId)
    (hfresh : ∀ other ∈ t.sweeps, other.sweepId ≠ d.sweepId)
    (hlength : specs.length ≤ maxPointsPerSweep)
    (hpointIds : Table.Unique Point.pointId (t.points ++ newPoints d 0 specs)) :
    SweepStore.Sound ⟨t.sweeps ++ [sweep], t.points ++ newPoints d 0 specs⟩ where
  sweepIds := h.sweepIds.append fun other hother ↦ hsweepId ▸ hfresh other hother
  pointIds := hpointIds
  numbered := by
    intro other hother
    rw [ordinals_created]
    rcases List.mem_append.mp hother with hold | hnew
    · obtain ⟨n, hn, hordinals⟩ := h.numbered other hold
      exact ⟨n, hn, by rw [hordinals, if_neg (hfresh other hold), List.append_nil]⟩
    · obtain rfl := List.mem_singleton.mp hnew
      -- The sweep is new, so no point is of it yet.
      have hnone : t.ordinals other.sweepId = [] := by
        unfold ordinals
        rw [List.filter_eq_nil_iff.mpr, List.map_nil]
        intro p hp heq
        obtain ⟨owner, howner, hid⟩ := h.owned p hp
        exact hfresh owner howner (hid.trans ((of_decide_eq_true heq).trans hsweepId))
      exact ⟨specs.length, hlength, by rw [hnone, if_pos hsweepId, List.nil_append]⟩
  owned := by
    intro p hp
    rcases List.mem_append.mp hp with hold | hnew
    · obtain ⟨owner, howner, hid⟩ := h.owned p hold
      exact ⟨owner, List.mem_append_left _ howner, hid⟩
    · exact ⟨sweep, by simp, hsweepId.trans (mem_newPoints hnew).1.symm⟩

theorem Grows.created (hfresh : ∀ other ∈ t.sweeps, other.sweepId ≠ d.sweepId) :
    t.Grows ⟨t.sweeps ++ [sweep], t.points ++ newPoints d 0 specs⟩ where
  sweeps := fun _ hsweep ↦ List.mem_append_left _ hsweep
  points := fun p hp ↦ ⟨p, List.mem_append_left _ hp, .refl⟩
  ordinals := by
    intro other hother
    rw [ordinals_created, if_neg (hfresh other hother), List.append_nil]
  closed := by
    intro q hq other hother hid
    rcases List.mem_append.mp hq with hold | hnew
    · exact ⟨q, hold, .refl⟩
    · exact absurd (hid.trans (mem_newPoints hnew).1) (hfresh other hother)

theorem Spares.created (hne : sweepId ≠ d.sweepId) :
    t.Spares ⟨t.sweeps ++ [sweep], t.points ++ newPoints d 0 specs⟩ sweepId := by
  intro p hp
  refine List.mem_append.trans (or_iff_left fun hnew ↦ hne ?_)
  exact hp.symm.trans (mem_newPoints hnew).1

end Created

/-! ### `record_submission` -/

theorem mem_recordSubmission (h : q ∈ (t.recordSubmission pointId taskId runId).points) :
    (q ∈ t.points ∧ q.pointId ≠ pointId) ∨ ∃ p ∈ t.points, p.pointId = pointId ∧
      q = { p with taskId := some taskId, runId := some runId } := by
  obtain ⟨p, hp, rfl⟩ := List.mem_map.mp h
  by_cases hid : p.pointId = pointId
  · exact .inr ⟨p, hp, hid, by simp [hid]⟩
  · exact .inl (by simp [hid, hp])

theorem ordinals_recordSubmission :
    (t.recordSubmission pointId taskId runId).ordinals sweepId = t.ordinals sweepId := by
  unfold ordinals recordSubmission Table.update
  dsimp only
  rw [List.filter_map, List.map_map]
  have hsweepId : ∀ p : Point, (if decide (p.pointId = pointId) = true then
      { p with taskId := some taskId, runId := some runId } else p).sweepId = p.sweepId := by
    intro p
    split <;> rfl
  have hordinal : ∀ p : Point, (if decide (p.pointId = pointId) = true then
      { p with taskId := some taskId, runId := some runId } else p).ordinal = p.ordinal := by
    intro p
    split <;> rfl
  simp only [Function.comp_def, hsweepId, hordinal]

theorem mem_recordSubmission_of_ne (hp : p ∈ t.points) (hne : p.pointId ≠ pointId) :
    p ∈ (t.recordSubmission pointId taskId runId).points :=
  List.mem_map.mpr ⟨p, hp, by simp [hne]⟩

theorem recorded_mem (hp : p ∈ t.points) :
    { p with taskId := some taskId, runId := some runId } ∈
      (t.recordSubmission p.pointId taskId runId).points :=
  List.mem_map.mpr ⟨p, hp, by simp⟩

theorem Grows.recordSubmission (hblank : ∀ p ∈ t.points, p.pointId = pointId → p.runId = none) :
    t.Grows (t.recordSubmission pointId taskId runId) where
  sweeps := fun _ hsweep ↦ hsweep
  points := by
    intro p hp
    refine ⟨_, List.mem_map_of_mem hp, ?_⟩
    split
    · next hid =>
        refine ⟨rfl, fun hsome ↦ ?_⟩
        rw [hblank p hp (of_decide_eq_true hid)] at hsome
        cases hsome
    · exact .refl
  ordinals := fun _ _ ↦ ordinals_recordSubmission
  closed := by
    intro q hq _ _ _
    rcases mem_recordSubmission hq with ⟨hold, _⟩ | ⟨p, hp, hid, rfl⟩
    · exact ⟨q, hold, .refl⟩
    · refine ⟨p, hp, rfl, fun hsome ↦ ?_⟩
      rw [hblank p hp hid] at hsome
      cases hsome

/-- A record of a point is none of the other sweeps. -/
theorem Spares.recordSubmission (hp : p ∈ t.points) (hunique : Table.Unique Point.pointId t.points)
    (hne : p.sweepId ≠ sweepId) :
    t.Spares (t.recordSubmission p.pointId taskId runId) sweepId := by
  intro q hq
  constructor
  · intro hmem
    rcases mem_recordSubmission hmem with ⟨hold, _⟩ | ⟨r, hr, hid, rfl⟩
    · exact hold
    · obtain rfl := hunique.eq_of_key hr hp hid
      exact absurd hq hne
  · intro hmem
    refine mem_recordSubmission_of_ne hmem fun hid ↦ hne ?_
    rw [← hunique.eq_of_key hmem hp hid, hq]

theorem Sound.recordSubmission (h : t.Sound) :
    (t.recordSubmission pointId taskId runId).Sound where
  sweepIds := h.sweepIds
  pointIds := h.pointIds.map fun p ↦ by split <;> rfl
  numbered := by
    intro sweep hsweep
    rw [ordinals_recordSubmission]
    exact h.numbered sweep hsweep
  owned := by
    intro q hq
    rcases mem_recordSubmission hq with ⟨hold, _⟩ | ⟨p, hp, _, rfl⟩
    · exact h.owned q hold
    · exact h.owned p hp

end SweepStore

end ChipEvolve.DseLab
