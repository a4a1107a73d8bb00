import ChipEvolve.DseLab.Kept

/-!
# What the laboratory records and reports

Whatever the threads of the laboratory and the kernel do between two of their statements, every
record of a point tells of the point's own task, a sweep submitted to its end has a record for
each of its points, and a comparison reports every point of its sweep once, in order.
-/

namespace ChipEvolve.DseLab

open Gateway Machine

/-! ## What a thread holds -/

/-- The points of the sweep that have no record are these. -/
structure Pending (store : SweepStore) (sweep : Sweep) (rest : List Point) : Prop where
  known : sweep ∈ store.sweeps
  length : rest.length ≤ maxPointsPerSweep
  distinct : rest.Nodup
  points : ∀ p ∈ rest, p ∈ store.points ∧ p.sweepId = sweep.sweepId ∧ p.runId = none
  recorded : ∀ p ∈ store.points, p.sweepId = sweep.sweepId → p.runId.isSome = true ∨ p ∈ rest

/-- A row shows a point of the sweep as it is stored, but for a record made since, within the
limit, and one with a run is of a run of the point's task. -/
structure Row.Sourced (t : Tables) (store : SweepStore) (sweepId : String) (row : Row) : Prop where
  point : ∃ p ∈ store.points, p.sweepId = sweepId ∧ p.ordinal = row.ordinal ∧
    p.parameters = row.parameters ∧ ∀ runId, row.runId = some runId → p.runId = some runId
  limit : row.status ≠ .notCompared
  ran : ∀ status, row.status = .ran status →
    ∃ runId, row.runId = some runId ∧ HasRun t runId (taskId sweepId row.ordinal) row.parameters

/-- Every point of the sweep has its row already or is still to come. -/
structure Comparison.Fair (t : Tables) (store : SweepStore) (c : Comparison) : Prop where
  known : c.sweep ∈ store.sweeps
  ordinals : c.rows.map Row.ordinal ++ c.rest.map Point.ordinal = store.ordinals c.sweep.sweepId
  seen : c.seenRuns ≤ c.rows.length
  rest : ∀ p ∈ c.rest, p.sweepId = c.sweep.sweepId ∧ p.Told t ∧ ∃ q ∈ store.points, p.Later q
  rows : ∀ row ∈ c.rows, row.Sourced t store c.sweep.sweepId

structure Report.Fair (t : Tables) (store : SweepStore) (report : Report) : Prop where
  known : report.sweep ∈ store.sweeps
  ordinals : report.points.map Row.ordinal = store.ordinals report.sweep.sweepId
  rows : ∀ row ∈ report.points, row.Sourced t store report.sweep.sweepId
  summary : report.summary = .of report.points

/-- The kernel has the request of the point. -/
def Point.Called (p : Point) (gate : Gate) (runs : RequestId → Option RunRow) (id : RequestId) :
    Prop :=
  ∃ task : TaskSpec, task.taskId = p.ownTaskId ∧ task.parameters = p.parameters ∧
    Served gate runs id task

namespace Stage

/-- The sweep that a handler is submitting. -/
def sweepId? : Stage → Option String
  | created sweepId _ => some sweepId
  | submitting sweep _ _ => some sweep.sweepId
  | calling sweep _ _ _ _ => some sweep.sweepId
  | recording sweep _ _ _ _ => some sweep.sweepId
  | idle | comparing _ | measuring _ _ _ _ => none

def Wired (gate : Gate) (runs : RequestId → Option RunRow) (store : SweepStore) : Stage → Prop
  | idle => True
  | created sweepId _ => (∃ sweep ∈ store.sweeps, sweep.sweepId = sweepId) ∧
      ∀ p ∈ store.points, p.sweepId = sweepId → p.runId = none
  | submitting sweep _ rest => Pending store sweep rest
  | calling sweep _ p id rest => Pending store sweep (p :: rest) ∧ p.Called gate runs id
  | recording sweep _ p runId rest =>
      Pending store sweep (p :: rest) ∧ p.Reached gate.stores.tables runId
  | comparing c => c.Fair gate.stores.tables store
  | measuring c p _ rest =>
      c.Fair gate.stores.tables store ∧ c.rest = p :: rest ∧ p.isRefused = false

end Stage

section Held

variable {t t' : Tables} {store store' : SweepStore} {sweep : Sweep} {p : Point} {row : Row}
variable {rest : List Point} {c : Comparison} {report : Report} {stage : Stage}
variable {runId sweepId : String} {gate gate' : Gate} {runs runs' : RequestId → Option RunRow}

theorem Pending.grows (h : Pending store sweep rest) (hgrows : store.Grows store')
    (hspares : store.Spares store' sweep.sweepId) : Pending store' sweep rest where
  known := hgrows.sweeps sweep h.known
  length := h.length
  distinct := h.distinct
  points := by
    intro p hp
    obtain ⟨hmem, hsweepId, hnone⟩ := h.points p hp
    exact ⟨(hspares p hsweepId).mpr hmem, hsweepId, hnone⟩
  recorded := fun p hp hsweepId ↦ h.recorded p ((hspares p hsweepId).mp hp) hsweepId

/-- The first of the points is recorded. -/
theorem Pending.record {taskId : String} (h : Pending store sweep (p :: rest))
    (hunique : Table.Unique Point.pointId store.points) :
    Pending (store.recordSubmission p.pointId taskId runId) sweep rest where
  known := h.known
  length := (Nat.le_succ _).trans h.length
  distinct := (List.nodup_cons.mp h.distinct).2
  points := by
    intro r hr
    obtain ⟨hmem, hsweepId, hnone⟩ := h.points r (List.mem_cons_of_mem _ hr)
    refine ⟨SweepStore.mem_recordSubmission_of_ne hmem fun hid ↦ ?_, hsweepId, hnone⟩
    obtain rfl := hunique.eq_of_key hmem (h.points p List.mem_cons_self).1 hid
    exact (List.nodup_cons.mp h.distinct).1 hr
  recorded := by
    intro q hq hsweepId
    rcases SweepStore.mem_recordSubmission hq with ⟨hold, hne⟩ | ⟨_, _, _, rfl⟩
    · refine (h.recorded q hold hsweepId).imp_right fun hmem ↦ ?_
      exact (List.mem_cons.mp hmem).resolve_left fun heq ↦ hne (heq ▸ rfl)
    · exact .inl rfl

theorem Pending.unrecorded (h : Pending store sweep (p :: rest))
    (hunique : Table.Unique Point.pointId store.points) :
    ∀ q ∈ store.points, q.pointId = p.pointId → q.runId = none := by
  intro q hq hid
  obtain ⟨hmem, _, hnone⟩ := h.points p List.mem_cons_self
  rwa [hunique.eq_of_key hq hmem hid]

theorem Row.Sourced.later (h : row.Sourced t store sweepId) (hevolves : Evolves t t')
    (hgrows : store.Grows store') : row.Sourced t' store' sweepId where
  point := by
    obtain ⟨p, hp, hsweepId, hordinal, hparameters, hrunId⟩ := h.point
    obtain ⟨q, hq, hlater⟩ := hgrows.points p hp
    have hparameters' : q.parameters = p.parameters := (congrArg Point.parameters hlater.1 :)
    have hordinal' : q.ordinal = p.ordinal := (congrArg Point.ordinal hlater.1 :)
    exact ⟨q, hq, (Point.sweepId_of_blank hlater.1).trans hsweepId, hordinal'.trans hordinal,
      hparameters'.trans hparameters, fun r hr ↦ hlater.runId_eq (hrunId r hr)⟩
  limit := h.limit
  ran := by
    intro status hstatus
    obtain ⟨runId, hrunId, hrun⟩ := h.ran status hstatus
    exact ⟨runId, hrunId, hrun.evolves hevolves⟩

theorem Comparison.Fair.later (h : c.Fair t store) (hevolves : Evolves t t')
    (hgrows : store.Grows store') : c.Fair t' store' where
  known := hgrows.sweeps c.sweep h.known
  ordinals := h.ordinals.trans (hgrows.ordinals c.sweep h.known).symm
  seen := h.seen
  rest := by
    intro p hp
    obtain ⟨hsweepId, htold, q, hq, hlater⟩ := h.rest p hp
    obtain ⟨r, hr, hlater'⟩ := hgrows.points q hq
    exact ⟨hsweepId, htold.evolves hevolves, r, hr, hlater.trans hlater'⟩
  rows := fun row hrow ↦ (h.rows row hrow).later hevolves hgrows

theorem Report.Fair.later (h : report.Fair t store) (hevolves : Evolves t t')
    (hgrows : store.Grows store') : report.Fair t' store' where
  known := hgrows.sweeps report.sweep h.known
  ordinals := h.ordinals.trans (hgrows.ordinals report.sweep h.known).symm
  rows := fun row hrow ↦ (h.rows row hrow).later hevolves hgrows
  summary := h.summary

theorem Comparison.Fair.length_le (h : c.Fair t store) (hstore : store.Sound) :
    c.rows.length + c.rest.length ≤ maxPointsPerSweep := by
  obtain ⟨n, hn, hnumbered⟩ := hstore.numbered c.sweep h.known
  have hlength := congrArg List.length (h.ordinals.trans hnumbered)
  rw [List.length_append, List.length_map, List.length_map, List.length_range] at hlength
  omega

/-- The bound on the points of a sweep is the bound on the runs of a comparison. -/
theorem Comparison.Fair.seenRuns_lt (h : c.Fair t store) (hstore : store.Sound)
    (hrest : c.rest = p :: rest) : c.seenRuns < maxComparisonRuns := by
  have hlength := h.length_le hstore
  rw [hrest, List.length_cons] at hlength
  have hbound : maxPointsPerSweep = maxComparisonRuns := rfl
  have hseen := h.seen
  omega

theorem Comparison.Fair.add {seenRuns : Nat} (h : c.Fair t store) (hrest : c.rest = p :: rest)
    (hseen : seenRuns ≤ c.seenRuns + 1) (hordinal : row.ordinal = p.ordinal)
    (hrow : row.Sourced t store c.sweep.sweepId) : (c.add rest seenRuns row).Fair t store where
  known := h.known
  ordinals := by
    have hordinals := h.ordinals
    rw [hrest] at hordinals
    rw [Comparison.add, ← hordinals]
    simp [hordinal]
  seen := by
    have hbefore := h.seen
    simp only [Comparison.add, List.length_append, List.length_singleton]
    omega
  rest := fun q hq ↦ h.rest q (hrest ▸ List.mem_cons_of_mem _ hq)
  rows := by
    intro other hother
    rcases List.mem_append.mp hother with hold | hnew
    · exact h.rows other hold
    · obtain rfl := List.mem_singleton.mp hnew
      exact hrow

/-- The next row is of a stored point. -/
theorem Comparison.Fair.point (h : c.Fair t store) (hrest : c.rest = p :: rest) :
    ∃ q ∈ store.points, q.sweepId = c.sweep.sweepId ∧ q.ordinal = p.ordinal ∧
      q.parameters = p.parameters ∧ ∀ runId, p.runId = some runId → q.runId = some runId := by
  obtain ⟨hsweepId, _, q, hq, hlater⟩ := h.rest p (hrest ▸ List.mem_cons_self)
  exact ⟨q, hq, (Point.sweepId_of_blank hlater.1).trans hsweepId,
    (congrArg Point.ordinal hlater.1 :), (congrArg Point.parameters hlater.1 :),
    fun _ hr ↦ hlater.runId_eq hr⟩

/-- A row without a run says nothing about one. -/
theorem Comparison.Fair.row_sourced {status : RowStatus} {reason : Option String}
    (h : c.Fair t store) (hrest : c.rest = p :: rest) (hlimit : status ≠ .notCompared)
    (hran : ∀ s, status ≠ .ran s) : (p.row status reason).Sourced t store c.sweep.sweepId :=
  ⟨h.point hrest, hlimit, fun s hs ↦ absurd hs (hran s)⟩

theorem Comparison.Fair.measuredRow_sourced {run : RunRow} {metrics : List Metric}
    (h : c.Fair t store) (hrest : c.rest = p :: rest) (hrefused : p.isRefused = false) :
    (p.measuredRow run metrics).Sourced t store c.sweep.sweepId := by
  obtain ⟨hsweepId, htold, _⟩ := h.rest p (hrest ▸ List.mem_cons_self)
  obtain ⟨runId, hrunId, hrun⟩ := htold.hasRun hrefused
  refine ⟨h.point hrest, fun hstatus ↦ (by cases hstatus), fun _ _ ↦ ⟨runId, hrunId, ?_⟩⟩
  rw [← hsweepId]
  exact hrun

namespace Stage

/-- What a thread holds stays so, while another does not record a point of its sweep. -/
theorem Wired.later (h : stage.Wired gate runs store) (honward : Onward gate runs gate' runs')
    (hgrows : store.Grows store')
    (hspares : ∀ sweepId, stage.sweepId? = some sweepId → store.Spares store' sweepId) :
    stage.Wired gate' runs' store' := by
  cases stage with
  | idle => trivial
  | created sweepId =>
      obtain ⟨⟨sweep, hsweep, hid⟩, hnone⟩ := h
      exact ⟨⟨sweep, hgrows.sweeps sweep hsweep, hid⟩,
        fun p hp hp' ↦ hnone p ((hspares sweepId rfl p hp').mp hp) hp'⟩
  | submitting => exact Pending.grows h hgrows (hspares _ rfl)
  | calling =>
      obtain ⟨hpending, task, htask, hparameters, hserved⟩ := h
      exact ⟨hpending.grows hgrows (hspares _ rfl), task, htask, hparameters,
        honward.serves _ _ hserved⟩
  | recording => exact ⟨h.1.grows hgrows (hspares _ rfl), h.2.evolves honward.tables⟩
  | comparing => exact Comparison.Fair.later h honward.tables hgrows
  | measuring => exact ⟨h.1.later honward.tables hgrows, h.2⟩

/-- The sweep that a handler is submitting is in the database. -/
theorem Wired.known (h : stage.Wired gate runs store) (hsweepId : stage.sweepId? = some sweepId) :
    ∃ sweep ∈ store.sweeps, sweep.sweepId = sweepId := by
  cases stage with
  | created =>
      obtain rfl := Option.some.inj hsweepId
      exact h.1
  | submitting sweep =>
      exact ⟨sweep, Pending.known h, Option.some.inj hsweepId⟩
  | calling sweep | recording sweep => exact ⟨sweep, h.1.known, Option.some.inj hsweepId⟩
  | idle | comparing | measuring => cases hsweepId

end Stage

end Held

/-! ## The invariant -/

namespace Lab

variable {H : Bytes → String} {derive : String → Bytes → Nat → Bytes} {api : KernelApi}
variable {zip : Bundle.Archive → Bytes} {str : Json → String} {s s' : Lab}

theorem stage_goto_self {thread : ThreadId} {stage : Stage} :
    (s.goto thread stage).stage thread = stage :=
  Function.update_self ..

theorem stage_goto_of_ne {thread other : ThreadId} {stage : Stage} (h : thread ≠ other) :
    (s.goto other stage).stage thread = s.stage thread :=
  Function.update_of_ne h ..

structure Sound (s : Lab) : Prop where
  tables : WellFormed s.gate.stores.tables
  unasked : ∀ id, s.gate.requests id = none → s.runs id = none
  store : s.store.Sound
  told : ∀ p ∈ s.store.points, p.Told s.gate.stores.tables
  wired : ∀ thread, (s.stage thread).Wired s.gate s.runs s.store
  /-- No two handlers submit the same sweep. -/
  alone : ∀ thread other sweepId, (s.stage thread).sweepId? = some sweepId →
    (s.stage other).sweepId? = some sweepId → thread = other
  submitted : ∀ sweepId ∈ s.submitted, (∃ sweep ∈ s.store.sweeps, sweep.sweepId = sweepId) ∧
    ∀ p ∈ s.store.points, p.sweepId = sweepId → p.runId.isSome = true
  reports : ∀ report ∈ s.reports, report.Fair s.gate.stores.tables s.store

namespace Sound

theorem ofStage {thread : ThreadId} {stage : Stage} (h : s.Sound)
    (hstage : s.stage thread = stage) : stage.Wired s.gate s.runs s.store :=
  hstage ▸ h.wired thread

/-- The kernel and the database go on, and one handler changes its stage. -/
theorem moves {gate : Gate} {runs : RequestId → Option RunRow} {store : SweepStore}
    {thread : ThreadId} {stage : Stage} (h : s.Sound) (honward : Onward s.gate s.runs gate runs)
    (hgrows : s.store.Grows store) (hstore : store.Sound)
    (htold : ∀ p ∈ store.points, p.Told gate.stores.tables)
    (hspares : ∀ other ≠ thread, ∀ sweepId, (s.stage other).sweepId? = some sweepId →
      s.store.Spares store sweepId)
    (hstage : stage.Wired gate runs store)
    (halone : ∀ other ≠ thread, ∀ sweepId, stage.sweepId? = some sweepId →
      (s.stage other).sweepId? ≠ some sweepId) :
    Lab.Sound { s.goto thread stage with gate := gate, runs := runs, store := store } where
  tables := honward.tables.wellFormed h.tables
  unasked := by
    intro id hid
    obtain ⟨hid', hruns⟩ := honward.unasked id hid
    exact hruns.trans (h.unasked id hid')
  store := hstore
  told := htold
  wired := by
    intro other
    change ((s.goto thread stage).stage other).Wired gate runs store
    by_cases heq : other = thread
    · rw [heq, stage_goto_self]
      exact hstage
    · rw [stage_goto_of_ne heq]
      exact (h.wired other).later honward hgrows (hspares other heq)
  alone := by
    intro one two sweepId hone htwo
    change ((s.goto thread stage).stage one).sweepId? = some sweepId at hone
    change ((s.goto thread stage).stage two).sweepId? = some sweepId at htwo
    by_cases hone' : one = thread <;> by_cases htwo' : two = thread
    · exact hone'.trans htwo'.symm
    · rw [hone', stage_goto_self] at hone
      rw [stage_goto_of_ne htwo'] at htwo
      exact absurd htwo (halone two htwo' sweepId hone)
    · rw [htwo', stage_goto_self] at htwo
      rw [stage_goto_of_ne hone'] at hone
      exact absurd hone (halone one hone' sweepId htwo)
    · rw [stage_goto_of_ne hone'] at hone
      rw [stage_goto_of_ne htwo'] at htwo
      exact h.alone one two sweepId hone htwo
  submitted := by
    intro sweepId hsweepId
    obtain ⟨⟨sweep, hsweep, hid⟩, hrecorded⟩ := h.submitted sweepId hsweepId
    refine ⟨⟨sweep, hgrows.sweeps sweep hsweep, hid⟩, fun q hq hown ↦ ?_⟩
    obtain ⟨p, hp, hlater⟩ := hgrows.closed q hq sweep hsweep (hid.trans hown.symm)
    have hsome := hrecorded p hp ((Point.sweepId_of_blank hlater.1).symm.trans hown)
    rwa [hlater.2 hsome]
  reports := fun report hreport ↦ (h.reports report hreport).later honward.tables hgrows

theorem withGate {gate : Gate} {runs : RequestId → Option RunRow} (h : s.Sound)
    (honward : Onward s.gate s.runs gate runs) :
    Lab.Sound { s with gate := gate, runs := runs } where
  tables := honward.tables.wellFormed h.tables
  unasked := by
    intro id hid
    obtain ⟨hid', hruns⟩ := honward.unasked id hid
    exact hruns.trans (h.unasked id hid')
  store := h.store
  told := fun p hp ↦ (h.told p hp).evolves honward.tables
  wired := fun thread ↦ (h.wired thread).later honward (.refl _) fun _ _ ↦ .refl
  alone := h.alone
  submitted := h.submitted
  reports := fun report hreport ↦ (h.reports report hreport).later honward.tables (.refl _)

theorem goto {thread : ThreadId} {stage : Stage} (h : s.Sound)
    (hstage : stage.Wired s.gate s.runs s.store)
    (hsame : stage.sweepId? = none ∨ stage.sweepId? = (s.stage thread).sweepId?) :
    (s.goto thread stage).Sound := by
  refine h.moves .refl (.refl _) h.store h.told (fun _ _ _ _ ↦ .refl) hstage ?_
  intro other hne sweepId hid hother
  rcases hsame with hnone | hsame
  · rw [hnone] at hid
    cases hid
  · exact hne (h.alone other thread sweepId hother (hsame.symm.trans hid))

theorem create {thread : ThreadId} {a : SweepRequest} {d : SweepDraws} (h : s.Sound)
    (hstep : s.step H derive api zip str (.create thread a d) = some s') : s'.Sound := by
  simp only [Lab.step] at hstep
  split at hstep
  case h_2 => cases hstep
  case h_1 =>
    rcases SweepStore.createSweep_cases a d s.store with
      ⟨e, herror⟩ | ⟨sweep, points, hsweepId, hfresh, hlength, hpoints, hok⟩
    · rw [herror] at hstep
      obtain rfl := Option.some.inj hstep
      exact h
    obtain ⟨rfl, hunique⟩ := SweepStore.insertPoints_eq_some hpoints
    rw [hok] at hstep
    obtain rfl := Option.some.inj hstep
    -- The handlers hold sweeps that are in the database, and so not this one.
    have hother : ∀ other, (s.stage other).sweepId? ≠ some d.sweepId := by
      intro other hid
      obtain ⟨owner, howner, hid'⟩ := (h.wired other).known hid
      exact hfresh owner howner hid'
    refine h.moves .refl (.created hfresh)
      (h.store.created hsweepId hfresh hlength (hunique h.store.pointIds)) ?_
      (fun other _ sweepId hid ↦ .created fun heq ↦ hother other (heq ▸ hid)) ?_
      (fun other _ sweepId hid ↦ (Option.some.inj hid) ▸ hother other)
    · intro p hp
      rcases List.mem_append.mp hp with hold | hnew
      · exact h.told p hold
      · intro runId hrunId
        rw [(SweepStore.mem_newPoints hnew).2] at hrunId
        cases hrunId
    · refine ⟨⟨sweep, List.mem_append_right _ (List.mem_singleton_self _), hsweepId⟩, ?_⟩
      intro p hp hown
      rcases List.mem_append.mp hp with hold | hnew
      · obtain ⟨owner, howner, hid⟩ := h.store.owned p hold
        exact absurd (hid.trans hown) (hfresh owner howner)
      · exact (SweepStore.mem_newPoints hnew).2

/-- A thread that has read its sweep holds every point of it. -/
theorem load {thread : ThreadId} (h : s.Sound)
    (hstep : s.step H derive api zip str (.load thread) = some s') : s'.Sound := by
  simp only [Lab.step] at hstep
  split at hstep
  case h_2 => cases hstep
  case h_1 hstage =>
    obtain ⟨_, hnone⟩ := h.ofStage hstage
    split at hstep
    · obtain rfl := Option.some.inj hstep
      exact h.goto trivial (.inl rfl)
    · next sweep points hget =>
        obtain rfl := Option.some.inj hstep
        obtain ⟨hmem, rfl, rfl⟩ := SweepStore.getSweep_eq_ok hget
        refine h.goto ⟨hmem, h.store.length_pointsOf hmem, h.store.nodup_pointsOf, ?_, ?_⟩
          (.inr (by rw [hstage]; rfl))
        · intro p hp
          obtain ⟨hp, hown⟩ := SweepStore.mem_pointsOf.mp hp
          exact ⟨hp, hown, hnone p hp hown⟩
        · exact fun p hp hown ↦ .inr (SweepStore.mem_pointsOf.mpr ⟨hp, hown⟩)

/-- The request names the task of the point. -/
theorem submit {thread : ThreadId} {id : RequestId} {r : RunRequest} (h : s.Sound)
    (hstep : s.step H derive api zip str (.submit thread id r) = some s') : s'.Sound := by
  simp only [Lab.step] at hstep
  split at hstep
  case h_2 => cases hstep
  case h_1 sweep a p rest hstage =>
    obtain ⟨gate, hgate, rfl⟩ := Option.map_eq_some_iff.mp hstep
    have hpending : Pending s.store sweep (p :: rest) := h.ofStage hstage
    have hfree : s.gate.requests id = none := by
      by_contra hbusy
      simp [Gate.step, hbusy] at hgate
    have honward : Onward s.gate s.runs gate s.runs := Onward.step h.tables hgate
    have hserved : Served gate s.runs id (taskOf str sweep a p) :=
      .arrives (h.unasked id hfree) hgate
    have htask : (taskOf str sweep a p).taskId = p.ownTaskId := by
      change taskId sweep.sweepId p.ordinal = taskId p.sweepId p.ordinal
      rw [(hpending.points p List.mem_cons_self).2.1]
    have hwith : Lab.Sound { s with gate := gate, runs := s.runs } := h.withGate honward
    refine hwith.goto ⟨hpending, _, htask, rfl, hserved⟩ (.inr ?_)
    change some sweep.sweepId = (s.stage thread).sweepId?
    rw [hstage]
    rfl

theorem hear {thread : ThreadId} {message : String} (h : s.Sound)
    (hstep : s.step H derive api zip str (.hear thread message) = some s') : s'.Sound := by
  simp only [Lab.step] at hstep
  split at hstep
  case h_2 => cases hstep
  case h_1 sweep a p id rest hstage =>
    split at hstep
    case h_2 => cases hstep
    case h_1 status hanswered =>
      obtain rfl := Option.some.inj hstep
      obtain ⟨hpending, task, htask, hparameters, progress, hprogress, hserves⟩ :=
        h.ofStage hstage
      obtain rfl := Option.some.inj (hanswered.symm.trans hprogress)
      refine h.goto ⟨hpending, ?_⟩ (.inr (by rw [hstage]; rfl))
      unfold recorded
      split
      · next run hrun =>
          split
          · refine .inr ?_
            rw [← htask, ← hparameters]
            exact hserves run hrun
          · exact .inl ⟨_, rfl⟩
      · exact .inl ⟨_, rfl⟩

theorem unreachable {thread : ThreadId} {text : String} (h : s.Sound)
    (hstep : s.step H derive api zip str (.unreachable thread text) = some s') : s'.Sound := by
  simp only [Lab.step] at hstep
  split at hstep
  case h_3 => cases hstep
  case h_1 sweep a p rest hstage =>
    obtain rfl := Option.some.inj hstep
    exact h.goto ⟨h.ofStage hstage, .inl ⟨text, rfl⟩⟩ (.inr (by rw [hstage]; rfl))
  case h_2 sweep a p id rest hstage =>
    obtain rfl := Option.some.inj hstep
    exact h.goto ⟨(h.ofStage hstage).1, .inl ⟨text, rfl⟩⟩ (.inr (by rw [hstage]; rfl))

theorem record {thread : ThreadId} (h : s.Sound)
    (hstep : s.step H derive api zip str (.record thread) = some s') : s'.Sound := by
  simp only [Lab.step] at hstep
  split at hstep
  case h_2 => cases hstep
  case h_1 sweep a p runId rest hstage =>
    obtain rfl := Option.some.inj hstep
    obtain ⟨hpending, hreached⟩ := h.ofStage hstage
    obtain ⟨hp, hown, _⟩ := hpending.points p List.mem_cons_self
    have hheld : (s.stage thread).sweepId? = some sweep.sweepId := by
      rw [hstage]
      rfl
    refine h.moves .refl (.recordSubmission (hpending.unrecorded h.store.pointIds))
      h.store.recordSubmission ?_ (fun other hne sweepId hid ↦ ?_)
      (hpending.record h.store.pointIds) (fun other hne sweepId hid hother ↦ ?_)
    · intro q hq
      rcases SweepStore.mem_recordSubmission hq with ⟨hold, _⟩ | ⟨r, hr, hid, rfl⟩
      · exact h.told q hold
      · -- The row written over is the point that the thread holds.
        obtain rfl := h.store.pointIds.eq_of_key hr hp hid
        intro runId' hrunId
        obtain rfl := Option.some.inj hrunId
        refine ⟨congrArg some ?_, hreached⟩
        change taskId sweep.sweepId r.ordinal = taskId r.sweepId r.ordinal
        rw [hown]
    · refine .recordSubmission hp h.store.pointIds fun heq ↦ hne ?_
      exact h.alone other thread sweepId hid (by rw [hheld, ← hown, heq])
    · obtain rfl := Option.some.inj hid
      exact hne (h.alone other thread _ hother hheld)

theorem compare {thread : ThreadId} {sweepId : String} (h : s.Sound)
    (hstep : s.step H derive api zip str (.compare thread sweepId) = some s') : s'.Sound := by
  simp only [Lab.step] at hstep
  split at hstep
  case h_2 => cases hstep
  case h_1 =>
    split at hstep
    · obtain rfl := Option.some.inj hstep
      exact h
    · next sweep points hget =>
        obtain rfl := Option.some.inj hstep
        obtain ⟨hmem, rfl, rfl⟩ := SweepStore.getSweep_eq_ok hget
        refine h.goto ⟨hmem, h.store.pointsOf hmem, Nat.zero_le _, ?_, List.forall_mem_nil _⟩
          (.inl rfl)
        intro p hp
        obtain ⟨hp, hown⟩ := SweepStore.mem_pointsOf.mp hp
        exact ⟨hown, h.told p hp, p, hp, .refl⟩

theorem look {thread : ThreadId} {failure : Option String} (h : s.Sound)
    (hstep : s.step H derive api zip str (.look thread failure) = some s') : s'.Sound := by
  simp only [Lab.step] at hstep
  split at hstep
  case h_2 => cases hstep
  case h_1 c hstage =>
    have hfair : c.Fair s.gate.stores.tables s.store := h.ofStage hstage
    split at hstep
    · cases hstep
    next p rest hrest =>
    unfold lookAt at hstep
    split at hstep
    · obtain rfl := Option.some.inj hstep
      exact h.goto (hfair.add hrest (Nat.le_succ _) rfl
        (hfair.row_sourced hrest (by decide) fun _ ↦ by simp)) (.inl rfl)
    next hrefused =>
    rw [if_neg (Nat.not_le.mpr (hfair.seenRuns_lt h.store hrest))] at hstep
    split at hstep
    · obtain rfl := Option.some.inj hstep
      exact h.goto (hfair.add hrest le_rfl rfl
        (hfair.row_sourced hrest (by decide) fun _ ↦ by simp)) (.inl rfl)
    · obtain rfl := Option.some.inj hstep
      exact h.goto ⟨hfair, hrest, Bool.eq_false_of_not_eq_true hrefused⟩ (.inl rfl)
    · cases hstep

theorem measure {thread : ThreadId} {answer : Except String (List Metric)} (h : s.Sound)
    (hstep : s.step H derive api zip str (.measure thread answer) = some s') : s'.Sound := by
  simp only [Lab.step] at hstep
  split at hstep
  case h_2 => cases hstep
  case h_1 c p run rest hstage =>
    obtain ⟨hfair, hrest, hrefused⟩ := h.ofStage hstage
    split at hstep
    · obtain rfl := Option.some.inj hstep
      exact h.goto (hfair.add hrest le_rfl rfl
        (hfair.row_sourced hrest (by decide) fun _ ↦ by simp)) (.inl rfl)
    · obtain rfl := Option.some.inj hstep
      exact h.goto (hfair.add hrest le_rfl rfl (hfair.measuredRow_sourced hrest hrefused))
        (.inl rfl)

theorem answer {thread : ThreadId} (h : s.Sound)
    (hstep : s.step H derive api zip str (.answer thread) = some s') : s'.Sound := by
  simp only [Lab.step] at hstep
  split at hstep
  case h_3 => cases hstep
  case h_1 sweep a hstage =>
    obtain rfl := Option.some.inj hstep
    have hidle : (s.goto thread .idle).Sound := h.goto trivial (.inl rfl)
    have hpending : Pending s.store sweep [] := h.ofStage hstage
    refine { hidle with submitted := fun sweepId hsweepId ↦ ?_ }
    rcases List.mem_cons.mp hsweepId with rfl | hold
    · exact ⟨⟨sweep, hpending.known, rfl⟩,
        fun p hp hown ↦ (hpending.recorded p hp hown).resolve_right List.not_mem_nil⟩
    · exact h.submitted sweepId hold
  case h_2 c hstage =>
    have hfair : c.Fair s.gate.stores.tables s.store := h.ofStage hstage
    split at hstep
    · next hdone =>
        obtain rfl := Option.some.inj hstep
        have hidle : (s.goto thread .idle).Sound := h.goto trivial (.inl rfl)
        refine { hidle with reports := fun report hreport ↦ ?_ }
        rcases List.mem_cons.mp hreport with rfl | hold
        · have hordinals := hfair.ordinals
          rw [List.isEmpty_iff.mp hdone, List.map_nil, List.append_nil] at hordinals
          exact ⟨hfair.known, hordinals, hfair.rows, rfl⟩
        · exact h.reports report hold
    · cases hstep

theorem step {event : LabEvent} (h : s.Sound)
    (hstep : s.step H derive api zip str event = some s') : s'.Sound := by
  cases event with
  | create => exact h.create hstep
  | load => exact h.load hstep
  | submit => exact h.submit hstep
  | hear => exact h.hear hstep
  | record => exact h.record hstep
  | compare => exact h.compare hstep
  | look => exact h.look hstep
  | measure => exact h.measure hstep
  | answer => exact h.answer hstep
  | unreachable => exact h.unreachable hstep
  | dies thread =>
      obtain rfl := Option.some.inj hstep
      exact h.goto trivial (.inl rfl)
  | kernel e =>
      obtain ⟨gate, hgate, rfl⟩ := Option.map_eq_some_iff.mp hstep
      exact h.withGate (.step h.tables hgate)

/-- The laboratory starts on an empty database, beside whatever the kernel holds. -/
theorem start {gate : Gate} (hwell : WellFormed gate.stores.tables) :
    Lab.Sound { gate := gate } where
  tables := hwell
  unasked := fun _ _ ↦ rfl
  store := ⟨List.nodup_nil, List.nodup_nil, List.forall_mem_nil _, List.forall_mem_nil _⟩
  told := List.forall_mem_nil _
  wired := fun _ ↦ trivial
  alone := fun _ _ _ h ↦ by cases h
  submitted := List.forall_mem_nil _
  reports := List.forall_mem_nil _

theorem of_visits {gate : Gate} {events : List LabEvent} (hwell : WellFormed gate.stores.tables)
    (hvisits : Visits (Lab.step H derive api zip str) { gate := gate } events s) : s.Sound :=
  hvisits.reachable.invariant (start hwell) fun _ _ _ h _ hstep ↦ h.step hstep

end Sound

end Lab

/-! ## What holds in every run -/

section Runs

variable {H : Bytes → String} {derive : String → Bytes → Nat → Bytes} {api : KernelApi}
variable {zip : Bundle.Archive → Bytes} {str : Json → String} {gate : Gate} {s : Lab}
variable {events : List LabEvent}

/-- Every record tells of the point's own task, and no two points have one run. -/
theorem records_own_task (hwell : WellFormed gate.stores.tables)
    (hvisits : Visits (Lab.step H derive api zip str) { gate := gate } events s) :
    (∀ p ∈ s.store.points, p.Told s.gate.stores.tables) ∧
      ∀ p ∈ s.store.points, ∀ q ∈ s.store.points, p.isRefused = false → q.isRefused = false →
        p.runId = q.runId → p = q := by
  have hsound := Lab.Sound.of_visits hwell hvisits
  refine ⟨hsound.told, fun p hp q hq hmine hother hsame ↦ ?_⟩
  obtain ⟨runId, hrunId, run, hrun, htask, _⟩ := (hsound.told p hp).hasRun hmine
  obtain ⟨runId', hrunId', run', hrun', htask', _⟩ := (hsound.told q hq).hasRun hother
  obtain rfl : runId = runId' := Option.some.inj (hrunId.symm.trans (hsame.trans hrunId'))
  obtain rfl : run = run' := Option.some.inj (hrun.symm.trans hrun')
  obtain ⟨hsweepId, hordinal⟩ := taskId_inj (htask.symm.trans htask')
  exact hsound.store.eq_of_ordinal hp hq hsweepId hordinal

/-- A comparison reports every point of its sweep once, in order and within the limit, and a row
with a status of the kernel is of a run of the point's own task. -/
theorem compared_in_order (hwell : WellFormed gate.stores.tables)
    (hvisits : Visits (Lab.step H derive api zip str) { gate := gate } events s) :
    ∀ report ∈ s.reports, report.Fair s.gate.stores.tables s.store ∧
      ∃ n ≤ maxComparisonRuns, report.points.map Row.ordinal = List.range n ∧
        report.summary.points = n := by
  intro report hreport
  have hsound := Lab.Sound.of_visits hwell hvisits
  have hfair := hsound.reports report hreport
  obtain ⟨n, hn, hnumbered⟩ := hsound.store.numbered report.sweep hfair.known
  have hordinals := hfair.ordinals.trans hnumbered
  have hlength := congrArg List.length hordinals
  rw [List.length_map, List.length_range] at hlength
  exact ⟨hfair, n, hn, hordinals, by rw [hfair.summary]; exact hlength⟩

end Runs

/-! ## A sweep of three points -/

namespace Sample

def digest : String := String.ofList (List.replicate 64 'a')

def gate : Gate where
  accounts :=
    { users := [Gateway.Sample.member]
      sessions := [{ tokenHash := digest, sessionId := "session", userId := "u1", createdAt := 0
                     expiresAt := 1, lastSeenAt := 0 }] }

def request (runId : RunId) : RunRequest where
  authorization := some "Bearer token"
  body := .withoutTask
  host := ChipEvolve.Sample.host
  newId := fun _ ↦ "input"
  runId := runId
  stageRunId := "stage of " ++ runId
  now := 0

/-- A request for a run, which the kernel handles to its end. -/
def called (id : RequestId) (runId : RunId) : List LabEvent :=
  .submit 0 id (request runId) ::
    (List.replicate 6 (.kernel (.advances id ⟨0, ""⟩)) ++ [.hear 0 "", .record 0])

/-- Two points get a run each. -/
def opened : List LabEvent :=
  [.create 0 { name := "trial", pluginId := "plugin", inputs := [], points := [[], [], []] }
      { sweepId := "sweep-1", pointId := fun ordinal ↦ "point-" ++ toString ordinal, now := 0 },
    .load 0] ++ called 1 "run" ++ called 2 "other"

/-- The kernel is out of reach for the third, and the points are compared. -/
def closed : List LabEvent :=
  [.unreachable 0 "no answer", .record 0, .answer 0,
    .compare 1 "sweep-1", .look 1 none, .measure 1 (.ok []), .look 1 (some "no answer"),
    .look 1 none, .answer 1]

def trial : List LabEvent := opened ++ closed

def labStep : Lab → LabEvent → Option Lab :=
  Lab.step (fun _ ↦ digest) Gateway.Sample.derive Gateway.Sample.api (fun _ ↦ []) fun _ ↦ ""

def lab : Lab := { gate := gate }

theorem gate_blank : WellFormed gate.stores.tables := WellFormed.empty

/-- Both runs are of their own point's task, and of no other point. -/
theorem records_own_task_trial :
    ∃ s p q, Visits labStep lab trial s ∧ p ∈ s.store.points ∧ q ∈ s.store.points ∧
      HasRun s.gate.stores.tables "run" p.ownTaskId p.parameters ∧
      HasRun s.gate.stores.tables "other" q.ownTaskId q.parameters ∧
      ∀ r ∈ s.store.points, r.isRefused = false →
        (r.runId = some "run" → r = p) ∧ (r.runId = some "other" → r = q) := by
  obtain ⟨s, hvisits, hran⟩ : ∃ s, Visits labStep lab trial s ∧
      (s.store.points.any (fun p ↦ p.runId = some "run" && !p.isRefused) &&
        s.store.points.any fun q ↦ q.runId = some "other" && !q.isRefused) = true :=
    Visits.of_any (by decide +kernel)
  obtain ⟨hone, htwo⟩ := Bool.and_eq_true_iff.mp hran
  obtain ⟨p, hp, hp'⟩ := List.any_eq_true.mp hone
  obtain ⟨q, hq, hq'⟩ := List.any_eq_true.mp htwo
  simp only [Bool.and_eq_true, decide_eq_true_eq, Bool.not_eq_true'] at hp' hq'
  obtain ⟨htold, hsingle⟩ := records_own_task gate_blank hvisits
  obtain ⟨_, hpsame, hprun⟩ := (htold p hp).hasRun hp'.2
  obtain ⟨_, hqsame, hqrun⟩ := (htold q hq).hasRun hq'.2
  obtain rfl := Option.some.inj (hp'.1.symm.trans hpsame)
  obtain rfl := Option.some.inj (hq'.1.symm.trans hqsame)
  exact ⟨s, p, q, hvisits, hp, hq, hprun, hqrun, fun r hr hr' ↦
    ⟨fun hrun ↦ hsingle r hr p hp hr' hp'.2 (hrun.trans hpsame.symm),
      fun hrun ↦ hsingle r hr q hq hr' hq'.2 (hrun.trans hqsame.symm)⟩⟩

/-- The report has every point, the first with its run. -/
theorem compared_in_order_trial :
    ∃ s report, Visits labStep lab trial s ∧ report ∈ s.reports ∧
      report.points.map Row.status = [.ran .queued, .unavailable, .refused] ∧
      report.Fair s.gate.stores.tables s.store := by
  obtain ⟨s, hvisits, hran⟩ : ∃ s, Visits labStep lab trial s ∧
      (s.reports.any fun report ↦
        report.points.map Row.status = [.ran .queued, .unavailable, .refused]) = true :=
    Visits.of_any (by decide +kernel)
  obtain ⟨report, hreport, hstatus⟩ := List.any_eq_true.mp hran
  exact ⟨s, report, hvisits, hreport, of_decide_eq_true hstatus,
    (compared_in_order gate_blank hvisits report hreport).1⟩

end Sample

end ChipEvolve.DseLab
