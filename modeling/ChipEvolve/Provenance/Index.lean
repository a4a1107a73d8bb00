import ChipEvolve.Paging
import ChipEvolve.Runtime.Bundle

/-!
# Read models of runs

`EvidenceIndex` (`index.py`), `ArtifactInventory` (`artifact_inventory.py`), `LogQuery`
(`log_query.py`), `ResourceQuery` (`resource_query.py`) and
`WorkflowRuntime.read_artifact_excerpt` (`runtime.py`).  Every view of a run is made of
the rows of that run and of the bytes they point to; the reservations of the machine enter
as two totals.
-/

namespace ChipEvolve.Provenance

open ChipEvolve.Bundle (AttemptView RunView StageView)

/-! ## The records -/

/-- The stores of the runtime and the workspaces, with `runtime_metrics`. -/
structure Records extends Bundle.World where
  metrics : List MetricRow := []

/-- What `describe_run` tells of an attempt. -/
structure AttemptDetail extends AttemptView where
  metrics : List MetricRow

structure StageDetail where
  stage : StageRow
  attempts : List AttemptDetail

structure RunDetail where
  run : RunRow
  stages : List StageDetail

def RunDetail.attempts (d : RunDetail) : List (StageRow × AttemptDetail) :=
  d.stages.flatMap fun s ↦ s.attempts.map fun a ↦ (s.stage, a)

namespace Records

variable (x : Records)

def tables : Tables := x.toWorld.tables

/-- `resource_totals` -/
def totals : Int × Int := (x.tables.reservedCpu, x.tables.reservedMemory)

def listMetrics (attemptId : AttemptId) : List MetricRow :=
  x.metrics.filter fun m ↦ m.attemptId = attemptId

def attemptDetail (a : AttemptView) : AttemptDetail :=
  { a with metrics := x.listMetrics a.attempt.attemptId }

def stageDetail (s : StageView) : StageDetail :=
  { stage := s.stage, attempts := s.attempts.map x.attemptDetail }

def runDetail (runId : RunId) : Except RuntimeError RunDetail :=
  (x.describeRun runId).map fun v ↦ { run := v.run, stages := v.stages.map x.stageDetail }

end Records

/-! ## Lists of runs -/

structure RunSummary where
  runId : RunId
  taskId : String
  status : RuntimeStatus
  projectId : String
  designId : String
  designRevisionId : Option String
  experimentId : Option String
  inputManifestSha256 : Option String
  pluginId : Option String
  createdAt : Timestamp
  startedAt : Option Timestamp
  endedAt : Option Timestamp
  terminalReason : Option String
  attempts : Nat
  artifacts : Nat
  metrics : Nat

def defaultRunLimit : Int := 50

def maxRunLimit : Nat := 500

/-- What a caller of `runs` asks for, and the runs it may see. -/
structure RunFilter where
  projectId : Option String := none
  designId : Option String := none
  pluginId : Option String := none
  status : Option String := none
  ownerRunIds : Option (List RunId) := none

/-- `if wanted and value != wanted: continue` -/
def keeps (wanted value : Option String) : Bool := wanted.getD "" = "" || value = wanted

/-- `RuntimeStatus(status) if status else None` -/
def RunFilter.wantedStatus (f : RunFilter) : Except RuntimeError (Option RuntimeStatus) :=
  match f.status.filter (· ≠ "") with
  | none => .ok none
  | some status =>
      match [RuntimeStatus.queued, .preparing, .running, .retryWait, .cancelRequested, .succeeded,
          .failed, .cancelled, .timedOut, .lost].find? (·.value = status) with
      | some wanted => .ok (some wanted)
      | none => .error (.value (quoted status ++ " is not a valid RuntimeStatus"))

/-- Whether the caller may see the run. -/
def RunFilter.sees (f : RunFilter) (run : RunRow) : Bool := f.ownerRunIds.all (run.runId ∈ ·)

/-- The other tests of the loop of `runs`. -/
def RunFilter.selects (f : RunFilter) (wanted : Option RuntimeStatus) (run : RunRow) : Bool :=
  keeps f.projectId run.taskSpec.projectId && keeps f.designId run.taskSpec.designId &&
    keeps f.pluginId run.taskSpec.pluginId && wanted.all (run.status = ·)

def RunFilter.admits (f : RunFilter) (wanted : Option RuntimeStatus) (run : RunRow) : Bool :=
  f.sees run && f.selects wanted run

namespace Records

variable (x : Records)

def attemptsOfRun (runId : RunId) : List AttemptRow :=
  (x.tables.listStages runId).flatMap fun s ↦ x.tables.listAttempts s.stageRunId

/-- `_summary` -/
def summary (run : RunRow) : RunSummary :=
  let attempts := x.attemptsOfRun run.runId
  { runId := run.runId
    taskId := run.taskId
    status := run.status
    projectId := run.taskSpec.projectId
    designId := run.taskSpec.designId
    designRevisionId := run.taskSpec.designRevisionId
    experimentId := run.taskSpec.experimentId
    inputManifestSha256 := run.taskSpec.inputManifestSha256
    pluginId := run.taskSpec.pluginId
    createdAt := run.createdAt
    startedAt := run.startedAt
    endedAt := run.endedAt
    terminalReason := run.terminalReason
    attempts := attempts.length
    artifacts := (attempts.map fun a ↦ (x.listArtifacts a.attemptId).length).sum
    metrics := (attempts.map fun a ↦ (x.listMetrics a.attemptId).length).sum }

/-- `ORDER BY created_at DESC` -/
def newestFirst : List RunRow :=
  x.tables.runs.insertionSort fun r r' ↦ r'.createdAt ≤ r.createdAt

def runs (f : RunFilter) (limit offset : Int) : Except RuntimeError (List RunSummary) := do
  raiseIf (¬(1 ≤ limit ∧ limit ≤ maxRunLimit))
    (.value ("limit must be between 1 and " ++ toString maxRunLimit))
  raiseIf (offset < 0) (.value "offset must not be negative")
  let wanted ← f.wantedStatus
  return (Paging.page (f.admits wanted) offset.toNat limit.toNat 0 x.newestFirst).map x.summary

def countRuns (f : RunFilter) : Except RuntimeError Nat := do
  let wanted ← f.wantedStatus
  return Paging.countPages (f.admits wanted) maxRunLimit (by decide) x.newestFirst 0

end Records

/-! ## Metrics, artifacts and events -/

/-- A metric and the artifact it came from. -/
structure MetricProvenance where
  metric : MetricRow
  runId : RunId
  attemptId : AttemptId
  artifact : Option ArtifactRow

/-- An artifact in the inventory of a run. -/
structure InventoryEntry where
  artifact : ArtifactRow
  runId : RunId
  stageKey : String
  attemptId : AttemptId

/-- The texts an inventory is filtered by. -/
structure InventoryFilter where
  category : Option String := none
  format : Option String := none
  stage : Option String := none

/-- `wanted is None or metadata.get(key) == wanted` -/
def carries (metadata : JsonObject) (key : String) : Option String → Bool
  | none => true
  | some wanted =>
      match metadata.get? key with
      | some (.str value) => value = wanted
      | _ => false

def InventoryFilter.admits (f : InventoryFilter) (metadata : JsonObject) : Bool :=
  carries metadata "category" f.category && carries metadata "format" f.format &&
    carries metadata "stage" f.stage

/-- An event of a timeline. -/
structure TimelineEntry where
  eventType : String
  occurredAt : Timestamp
  producer : String
  payload : JsonObject
  stageRunId : Option StageRunId
  attemptId : Option AttemptId

namespace RunDetail

/-- `artifact_index.get(metric.source_artifact_id or "")` -/
def provenance (runId : RunId) (a : AttemptDetail) (m : MetricRow) : MetricProvenance :=
  { metric := m
    runId := runId
    attemptId := a.attempt.attemptId
    artifact := a.artifacts.find? fun row ↦ row.artifactId = m.sourceArtifactId.getD "" }

def metricProvenance (d : RunDetail) (runId : RunId) (completeOnly : Bool) :
    List MetricProvenance :=
  (d.attempts.flatMap fun (_, a) ↦ a.metrics.map (provenance runId a)).filter fun m ↦
    !completeOnly || m.artifact.any (·.artifactId ≠ "")

/-- `for_run` -/
def inventory (d : RunDetail) (runId : RunId) (f : InventoryFilter) : List InventoryEntry :=
  d.attempts.flatMap fun (stage, a) ↦
    (a.artifacts.filter fun row ↦ f.admits row.metadata).map fun row ↦
      { artifact := row, runId := runId, stageKey := stage.stageKey
        attemptId := a.attempt.attemptId }

/-- The artifacts of a run that carry an id. -/
def artifactsNamed (d : RunDetail) (artifactId : String) : List ArtifactRow :=
  (d.attempts.flatMap fun (_, a) ↦ a.artifacts).filter fun row ↦ row.artifactId = artifactId

end RunDetail

def timelineEntry (e : EventRow) : TimelineEntry :=
  { eventType := e.eventType
    occurredAt := e.occurredAt
    producer := e.producer
    payload := e.payload
    stageRunId := e.stageRunId
    attemptId := e.attemptId }

namespace Records

variable (x : Records)

def metricsView (runId : RunId) (completeOnly : Bool) :
    Except RuntimeError (List MetricProvenance) :=
  (x.runDetail runId).map fun d ↦ d.metricProvenance runId completeOnly

def inventory (runId : RunId) (f : InventoryFilter) : Except RuntimeError (List InventoryEntry) :=
  (x.runDetail runId).map fun d ↦ d.inventory runId f

def timeline (runId : RunId) : List TimelineEntry := (x.listEvents runId).map timelineEntry

end Records

/-! ## The graph -/

inductive GraphNode where
  | run (id label : String) (status : RuntimeStatus)
  | stage (id label : String) (status : RuntimeStatus) (pluginId pluginVersion : String)
  | attempt (id label : String) (status : AttemptStatus) (workerId : WorkerId)
  | artifact (id label artifactKind sha256 : String) (sizeBytes : Nat)
  | metric (id label : String) (value : Json) (unit : Option String) (sourced : Bool)

structure GraphEdge where
  source : String
  target : String
  kind : String

structure ArtifactGraph where
  nodes : List GraphNode := []
  edges : List GraphEdge := []

namespace ArtifactGraph

def append (g g' : ArtifactGraph) : ArtifactGraph :=
  { nodes := g.nodes ++ g'.nodes, edges := g.edges ++ g'.edges }

def flatten (gs : List ArtifactGraph) : ArtifactGraph := gs.foldl append {}

end ArtifactGraph

namespace RunDetail

def metricId (attemptId : AttemptId) (m : MetricRow) : String :=
  "metric:" ++ attemptId ++ ":" ++ m.name

def artifactGraph (attemptNode : String) (a : AttemptDetail) (row : ArtifactRow) : ArtifactGraph :=
  let artifactNode := "artifact:" ++ row.artifactId
  { nodes := [.artifact artifactNode row.storeKey row.kind row.sha256 row.sizeBytes]
    edges := ⟨attemptNode, artifactNode, "produced"⟩ ::
      (a.metrics.filter fun m ↦ m.sourceArtifactId = some row.artifactId).map fun m ↦
        ⟨artifactNode, metricId a.attempt.attemptId m, "sources"⟩ }

def metricGraph (attemptNode : String) (a : AttemptDetail) (m : MetricRow) : ArtifactGraph :=
  { nodes := [.metric (metricId a.attempt.attemptId m) m.name m.value m.unit
      m.sourceArtifactId.isSome]
    edges := [⟨attemptNode, metricId a.attempt.attemptId m, "measured"⟩] }

def attemptGraph (stageNode : String) (a : AttemptDetail) : ArtifactGraph :=
  let attemptNode := "attempt:" ++ a.attempt.attemptId
  .flatten ([{ nodes := [.attempt attemptNode ("attempt " ++ toString a.attempt.attemptNumber)
                 a.attempt.status a.attempt.workerId]
               edges := [⟨stageNode, attemptNode, "has_attempt"⟩] }] ++
    a.artifacts.map (artifactGraph attemptNode a) ++ a.metrics.map (metricGraph attemptNode a))

def stageGraph (runNode : String) (s : StageDetail) : ArtifactGraph :=
  let stageNode := "stage:" ++ s.stage.stageRunId
  .flatten ({ nodes := [.stage stageNode s.stage.stageKey s.stage.status s.stage.pluginId
                s.stage.pluginVersion]
              edges := [⟨runNode, stageNode, "has_stage"⟩] } ::
    s.attempts.map (attemptGraph stageNode))

def graph (runId : RunId) (d : RunDetail) : ArtifactGraph :=
  .flatten ({ nodes := [.run ("run:" ++ runId) d.run.taskId d.run.status] } ::
    d.stages.map (stageGraph ("run:" ++ runId)))

end RunDetail

/-- `artifact_graph` -/
def Records.artifactGraph (x : Records) (runIds : List RunId) :
    Except RuntimeError ArtifactGraph := do
  let graphs ← runIds.mapM fun runId ↦ (x.runDetail runId).map (RunDetail.graph runId)
  return .flatten graphs

/-! ## Logs and artifact bytes -/

/-- `LOG_FILENAME` -/
def logFilename : String := "adapter.log"

/-- The view of the logs of a run; `content` is decoded for the reader. -/
structure LogView where
  run : RunId
  offset : Int
  maxBytes : Int
  content : Bytes

/-- `max_bytes` of an excerpt at most. -/
def maxExcerptBytes : Nat := 65536

/-- An excerpt; `chunk` is sent as a text and in base64, with its length. -/
structure Excerpt where
  artifactId : String
  sha256 : String
  offset : Int
  chunk : Bytes
  sizeBytes : Nat
  truncated : Bool

/-- `seek` and `read` -/
def chunkOf (bytes : Bytes) (offset maxBytes : Int) : Bytes :=
  (bytes.drop offset.toNat).take maxBytes.toNat

structure LogQuery where
  store : Records
  maxBytes : Int := 1048576

def LogQuery.run (q : LogQuery) (runId : RunId) (offset : Int) (maxBytes : Option Int) :
    Except RuntimeError LogView := do
  raiseIf (offset < 0) (.value "offset must be non-negative")
  let limit := maxBytes.getD q.maxBytes
  raiseIf (¬(0 < limit ∧ limit ≤ q.maxBytes))
    (.value ("max_bytes must be between 1 and " ++ toString q.maxBytes))
  let detail ← q.store.runDetail runId
  let chunks := detail.attempts.filterMap fun (_, a) ↦
    (q.store.opened a.attempt.attemptId logFilename).map fun bytes ↦ chunkOf bytes offset limit
  return { run := runId, offset := offset, maxBytes := limit, content := chunks.flatten }

namespace Records

variable (x : Records)

/-- What is at `artifact_path`, if there is a file. -/
def artifactBytes (artifactId : String) : Except RuntimeError (Option Bytes) :=
  match x.depot.artifact? artifactId with
  | none => storeError ("no such artifact: " ++ quoted artifactId)
  | some row => x.depot.artifactFile row

variable (H : Bytes → String) (noFile : String → String)

/-- The bytes at `artifact_path`; `noFile` is the text of the `OSError` where there is no file. -/
def readArtifact (artifactId : String) : Except RuntimeError Bytes := do
  match ← x.artifactBytes artifactId with
  | some bytes => .ok bytes
  | none => .error (.os (noFile artifactId))

def excerptOf (row : ArtifactRow) (offset maxBytes : Int) (verifyHash : Bool) :
    Except RuntimeError Excerpt := do
  let bytes ← x.readArtifact noFile row.artifactId
  raiseIf (verifyHash ∧ H bytes ≠ row.sha256)
    (.store (.runtimeStore ("registered artifact " ++ quoted row.artifactId ++
      " changed after registration")))
  let chunk := chunkOf bytes offset maxBytes
  return { artifactId := row.artifactId, sha256 := row.sha256, offset := offset, chunk := chunk
           sizeBytes := row.sizeBytes, truncated := offset + chunk.length < row.sizeBytes }

def readArtifactExcerpt (runId : RunId) (artifactId : String) (offset maxBytes : Int)
    (verifyHash : Bool) : Except RuntimeError Excerpt := do
  raiseIf (offset < 0 ∨ ¬(0 < maxBytes ∧ maxBytes ≤ maxExcerptBytes))
    (.value "artifact excerpt bounds are invalid")
  let view ← x.runDetail runId
  match view.artifactsNamed artifactId with
  | [row] => x.excerptOf H noFile row offset maxBytes verifyHash
  | _ =>
      storeError ("artifact " ++ quoted artifactId ++ " is not registered in run " ++ quoted runId)

end Records

/-! ## What a run waits for -/

open Sql

/-- What `ResourceQuery.run` answers when the machine has reserved `totals`. -/
def Records.resources (x : Records) (cfg : RuntimeConfig) (totals : Int × Int) (runId : RunId) :
    Except RuntimeError ResourceView := do
  let d ← x.runDetail runId
  let budgets ← cfg.explainedBudgets.mapError .store
  let waiting ← (cfg.waiting totals d.run).mapError .store
  return cfg.view d.run (d.attempts.map fun (_, a) ↦ a.attempt) totals budgets waiting

theorem Records.runDetail_eq_ok {x : Records} {runId : RunId} {d : RunDetail} :
    x.runDetail runId = .ok d ↔ ∃ run, x.tables.run? runId = some run ∧
      d = { run := run, stages := (x.tables.listStages runId).map fun s ↦
              x.stageDetail (x.describeStage s) } := by
  have htables : x.tables = x.toWorld.tables := rfl
  unfold runDetail Bundle.World.describeRun
  rw [htables]
  cases x.toWorld.tables.run? runId with
  | none => simp [storeError, Except.map]
  | some run =>
      simp only [Except.map, List.map_map, Except.ok.injEq, Option.some.injEq, exists_eq_left']
      exact eq_comm

theorem exec_waitingFor (cfg : RuntimeConfig) {x : Records} {runId : RunId} {d : RunDetail}
    (h : x.runDetail runId = .ok d) :
    (exec (waitingFor cfg runId) x.tables).1 = cfg.waiting x.totals d.run := by
  obtain ⟨run, hrun, rfl⟩ := Records.runDetail_eq_ok.mp h
  unfold RuntimeConfig.waiting
  cases hwaiting : run.status.waiting with
  | true => exact waitingFor_exec cfg hrun hwaiting
  | false => simp [exec, waitingFor, getRun, bind_apply, hrun, hwaiting]

theorem exec_resourceView (cfg : RuntimeConfig) {x : Records} {runId : RunId} {d : RunDetail}
    (h : x.runDetail runId = .ok d) :
    (exec (resourceView cfg runId) x.tables).1.mapError RuntimeError.store =
      x.resources cfg x.totals runId := by
  have hwaiting := exec_waitingFor cfg h
  obtain ⟨run, hrun, hd⟩ := Records.runDetail_eq_ok.mp h
  have hattempts : (d.attempts.map fun p ↦ p.2.attempt) =
      (x.tables.listStages runId).flatMap fun s ↦ x.tables.listAttempts s.stageRunId := by
    rw [hd, RunDetail.attempts, List.flatMap_map, List.map_flatMap]
    refine List.flatMap_congr fun s _ ↦ ?_
    simp only [Records.stageDetail, Bundle.World.describeStage, List.map_map]
    exact List.map_id _
  have hrow : d.run = run := by rw [hd]
  have htotals : x.totals = (x.tables.reservedCpu, x.tables.reservedMemory) := rfl
  unfold Records.resources
  rw [h]
  simp only [bind, Except.bind]
  rw [← hwaiting]
  simp only [exec, resourceView, getRun, bind_apply, query, hrun, pure_apply, reading]
  cases cfg.explainedBudgets with
  | error e => rfl
  | ok budgets =>
      rcases hreturns : waitingFor cfg runId { db := x.tables } with ⟨_ | waiting, _⟩
      · simp only [Except.mapError, hreturns]
      · simp only [pure, Except.pure, Except.mapError, hattempts, hrow, htotals, hreturns]

/-! ## Records that agree on a run -/

/-- The same rows for an attempt, and the same bytes behind them. -/
structure SameAttempt (x x' : Records) (attemptId : AttemptId) : Prop where
  inputs : x.inputs attemptId = x'.inputs attemptId
  artifacts : x.listArtifacts attemptId = x'.listArtifacts attemptId
  metrics : x.listMetrics attemptId = x'.listMetrics attemptId
  bytes : ∀ row ∈ x.listArtifacts attemptId,
    x.artifactBytes row.artifactId = x'.artifactBytes row.artifactId

/-- The same rows for a run. -/
structure SameRun (x x' : Records) (runId : RunId) : Prop where
  run : x.tables.run? runId = x'.tables.run? runId
  stages : (x.tables.stages.filter fun s ↦ s.runId = runId) =
    x'.tables.stages.filter fun s ↦ s.runId = runId
  attempts : ∀ s ∈ x.tables.stages, s.runId = runId →
    x.tables.attemptsOf s.stageRunId = x'.tables.attemptsOf s.stageRunId
  evidence : ∀ s ∈ x.tables.stages, s.runId = runId →
    ∀ a ∈ x.tables.attemptsOf s.stageRunId, SameAttempt x x' a.attemptId
  events : (x.tables.events.filter fun e ↦ e.runId = runId) =
    x'.tables.events.filter fun e ↦ e.runId = runId

/-- Opening `adapter.log` in the workspaces of a run's attempts gives the same bytes, where it is
a link those of the file it leads to. -/
def SameLogs (x x' : Records) (runId : RunId) : Prop :=
  ∀ s ∈ x.tables.stages, s.runId = runId → ∀ a ∈ x.tables.attemptsOf s.stageRunId,
    x.opened a.attemptId logFilename = x'.opened a.attemptId logFilename

section Agreement

variable {x x' : Records} {runId : RunId} {d : RunDetail}

theorem mem_attempts_of_runDetail (h : x.runDetail runId = .ok d) {p : StageRow × AttemptDetail}
    (hp : p ∈ d.attempts) : ∃ s ∈ x.tables.stages, s.runId = runId ∧
      p.2.attempt ∈ x.tables.attemptsOf s.stageRunId ∧
      p.2.artifacts = x.listArtifacts p.2.attempt.attemptId := by
  obtain ⟨run, _, rfl⟩ := Records.runDetail_eq_ok.mp h
  obtain ⟨s, hs, hp⟩ := List.mem_flatMap.mp hp
  obtain ⟨stage, hstage, rfl⟩ := List.mem_map.mp hs
  obtain ⟨a, ha, rfl⟩ := List.mem_map.mp hp
  obtain ⟨v, hv, rfl⟩ := List.mem_map.mp ha
  obtain ⟨row, hrow, rfl⟩ := List.mem_map.mp hv
  obtain ⟨hmem, hrun⟩ := Bundle.mem_listStages.mp hstage
  exact ⟨stage, hmem, hrun, (List.mem_insertionSort _).mp hrow, rfl⟩

namespace SameRun

variable (h : SameRun x x' runId)

include h

theorem listStages : x.tables.listStages runId = x'.tables.listStages runId := by
  unfold Tables.listStages
  rw [h.stages]

theorem listAttempts {s : StageRow} (hs : s ∈ x.tables.listStages runId) :
    x.tables.listAttempts s.stageRunId = x'.tables.listAttempts s.stageRunId := by
  obtain ⟨hmem, hrun⟩ := Bundle.mem_listStages.mp hs
  unfold Tables.listAttempts
  rw [h.attempts s hmem hrun]

theorem sameAttempt {s : StageRow} (hs : s ∈ x.tables.listStages runId) {a : AttemptRow}
    (ha : a ∈ x.tables.listAttempts s.stageRunId) : SameAttempt x x' a.attemptId := by
  obtain ⟨hmem, hrun⟩ := Bundle.mem_listStages.mp hs
  exact h.evidence s hmem hrun a ((List.mem_insertionSort _).mp ha)

theorem stageDetail {s : StageRow} (hs : s ∈ x.tables.listStages runId) :
    x.stageDetail (x.describeStage s) = x'.stageDetail (x'.describeStage s) := by
  have hrows : x.toWorld.tables.listAttempts s.stageRunId =
      x'.toWorld.tables.listAttempts s.stageRunId := h.listAttempts hs
  unfold Records.stageDetail Bundle.World.describeStage
  rw [← hrows, List.map_map, List.map_map]
  refine congrArg (StageDetail.mk s) (List.map_congr_left fun a ha ↦ ?_)
  have hsame := h.sameAttempt hs ha
  simp only [Function.comp, Records.attemptDetail, Bundle.World.describeAttempt,
    Bundle.World.listInputs, hsame.inputs, hsame.artifacts, hsame.metrics]

theorem runDetail : x.runDetail runId = x'.runDetail runId := by
  have hrun : x.toWorld.tables.run? runId = x'.toWorld.tables.run? runId := h.run
  have hstages : x.toWorld.tables.listStages runId = x'.toWorld.tables.listStages runId :=
    h.listStages
  unfold Records.runDetail Bundle.World.describeRun
  rw [← hrun, ← hstages]
  cases x.toWorld.tables.run? runId with
  | none => rfl
  | some run =>
      simp only [Except.map, List.map_map]
      exact congrArg (fun stages ↦ Except.ok (RunDetail.mk run stages))
        (List.map_congr_left fun s hs ↦ h.stageDetail hs)

theorem summary {run : RunRow} (hrun : run.runId = runId) : x.summary run = x'.summary run := by
  have hattempts : x.attemptsOfRun runId = x'.attemptsOfRun runId := by
    unfold Records.attemptsOfRun
    rw [← h.listStages]
    exact List.flatMap_congr fun s hs ↦ h.listAttempts hs
  have hsame : ∀ a ∈ x.attemptsOfRun runId, SameAttempt x x' a.attemptId := by
    intro a ha
    obtain ⟨s, hs, ha⟩ := List.mem_flatMap.mp ha
    exact h.sameAttempt hs ha
  unfold Records.summary
  rw [hrun, ← hattempts]
  dsimp only
  rw [List.map_congr_left fun a ha ↦ congrArg List.length (hsame a ha).artifacts,
    List.map_congr_left fun a ha ↦ congrArg List.length (hsame a ha).metrics]

theorem timeline : x.timeline runId = x'.timeline runId := by
  have hevents : x.listEvents runId = x'.listEvents runId :=
    congrArg (List.insertionSort fun e e' : EventRow ↦ e.occurredAt ≤ e'.occurredAt) h.events
  unfold Records.timeline
  rw [hevents]

theorem attempt (hd : x.runDetail runId = .ok d) {p : StageRow × AttemptDetail}
    (hp : p ∈ d.attempts) : SameAttempt x x' p.2.attempt.attemptId := by
  obtain ⟨s, hs, hrun, ha, _⟩ := mem_attempts_of_runDetail hd hp
  exact h.evidence s hs hrun _ ha

theorem logs (hlogs : SameLogs x x' runId) (offset : Int) (maxBytes : Option Int) :
    LogQuery.run { store := x } runId offset maxBytes =
      LogQuery.run { store := x' } runId offset maxBytes := by
  unfold LogQuery.run
  dsimp only
  rw [← h.runDetail]
  cases hd : x.runDetail runId with
  | error e => rfl
  | ok d =>
      have hlogs : ∀ p ∈ d.attempts, x.opened p.2.attempt.attemptId logFilename =
          x'.opened p.2.attempt.attemptId logFilename := by
        intro p hp
        obtain ⟨s, hs, hrun, ha, _⟩ := mem_attempts_of_runDetail hd hp
        exact hlogs s hs hrun _ ha
      simp only [bind, Except.bind]
      rw [List.filterMap_congr fun p hp ↦ by rw [hlogs p hp]]

/-- An artifact found in the view of the run has the same bytes. -/
theorem readArtifact (noFile : String → String) (hd : x.runDetail runId = .ok d)
    {artifactId : String} {row : ArtifactRow} (hrow : row ∈ d.artifactsNamed artifactId) :
    x.readArtifact noFile row.artifactId = x'.readArtifact noFile row.artifactId := by
  obtain ⟨p, hp, hmem⟩ := List.mem_flatMap.mp (List.mem_of_mem_filter hrow)
  obtain ⟨_, _, _, _, hartifacts⟩ := mem_attempts_of_runDetail hd hp
  have hmem : row ∈ x.listArtifacts p.2.attempt.attemptId := hartifacts ▸ hmem
  unfold Records.readArtifact
  rw [(h.attempt hd hp).bytes row hmem]

theorem readArtifactExcerpt (H : Bytes → String) (noFile : String → String) (artifactId : String)
    (offset maxBytes : Int) (verifyHash : Bool) :
    x.readArtifactExcerpt H noFile runId artifactId offset maxBytes verifyHash =
      x'.readArtifactExcerpt H noFile runId artifactId offset maxBytes verifyHash := by
  unfold Records.readArtifactExcerpt
  rw [← h.runDetail]
  cases hd : x.runDetail runId with
  | error e => rfl
  | ok d =>
      simp only [bind, Except.bind]
      cases hrows : d.artifactsNamed artifactId with
      | nil => rfl
      | cons row rows =>
          cases rows with
          | nil =>
              have hrow : row ∈ d.artifactsNamed artifactId := hrows ▸ List.mem_singleton_self row
              simp only [Records.excerptOf, h.readArtifact noFile hd hrow]
          | cons => rfl

end SameRun

theorem artifactGraph_same {runIds : List RunId} (h : ∀ runId ∈ runIds, SameRun x x' runId) :
    x.artifactGraph runIds = x'.artifactGraph runIds := by
  unfold Records.artifactGraph
  rw [Except.mapM_congr fun runId hmem ↦ by rw [(h runId hmem).runDetail]]

/-! ## Lists of the runs one sees -/

section Lists

variable {f : RunFilter} {ids : Option (List RunId)}

theorem filter_newestFirst (p : RunRow → Bool) : x.newestFirst.filter p =
    (x.tables.runs.filter p).insertionSort fun r r' ↦ r'.createdAt ≤ r.createdAt := by
  have htrans : IsTrans RunRow fun r r' ↦ r'.createdAt ≤ r.createdAt :=
    ⟨fun _ _ _ h h' ↦ h'.trans h⟩
  have htotal : Std.Total fun r r' : RunRow ↦ r'.createdAt ≤ r.createdAt :=
    ⟨fun r r' ↦ Int.le_total r'.createdAt r.createdAt⟩
  exact Paging.filter_insertionSort

/-- What is listed comes from the rows one sees. -/
theorem filter_admits (hrows : x.tables.runs.filter f.sees =
      x'.tables.runs.filter ({ f with ownerRunIds := ids } : RunFilter).sees)
    (wanted : Option RuntimeStatus) : x.newestFirst.filter (f.admits wanted) =
      x'.newestFirst.filter (({ f with ownerRunIds := ids } : RunFilter).admits wanted) := by
  have hsplit : ∀ (y : Records) (g : RunFilter), y.newestFirst.filter (g.admits wanted) =
      (y.newestFirst.filter g.sees).filter (g.selects wanted) := by
    intro y g
    rw [List.filter_filter]
    exact List.filter_congr fun r _ ↦ Bool.and_comm _ _
  rw [hsplit, hsplit, filter_newestFirst, filter_newestFirst, hrows]
  rfl

theorem mem_runs {limit offset : Int} {summaries : List RunSummary}
    (h : x.runs f limit offset = .ok summaries) {summary : RunSummary}
    (hsummary : summary ∈ summaries) :
    ∃ run ∈ x.tables.runs, f.sees run = true ∧ summary.runId = run.runId := by
  unfold Records.runs raiseIf at h
  obtain ⟨_, hlimit, h⟩ := Except.bind_eq_ok.mp h
  obtain ⟨_, _, h⟩ := Except.bind_eq_ok.mp h
  obtain ⟨wanted, _, h⟩ := Except.bind_eq_ok.mp h
  obtain rfl := Except.ok.inj h
  obtain ⟨run, hrun, rfl⟩ := List.mem_map.mp hsummary
  have hpositive : 0 < limit.toNat := by
    split at hlimit
    · cases hlimit
    · omega
  rw [Paging.page_eq hpositive (Nat.zero_le _)] at hrun
  obtain ⟨hmem, hadmits⟩ := List.mem_filter.mp (List.mem_of_mem_drop (List.mem_of_mem_take hrun))
  exact ⟨run, (List.mem_insertionSort _).mp hmem, (Bool.and_eq_true_iff.mp hadmits).1, rfl⟩

theorem runs_same (hrows : x.tables.runs.filter f.sees =
      x'.tables.runs.filter ({ f with ownerRunIds := ids } : RunFilter).sees)
    (hsame : ∀ run ∈ x.tables.runs, f.sees run = true → SameRun x x' run.runId)
    (limit offset : Int) :
    x.runs f limit offset = x'.runs { f with ownerRunIds := ids } limit offset := by
  unfold Records.runs raiseIf
  by_cases hlimit : 1 ≤ limit ∧ limit ≤ maxRunLimit
  swap
  · rw [if_pos hlimit]
    rfl
  have hwanted : ({ f with ownerRunIds := ids } : RunFilter).wantedStatus = f.wantedStatus := rfl
  rw [if_neg (not_not.mpr hlimit), hwanted]
  by_cases hoffset : offset < 0
  · rw [if_pos hoffset]
    rfl
  cases f.wantedStatus with
  | error e => rfl
  | ok wanted =>
      have hpositive : 0 < limit.toNat := by omega
      rw [if_neg hoffset]
      simp only [bind, Except.bind, pure, Except.pure]
      rw [Paging.page_eq hpositive (Nat.zero_le _), Paging.page_eq hpositive (Nat.zero_le _),
        ← filter_admits hrows wanted]
      refine congrArg Except.ok (List.map_congr_left fun run hrun ↦ ?_)
      have hlisted := List.mem_of_mem_drop (List.mem_of_mem_take hrun)
      obtain ⟨hmem, hadmits⟩ := List.mem_filter.mp hlisted
      exact (hsame run ((List.mem_insertionSort _).mp hmem)
        (Bool.and_eq_true_iff.mp hadmits).1).summary rfl

/-- The counter counts the rows one sees. -/
theorem countRuns_same (hrows : x.tables.runs.filter f.sees =
      x'.tables.runs.filter ({ f with ownerRunIds := ids } : RunFilter).sees) :
    x.countRuns f = x'.countRuns { f with ownerRunIds := ids } := by
  have hwanted : ({ f with ownerRunIds := ids } : RunFilter).wantedStatus = f.wantedStatus := rfl
  unfold Records.countRuns
  rw [hwanted]
  cases f.wantedStatus with
  | error e => rfl
  | ok wanted =>
      simp only [bind, Except.bind, pure, Except.pure, Paging.countPages_eq]
      rw [List.countP_eq_length_filter, List.countP_eq_length_filter, filter_admits hrows wanted]

end Lists

end Agreement

end ChipEvolve.Provenance
