import ChipEvolve.Provenance.Graph
import ChipEvolve.Provenance.Logs

/-!
# Well formed graphs

Of the nodes in an artifact graph (`index.py`) a reader expects ids of their own, and of a
metric that it is marked as sourced where the graph and `metrics` both know its source.  That
rests on what was registered: a name may come twice in one attempt, a source need not be there,
and nothing keeps a caller from asking for a run twice.
-/

namespace ChipEvolve.Provenance

namespace Records

variable {x : Records} {runId : RunId} {d : RunDetail}

/-! ## Several runs -/

/-- The graph of a run, of which there is none where the run is not known. -/
def graphOf (x : Records) (runId : RunId) : ArtifactGraph :=
  match x.runDetail runId with
  | .ok d => d.graph runId
  | .error _ => {}

variable {runIds : List RunId} {g : ArtifactGraph}

theorem graphOf_eq (hd : x.runDetail runId = .ok d) : x.graphOf runId = d.graph runId := by
  rw [graphOf, hd]

theorem artifactGraph_eq_ok : x.artifactGraph runIds = .ok g ↔
    (∀ runId ∈ runIds, ∃ d, x.runDetail runId = .ok d) ∧
      g = .flatten (runIds.map x.graphOf) := by
  have hone : ∀ {runId : RunId} {graph : ArtifactGraph},
      (x.runDetail runId).map (RunDetail.graph runId) = .ok graph ↔
        (∃ d, x.runDetail runId = .ok d) ∧ x.graphOf runId = graph := by
    intro runId graph
    unfold graphOf
    cases x.runDetail runId <;> simp [Except.map]
  constructor
  · intro h
    obtain ⟨graphs, hgraphs, hg⟩ := Except.bind_eq_ok.mp h
    obtain rfl := Except.ok.inj hg
    have hall := (Except.forall₂_of_mapM hgraphs).imp fun _ _ ↦ hone.mp
    refine ⟨?_, congrArg ArtifactGraph.flatten ?_⟩
    · intro runId hrun
      obtain ⟨graph, _, hgraph⟩ := (Pointwise.mem hall).1 runId hrun
      exact hgraph.1
    · have hmap := List.forall₂_map_left_iff.mpr (hall.imp fun _ _ ↦ And.right)
      rw [List.forall₂_eq_eq_eq] at hmap
      exact hmap.symm
  · rintro ⟨hall, rfl⟩
    have hgraphs : (runIds.mapM fun runId ↦ (x.runDetail runId).map (RunDetail.graph runId)) =
        .ok (runIds.map x.graphOf) := by
      refine Except.mapM_of_forall₂ (List.forall₂_map_right_iff.mpr (List.forall₂_same.mpr ?_))
      exact fun runId hrun ↦ hone.mpr ⟨hall runId hrun, rfl⟩
    unfold artifactGraph
    rw [hgraphs]
    rfl

/-! ## Ids -/

section Ids

variable {H : Bytes → String}

theorem mem_attempts {a : AttemptRow} (ha : a ∈ x.attemptsOfRun runId) :
    a ∈ x.tables.attempts := by
  obtain ⟨_, _, ha⟩ := List.mem_flatMap.mp ha
  exact (Bundle.mem_listAttempts (w := x.toWorld).mp ha).1

theorem metricId_inj (hx : x.Catalogued H) {a a' : AttemptRow} (ha : a ∈ x.tables.attempts)
    (ha' : a' ∈ x.tables.attempts) {m m' : MetricRow}
    (h : RunDetail.metricId a.attemptId m = RunDetail.metricId a'.attemptId m') :
    a = a' ∧ m.name = m'.name := by
  have hlist := congrArg String.toList h
  have hcolon : ":".toList = [':'] := by decide
  simp only [RunDetail.metricId, String.toList_append, List.append_assoc, hcolon,
    List.singleton_append, List.append_cancel_left_eq] at hlist
  obtain ⟨hattempt, hname⟩ :=
    Table.append_cons_inj (hx.named.plain a ha) (hx.named.plain a' ha') hlist
  exact ⟨hx.named.attempts.eq_of_key ha ha' (String.toList_inj.mp hattempt),
    String.toList_inj.mp hname⟩

theorem unique_stages (hx : x.Catalogued H) (hruns : runIds.Nodup) :
    Table.Unique StageRow.stageRunId (runIds.flatMap x.tables.listStages) := by
  have hlisted : ∀ runId ∈ runIds, (x.tables.listStages runId).Perm
      (x.tables.stages.filter fun s ↦ s.runId = runId) :=
    fun runId _ ↦ List.perm_insertionSort _ _
  exact hx.named.stages.flatMap hruns hlisted

theorem unique_attempts (hx : x.Catalogued H) (hruns : runIds.Nodup) :
    Table.Unique AttemptRow.attemptId (runIds.flatMap x.attemptsOfRun) := by
  have hflat : runIds.flatMap x.attemptsOfRun =
      ((runIds.flatMap x.tables.listStages).map StageRow.stageRunId).flatMap
        x.tables.listAttempts := by
    rw [List.flatMap_map, List.flatMap_assoc]
    rfl
  rw [hflat]
  have hlisted : ∀ stageRunId ∈ (runIds.flatMap x.tables.listStages).map StageRow.stageRunId,
      (x.tables.listAttempts stageRunId).Perm
        (x.tables.attempts.filter fun a ↦ a.stageRunId = stageRunId) :=
    fun stageRunId _ ↦ List.perm_insertionSort _ _
  exact hx.named.attempts.flatMap (unique_stages hx hruns) hlisted

theorem unique_artifacts (hx : x.Catalogued H) (hruns : runIds.Nodup) :
    Table.Unique ArtifactRow.artifactId
      ((runIds.flatMap x.attemptsOfRun).flatMap fun a ↦ x.listArtifacts a.attemptId) := by
  rw [← List.flatMap_map AttemptRow.attemptId x.listArtifacts]
  have hlisted : ∀ attemptId ∈ (runIds.flatMap x.attemptsOfRun).map AttemptRow.attemptId,
      (x.listArtifacts attemptId).Perm
        (x.depot.artifacts.filter fun r ↦ r.attemptId = attemptId) :=
    fun _ _ ↦ List.Perm.refl _
  exact hx.shelf.unique.flatMap (unique_attempts hx hruns) hlisted

end Ids

/-! ## Well formed graphs -/

/-- The metrics of an attempt have names of their own, and the artifacts they name are among
those of the attempt. -/
structure Sourced (x : Records) (attemptId : AttemptId) : Prop where
  names : ((x.listMetrics attemptId).map MetricRow.name).Nodup
  sources : ∀ m ∈ x.listMetrics attemptId, ∀ source, m.sourceArtifactId = some source →
    ∃ row ∈ x.listArtifacts attemptId, row.artifactId = source

/-- What a reader of the graph of `runIds` relies on. -/
structure WellFormed (x : Records) (runIds : List RunId) (g : ArtifactGraph) : Prop where
  unique : (g.nodes.map GraphNode.id).Nodup
  closed : ∀ e ∈ g.edges, e.source ∈ g.nodes.map GraphNode.id ∧ e.target ∈ g.nodes.map GraphNode.id
  measured : (g.nodes.filter fun n ↦ n.kind = .metric).Perm
    (runIds.eraseDups.flatMap x.metricNodes)
  sourced : ∀ runId ∈ runIds, ∀ entries, x.metricsView runId false = .ok entries →
    ∀ entry ∈ entries, ∀ label value unit sourced,
      .metric (RunDetail.metricId entry.attemptId entry.metric) label value unit sourced ∈ g.nodes →
        (sourced = true ↔ entry.artifact.isSome) ∧
          (sourced = true ↔ ∃ e ∈ g.edges, e.kind = "sources" ∧
            e.target = RunDetail.metricId entry.attemptId entry.metric)

section WellFormed

variable {H : Bytes → String}

theorem labels_id (hd : x.runDetail runId = .ok d) {n : GraphNode}
    (hn : n ∈ (d.graph runId).nodes) : n.kind.Labels n.id := by
  rw [nodes_graph hd] at hn
  rcases List.mem_cons.mp hn with rfl | hn
  · exact ⟨runId, rfl⟩
  obtain ⟨s, _, hn⟩ := List.mem_flatMap.mp hn
  rcases List.mem_cons.mp hn with rfl | hn
  · exact ⟨s.stageRunId, rfl⟩
  obtain ⟨a, _, hn⟩ := List.mem_flatMap.mp hn
  rcases List.mem_cons.mp hn with rfl | hn
  · exact ⟨a.attemptId, rfl⟩
  rcases List.mem_append.mp hn with hn | hn
  · obtain ⟨row, _, rfl⟩ := List.mem_map.mp hn
    exact ⟨row.artifactId, rfl⟩
  · obtain ⟨m, _, rfl⟩ := List.mem_map.mp hn
    exact ⟨a.attemptId ++ ":" ++ m.name, by
      simp only [metricNode, GraphNode.id, GraphNode.kind, RunDetail.metricId, NodeKind.text,
        String.append_assoc]
      rfl⟩

/-- The ids of each kind, over all runs. -/
theorem ids_flatten_graphOf (hall : ∀ runId ∈ runIds, ∃ d, x.runDetail runId = .ok d)
    (k : NodeKind) : (ArtifactGraph.flatten (runIds.map x.graphOf)).ids k =
      runIds.flatMap fun runId ↦ x.rowIds runId k := by
  rw [ArtifactGraph.ids_flatten, List.flatMap_map]
  refine List.flatMap_congr fun runId hrun ↦ ?_
  obtain ⟨d, hd⟩ := hall runId hrun
  rw [graphOf_eq hd, ids_graph hd]

theorem nodup_rowIds (hx : x.Catalogued H) (hruns : runIds.Nodup)
    (hnames : ∀ runId ∈ runIds, ∀ a ∈ x.attemptsOfRun runId, x.Sourced a.attemptId)
    (k : NodeKind) : (runIds.flatMap fun runId ↦ x.rowIds runId k).Nodup := by
  have hinj : ∀ text : String, Function.Injective fun key : String ↦ text ++ key :=
    fun text key key' h ↦ by simpa using h
  cases k with
  | run =>
      have hmap : (runIds.flatMap fun runId ↦ x.rowIds runId .run) =
          runIds.map fun runId ↦ "run:" ++ runId := List.map_eq_flatMap.symm
      rw [hmap]
      exact hruns.map (hinj "run:")
  | stage =>
      have hmap : (runIds.flatMap fun runId ↦ x.rowIds runId .stage) =
          ((runIds.flatMap x.tables.listStages).map StageRow.stageRunId).map
            fun key ↦ "stage:" ++ key := by
        rw [List.map_map, List.map_flatMap]
        rfl
      rw [hmap]
      exact List.Nodup.map (hinj "stage:") (unique_stages hx hruns)
  | attempt =>
      have hmap : (runIds.flatMap fun runId ↦ x.rowIds runId .attempt) =
          ((runIds.flatMap x.attemptsOfRun).map AttemptRow.attemptId).map
            fun key ↦ "attempt:" ++ key := by
        rw [List.map_map, List.map_flatMap]
        rfl
      rw [hmap]
      exact List.Nodup.map (hinj "attempt:") (unique_attempts hx hruns)
  | artifact =>
      have hmap : (runIds.flatMap fun runId ↦ x.rowIds runId .artifact) =
          (((runIds.flatMap x.attemptsOfRun).flatMap fun a ↦ x.listArtifacts a.attemptId).map
            ArtifactRow.artifactId).map fun key ↦ "artifact:" ++ key := by
        rw [List.map_map, List.map_flatMap, List.flatMap_assoc]
        rfl
      rw [hmap]
      exact List.Nodup.map (hinj "artifact:") (unique_artifacts hx hruns)
  | metric =>
      have hmap : (runIds.flatMap fun runId ↦ x.rowIds runId .metric) =
          (runIds.flatMap x.attemptsOfRun).flatMap fun a ↦
            (x.listMetrics a.attemptId).map (RunDetail.metricId a.attemptId) := by
        rw [List.flatMap_assoc]
        rfl
      rw [hmap, List.nodup_flatMap]
      constructor
      · intro a ha
        obtain ⟨runId, hrun, ha⟩ := List.mem_flatMap.mp ha
        have hname : (x.listMetrics a.attemptId).map (RunDetail.metricId a.attemptId) =
            ((x.listMetrics a.attemptId).map MetricRow.name).map fun name ↦
              "metric:" ++ a.attemptId ++ ":" ++ name := by
          rw [List.map_map]
          rfl
        rw [hname]
        exact (hnames runId hrun a ha).names.map (hinj _)
      · refine (List.pairwise_map.mp (unique_attempts hx hruns)).imp_of_mem ?_
        intro a a' ha ha' hne
        refine List.disjoint_left.mpr fun id hid hid' ↦ ?_
        obtain ⟨m, _, rfl⟩ := List.mem_map.mp hid
        obtain ⟨m', _, hid⟩ := List.mem_map.mp hid'
        obtain ⟨_, _, ha⟩ := List.mem_flatMap.mp ha
        obtain ⟨_, _, ha'⟩ := List.mem_flatMap.mp ha'
        obtain ⟨rfl, _⟩ := metricId_inj hx (mem_attempts ha) (mem_attempts ha') hid.symm
        exact hne rfl

theorem mem_nodes_flatten {n : GraphNode} :
    n ∈ (ArtifactGraph.flatten (runIds.map x.graphOf)).nodes ↔
      ∃ runId ∈ runIds, n ∈ (x.graphOf runId).nodes := by
  rw [ArtifactGraph.nodes_flatten, List.flatMap_map, List.mem_flatMap]

theorem mem_edges_flatten {e : GraphEdge} :
    e ∈ (ArtifactGraph.flatten (runIds.map x.graphOf)).edges ↔
      ∃ runId ∈ runIds, e ∈ (x.graphOf runId).edges := by
  rw [ArtifactGraph.edges_flatten, List.flatMap_map, List.mem_flatMap]

theorem closed_graph (h : x.artifactGraph runIds = .ok g) {e : GraphEdge} (he : e ∈ g.edges) :
    e.source ∈ g.nodes.map GraphNode.id ∧ e.target ∈ g.nodes.map GraphNode.id := by
  obtain ⟨hall, rfl⟩ := artifactGraph_eq_ok.mp h
  obtain ⟨runId, hrun, he⟩ := mem_edges_flatten.mp he
  obtain ⟨d, hd⟩ := hall runId hrun
  rw [graphOf_eq hd] at he
  have hmem : ∀ id, id ∈ (d.graph runId).nodes.map GraphNode.id →
      id ∈ (ArtifactGraph.flatten (runIds.map x.graphOf)).nodes.map GraphNode.id := by
    intro id hid
    obtain ⟨n, hn, rfl⟩ := List.mem_map.mp hid
    refine List.mem_map_of_mem (mem_nodes_flatten.mpr ⟨runId, hrun, ?_⟩)
    rwa [graphOf_eq hd]
  obtain ⟨hsource, htarget⟩ := RunDetail.endpoints_graph he
  exact ⟨hmem _ hsource, hmem _ htarget⟩

theorem unique_graph (hx : x.Catalogued H) (h : x.artifactGraph runIds = .ok g)
    (hruns : runIds.Nodup)
    (hnames : ∀ runId ∈ runIds, ∀ a ∈ x.attemptsOfRun runId, x.Sourced a.attemptId) :
    (g.nodes.map GraphNode.id).Nodup := by
  obtain ⟨hall, rfl⟩ := artifactGraph_eq_ok.mp h
  have hlabels : ∀ n ∈ (ArtifactGraph.flatten (runIds.map x.graphOf)).nodes,
      n.kind.Labels n.id := by
    intro n hn
    obtain ⟨runId, hrun, hn⟩ := mem_nodes_flatten.mp hn
    obtain ⟨d, hd⟩ := hall runId hrun
    rw [graphOf_eq hd] at hn
    exact labels_id hd hn
  refine ArtifactGraph.nodup_of_kinds (fun n hn n' hn' hid ↦ ?_) fun k ↦ ?_
  · exact (hlabels n hn).unique (hid ▸ hlabels n' hn')
  · have hids := ids_flatten_graphOf hall k
    unfold ArtifactGraph.ids at hids
    rw [hids]
    exact nodup_rowIds hx hruns hnames k

theorem metricNodes_flatten (h : x.artifactGraph runIds = .ok g) :
    (g.nodes.filter fun n ↦ n.kind = .metric) = runIds.flatMap x.metricNodes := by
  obtain ⟨hall, rfl⟩ := artifactGraph_eq_ok.mp h
  rw [ArtifactGraph.nodes_flatten, List.flatMap_map, List.filter_flatMap]
  refine List.flatMap_congr fun runId hrun ↦ ?_
  obtain ⟨d, hd⟩ := hall runId hrun
  rw [graphOf_eq hd, metricNodes_graph hd]

theorem sources_flatten (h : x.artifactGraph runIds = .ok g) {id : String} :
    (∃ e ∈ g.edges, e.kind = "sources" ∧ e.target = id) ↔
      ∃ runId ∈ runIds, ∃ a ∈ x.attemptsOfRun runId, ∃ m ∈ x.listMetrics a.attemptId,
        RunDetail.metricId a.attemptId m = id ∧
          ∃ row ∈ x.listArtifacts a.attemptId, m.sourceArtifactId = some row.artifactId := by
  obtain ⟨hall, rfl⟩ := artifactGraph_eq_ok.mp h
  constructor
  · rintro ⟨e, he, hsources⟩
    obtain ⟨runId, hrun, he⟩ := mem_edges_flatten.mp he
    obtain ⟨d, hd⟩ := hall runId hrun
    rw [graphOf_eq hd] at he
    exact ⟨runId, hrun, (sources_graph hd).mp ⟨e, he, hsources⟩⟩
  · rintro ⟨runId, hrun, hsources⟩
    obtain ⟨d, hd⟩ := hall runId hrun
    obtain ⟨e, he, hsources⟩ := (sources_graph hd).mpr hsources
    exact ⟨e, mem_edges_flatten.mpr ⟨runId, hrun, by rwa [graphOf_eq hd]⟩, hsources⟩

theorem metricNode_mem (h : x.artifactGraph runIds = .ok g) (hrun : runId ∈ runIds)
    {a : AttemptRow} (ha : a ∈ x.attemptsOfRun runId) {m : MetricRow}
    (hm : m ∈ x.listMetrics a.attemptId) : metricNode a.attemptId m ∈ g.nodes := by
  have hmem : metricNode a.attemptId m ∈ runIds.flatMap x.metricNodes :=
    List.mem_flatMap.mpr ⟨runId, hrun, List.mem_flatMap.mpr ⟨a, ha, List.mem_map_of_mem hm⟩⟩
  rw [← metricNodes_flatten h] at hmem
  exact List.mem_of_mem_filter hmem

/-- The row a metric is resolved to, where the metrics of the attempt are sourced. -/
theorem isSome_find_source (hx : x.Catalogued H) {attemptId : AttemptId}
    (hsourced : x.Sourced attemptId) {m : MetricRow} (hm : m ∈ x.listMetrics attemptId) :
    m.sourceArtifactId.isSome ↔ ((x.listArtifacts attemptId).find? fun row ↦
      row.artifactId = m.sourceArtifactId.getD "").isSome := by
  rw [List.find?_isSome]
  cases hsource : m.sourceArtifactId with
  | none =>
      have hnone : ¬∃ row ∈ x.listArtifacts attemptId, row.artifactId = "" := by
        rintro ⟨row, hrow, hempty⟩
        exact hx.shelf.titled row (List.mem_of_mem_filter hrow) hempty
      simpa using hnone
  | some source =>
      simpa using hsourced.sources m hm source hsource

/-- The graph is as its readers take it exactly where no run is asked for twice and the metrics
of each attempt are sourced. -/
theorem artifact_graph_well_formed_iff (hx : x.Registered H)
    (h : x.artifactGraph runIds = .ok g) :
    x.WellFormed runIds g ↔ runIds.Nodup ∧
      ∀ runId ∈ runIds, ∀ a ∈ x.attemptsOfRun runId, x.Sourced a.attemptId := by
  have hcat := hx.catalogued
  constructor
  · intro hgraph
    obtain ⟨hall, hg⟩ := artifactGraph_eq_ok.mp h
    have hids : ∀ k, (runIds.flatMap fun runId ↦ x.rowIds runId k).Nodup := by
      intro k
      rw [← ids_flatten_graphOf hall, ← hg]
      exact (ArtifactGraph.ids_sublist k).nodup hgraph.unique
    have hruns : (runIds.map fun runId ↦ "run:" ++ runId).Nodup := by
      rw [List.map_eq_flatMap]
      exact hids .run
    refine ⟨hruns.of_map _, fun runId hrun a ha ↦ ⟨?_, fun m hm source hsource ↦ ?_⟩⟩
    · have hmetrics := (List.nodup_flatMap.mp ((List.nodup_flatMap.mp (hids .metric)).1
        runId hrun)).1 a ha
      refine List.Nodup.of_map (fun name ↦ "metric:" ++ a.attemptId ++ ":" ++ name) ?_
      rw [List.map_map]
      exact hmetrics
    · obtain ⟨d, hd⟩ := hall runId hrun
      have hview : x.metricsView runId false = .ok (d.metricProvenance runId false) := by
        rw [metricsView, hd]
        rfl
      have hcomplete := (hgraph.sourced runId hrun _ hview _
        ((metricsView_eq_ok hview).mpr ⟨a, ha, m, hm, rfl⟩) _ _ _ _
        (metricNode_mem h hrun ha hm)).1
      rw [hsource, List.find?_isSome] at hcomplete
      obtain ⟨row, hrow, hid⟩ := hcomplete.mp rfl
      exact ⟨row, hrow, of_decide_eq_true hid⟩
  · rintro ⟨hruns, hsourced⟩
    have hunique := unique_graph hcat h hruns hsourced
    refine ⟨hunique, fun e he ↦ closed_graph h he, ?_, ?_⟩
    · rw [metricNodes_flatten h, Paging.flatMap_eraseDups_eq_iff.mpr (hruns.filter _)]
    intro runId hrun entries hview entry hentry label value unit sourced hnode
    obtain ⟨a, ha, m, hm, rfl⟩ := (metricsView_eq_ok hview).mp hentry
    obtain hsame : GraphNode.metric _ label value unit sourced = metricNode a.attemptId m :=
      List.inj_on_of_nodup_map hunique hnode (metricNode_mem h hrun ha hm) rfl
    obtain ⟨-, -, -, -, rfl⟩ := GraphNode.metric.inj hsame
    have hat := hsourced runId hrun a ha
    refine ⟨isSome_find_source hcat hat hm, ?_⟩
    rw [sources_flatten h]
    constructor
    · intro hsome
      obtain ⟨source, hsource⟩ := Option.isSome_iff_exists.mp hsome
      obtain ⟨row, hrow, rfl⟩ := hat.sources m hm source hsource
      exact ⟨runId, hrun, a, ha, m, hm, rfl, row, hrow, hsource⟩
    · rintro ⟨runId', _, a', ha', m', hm', hid, row, _, hsource⟩
      obtain ⟨rfl, hname⟩ := metricId_inj hcat (mem_attempts ha') (mem_attempts ha) hid
      obtain rfl := List.inj_on_of_nodup_map hat.names hm' hm hname
      exact Option.isSome_iff_exists.mpr ⟨_, hsource⟩

end WellFormed

end Records

/-! ## An attempt with an artifact and metrics -/

namespace Sample

def area (source : Json) : Metric where
  name := .str "area"
  value := .int 1
  sourceArtifactId := source

/-- A hash under which the digest of an empty file is like those of SHA-256. -/
def hash : Bytes → String := ChipEvolve.Sample.hash [[]]

/-- The attempts have left empty files. -/
def leaving : Records := { logged with depot := { workspaceFile := fun _ _ ↦ some (some []) } }

/-- Of one there is an artifact. -/
def shelved : Records :=
  leaving.registerArtifacts hash "a1"
    [{ artifactId := "art", kind := "report", storeKey := "report.json" }]

/-- It has measured the area, as often as `sources` says. -/
def measured (sources : List Json) : Records := shelved.registerMetrics "a1" (sources.map area)

def measuredGraph (sources : List Json) : ArtifactGraph :=
  .flatten ((["run"] : List RunId).map (measured sources).graphOf)

theorem named_logged : Named logged.tables :=
  ⟨by unfold Table.Unique; decide, by unfold Table.Unique; decide, by decide +kernel⟩

theorem registered_measured (sources : List Json) : (measured sources).Registered hash :=
  have hleaving : leaving.Registered hash := .start named_logged rfl rfl
  .metrics (.artifacts hleaving _ _) _ _

theorem artifactGraph_measured (sources : List Json) :
    (measured sources).artifactGraph ["run"] = .ok (measuredGraph sources) := by
  have htables : (measured sources).tables = logged.tables := by
    unfold measured Records.registerMetrics
    split <;> rfl
  refine Records.artifactGraph_eq_ok.mpr ⟨fun runId hrun ↦ ?_, rfl⟩
  obtain rfl := List.mem_singleton.mp hrun
  exact ⟨_, Records.runDetail_eq_ok.mpr ⟨loggedRun, by rw [htables]; rfl, rfl⟩⟩

/-- Two metrics of one name have one node id. -/
theorem repeated_metric_name : ¬∀ (H : Bytes → String) (x : Records) (runIds : List RunId)
    (g : ArtifactGraph), x.Registered H → x.artifactGraph runIds = .ok g →
      x.WellFormed runIds g := by
  intro h
  have hgraph := h hash _ _ _ (registered_measured [.null, .null])
    (artifactGraph_measured [.null, .null])
  exact absurd hgraph.unique (by decide +kernel)

/-- A metric that was read from the artifact. -/
theorem well_formed_measured :
    (measured [.str "art"]).WellFormed ["run"] (measuredGraph [.str "art"]) := by
  have hmetrics : (measured [.str "art"]).metrics =
      [Attempt.metricRow "a1" (area (.str "art"))] := rfl
  have hartifacts : (measured [.str "art"]).depot.artifacts.any (fun row ↦
      row.artifactId = "art" && row.attemptId = "a1") = true := by decide +kernel
  refine (Records.artifact_graph_well_formed_iff (registered_measured [.str "art"])
    (artifactGraph_measured [.str "art"])).mpr
      ⟨by decide, fun _ _ a _ ↦ ⟨?_, fun m hm source hsource ↦ ?_⟩⟩
  · refine (List.filter_sublist.map MetricRow.name).nodup ?_
    rw [hmetrics]
    exact List.nodup_singleton _
  · obtain ⟨hm, hattempt⟩ := List.mem_filter.mp hm
    rw [hmetrics] at hm
    obtain rfl := List.mem_singleton.mp hm
    obtain rfl : "art" = source := Option.some.inj hsource
    obtain ⟨row, hrow, hsame⟩ := List.any_eq_true.mp hartifacts
    obtain ⟨hid, hrowAttempt⟩ := Bool.and_eq_true_iff.mp hsame
    refine ⟨row, List.mem_filter.mpr ⟨hrow, ?_⟩, of_decide_eq_true hid⟩
    rw [decide_eq_true_eq] at hattempt hrowAttempt ⊢
    rw [hrowAttempt]
    exact hattempt

end Sample

end ChipEvolve.Provenance
