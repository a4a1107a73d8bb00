import ChipEvolve.Provenance.Registered

/-!
# The artifact graph

`EvidenceIndex.artifact_graph` and `EvidenceIndex.metrics` (`index.py`) over what
`register_artifacts` and `register_metrics` (`store.py`) have recorded.  The id of a node is
its kind and the key of a row, so the nodes of a kind are told apart where the rows are; a
metric has no key of its own and is named by its attempt and its name.
-/

namespace ChipEvolve.Provenance

/-! ## Nodes -/

inductive NodeKind where
  | run
  | stage
  | attempt
  | artifact
  | metric
  deriving DecidableEq

def NodeKind.text : NodeKind → String
  | run => "run"
  | stage => "stage"
  | attempt => "attempt"
  | artifact => "artifact"
  | metric => "metric"

namespace GraphNode

def kind : GraphNode → NodeKind
  | run .. => .run
  | stage .. => .stage
  | attempt .. => .attempt
  | artifact .. => .artifact
  | metric .. => .metric

def id : GraphNode → String
  | run id .. => id
  | stage id .. => id
  | attempt id .. => id
  | artifact id .. => id
  | metric id .. => id

end GraphNode

namespace ArtifactGraph

variable {g : ArtifactGraph} {gs : List ArtifactGraph}

/-- The ids of the nodes of one kind, in order. -/
def ids (k : NodeKind) (g : ArtifactGraph) : List String :=
  (g.nodes.filter fun n ↦ n.kind = k).map GraphNode.id

theorem foldl_append (g : ArtifactGraph) : gs.foldl append g =
    { nodes := g.nodes ++ gs.flatMap nodes, edges := g.edges ++ gs.flatMap edges } := by
  induction gs generalizing g with
  | nil => simp
  | cons g' gs ih => simp [ih, append]

@[simp] theorem nodes_flatten : (flatten gs).nodes = gs.flatMap nodes := by
  simp [flatten, foldl_append]

@[simp] theorem edges_flatten : (flatten gs).edges = gs.flatMap edges := by
  simp [flatten, foldl_append]

@[simp] theorem ids_flatten (k : NodeKind) : (flatten gs).ids k = gs.flatMap (ids k) := by
  unfold ids
  rw [nodes_flatten, List.filter_flatMap, List.map_flatMap]

theorem ids_sublist (k : NodeKind) : (g.ids k).Sublist (g.nodes.map GraphNode.id) :=
  List.filter_sublist.map GraphNode.id

/-- Ids that tell the kind of their node are distinct where those of each kind are. -/
theorem nodup_of_kinds {l : List GraphNode}
    (hkinds : ∀ n ∈ l, ∀ n' ∈ l, n.id = n'.id → n.kind = n'.kind)
    (h : ∀ k, ((l.filter fun n ↦ n.kind = k).map GraphNode.id).Nodup) :
    (l.map GraphNode.id).Nodup := by
  induction l with
  | nil => exact List.nodup_nil
  | cons n l ih =>
      rw [List.map_cons, List.nodup_cons]
      constructor
      · intro hmem
        obtain ⟨n', hn', hid⟩ := List.mem_map.mp hmem
        have hkind := hkinds n' (List.mem_cons_of_mem _ hn') n List.mem_cons_self hid
        have hnodup := h n.kind
        rw [List.filter_cons_of_pos (by simp), List.map_cons, List.nodup_cons] at hnodup
        refine hnodup.1 (hid ▸ List.mem_map_of_mem (List.mem_filter.mpr ⟨hn', ?_⟩))
        exact decide_eq_true hkind
      · refine ih (fun a ha b hb ↦ hkinds a (List.mem_cons_of_mem _ ha) b
          (List.mem_cons_of_mem _ hb)) fun k ↦ ?_
        exact ((List.sublist_cons_self n l).filter _ |>.map _).nodup (h k)

end ArtifactGraph

/-- A text that begins with a kind and a colon. -/
def NodeKind.Labels (k : NodeKind) (id : String) : Prop :=
  ∃ key : String, id = k.text ++ ":" ++ key

theorem NodeKind.Labels.unique {k k' : NodeKind} {id : String} (h : k.Labels id)
    (h' : k'.Labels id) : k = k' := by
  obtain ⟨key, rfl⟩ := h
  obtain ⟨key', heq⟩ := h'
  have hplain : ∀ k : NodeKind, ':' ∉ k.text.toList := by
    intro k
    cases k <;> decide
  have hlist := congrArg String.toList heq
  simp only [String.toList_append, List.append_assoc] at hlist
  have hcolon : ":".toList = [':'] := by decide
  rw [hcolon, List.singleton_append, List.singleton_append] at hlist
  have htext := String.toList_inj.mp (Table.append_cons_inj (hplain k) (hplain k') hlist).1
  cases k <;> cases k' <;> first | rfl | exact absurd htext (by decide)

/-! ## The graph of a run -/

def artifactNode (row : ArtifactRow) : GraphNode :=
  .artifact ("artifact:" ++ row.artifactId) row.storeKey row.kind row.sha256 row.sizeBytes

def metricNode (attemptId : AttemptId) (m : MetricRow) : GraphNode :=
  .metric (RunDetail.metricId attemptId m) m.name m.value m.unit m.sourceArtifactId.isSome

namespace RunDetail

variable {stageNode runNode : String}

theorem nodes_attemptGraph (a : AttemptDetail) : (attemptGraph stageNode a).nodes =
    .attempt ("attempt:" ++ a.attempt.attemptId) ("attempt " ++ toString a.attempt.attemptNumber)
        a.attempt.status a.attempt.workerId ::
      (a.artifacts.map artifactNode ++ a.metrics.map (metricNode a.attempt.attemptId)) := by
  unfold attemptGraph
  rw [ArtifactGraph.nodes_flatten, List.flatMap_append, List.flatMap_append, List.flatMap_map,
    List.flatMap_map]
  simp only [artifactGraph, metricGraph, List.flatMap_cons, List.flatMap_nil, List.append_nil,
    List.cons_append, List.nil_append, List.map_eq_flatMap, artifactNode, metricNode]

theorem edges_attemptGraph (a : AttemptDetail) : (attemptGraph stageNode a).edges =
    ⟨stageNode, "attempt:" ++ a.attempt.attemptId, "has_attempt"⟩ ::
      ((a.artifacts.flatMap fun row ↦
        ⟨"attempt:" ++ a.attempt.attemptId, "artifact:" ++ row.artifactId, "produced"⟩ ::
          (a.metrics.filter fun m ↦ m.sourceArtifactId = some row.artifactId).map fun m ↦
            ⟨"artifact:" ++ row.artifactId, metricId a.attempt.attemptId m, "sources"⟩) ++
      a.metrics.map fun m ↦
        ⟨"attempt:" ++ a.attempt.attemptId, metricId a.attempt.attemptId m, "measured"⟩) := by
  unfold attemptGraph
  rw [ArtifactGraph.edges_flatten, List.flatMap_append, List.flatMap_append, List.flatMap_map,
    List.flatMap_map]
  simp only [artifactGraph, metricGraph, List.flatMap_cons, List.flatMap_nil, List.append_nil,
    List.cons_append, List.nil_append, List.map_eq_flatMap]

theorem nodes_stageGraph (s : StageDetail) : (stageGraph runNode s).nodes =
    .stage ("stage:" ++ s.stage.stageRunId) s.stage.stageKey s.stage.status s.stage.pluginId
        s.stage.pluginVersion ::
      s.attempts.flatMap fun a ↦ (attemptGraph ("stage:" ++ s.stage.stageRunId) a).nodes := by
  unfold stageGraph
  rw [ArtifactGraph.nodes_flatten, List.flatMap_cons, List.flatMap_map, List.singleton_append]

theorem edges_stageGraph (s : StageDetail) : (stageGraph runNode s).edges =
    ⟨runNode, "stage:" ++ s.stage.stageRunId, "has_stage"⟩ ::
      s.attempts.flatMap fun a ↦ (attemptGraph ("stage:" ++ s.stage.stageRunId) a).edges := by
  unfold stageGraph
  rw [ArtifactGraph.edges_flatten, List.flatMap_cons, List.flatMap_map, List.singleton_append]

variable {runId : RunId}

theorem nodes_graph (d : RunDetail) : (d.graph runId).nodes =
    .run ("run:" ++ runId) d.run.taskId d.run.status ::
      d.stages.flatMap fun s ↦ (stageGraph ("run:" ++ runId) s).nodes := by
  unfold graph
  rw [ArtifactGraph.nodes_flatten, List.flatMap_cons, List.flatMap_map, List.singleton_append]

theorem edges_graph (d : RunDetail) : (d.graph runId).edges =
    d.stages.flatMap fun s ↦ (stageGraph ("run:" ++ runId) s).edges := by
  unfold graph
  rw [ArtifactGraph.edges_flatten, List.flatMap_cons, List.flatMap_map, List.nil_append]

/-- A node of an attempt. -/
theorem mem_nodes_graph {d : RunDetail} {n : GraphNode} : n ∈ (d.graph runId).nodes ↔
    n = .run ("run:" ++ runId) d.run.taskId d.run.status ∨
      ∃ s ∈ d.stages, n = .stage ("stage:" ++ s.stage.stageRunId) s.stage.stageKey s.stage.status
          s.stage.pluginId s.stage.pluginVersion ∨
        ∃ a ∈ s.attempts, n ∈ (attemptGraph ("stage:" ++ s.stage.stageRunId) a).nodes := by
  rw [nodes_graph, List.mem_cons, List.mem_flatMap]
  simp only [nodes_stageGraph, List.mem_cons, List.mem_flatMap]

theorem mem_edges_graph {d : RunDetail} {e : GraphEdge} : e ∈ (d.graph runId).edges ↔
    ∃ s ∈ d.stages, e = ⟨"run:" ++ runId, "stage:" ++ s.stage.stageRunId, "has_stage"⟩ ∨
      ∃ a ∈ s.attempts, e ∈ (attemptGraph ("stage:" ++ s.stage.stageRunId) a).edges := by
  rw [edges_graph, List.mem_flatMap]
  simp only [edges_stageGraph, List.mem_cons, List.mem_flatMap]

/-- Both ends of an edge are in the graph. -/
theorem endpoints_graph {d : RunDetail} {e : GraphEdge} (he : e ∈ (d.graph runId).edges) :
    e.source ∈ (d.graph runId).nodes.map GraphNode.id ∧
      e.target ∈ (d.graph runId).nodes.map GraphNode.id := by
  have hnode : ∀ {n}, n ∈ (d.graph runId).nodes →
      n.id ∈ (d.graph runId).nodes.map GraphNode.id := fun hn ↦ List.mem_map_of_mem hn
  have hrun := hnode (mem_nodes_graph.mpr (.inl rfl))
  obtain ⟨s, hs, he⟩ := mem_edges_graph.mp he
  have hstage := hnode (mem_nodes_graph.mpr (.inr ⟨s, hs, .inl rfl⟩))
  rcases he with rfl | ⟨a, ha, he⟩
  · exact ⟨hrun, hstage⟩
  have hof : ∀ {n}, n ∈ (attemptGraph ("stage:" ++ s.stage.stageRunId) a).nodes →
      n.id ∈ (d.graph runId).nodes.map GraphNode.id := fun hn ↦
    hnode (mem_nodes_graph.mpr (.inr ⟨s, hs, .inr ⟨a, ha, hn⟩⟩))
  rw [nodes_attemptGraph] at hof
  have hattempt := hof List.mem_cons_self
  have hartifact : ∀ row ∈ a.artifacts,
      "artifact:" ++ row.artifactId ∈ (d.graph runId).nodes.map GraphNode.id := fun row hrow ↦
    hof (n := artifactNode row) (List.mem_cons_of_mem _
      (List.mem_append_left _ (List.mem_map_of_mem hrow)))
  have hmetric : ∀ m ∈ a.metrics,
      metricId a.attempt.attemptId m ∈ (d.graph runId).nodes.map GraphNode.id := fun m hm ↦
    hof (n := metricNode a.attempt.attemptId m) (List.mem_cons_of_mem _
      (List.mem_append_right _ (List.mem_map_of_mem hm)))
  rw [edges_attemptGraph, List.mem_cons, List.mem_append, List.mem_flatMap, List.mem_map] at he
  rcases he with rfl | ⟨row, hrow, he⟩ | ⟨m, hm, rfl⟩
  · exact ⟨hstage, hattempt⟩
  · rcases List.mem_cons.mp he with rfl | he
    · exact ⟨hattempt, hartifact row hrow⟩
    · obtain ⟨m, hm, rfl⟩ := List.mem_map.mp he
      exact ⟨hartifact row hrow, hmetric m (List.mem_of_mem_filter hm)⟩
  · exact ⟨hattempt, hmetric m hm⟩

end RunDetail

namespace Records
variable {x : Records} {runId : RunId} {d : RunDetail}

/-! ## The nodes by their rows -/

/-- The ids of the nodes of a run, by their kind. -/
def rowIds (x : Records) (runId : RunId) : NodeKind → List String
  | .run => ["run:" ++ runId]
  | .stage => (x.tables.listStages runId).map fun s ↦ "stage:" ++ s.stageRunId
  | .attempt => (x.attemptsOfRun runId).map fun a ↦ "attempt:" ++ a.attemptId
  | .artifact => (x.attemptsOfRun runId).flatMap fun a ↦
      (x.listArtifacts a.attemptId).map fun row ↦ "artifact:" ++ row.artifactId
  | .metric => (x.attemptsOfRun runId).flatMap fun a ↦
      (x.listMetrics a.attemptId).map (RunDetail.metricId a.attemptId)

/-- A node for each metric that is stored for a run. -/
def metricNodes (x : Records) (runId : RunId) : List GraphNode :=
  (x.attemptsOfRun runId).flatMap fun a ↦ (x.listMetrics a.attemptId).map (metricNode a.attemptId)

theorem nodes_graph (hd : x.runDetail runId = .ok d) : (d.graph runId).nodes =
    .run ("run:" ++ runId) d.run.taskId d.run.status ::
      (x.tables.listStages runId).flatMap fun s ↦
        .stage ("stage:" ++ s.stageRunId) s.stageKey s.status s.pluginId s.pluginVersion ::
          (x.tables.listAttempts s.stageRunId).flatMap fun a ↦
            .attempt ("attempt:" ++ a.attemptId) ("attempt " ++ toString a.attemptNumber)
                a.status a.workerId ::
              ((x.listArtifacts a.attemptId).map artifactNode ++
                (x.listMetrics a.attemptId).map (metricNode a.attemptId)) := by
  obtain ⟨run, _, rfl⟩ := runDetail_eq_ok.mp hd
  rw [RunDetail.nodes_graph]
  simp only [List.flatMap_map, RunDetail.nodes_stageGraph, RunDetail.nodes_attemptGraph]
  simp only [stageDetail, Bundle.World.describeStage, List.flatMap_map, List.map_map]
  rfl

theorem ids_graph (hd : x.runDetail runId = .ok d) (k : NodeKind) :
    (d.graph runId).ids k = x.rowIds runId k := by
  have hnil : ∀ {α β : Type} (l : List α), (l.flatMap fun _ ↦ ([] : List β)) = [] :=
    fun l ↦ List.flatMap_eq_nil_iff.mpr fun _ _ ↦ rfl
  unfold ArtifactGraph.ids
  rw [nodes_graph hd]
  have hmap : ∀ {α β : Type} (f : α → β) (l : List α), (l.flatMap fun a ↦ [f a]) = l.map f :=
    fun _ _ ↦ List.map_eq_flatMap.symm
  cases k <;>
    simp [List.filter_flatMap, List.filter_append, List.filter_map, List.map_flatMap,
      Function.comp_def, GraphNode.kind, GraphNode.id, rowIds, artifactNode, metricNode,
      attemptsOfRun, List.flatMap_assoc, hnil, hmap]

theorem metricNodes_graph (hd : x.runDetail runId = .ok d) :
    ((d.graph runId).nodes.filter fun n ↦ n.kind = .metric) = x.metricNodes runId := by
  rw [nodes_graph hd]
  simp [List.filter_flatMap, List.filter_append, List.filter_map, Function.comp_def,
    GraphNode.kind, artifactNode, metricNode, metricNodes, attemptsOfRun, List.flatMap_assoc]

theorem sources_graph (hd : x.runDetail runId = .ok d) {id : String} :
    (∃ e ∈ (d.graph runId).edges, e.kind = "sources" ∧ e.target = id) ↔
      ∃ a ∈ x.attemptsOfRun runId, ∃ m ∈ x.listMetrics a.attemptId,
        RunDetail.metricId a.attemptId m = id ∧
          ∃ row ∈ x.listArtifacts a.attemptId, m.sourceArtifactId = some row.artifactId := by
  obtain ⟨run, _, rfl⟩ := runDetail_eq_ok.mp hd
  constructor
  · rintro ⟨e, he, hkind, rfl⟩
    obtain ⟨s, hs, he⟩ := RunDetail.mem_edges_graph.mp he
    obtain ⟨stage, hstage, rfl⟩ := List.mem_map.mp hs
    rcases he with rfl | ⟨view, hview, he⟩
    · exact absurd hkind (by simp)
    obtain ⟨shown, hshown, rfl⟩ := List.mem_map.mp hview
    obtain ⟨a, ha, rfl⟩ := List.mem_map.mp hshown
    refine ⟨a, List.mem_flatMap.mpr ⟨stage, hstage, ha⟩, ?_⟩
    rw [RunDetail.edges_attemptGraph, List.mem_cons, List.mem_append, List.mem_flatMap,
      List.mem_map] at he
    rcases he with rfl | ⟨row, hrow, he⟩ | ⟨m, _, rfl⟩
    · exact absurd hkind (by simp)
    · rcases List.mem_cons.mp he with rfl | he
      · exact absurd hkind (by simp)
      · obtain ⟨m, hm, rfl⟩ := List.mem_map.mp he
        obtain ⟨hm, hsource⟩ := List.mem_filter.mp hm
        exact ⟨m, hm, rfl, row, hrow, of_decide_eq_true hsource⟩
    · exact absurd hkind (by simp)
  · rintro ⟨a, ha, m, hm, rfl, row, hrow, hsource⟩
    obtain ⟨stage, hstage, ha⟩ := List.mem_flatMap.mp ha
    refine ⟨⟨"artifact:" ++ row.artifactId, RunDetail.metricId a.attemptId m, "sources"⟩,
      RunDetail.mem_edges_graph.mpr ⟨_, List.mem_map_of_mem hstage, .inr
        ⟨_, List.mem_map_of_mem (List.mem_map_of_mem ha), ?_⟩⟩, rfl, rfl⟩
    rw [RunDetail.edges_attemptGraph]
    refine List.mem_cons_of_mem _ (List.mem_append_left _ (List.mem_flatMap.mpr ⟨row, hrow, ?_⟩))
    exact List.mem_cons_of_mem _ (List.mem_map_of_mem
      (List.mem_filter.mpr ⟨hm, decide_eq_true hsource⟩))

/-- What `metrics` reports of a run. -/
theorem metricsView_eq_ok {entries : List MetricProvenance}
    (h : x.metricsView runId false = .ok entries) {entry : MetricProvenance} :
    entry ∈ entries ↔ ∃ a ∈ x.attemptsOfRun runId, ∃ m ∈ x.listMetrics a.attemptId,
      entry = { metric := m, runId := runId, attemptId := a.attemptId
                artifact := (x.listArtifacts a.attemptId).find? fun row ↦
                  row.artifactId = m.sourceArtifactId.getD "" } := by
  unfold metricsView at h
  cases hd : x.runDetail runId with
  | error e =>
      rw [hd] at h
      cases h
  | ok d =>
      rw [hd] at h
      obtain rfl := Except.ok.inj h
      obtain ⟨run, _, rfl⟩ := runDetail_eq_ok.mp hd
      simp only [RunDetail.metricProvenance, Bool.not_false, Bool.true_or, List.filter_true,
        RunDetail.attempts, stageDetail, Bundle.World.describeStage, List.map_map, attemptsOfRun,
        List.flatMap_map, List.flatMap_assoc, List.mem_flatMap, List.mem_map, Function.comp_apply]
      constructor
      · rintro ⟨stage, hstage, a, ha, m, hm, rfl⟩
        exact ⟨a, ⟨stage, hstage, ha⟩, m, hm, rfl⟩
      · rintro ⟨a, ⟨stage, hstage, ha⟩, m, hm, rfl⟩
        exact ⟨stage, hstage, a, ha, m, hm, rfl⟩

end Records

end ChipEvolve.Provenance
