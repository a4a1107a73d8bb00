import ChipEvolve.Gateway.Runs
import ChipEvolve.Provenance.Index

/-!
# Reading over HTTP

The `GET` handlers of `KernelApi` (`kernel_api.py`) under `/kernel/runs`, `/kernel/designs`
and `/kernel/graph`, with the router and the authentication in front of them.  A handler
either asks who owns the run it is about or lists the runs its caller owns; what it then
tells comes from the rows of those runs and from the totals the machine has reserved.
-/

namespace ChipEvolve.Gateway

open Identity Provenance

/-! ## Requests -/

/-- The values of each query parameter, in order. -/
abbrev Query := String → List String

namespace Query

variable (query : Query) (int : String → Option Int)

def q (name : String) : Option String := (query name).head?

def qInt (name : String) : Except HttpError (Option Int) :=
  match query.q name with
  | none => .ok none
  | some raw =>
      match int raw with
      | some n => .ok (some n)
      | none => .error ⟨400, name ++ " must be an integer"⟩

def qBool (name : String) : Bool := ((query.q name).getD "").toLower ∈ ["1", "true", "yes", "on"]

end Query

/-- `value or default`, for a number that may be absent. -/
def orDefault (value : Option Int) (default : Int) : Int :=
  if value.getD 0 = 0 then default else value.getD 0

inductive Route where
  | runs
  | run (runId : RunId)
  | tree (designId : String)
  | metrics (runId : RunId)
  | artifacts (runId : RunId)
  | timeline (runId : RunId)
  | resources (runId : RunId)
  | logs (runId : RunId)
  | excerpt (runId : RunId) (artifactId : String)
  | download (runId : RunId) (artifactId : String)
  | chunk (runId : RunId) (artifactId : String)
  | graph

/-- The template that the segments of a path match. -/
def Route.ofSegments (unquote : String → String) : List String → Except HttpError Route
  | ["runs"] => .ok .runs
  | ["graph"] => .ok .graph
  | ["runs", runId] => .ok (.run (unquote runId))
  | ["designs", designId, "tree"] => .ok (.tree (unquote designId))
  | ["runs", runId, "metrics"] => .ok (.metrics (unquote runId))
  | ["runs", runId, "artifacts"] => .ok (.artifacts (unquote runId))
  | ["runs", runId, "timeline"] => .ok (.timeline (unquote runId))
  | ["runs", runId, "resources"] => .ok (.resources (unquote runId))
  | ["runs", runId, "logs"] => .ok (.logs (unquote runId))
  | ["runs", runId, "artifacts", artifactId, "excerpt"] =>
      .ok (.excerpt (unquote runId) (unquote artifactId))
  | ["runs", runId, "artifacts", artifactId, "download"] =>
      .ok (.download (unquote runId) (unquote artifactId))
  | ["runs", runId, "artifacts", artifactId, "chunk"] =>
      .ok (.chunk (unquote runId) (unquote artifactId))
  | ["runs", _, "cancel"] | ["runs", _, "retry"] | ["runs", _, "bundle"] =>
      .error ⟨405, "GET is not allowed here"⟩
  | _ => .error ⟨404, "not found"⟩

/-- The route of what follows `/kernel/` in a path; a captured segment is not empty. -/
def Route.ofPath (unquote : String → String) (path : String) : Except HttpError Route :=
  let segments := (splitSlash path.toList).map String.ofList
  if "" ∈ segments then .error ⟨404, "not found"⟩ else ofSegments unquote segments

/-- A `GET` of `/kernel/` and the path. -/
structure GetRequest where
  authorization : Option String
  path : String
  query : Query
  now : Timestamp

/-! ## Answers -/

/-- What `_run_detail` returns. -/
structure RunNode where
  detail : RunDetail
  waitingFor : Option Waiting

/-- The runs of a design at one revision. -/
structure RevisionBody where
  designRevisionId : Option String
  runs : List RunNode

structure TreeBody where
  designId : String
  revisions : List RevisionBody
  runCount : Nat
  offset : Int
  limit : Int
  hasMore : Bool
  nextOffset : Option Int

/-- The body of an answer that is not a refusal; its status is 200. -/
inductive Body where
  | runs (summaries : List RunSummary)
  | run (node : RunNode)
  | tree (body : TreeBody)
  | metrics (entries : List MetricProvenance)
  | artifacts (entries : List InventoryEntry)
  | timeline (entries : List TimelineEntry)
  | resources (view : ResourceView)
  | logs (view : LogView)
  | excerpt (excerpt : Excerpt)
  | content (bytes : Bytes) (sha256 : String)
  | graph (graph : ArtifactGraph)

/-- What the server takes from its surroundings: how a text is read as a whole number and a
segment of a path is decoded, the text of the `OSError` for an artifact without a file, and the
bytes of the JSON text that `_send` makes of an answer. -/
structure Surroundings where
  int : String → Option Int
  unquote : String → String
  noFile : String → String
  dumps : Except HttpError Body → Bytes

/-- `f"{type(exc).__name__}: {exc}"` -/
def describe : RuntimeError → String
  | .value message => "ValueError: " ++ message
  | .limitsUnsupported message => "ResourceLimitsUnsupported: " ++ message
  | .inputStaging message => "InputStagingError: " ++ message
  | .contract message => "ContractError: " ++ message
  | .resolver message => "RegistryError: " ++ message
  | .os message => "FileNotFoundError: " ++ message
  | .store e => e.describe

/-- The answer to an exception where a `RuntimeStoreError` or a `ValueError` may be handled. -/
def refused (onStore onValue : Option Nat) (e : RuntimeError) : HttpError :=
  match e, onStore, onValue with
  | .store (.runtimeStore message), some status, _ => ⟨status, message⟩
  | .value message, _, some status => ⟨status, message⟩
  | e, _, _ => ⟨500, describe e⟩

/-! ## The handlers -/

/-- The databases, the objects and the workspaces of a server. -/
structure Backend where
  accounts : Accounts := {}
  records : Records := {}

/-- `MAX_RESPONSE_BYTES` -/
def maxResponseBytes : Nat := 4 * 1024 * 1024

/-- `revisions.setdefault(revision, …)["runs"].append(node)` -/
def fileUnder (revisions : List (String × RevisionBody)) (entry : RunSummary × RunNode) :
    List (String × RevisionBody) :=
  let named := entry.1.designRevisionId.getD ""
  let revision := if named = "" then "unversioned" else named
  if revisions.any (·.1 = revision) then
    revisions.map fun (key, body) ↦
      if key = revision then (key, { body with runs := body.runs ++ [entry.2] }) else (key, body)
  else
    revisions ++ [(revision,
      { designRevisionId := entry.1.designRevisionId, runs := [entry.2] })]

namespace KernelApi

variable (api : KernelApi) (H : Bytes → String) (env : Surroundings)
  (session : Option AuthSession) (totals : Int × Int) (b : Backend) (query : Query)

/-- `_run_detail`, when the machine has reserved `totals`. -/
def runDetail (runId : RunId) : Except RuntimeError RunNode := do
  let d ← b.records.runDetail runId
  let waiting ← (api.platform.cfg.waiting totals d.run).mapError .store
  return { detail := d, waitingFor := waiting }

/-- The runs that a caller may list; a developer lists all. -/
def ownerRunIds : Option (List RunId) :=
  session.bind fun session ↦
    if session.developer then none else some (b.accounts.resourcesOwned "run" session.userId)

def listFilter : RunFilter :=
  { projectId := query.q "project_id"
    designId := query.q "design_id"
    pluginId := query.q "plugin_id"
    status := query.q "status"
    ownerRunIds := ownerRunIds session b }

def listRuns : Except HttpError Body := do
  let limit ← query.qInt env.int "limit"
  let offset ← query.qInt env.int "offset"
  let summaries ← (b.records.runs (listFilter session b query) (limit.getD defaultRunLimit)
    (orDefault offset 0)).mapError (refused none (some 400))
  return .runs summaries

/-- The tree of the first `limit` summaries, with a node for each. -/
def treeOf (designId : String) (offset limit : Int) (summaries : List RunSummary) (total : Nat)
    (nodes : List RunNode) : TreeBody :=
  let hasMore : Bool := limit < summaries.length || (limit = 500 && summaries.length = 500)
  { designId := designId
    revisions := (((summaries.take limit.toNat).zip nodes).foldl fileUnder []).map Prod.snd
    runCount := total
    offset := offset
    limit := limit
    hasMore := hasMore
    nextOffset := if hasMore then some (offset + limit) else none }

def treeFilter (designId : String) : RunFilter :=
  { designId := some designId, ownerRunIds := ownerRunIds session b }

def treeBody (designId : String) (offset limit : Int) : Except RuntimeError TreeBody := do
  let summaries ← b.records.runs (treeFilter session b designId) (min (limit + 1) 500) offset
  let total ← b.records.countRuns (treeFilter session b designId)
  let nodes ← (summaries.take limit.toNat).mapM fun summary ↦
    api.runDetail totals b summary.runId
  return treeOf designId offset limit summaries total nodes

def designTree (designId : String) : Except HttpError Body := do
  let offset ← query.qInt env.int "offset"
  let limit ← query.qInt env.int "limit"
  if 1 ≤ orDefault limit 500 ∧ orDefault limit 500 ≤ 500 then
    ((api.treeBody session totals b designId (orDefault offset 0) (orDefault limit 500)).map
      Body.tree).mapError (refused none none)
  else .error ⟨400, "limit must be between 1 and 500"⟩

def readLogs (runId : RunId) : Except HttpError Body := do
  let offset ← query.qInt env.int "offset"
  let maxBytes ← query.qInt env.int "max_bytes"
  let view := LogQuery.run { store := b.records } runId (orDefault offset 0) maxBytes
  (view.map Body.logs).mapError (refused (some 404) (some 400))

/-- `artifact_excerpt` and `artifact_chunk`, which differ in a default and in the check. -/
def readExcerpt (runId : RunId) (artifactId : String) (default : Int) (verifyHash : Bool) :
    Except HttpError Body := do
  let offset ← query.qInt env.int "offset"
  let maxBytes ← query.qInt env.int "max_bytes"
  ((b.records.readArtifactExcerpt H env.noFile runId artifactId (orDefault offset 0)
    (orDefault maxBytes default) verifyHash).map Body.excerpt).mapError
      (refused (some 404) (some 400))

/-- The bytes of an artifact of a run, checked against its row. -/
def contentOf (row : ArtifactRow) : Except HttpError Body :=
  if maxResponseBytes < row.sizeBytes then
    .error ⟨413, "artifact exceeds the download response limit"⟩
  else
    match b.records.readArtifact env.noFile row.artifactId with
    | .error (.os message) => .error ⟨404, message⟩
    | .error e => .error (refused (some 404) none e)
    | .ok content =>
        if content.length ≠ row.sizeBytes ∨ H content ≠ row.sha256 then
          .error ⟨409, "artifact bytes no longer match the registered hash"⟩
        else .ok (.content content row.sha256)

def artifactDownload (runId : RunId) (artifactId : String) : Except HttpError Body := do
  let detail ← (b.records.runDetail runId).mapError (refused none none)
  match detail.artifactsNamed artifactId with
  | [row] => contentOf H env b row
  | _ => .error ⟨404, "artifact not found"⟩

def graph : Except HttpError Body :=
  let runIds := query "run_id"
  if runIds = [] then .error ⟨400, "at least one run_id is required"⟩
  else do
    runIds.forM fun runId ↦ api.requireOwnership b.accounts session "run" runId
    ((b.records.artifactGraph runIds).map Body.graph).mapError (refused none none)

/-- What is told of one run, after its owner is known. -/
def ofRun (runId : RunId) (answer : Except HttpError Body) : Except HttpError Body := do
  api.requireOwnership b.accounts session "run" runId
  answer

/-- The handler of a route. -/
def handle : Route → Except HttpError Body
  | .runs => listRuns env session b query
  | .run runId =>
      api.ofRun session b runId
        (((api.runDetail totals b runId).map Body.run).mapError (refused (some 404) none))
  | .tree designId => api.designTree env session totals b query designId
  | .metrics runId =>
      api.ofRun session b runId
        (((b.records.metricsView runId (query.qBool "complete_only")).map Body.metrics).mapError
          (refused none none))
  | .artifacts runId =>
      api.ofRun session b runId
        (((b.records.inventory runId
          { category := query.q "category", format := query.q "format"
            stage := query.q "stage" }).map Body.artifacts).mapError (refused none none))
  | .timeline runId => api.ofRun session b runId (.ok (.timeline (b.records.timeline runId)))
  | .resources runId =>
      api.ofRun session b runId
        (((b.records.resources api.platform.cfg totals runId).map Body.resources).mapError
          (refused (some 404) none))
  | .logs runId => api.ofRun session b runId (readLogs env b query runId)
  | .excerpt runId artifactId =>
      api.ofRun session b runId (readExcerpt H env b query runId artifactId 8192 true)
  | .download runId artifactId =>
      api.ofRun session b runId (artifactDownload H env b runId artifactId)
  | .chunk runId artifactId =>
      api.ofRun session b runId (readExcerpt H env b query runId artifactId 65536 false)
  | .graph => api.graph session b query

/-- The answer to a request: the router, `_guarded`, and the handler. -/
def answer (r : GetRequest) : Except HttpError Body := do
  let route ← Route.ofPath env.unquote r.path
  match api.authenticate H r.authorization r.now b.accounts with
  | (none, _) => .error ⟨401, "authentication required"⟩
  | (some session, accounts) =>
      api.handle H env (some session) b.records.totals { b with accounts := accounts } r.query route

/-- What is sent of an answer; bytes are sent as they are. -/
def payload : Except HttpError Body → Bytes
  | .ok (.content bytes _) => bytes
  | answer => env.dumps answer

/-- `_send`: an answer that is too large is replaced. -/
def send (answer : Except HttpError Body) : Except HttpError Body :=
  if maxResponseBytes < (payload env answer).length then .error ⟨500, "response too large"⟩
  else answer

/-- What a request receives. -/
def get (r : GetRequest) : Except HttpError Body := send env (api.answer H env b r)

end KernelApi

/-! ## The figures of the machine -/

namespace RunNode

/-- Whether a run waits stays, what the machine has free does not. -/
def withoutFigures (n : RunNode) : RunNode :=
  { n with waitingFor := n.waitingFor.map fun _ ↦ .claimable }

end RunNode

def RevisionBody.withoutFigures (r : RevisionBody) : RevisionBody :=
  { r with runs := r.runs.map RunNode.withoutFigures }

def TreeBody.withoutFigures (t : TreeBody) : TreeBody :=
  { t with revisions := t.revisions.map RevisionBody.withoutFigures }

def withoutReserved (view : ResourceView) : ResourceView :=
  { view with
    reservedCpuCores := 0
    reservedMemoryBytes := 0
    waitingFor := view.waitingFor.map fun _ ↦ .claimable }

namespace Body

/-- A body without the machine-wide reservation figures. -/
def withoutFigures : Body → Body
  | .run node => .run node.withoutFigures
  | .tree body => .tree body.withoutFigures
  | .resources view => .resources (withoutReserved view)
  | body => body

/-- The kinds of answers that such figures stand in. -/
def showsFigures : Body → Bool
  | .run _ | .tree _ | .resources _ => true
  | _ => false

theorem eq_of_withoutFigures {body body' : Body} (h : body.withoutFigures = body'.withoutFigures)
    (hplain : body.showsFigures = false) : body = body' := by
  cases body <;> simp only [showsFigures, reduceCtorEq] at hplain <;> cases body' <;>
    simp only [withoutFigures, reduceCtorEq] at h <;> exact h

end Body

theorem fileUnder_map {revisions : List (String × RevisionBody)} {summary : RunSummary}
    {node : RunNode} :
    fileUnder (revisions.map fun (key, body) ↦ (key, body.withoutFigures))
        (summary, node.withoutFigures) =
      (fileUnder revisions (summary, node)).map fun (key, body) ↦ (key, body.withoutFigures) := by
  unfold fileUnder
  simp only [List.any_map, Function.comp_def]
  generalize (if summary.designRevisionId.getD "" = "" then "unversioned"
    else summary.designRevisionId.getD "") = revision
  split
  · rw [List.map_map, List.map_map]
    refine List.map_congr_left fun entry _ ↦ ?_
    simp only [Function.comp]
    split <;> simp [RevisionBody.withoutFigures]
  · simp [RevisionBody.withoutFigures]

theorem foldl_fileUnder_map {shown : List RunSummary} {nodes : List RunNode}
    {revisions : List (String × RevisionBody)} :
    ((shown.zip (nodes.map RunNode.withoutFigures)).foldl fileUnder
        (revisions.map fun (key, body) ↦ (key, body.withoutFigures))) =
      ((shown.zip nodes).foldl fileUnder revisions).map
        fun (key, body) ↦ (key, body.withoutFigures) := by
  induction shown generalizing nodes revisions with
  | nil => rfl
  | cons summary shown ih =>
      cases nodes with
      | nil => rfl
      | cons node nodes =>
          rw [List.map_cons, List.zip_cons_cons, List.zip_cons_cons, List.foldl_cons,
            List.foldl_cons, fileUnder_map, ih]

namespace KernelApi

variable {api : KernelApi} {H : Bytes → String} {env : Surroundings} {totals totals' : Int × Int}
  {b b' : Backend} {query : Query} {session : Option AuthSession} {runId : RunId}

theorem waiting_returns (api : KernelApi) (totals : Int × Int) (run : RunRow) :
    ∃ waiting, api.platform.cfg.waiting totals run = .ok waiting := by
  obtain ⟨budgets, hbudgets⟩ := api.budgeted
  unfold RuntimeConfig.waiting RuntimeConfig.explain
  rw [hbudgets]
  split <;> exact ⟨_, rfl⟩

/-- Whether a run waits does not depend on the totals. -/
theorem runDetail_withoutFigures : (api.runDetail totals b runId).map RunNode.withoutFigures =
    (api.runDetail totals' b runId).map RunNode.withoutFigures := by
  unfold runDetail RuntimeConfig.waiting RuntimeConfig.explain
  cases b.records.runDetail runId with
  | error e => rfl
  | ok d =>
      simp only [bind, Except.bind]
      cases d.run.status.waiting <;> cases api.platform.cfg.explainedBudgets <;> rfl

theorem treeOf_withoutFigures {designId : String} {offset limit : Int}
    {summaries : List RunSummary} {total : Nat} {nodes : List RunNode} :
    (treeOf designId offset limit summaries total nodes).withoutFigures =
      treeOf designId offset limit summaries total (nodes.map RunNode.withoutFigures) := by
  have hfiled : ((summaries.take limit.toNat).zip (nodes.map RunNode.withoutFigures)).foldl
        fileUnder [] =
      (((summaries.take limit.toNat).zip nodes).foldl fileUnder []).map
        fun (key, body) ↦ (key, body.withoutFigures) := @foldl_fileUnder_map _ nodes []
  unfold treeOf TreeBody.withoutFigures
  rw [hfiled, List.map_map, List.map_map]
  rfl

theorem treeBody_withoutFigures {designId : String} {offset limit : Int} :
    (api.treeBody session totals b designId offset limit).map TreeBody.withoutFigures =
      (api.treeBody session totals' b designId offset limit).map TreeBody.withoutFigures := by
  unfold treeBody
  cases b.records.runs (treeFilter session b designId) (min (limit + 1) 500) offset with
  | error e => rfl
  | ok summaries =>
      cases b.records.countRuns (treeFilter session b designId) with
      | error e => rfl
      | ok total =>
          have hnodes : ∀ figures, (((summaries.take limit.toNat).mapM fun summary ↦
                api.runDetail figures b summary.runId).map fun nodes ↦
                  treeOf designId offset limit summaries total nodes).map
                    TreeBody.withoutFigures =
              ((summaries.take limit.toNat).mapM fun summary ↦
                (api.runDetail figures b summary.runId).map RunNode.withoutFigures).map
                  (treeOf designId offset limit summaries total) := by
            intro figures
            rw [← Except.map_mapM]
            cases (summaries.take limit.toNat).mapM fun summary ↦
                api.runDetail figures b summary.runId with
            | error e => rfl
            | ok nodes => exact congrArg Except.ok treeOf_withoutFigures
          refine (hnodes totals).trans (Eq.trans ?_ (hnodes totals').symm)
          exact congrArg (Except.map (treeOf designId offset limit summaries total))
            (Except.mapM_congr fun _ _ ↦ runDetail_withoutFigures)

theorem resources_withoutFigures :
    (b.records.resources api.platform.cfg totals runId).map withoutReserved =
      (b.records.resources api.platform.cfg totals' runId).map withoutReserved := by
  unfold Records.resources RuntimeConfig.waiting RuntimeConfig.explain
  cases b.records.runDetail runId with
  | error e => rfl
  | ok d =>
      simp only [bind, Except.bind]
      cases api.platform.cfg.explainedBudgets with
      | error e => rfl
      | ok budgets => cases d.run.status.waiting <;> rfl

theorem map_withoutFigures_congr {α : Type} {x x' : Except RuntimeError α} {g : α → α}
    {body : α → Body} {e : RuntimeError → HttpError}
    (hbody : ∀ a, (body a).withoutFigures = body (g a)) (h : x.map g = x'.map g) :
    ((x.map body).mapError e).map Body.withoutFigures =
      ((x'.map body).mapError e).map Body.withoutFigures := by
  have hmap : ∀ y : Except RuntimeError α, ((y.map body).mapError e).map Body.withoutFigures =
      ((y.map g).map body).mapError e := by
    intro y
    cases y with
    | error => rfl
    | ok a => exact congrArg Except.ok (hbody a)
  rw [hmap, hmap, h]

theorem ofRun_withoutFigures {answer answer' : Except HttpError Body}
    (h : answer.map Body.withoutFigures = answer'.map Body.withoutFigures) :
    (api.ofRun session b runId answer).map Body.withoutFigures =
      (api.ofRun session b runId answer').map Body.withoutFigures := by
  unfold ofRun
  cases api.requireOwnership b.accounts session "run" runId with
  | error e => rfl
  | ok => exact h

/-- The totals enter an answer as its figures only. -/
theorem handle_withoutFigures (route : Route) :
    (api.handle H env session totals b query route).map Body.withoutFigures =
      (api.handle H env session totals' b query route).map Body.withoutFigures := by
  cases route with
  | run runId =>
      exact ofRun_withoutFigures
        (map_withoutFigures_congr (fun _ ↦ rfl) runDetail_withoutFigures)
  | tree designId =>
      simp only [handle, designTree]
      cases query.qInt env.int "offset" with
      | error e => rfl
      | ok offset =>
          cases query.qInt env.int "limit" with
          | error e => rfl
          | ok limit =>
              simp only [bind, Except.bind]
              split
              · exact map_withoutFigures_congr (fun _ ↦ rfl) treeBody_withoutFigures
              · rfl
  | resources runId =>
      exact ofRun_withoutFigures
        (map_withoutFigures_congr (fun _ ↦ rfl) resources_withoutFigures)
  | _ => rfl

end KernelApi

/-! ## Servers that agree on a user's runs -/

/-- The user owns the same resources on both servers, and the runs among them, in the two ways
in which the handlers ask, are the same in the same order, with the same rows and bytes. -/
structure Backend.Agrees (userId : String) (b b' : Backend) : Prop where
  owns : ∀ resourceType resourceId, b.accounts.ownerOf resourceType resourceId = some userId ↔
    b'.accounts.ownerOf resourceType resourceId = some userId
  listed : (b.records.tables.runs.filter
      fun run ↦ run.runId ∈ b.accounts.resourcesOwned "run" userId) =
    b'.records.tables.runs.filter fun run ↦ run.runId ∈ b'.accounts.resourcesOwned "run" userId
  rows : ∀ runId, b.accounts.ownerOf "run" runId = some userId ∨
    runId ∈ b.accounts.resourcesOwned "run" userId → SameRun b.records b'.records runId

/-- Opening `adapter.log` in the workspaces of the runs that the user owns gives the same bytes. -/
def Backend.LogsAgree (userId : String) (b b' : Backend) : Prop :=
  ∀ runId, b.accounts.ownerOf "run" runId = some userId → SameLogs b.records b'.records runId

/-- Only the owners of the accounts matter. -/
theorem Backend.Agrees.withAccounts {userId : String} {b b' : Backend}
    (h : b.Agrees userId b') {a a' : Accounts} (howners : a.owners = b.accounts.owners)
    (howners' : a'.owners = b'.accounts.owners) :
    Backend.Agrees userId { b with accounts := a } { b' with accounts := a' } := by
  obtain ⟨howns, hlisted, hrows⟩ := h
  unfold Accounts.ownerOf at howns hrows
  unfold Accounts.resourcesOwned at hlisted hrows
  rw [← howners] at hlisted hrows
  rw [← howners'] at hlisted
  simp only [← howners, ← howners'] at howns
  exact ⟨howns, hlisted, hrows⟩

/-- The session is one of a user who is no developer. -/
structure Member (session : AuthSession) (a : Accounts) : Prop where
  developer : session.developer = false
  account : (a.user? session.userId).any (fun user ↦ user.role = .developer) = false

namespace KernelApi

variable {api : KernelApi} {H : Bytes → String} {env : Surroundings} {totals : Int × Int}
  {b b' : Backend} {query : Query} {session : AuthSession} {runId : RunId}

theorem requireOwnership_member {a : Accounts} (h : Member session a)
    (resourceType resourceId : String) :
    api.requireOwnership a (some session) resourceType resourceId =
      if a.ownerOf resourceType resourceId = some session.userId then .ok ()
      else .error ⟨404, resourceType ++ " not found"⟩ := by
  unfold requireOwnership
  simp only [owner, Option.any_some, h.developer, Bool.not_false, Bool.and_true,
    Accounts.ownsResource, h.account, Bool.and_false, Bool.or_false]
  cases a.ownerOf resourceType resourceId with
  | none => simp
  | some owner => by_cases heq : owner = session.userId <;> simp [heq]

theorem runDetail_agrees (h : SameRun b.records b'.records runId) :
    api.runDetail totals b runId = api.runDetail totals b' runId := by
  unfold runDetail
  rw [h.runDetail]

section Agreement

variable (hmember : Member session b.accounts) (hmember' : Member session b'.accounts)
  (hagrees : b.Agrees session.userId b')

include hmember hmember' hagrees

theorem requireOwnership_agrees (resourceType resourceId : String) :
    api.requireOwnership b.accounts (some session) resourceType resourceId =
      api.requireOwnership b'.accounts (some session) resourceType resourceId := by
  rw [requireOwnership_member hmember, requireOwnership_member hmember']
  simp only [hagrees.owns]

theorem ofRun_agrees {answer answer' : Except HttpError Body}
    (h : b.accounts.ownerOf "run" runId = some session.userId →
      SameRun b.records b'.records runId → answer = answer') :
    api.ofRun (some session) b runId answer = api.ofRun (some session) b' runId answer' := by
  unfold ofRun
  rw [← requireOwnership_agrees hmember hmember' hagrees, requireOwnership_member hmember]
  split
  · next hown => rw [h hown (hagrees.rows runId (.inl hown))]
  · rfl

omit hmember' in
theorem sees_agrees {f : RunFilter} (hf : f.ownerRunIds = ownerRunIds (some session) b) :
    b.records.tables.runs.filter f.sees = b'.records.tables.runs.filter
        ({ f with ownerRunIds := ownerRunIds (some session) b' } : RunFilter).sees ∧
      ∀ run ∈ b.records.tables.runs, f.sees run = true →
        SameRun b.records b'.records run.runId := by
  have hids : ∀ b : Backend, ownerRunIds (some session) b =
      some (b.accounts.resourcesOwned "run" session.userId) := by
    intro b
    simp [ownerRunIds, hmember.developer]
  unfold RunFilter.sees
  rw [hf, hids, hids]
  refine ⟨hagrees.listed, fun run _ hsees ↦ hagrees.rows _ (.inr ?_)⟩
  simpa using hsees

omit hmember' in
theorem treeBody_agrees {designId : String} {offset limit : Int} :
    api.treeBody (some session) totals b designId offset limit =
      api.treeBody (some session) totals b' designId offset limit := by
  have hfilter : (treeFilter (some session) b designId).ownerRunIds =
      ownerRunIds (some session) b := rfl
  obtain ⟨hrows, hsame⟩ := sees_agrees hmember hagrees hfilter
  have hruns := runs_same hrows hsame (min (limit + 1) 500) offset
  have hcount := countRuns_same hrows
  unfold treeBody
  change _ = (b'.records.runs { treeFilter (some session) b designId with
    ownerRunIds := ownerRunIds (some session) b' } (min (limit + 1) 500) offset >>= _)
  rw [← hruns]
  cases hlisted : b.records.runs (treeFilter (some session) b designId) (min (limit + 1) 500)
      offset with
  | error e => rfl
  | ok summaries =>
      have hnodes : ((summaries.take limit.toNat).mapM fun summary ↦
            api.runDetail totals b summary.runId) =
          (summaries.take limit.toNat).mapM fun summary ↦
            api.runDetail totals b' summary.runId := by
        refine Except.mapM_congr fun summary hsummary ↦ runDetail_agrees ?_
        obtain ⟨run, hrun, hsees, hid⟩ := mem_runs hlisted (List.mem_of_mem_take hsummary)
        exact hid ▸ hsame run hrun hsees
      simp only [bind, Except.bind, hcount, hnodes]
      rfl

/-- With the same totals, the servers answer the user alike. -/
theorem handle_agrees (hlogs : b.LogsAgree session.userId b') (route : Route) :
    api.handle H env (some session) totals b query route =
      api.handle H env (some session) totals b' query route := by
  cases route with
  | runs =>
      unfold handle listRuns
      cases query.qInt env.int "limit" with
      | error e => rfl
      | ok limit =>
          cases query.qInt env.int "offset" with
          | error e => rfl
          | ok offset =>
              obtain ⟨hrows, hsame⟩ := sees_agrees hmember hagrees
                (f := listFilter (some session) b query) rfl
              simp only [bind, Except.bind]
              rw [runs_same hrows hsame]
              rfl
  | run runId =>
      refine ofRun_agrees hmember hmember' hagrees fun hown h ↦ ?_
      rw [runDetail_agrees h]
  | tree designId =>
      simp only [handle, designTree, treeBody_agrees hmember hagrees]
  | metrics runId =>
      refine ofRun_agrees hmember hmember' hagrees fun hown h ↦ ?_
      unfold Records.metricsView
      rw [h.runDetail]
  | artifacts runId =>
      refine ofRun_agrees hmember hmember' hagrees fun hown h ↦ ?_
      unfold Records.inventory
      rw [h.runDetail]
  | timeline runId =>
      refine ofRun_agrees hmember hmember' hagrees fun hown h ↦ ?_
      rw [h.timeline]
  | resources runId =>
      refine ofRun_agrees hmember hmember' hagrees fun hown h ↦ ?_
      unfold Records.resources
      rw [h.runDetail]
  | logs runId =>
      refine ofRun_agrees hmember hmember' hagrees fun hown h ↦ ?_
      unfold readLogs
      simp only [h.logs (hlogs runId hown)]
  | excerpt runId artifactId | chunk runId artifactId =>
      refine ofRun_agrees hmember hmember' hagrees fun hown h ↦ ?_
      unfold readExcerpt
      simp only [h.readArtifactExcerpt]
  | download runId artifactId =>
      refine ofRun_agrees hmember hmember' hagrees fun hown h ↦ ?_
      unfold artifactDownload
      rw [← h.runDetail]
      cases hd : b.records.runDetail runId with
      | error e => rfl
      | ok d =>
          simp only [Except.mapError, bind, Except.bind]
          cases hrows : d.artifactsNamed artifactId with
          | nil => rfl
          | cons row rows =>
              cases rows with
              | nil =>
                  have hrow : row ∈ d.artifactsNamed artifactId :=
                    hrows ▸ List.mem_singleton_self row
                  simp only [contentOf, h.readArtifact env.noFile hd hrow]
              | cons => rfl
  | graph =>
      simp only [handle, graph]
      split
      · rfl
      simp only [← requireOwnership_agrees hmember hmember' hagrees]
      cases hchecked : (query "run_id").forM fun runId ↦
          api.requireOwnership b.accounts (some session) "run" runId with
      | error e => rfl
      | ok =>
          have hsame : ∀ runId ∈ query "run_id", SameRun b.records b'.records runId := by
            intro runId hmem
            have hpassed := Except.forM_eq_ok.mp hchecked runId hmem
            rw [requireOwnership_member hmember] at hpassed
            split at hpassed
            · next hown => exact hagrees.rows runId (.inl hown)
            · cases hpassed
          rw [artifactGraph_same hsame]

end Agreement

/-! ## Reads -/

theorem authenticate_keeps {authorization : Option String} {now : Timestamp} {a : Accounts} :
    (api.authenticate H authorization now a).2.users = a.users ∧
      (api.authenticate H authorization now a).2.owners = a.owners := by
  unfold authenticate
  dsimp only
  split
  · exact Accounts.resolve_keeps
  · split <;> exact Accounts.resolve_keeps

/-- Only the user and the role of a session enter an answer. -/
theorem handle_session {session' : AuthSession} (huser : session'.userId = session.userId)
    (hdeveloper : session'.developer = session.developer) (route : Route) :
    api.handle H env (some session') totals b query route =
      api.handle H env (some session) totals b query route := by
  have howns : ∀ resourceType resourceId,
      api.requireOwnership b.accounts (some session') resourceType resourceId =
        api.requireOwnership b.accounts (some session) resourceType resourceId := by
    intro resourceType resourceId
    simp only [requireOwnership, owner, Option.any_some, huser, hdeveloper]
  have hlists : ownerRunIds (some session') b = ownerRunIds (some session) b := by
    simp only [ownerRunIds, Option.bind_some, huser, hdeveloper]
  cases route <;>
    simp only [handle, ofRun, graph, listRuns, listFilter, designTree, treeBody, treeFilter, howns,
      hlists]

theorem member_of_authenticate {authorization : Option String} {now : Timestamp} {a : Accounts}
    (h : (api.authenticate H authorization now a).1 = some session)
    (hdeveloper : session.developer = false) :
    Member session (api.authenticate H authorization now a).2 := by
  refine ⟨hdeveloper, ?_⟩
  unfold Accounts.user?
  rw [authenticate_keeps.1]
  unfold authenticate at h
  dsimp only at h
  split at h
  · next found hresolve =>
      obtain rfl := Option.some.inj h
      obtain ⟨row, user, _, huser, rfl⟩ := Accounts.resolve_eq_some hresolve
      have huser : Table.get? UserRow.userId row.userId a.users = some user := huser
      rw [huser]
      simpa using hdeveloper
  · split at h
    · obtain rfl := Option.some.inj h
      cases hdeveloper
    · cases h

/-- The answers to a request on two servers: the same but for the figures of the machine.  What
is sent of them is the same where they show none or the figures are alike, and the same but for
the figures where both fit into a response. -/
structure AnsweredAlike (api : KernelApi) (H : Bytes → String) (env : Surroundings)
    (r : GetRequest) (b b' : Backend) : Prop where
  answer : (api.answer H env b r).map Body.withoutFigures =
    (api.answer H env b' r).map Body.withoutFigures
  plain : (∀ body, api.answer H env b r = .ok body → body.showsFigures = false) →
    api.get H env b r = api.get H env b' r
  alike : b.records.totals = b'.records.totals → api.get H env b r = api.get H env b' r
  fits : (payload env (api.answer H env b r)).length ≤ maxResponseBytes →
    (payload env (api.answer H env b' r)).length ≤ maxResponseBytes →
      (api.get H env b r).map Body.withoutFigures = (api.get H env b' r).map Body.withoutFigures

theorem AnsweredAlike.of_answer {r : GetRequest}
    (hanswer : (api.answer H env b r).map Body.withoutFigures =
      (api.answer H env b' r).map Body.withoutFigures)
    (halike : b.records.totals = b'.records.totals →
      api.answer H env b r = api.answer H env b' r) : api.AnsweredAlike H env r b b' := by
  refine ⟨hanswer, fun hplain ↦ congrArg (send env) ?_, fun h ↦ congrArg (send env) (halike h),
    fun hfits hfits' ↦ ?_⟩
  · cases hbody : api.answer H env b r with
    | error e =>
        rw [hbody] at hanswer
        exact (Except.map_eq_error.mp hanswer.symm).symm
    | ok body =>
        rw [hbody] at hanswer
        obtain ⟨body', hbody', hsame⟩ := Except.map_eq_ok.mp hanswer.symm
        rw [hbody', Body.eq_of_withoutFigures hsame.symm (hplain body hbody)]
  · unfold get send
    rw [if_neg (not_lt.mpr hfits), if_neg (not_lt.mpr hfits')]
    exact hanswer

/-- Whatever two servers hold besides, a member who owns the same on both, with the same logs, is
answered the same on both, but for the figures of the machine. -/
theorem reads_reveal_own_runs {r : GetRequest} {session' : AuthSession}
    (hauth : (api.authenticate H r.authorization r.now b.accounts).1 = some session)
    (hauth' : (api.authenticate H r.authorization r.now b'.accounts).1 = some session')
    (huser : session'.userId = session.userId) (hdeveloper : session.developer = false)
    (hdeveloper' : session'.developer = false) (hagrees : b.Agrees session.userId b')
    (hlogs : b.LogsAgree session.userId b') : api.AnsweredAlike H env r b b' := by
  have hmember := member_of_authenticate hauth hdeveloper
  have hmember' : Member session (api.authenticate H r.authorization r.now b'.accounts).2 :=
    ⟨hdeveloper, huser ▸ (member_of_authenticate hauth' hdeveloper').account⟩
  have hagrees : Backend.Agrees session.userId
      { b with accounts := (api.authenticate H r.authorization r.now b.accounts).2 }
      { b' with accounts := (api.authenticate H r.authorization r.now b'.accounts).2 } :=
    hagrees.withAccounts authenticate_keeps.2 authenticate_keeps.2
  have hlogs : Backend.LogsAgree session.userId
      { b with accounts := (api.authenticate H r.authorization r.now b.accounts).2 }
      { b' with accounts := (api.authenticate H r.authorization r.now b'.accounts).2 } := by
    intro runId hown
    unfold Accounts.ownerOf at hown
    rw [authenticate_keeps.2] at hown
    exact hlogs runId hown
  suffices h : (api.answer H env b r).map Body.withoutFigures =
        (api.answer H env b' r).map Body.withoutFigures ∧
      (b.records.totals = b'.records.totals → api.answer H env b r = api.answer H env b' r) from
    .of_answer h.1 h.2
  unfold answer
  cases Route.ofPath env.unquote r.path with
  | error e => exact ⟨rfl, fun _ ↦ rfl⟩
  | ok route =>
      simp only [bind, Except.bind]
      rw [← Prod.eta (api.authenticate H r.authorization r.now b.accounts), hauth,
        ← Prod.eta (api.authenticate H r.authorization r.now b'.accounts), hauth']
      simp only [handle_session huser (hdeveloper'.trans hdeveloper.symm)]
      constructor
      · exact (handle_withoutFigures route).trans
          (congrArg (Except.map Body.withoutFigures)
            (handle_agrees hmember hmember' hagrees hlogs route))
      · intro htotals
        rw [htotals]
        exact handle_agrees hmember hmember' hagrees hlogs route

end KernelApi

/-! ## A server with another user's run -/

namespace Sample

def member : UserRow where
  userId := "u1"
  username := "alice"
  passwordSalt := []
  passwordHash := []
  passwordIterations := 1
  role := .member
  createdAt := 0

def ownRun : RunRow where
  runId := "r1"
  taskId := "task"
  idempotencyKey := none
  status := .queued
  taskSpec := { taskId := "task", projectId := "project", designId := "design" }
  createdAt := 0

def ownStage : StageRow where
  stageRunId := "s1"
  runId := "r1"
  stageKey := "main"
  ordinal := 0
  pluginId := "plugin"
  pluginVersion := "1"
  status := .queued
  createdAt := 0

def ownAttempt : AttemptRow where
  attemptId := "a1"
  stageRunId := "s1"
  attemptNumber := 1
  status := .running
  workspace := "/work/1"
  workerId := "worker"
  leaseExpiresAt := some 1
  heartbeatAt := some 0
  startedAt := 0

/-- A hash under which the digests of an empty input base and of the token are like those of
SHA-256. -/
def digest : Bytes → String :=
  ChipEvolve.Sample.hash
    [JsonText.utf8 (JsonText.array ManifestEntry.text []), JsonText.utf8 "token".toList]

/-- One member with a session, who owns a run; other runs are another user's. -/
def accountsBeside (others : List RunRow) : Accounts where
  users := [member]
  sessions := [{ tokenHash := Accounts.tokenHash digest "token", sessionId := "session"
                 userId := "u1", createdAt := 0, expiresAt := 1, lastSeenAt := 0 }]
  owners := { resourceType := "run", resourceId := "r1", userId := "u1", createdAt := 0 } ::
    others.map fun run ↦
      { resourceType := "run", resourceId := run.runId, userId := "u2", createdAt := 0 }

/-- The run of the member has an attempt with a log; others have the runs and the reservations
given. -/
def shared (others : List RunRow) (reservations : List ReservationRow) (log : Bytes) : Backend where
  accounts := accountsBeside others
  records :=
    { system := { tables := { runs := { ownRun with status := .running } :: others
                              stages := [{ ownStage with status := .running }]
                              attempts := [ownAttempt]
                              reservations := reservations } }
      opened := fun attemptId filename ↦
        if attemptId = "a1" ∧ filename = logFilename then some log else none }

def getLogs : GetRequest where
  authorization := some "Bearer token"
  path := "runs/r1/logs"
  query := fun _ ↦ []
  now := 0

/-- The JSON text of logs with printable characters. -/
def logsText (view : LogView) : List Char :=
  "\x7b\"logs\": \x7b\"run\": ".toList ++ JsonText.text view.run ++
    ", \"offset\": ".toList ++ (toString view.offset).toList ++
    ", \"max_bytes\": ".toList ++ (toString view.maxBytes).toList ++
    ", \"content\": ".toList ++
    JsonText.text (String.ofList (view.content.map Char.ofUInt8)) ++ ['\x7d', '\x7d']

def surroundings : Surroundings where
  int := fun _ ↦ none
  unquote := id
  noFile := id
  dumps
    | .ok (.logs view) => JsonText.utf8 (logsText view)
    | .ok _ => []
    | .error e => JsonText.utf8 ("\x7b\"error\": ".toList ++ JsonText.text e.message ++ ['\x7d'])

theorem ownerOf_accountsBeside {others : List RunRow} {resourceType resourceId : String} :
    (accountsBeside others).ownerOf resourceType resourceId = some "u1" ↔
      resourceType = "run" ∧ resourceId = "r1" := by
  simp only [accountsBeside, Accounts.ownerOf, List.find?_cons]
  split
  · next heq =>
      obtain ⟨htype, hid⟩ := Bool.and_eq_true_iff.mp heq
      exact iff_of_true rfl ⟨(of_decide_eq_true htype).symm, (of_decide_eq_true hid).symm⟩
  · next hne =>
      refine iff_of_false (fun h ↦ ?_) fun h ↦ ?_
      · obtain ⟨row, hrow, huser⟩ := Option.map_eq_some_iff.mp h
        obtain ⟨run, _, rfl⟩ := List.mem_map.mp (List.mem_of_find?_eq_some hrow)
        simp at huser
      · simp [h.1, h.2] at hne

theorem shared_agrees {others : List RunRow} (hothers : ∀ run ∈ others, run.runId ≠ "r1")
    (reservations : List ReservationRow) (log log' : Bytes) :
    (shared [] [] log).Agrees "u1" (shared others reservations log') := by
  have howned : ∀ runs, (accountsBeside runs).resourcesOwned "run" "u1" = ["r1"] := by
    intro runs
    simp [accountsBeside, Accounts.resourcesOwned]
  refine ⟨fun _ _ ↦ ownerOf_accountsBeside.trans ownerOf_accountsBeside.symm, ?_, ?_⟩
  · have hnone : others.filter (fun run ↦ decide (run.runId = "r1")) = [] :=
      List.filter_eq_nil_iff.mpr fun run hrun ↦ by simpa using hothers run hrun
    simp only [shared, howned, Records.tables, Bundle.World.tables, List.mem_singleton,
      List.filter_cons, hnone]
    rfl
  · intro runId hown
    have hrun : runId = "r1" := by
      rcases hown with hown | hown
      · exact (ownerOf_accountsBeside.mp hown).2
      · simpa [shared, howned] using hown
    subst hrun
    exact ⟨rfl, rfl, fun _ _ _ ↦ rfl, fun _ _ _ _ _ ↦ ⟨rfl, rfl, rfl, fun _ h ↦ by cases h⟩, rfl⟩

def alice : AuthSession where
  userId := "u1"
  username := "alice"
  developer := false
  sessionId := "session"

/-- Another user's run and its reservation do not show. -/
theorem reads_reveal_own_runs_shared :
    api.AnsweredAlike digest surroundings getLogs (shared [] [] [111, 107])
      (shared [{ ownRun with runId := "r2" }]
        [{ attemptId := "a2", cpuCores := 1, memoryBytes := 1 }] [111, 107]) := by
  have hauth : (api.authenticate digest getLogs.authorization getLogs.now
      (shared [] [] [111, 107]).accounts).1 = some alice := by decide +kernel
  exact KernelApi.reads_reveal_own_runs hauth hauth rfl rfl rfl
    (shared_agrees (by simp [ownRun]) _ _ _) fun _ _ _ _ _ _ _ ↦ rfl

/-- The log that an answer holds. -/
def logOf : Except HttpError Body → Option Bytes
  | .ok (.logs view) => some view.content
  | _ => none

/-- A log is no row and no artifact, and it is read. -/
theorem own_log_shows :
    (shared [] [] [97]).Agrees alice.userId (shared [] [] [98]) ∧
      (∀ log, (api.authenticate digest getLogs.authorization getLogs.now
        (shared [] [] log).accounts).1 = some alice) ∧ alice.developer = false ∧
      (api.get digest surroundings (shared [] [] [97]) getLogs).map Body.withoutFigures ≠
        (api.get digest surroundings (shared [] [] [98]) getLogs).map Body.withoutFigures := by
  refine ⟨shared_agrees (by simp) _ _ _, fun log ↦ ?_, rfl, fun h ↦ ?_⟩
  · have haccounts : (shared [] [] log).accounts = accountsBeside [] := rfl
    rw [haccounts]
    decide +kernel
  · have hlog := congrArg logOf h
    have hdiffers : logOf ((api.get digest surroundings (shared [] [] [97]) getLogs).map
          Body.withoutFigures) = some [97] ∧
        logOf ((api.get digest surroundings (shared [] [] [98]) getLogs).map
          Body.withoutFigures) = some [98] := by decide +kernel
    rw [hdiffers.1, hdiffers.2] at hlog
    cases hlog

end Sample

end ChipEvolve.Gateway
