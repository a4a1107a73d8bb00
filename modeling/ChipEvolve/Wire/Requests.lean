import ChipEvolve.Gateway.Forwarding
import ChipEvolve.Gateway.Runs

/-!
# What the client asks of the kernel

The calls of `KernelClient` (`client.py`): the request that `_call` sends for each, and
what the server makes of it before a handler is called (`router.py`, `kernel_api.py`).
-/

namespace ChipEvolve.Wire

open Gateway Gateway.Routing Percent Separated Url

/-! ## Calls -/

/-- What stands under a key of a query. -/
inductive Value where
  | none
  | text (t : Text)
  | number (n : Int)
  | texts (ts : List Text)
  deriving DecidableEq

namespace Value

/-- `v is not None and v != "" and v != []` -/
def isGiven (v : Value) : Bool := v ≠ none && v ≠ text [] && v ≠ texts []

/-- `str(value)`, or `str(item)` for each of several. -/
def written : Value → List Text
  | none => []
  | text t => [t]
  | number n => [(toString n).toList]
  | texts ts => ts

def ofText? (t : Option Text) : Value := t.elim none text

def ofNumber? (n : Option Int) : Value := n.elim none number

/-- `"1" if flag else None` -/
def ofFlag (flag : Bool) : Value := if flag then text ['1'] else none

end Value

inductive Payload where
  | none
  | json (value : Json)
  | bytes (content : Bytes)

/-- The arguments of `_call`. -/
structure Sending where
  method : String
  path : Text
  payload : Payload := .none
  query : List (Text × Value) := []

/-- `_seg` -/
def seg (value : Text) : Text := quote value

/-- A call of a method of `KernelClient`; those of `upload_input_chunks` one by one. -/
inductive Call where
  | register (username password : String)
  | login (username password : String)
  | session
  | logout
  | health
  | plugins
  | uploadInput (content : Bytes)
  | uploadInputChunk (uploadId : Text) (offset : Int) (final : Bool) (chunk : Bytes)
  | submit (task : JsonObject) (idempotent : Bool) (idempotencyKey : Option Text)
      (pluginVersion : Option String)
  | runs (projectId designId pluginId status : Option Text) (limit : Option Int) (offset : Int)
  | run (runId : Text)
  | designTree (designId : Text) (limit : Option Int) (offset : Int)
  | cancel (runId : Text)
  | retry (runId : Text) (reason : String)
  | bundle (runId : Text)
  | metrics (runId : Text) (completeOnly : Bool)
  | artifacts (runId : Text) (category format stage : Option Text)
  | timeline (runId : Text)
  | resources (runId : Text)
  | logs (runId : Text) (offset : Int) (maxBytes : Option Int)
  | artifactExcerpt (runId artifactId : Text) (offset maxBytes : Int)
  | artifactBytes (runId artifactId : Text)
  | artifactChunk (runId artifactId : Text) (offset maxBytes : Int)
  | graph (runIds : List Text)

/-- `MAX_EXCERPT_BYTES` -/
def maxExcerptBytes : Int := 64 * 1024

/-- `0 < max_bytes <= MAX_EXCERPT_BYTES`, or a `ValueError`. -/
def bounded (maxBytes : Int) (sending : Sending) : Except String Sending :=
  if 0 < maxBytes ∧ maxBytes ≤ maxExcerptBytes then .ok sending
  else .error ("max_bytes must be between 1 and " ++ toString maxExcerptBytes)

/-- The task that `submit` posts. -/
def taskPayload (task : JsonObject) (pluginVersion : Option String) :
    Except String JsonObject :=
  match pluginVersion with
  | none => .ok task
  | some version =>
      let existing := (task.get? "plugin_version").getD .null
      if !existing.isNull && !existing.pyEq (.str version) then
        .error "plugin_version argument conflicts with the task payload"
      else .ok (task.set "plugin_version" (.str version))

namespace Call

def credentials (username password : String) : Payload :=
  .json (.obj [("username", .str username), ("password", .str password)])

def ofRun (runId : Text) : Text := "/kernel/runs/".toList ++ seg runId

def ofArtifact (runId artifactId : Text) : Text :=
  ofRun runId ++ "/artifacts/".toList ++ seg artifactId

/-- What a method gives to `_call`, unless it raises a `ValueError`. -/
def sending : Call → Except String Sending
  | register username password =>
      .ok { method := "POST", path := "/kernel/auth/register".toList
            payload := credentials username password }
  | login username password =>
      .ok { method := "POST", path := "/kernel/auth/login".toList
            payload := credentials username password }
  | session => .ok { method := "GET", path := "/kernel/auth/session".toList }
  | logout => .ok { method := "POST", path := "/kernel/auth/logout".toList }
  | health => .ok { method := "GET", path := "/kernel/health".toList }
  | plugins => .ok { method := "GET", path := "/kernel/plugins".toList }
  | uploadInput content =>
      .ok { method := "POST", path := "/kernel/inputs".toList, payload := .bytes content }
  | uploadInputChunk uploadId offset final chunk =>
      .ok { method := "POST", path := "/kernel/inputs/chunk".toList, payload := .bytes chunk
            query := [("upload_id".toList, .text uploadId), ("offset".toList, .number offset),
              ("final".toList, .ofFlag final)] }
  | submit task idempotent idempotencyKey pluginVersion =>
      (taskPayload task pluginVersion).map fun payload ↦
        { method := "POST", path := "/kernel/runs".toList
          payload := .json (.obj [("task", .obj payload)])
          query := [("idempotent".toList, .ofFlag idempotent),
            ("idempotency_key".toList, .ofText? idempotencyKey)] }
  | runs projectId designId pluginId status limit offset =>
      .ok { method := "GET", path := "/kernel/runs".toList
            query := [("project_id".toList, .ofText? projectId),
              ("design_id".toList, .ofText? designId), ("plugin_id".toList, .ofText? pluginId),
              ("status".toList, .ofText? status), ("limit".toList, .ofNumber? limit),
              ("offset".toList, .number offset)] }
  | run runId => .ok { method := "GET", path := ofRun runId }
  | designTree designId limit offset =>
      .ok { method := "GET", path := "/kernel/designs/".toList ++ seg designId ++ "/tree".toList
            query := [("limit".toList, .ofNumber? limit), ("offset".toList, .number offset)] }
  | cancel runId => .ok { method := "POST", path := ofRun runId ++ "/cancel".toList }
  | retry runId reason =>
      .ok { method := "POST", path := ofRun runId ++ "/retry".toList
            payload := .json (.obj [("reason", .str reason)]) }
  | bundle runId => .ok { method := "POST", path := ofRun runId ++ "/bundle".toList }
  | metrics runId completeOnly =>
      .ok { method := "GET", path := ofRun runId ++ "/metrics".toList
            query := [("complete_only".toList, .ofFlag completeOnly)] }
  | artifacts runId category format stage =>
      .ok { method := "GET", path := ofRun runId ++ "/artifacts".toList
            query := [("category".toList, .ofText? category), ("format".toList, .ofText? format),
              ("stage".toList, .ofText? stage)] }
  | timeline runId => .ok { method := "GET", path := ofRun runId ++ "/timeline".toList }
  | resources runId => .ok { method := "GET", path := ofRun runId ++ "/resources".toList }
  | logs runId offset maxBytes =>
      .ok { method := "GET", path := ofRun runId ++ "/logs".toList
            query := [("offset".toList, .number offset),
              ("max_bytes".toList, .ofNumber? maxBytes)] }
  | artifactExcerpt runId artifactId offset maxBytes =>
      bounded maxBytes
        { method := "GET", path := ofArtifact runId artifactId ++ "/excerpt".toList
          query := [("offset".toList, .number offset), ("max_bytes".toList, .number maxBytes)] }
  | artifactBytes runId artifactId =>
      .ok { method := "GET", path := ofArtifact runId artifactId ++ "/download".toList }
  | artifactChunk runId artifactId offset maxBytes =>
      bounded maxBytes
        { method := "GET", path := ofArtifact runId artifactId ++ "/chunk".toList
          query := [("offset".toList, .number offset), ("max_bytes".toList, .number maxBytes)] }
  | graph runIds =>
      .ok { method := "GET", path := "/kernel/graph".toList
            query := [("run_id".toList, .texts runIds)] }

end Call

/-! ## Sending -/

/-- `json.dumps`, encoded, and `json.loads` of octets; no text is empty. -/
structure Codec where
  dumps : Json → Bytes
  loads : Bytes → Option Json
  loads_nil : loads [] = none

/-- A request as it arrives. -/
structure Message where
  method : String
  target : Text
  authorization : Option String
  contentType : Option Text
  contentLength : Option Nat
  body : Bytes

structure KernelClient where
  baseUrl : BaseUrl
  token : Option String

/-- The parameters of a query that are sent. -/
def cleaned (query : List (Text × Value)) : List (Text × List Text) :=
  (query.filter fun field ↦ field.2.isGiven).map fun field ↦ (field.1, field.2.written)

namespace KernelClient

variable (client : KernelClient) (codec : Codec)

def url (sending : Sending) : Text :=
  client.baseUrl.text.rdropWhile (· = '/') ++ sending.path ++ queryText (cleaned sending.query)

def authorization : Option String :=
  (client.token.filter (· ≠ "")).map fun token ↦ "Bearer " ++ token

/-- The body, its type, and the length that `http.client` announces. -/
def content (method : String) : Payload → Bytes × Option Text × Option Nat
  | .none => ([], none, if method = "POST" then some 0 else none)
  | .json value =>
      (codec.dumps value, some "application/json".toList, some (codec.dumps value).length)
  | .bytes content => (content, some "application/octet-stream".toList, some content.length)

/-- `_call` up to `urlopen` -/
def send (sending : Sending) : Option Message :=
  (requestTarget? (client.url sending)).map fun target ↦
    let (body, contentType, contentLength) := content codec sending.method sending.payload
    { method := sending.method
      target := target
      authorization := client.authorization
      contentType := contentType
      contentLength := contentLength
      body := body }

end KernelClient

/-! ## Receiving -/

/-- The handlers of `KernelApi`. -/
inductive Operation where
  | health
  | authRegister
  | authLogin
  | authSession
  | authLogout
  | plugins
  | ingestInput
  | ingestInputChunk
  | submitRun
  | listRuns
  | getRun
  | designTree
  | cancelRun
  | retryRun
  | bundle
  | metrics
  | artifacts
  | timeline
  | resources
  | logs
  | artifactExcerpt
  | artifactDownload
  | artifactChunk
  | graph
  deriving DecidableEq

/-- `KernelApi.register` -/
def kernelOperations : List (String × String × Operation) :=
  [("GET", "/kernel/health", .health), ("POST", "/kernel/auth/register", .authRegister),
    ("POST", "/kernel/auth/login", .authLogin), ("GET", "/kernel/auth/session", .authSession),
    ("POST", "/kernel/auth/logout", .authLogout), ("GET", "/kernel/plugins", .plugins),
    ("POST", "/kernel/inputs", .ingestInput), ("POST", "/kernel/inputs/chunk", .ingestInputChunk),
    ("POST", "/kernel/runs", .submitRun), ("GET", "/kernel/runs", .listRuns),
    ("GET", "/kernel/runs/{run_id}", .getRun),
    ("GET", "/kernel/designs/{design_id}/tree", .designTree),
    ("POST", "/kernel/runs/{run_id}/cancel", .cancelRun),
    ("POST", "/kernel/runs/{run_id}/retry", .retryRun),
    ("POST", "/kernel/runs/{run_id}/bundle", .bundle),
    ("GET", "/kernel/runs/{run_id}/metrics", .metrics),
    ("GET", "/kernel/runs/{run_id}/artifacts", .artifacts),
    ("GET", "/kernel/runs/{run_id}/timeline", .timeline),
    ("GET", "/kernel/runs/{run_id}/resources", .resources),
    ("GET", "/kernel/runs/{run_id}/logs", .logs),
    ("GET", "/kernel/runs/{run_id}/artifacts/{artifact_id}/excerpt", .artifactExcerpt),
    ("GET", "/kernel/runs/{run_id}/artifacts/{artifact_id}/download", .artifactDownload),
    ("GET", "/kernel/runs/{run_id}/artifacts/{artifact_id}/chunk", .artifactChunk),
    ("GET", "/kernel/graph", .graph)]

/-- A handler of the kernel, or one of the entry point. -/
inductive Endpoint where
  | kernel (operation : Operation)
  | gateway (handler : Handler)
  deriving DecidableEq

def Endpoint.kind : Endpoint → Handler
  | kernel _ => .kernel
  | gateway handler => handler

/-- The routes of the entry point with the kernel attached. -/
def endpointRows : List (String × String × Endpoint) :=
  kernelOperations.map (fun r ↦ (r.1, r.2.1, .kernel r.2.2)) ++
    gatewayRoutes.map fun r ↦ (r.1, r.2.1, .gateway r.2.2)

def endpoints : List (Route Endpoint) :=
  endpointRows.foldl (fun routes r ↦ add .ascii r.1 r.2.1.toList r.2.2 routes) []

/-- What a handler is called with. -/
structure Received where
  endpoint : Endpoint
  params : List (Text × Text)
  query : List (Text × List Text)
  authorization : Option String
  body : Payload

/-- `MAX_BODY_BYTES` -/
def maxBodyBytes : Nat := 1024 * 1024

/-- `content_type.split(";", 1)[0].strip().lower()` -/
def mediaType (contentType : Option Text) : Text :=
  (Apps.strip (splitFirst ';' (contentType.getD [])).1).map Char.toLower

/-- `_read_body` -/
def readBody (codec : Codec) (m : Message) : Except HttpError Payload :=
  match m.contentLength with
  | none => .ok .none
  | some size =>
      if maxBodyBytes < size then
        .error ⟨413, "request body exceeds " ++ toString maxBodyBytes ++ " bytes"⟩
      else
        let octets : Bool := mediaType m.contentType = "application/octet-stream".toList
        if size = 0 then .ok (if octets then .bytes [] else .none)
        else if octets then .ok (.bytes (m.body.take size))
        else
          match codec.loads (m.body.take size) with
          | some value => .ok (.json value)
          | none => .error ⟨400, "request body must be JSON"⟩

/-- `_handle` up to the call of the handler; `urlparse` may refuse a network location. -/
def receive (acceptsNetloc : Text → Bool) (codec : Codec) (m : Message) :
    Option (Except HttpError Received) :=
  (urlparse? acceptsNetloc m.target).map fun parsed ↦ do
    let body ← readBody codec m
    match matchRoute endpoints m.method parsed.path with
    | some (route, params) =>
        return {
          endpoint := route.handler
          params := params
          query := parseQs false parsed.query
          authorization := m.authorization
          body := body }
    | none =>
        if allowedMethods endpoints parsed.path = [] then .error ⟨404, "not found"⟩
        else .error ⟨405, m.method ++ " is not allowed here"⟩

/-! ## What a call is for -/

namespace Call

/-- The handler that a method is written for. -/
def operation : Call → Operation
  | register _ _ => .authRegister
  | login _ _ => .authLogin
  | session => .authSession
  | logout => .authLogout
  | health => .health
  | plugins => .plugins
  | uploadInput _ => .ingestInput
  | uploadInputChunk _ _ _ _ => .ingestInputChunk
  | submit _ _ _ _ => .submitRun
  | runs _ _ _ _ _ _ => .listRuns
  | run _ => .getRun
  | designTree _ _ _ => .designTree
  | cancel _ => .cancelRun
  | retry _ _ => .retryRun
  | bundle _ => .bundle
  | metrics _ _ => .metrics
  | artifacts _ _ _ _ => .artifacts
  | timeline _ => .timeline
  | resources _ => .resources
  | logs _ _ _ => .logs
  | artifactExcerpt _ _ _ _ => .artifactExcerpt
  | artifactBytes _ _ => .artifactDownload
  | artifactChunk _ _ _ _ => .artifactChunk
  | graph _ => .graph

/-- The ids that a method puts into its path, under the names that handlers read them by. -/
def ids : Call → List (Text × Text)
  | run runId | cancel runId | retry runId _ | bundle runId | metrics runId _
  | artifacts runId _ _ _ | timeline runId | resources runId | logs runId _ _ =>
      [("run_id".toList, runId)]
  | designTree designId _ _ => [("design_id".toList, designId)]
  | artifactExcerpt runId artifactId _ _ | artifactBytes runId artifactId
  | artifactChunk runId artifactId _ _ =>
      [("run_id".toList, runId), ("artifact_id".toList, artifactId)]
  | _ => []

end Call

/-- The texts under each key that are not blank. -/
def withoutBlanks (query : List (Text × Value)) : List (Text × List Text) :=
  (query.map fun field ↦ (field.1, field.2.written.filter (· ≠ []))).filter (·.2 ≠ [])

/-- What the handler should be called with. -/
def expected (client : KernelClient) (call : Call) (sending : Sending) : Received where
  endpoint := .kernel call.operation
  params := call.ids
  query := withoutBlanks sending.query
  authorization := client.authorization
  body := sending.payload

end ChipEvolve.Wire
