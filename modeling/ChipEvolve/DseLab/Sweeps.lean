import ChipEvolve.Gateway.Owned

/-!
# Sweeps of the laboratory

`dse_lab` (`__main__.py`) keeps the points of a sweep in a database of its own and submits each
to the kernel under a task id of its own.  A comparison reads the points again and asks the
kernel for the run of each.  The threads of the service meet each other and whatever else
happens to the kernel between any two of their statements and calls.
-/

namespace ChipEvolve.DseLab

open Apps (strip)
open Gateway

/-! ## The database -/

structure Sweep where
  sweepId : String
  name : String
  pluginId : String
  inputs : JsonObject
  createdAt : Timestamp

structure Point where
  pointId : String
  sweepId : String
  ordinal : Nat
  parameters : JsonObject
  taskId : Option String := none
  runId : Option String := none

structure SweepStore where
  sweeps : List Sweep := []
  points : List Point := []

inductive LabError where
  | refused (status : Nat) (message : String)
  /-- `sqlite3.IntegrityError` -/
  | integrity

/-- The body of `POST /sweeps`. -/
structure SweepRequest where
  name : String
  pluginId : String
  inputs : JsonObject
  points : List JsonObject

/-- The ids and the time of `create_sweep`. -/
structure SweepDraws where
  sweepId : String
  pointId : Nat → String
  now : Timestamp

def maxPointsPerSweep : Nat := 64

def maxComparisonRuns : Nat := Apps.Program.maxComparisonRuns

namespace SweepStore

/-- The primary key and the unique ordinal of a sweep. -/
def refusesPoint (points : List Point) (p : Point) : Bool :=
  points.any fun q ↦ q.pointId = p.pointId || (q.sweepId = p.sweepId && q.ordinal = p.ordinal)

def insertPoints (d : SweepDraws) : Nat → List JsonObject → List Point → Option (List Point)
  | _, [], points => some points
  | ordinal, parameters :: rest, points =>
      let point : Point :=
        { pointId := d.pointId ordinal
          sweepId := d.sweepId
          ordinal := ordinal
          parameters := parameters }
      if refusesPoint points point then none
      else insertPoints d (ordinal + 1) rest (points ++ [point])

def createSweep (a : SweepRequest) (d : SweepDraws) (t : SweepStore) :
    Except LabError String × SweepStore :=
  if strip a.name.toList = [] then (.error (.refused 400 "a sweep name is required"), t)
  else if strip a.pluginId.toList = [] then (.error (.refused 400 "a plugin id is required"), t)
  else if a.points.isEmpty then (.error (.refused 400 "a sweep needs at least one point"), t)
  else if maxPointsPerSweep < a.points.length then
    (.error (.refused 400
      ("a sweep is limited to " ++ toString maxPointsPerSweep ++ " points")), t)
  else if t.sweeps.any fun sweep ↦ sweep.sweepId = d.sweepId then (.error .integrity, t)
  else
    match insertPoints d 0 a.points t.points with
    | none => (.error .integrity, t)
    | some points =>
        (.ok d.sweepId,
          { sweeps := t.sweeps ++ [{ sweepId := d.sweepId
                                     name := String.ofList (strip a.name.toList)
                                     pluginId := String.ofList (strip a.pluginId.toList)
                                     inputs := a.inputs
                                     createdAt := d.now }]
            points := points })

def sweep? (t : SweepStore) (sweepId : String) : Option Sweep :=
  Table.get? Sweep.sweepId sweepId t.sweeps

/-- `ORDER BY ordinal` -/
def pointsOf (t : SweepStore) (sweepId : String) : List Point :=
  (t.points.filter fun p ↦ p.sweepId = sweepId).insertionSort fun p q ↦ p.ordinal ≤ q.ordinal

def getSweep (t : SweepStore) (sweepId : String) : Except LabError (Sweep × List Point) :=
  match t.sweep? sweepId with
  | none => .error (.refused 404 ("unknown sweep " ++ quoted sweepId))
  | some sweep => .ok (sweep, t.pointsOf sweepId)

def recordSubmission (pointId taskId runId : String) (t : SweepStore) : SweepStore :=
  { t with
    points := Table.update (fun p ↦ p.pointId = pointId)
      (fun p ↦ { p with taskId := some taskId, runId := some runId }) t.points }

end SweepStore

/-! ## The tasks -/

/-- `f"{sweep_id}-p{point['ordinal']}"` -/
def taskId (sweepId : String) (ordinal : Nat) : String := sweepId ++ "-p" ++ toString ordinal

def Point.ownTaskId (p : Point) : String := DseLab.taskId p.sweepId p.ordinal

/-- The task of a point, as `TaskSpec.from_dict` reads the dictionary `submit_sweep` builds. -/
def taskOf (str : Json → String) (sweep : Sweep) (a : SweepRequest) (p : Point) : TaskSpec where
  taskId := taskId sweep.sweepId p.ordinal
  projectId := sweep.pluginId
  designId :=
    match a.inputs.get? "design" with
    | some design => if design.truthy then str design else "unknown"
    | none => "unknown"
  pluginId := some a.pluginId
  inputs := a.inputs
  parameters := p.parameters
  schemaVersion := 3

/-- `_error_message`, for the JSON of an `HttpError` -/
def errorMessage (e : HttpError) : String :=
  if e.message = "" then "kernel returned HTTP " ++ toString e.status else e.message

/-- `f"refused: {exc}"` -/
def refusedText (message : String) : String := "refused: " ++ message

/-! ## The comparison -/

inductive RowStatus where
  | refused
  | notCompared
  | unavailable
  | ran (status : RuntimeStatus)
  deriving DecidableEq

structure Metric where
  complete : Bool
  fields : JsonObject

structure Row where
  ordinal : Nat
  parameters : JsonObject
  runId : Option String
  status : RowStatus
  reason : Option String := none
  terminalReason : Option String := none
  metrics : List Metric := []
  unsourced : Option Nat := none

structure Summary where
  points : Nat
  succeeded : Nat
  failed : Nat
  refused : Nat
  unsourcedMetrics : Nat

structure Report where
  sweep : Sweep
  points : List Row
  summary : Summary

namespace Point

/-- `run_id.startswith("refused:") or not run_id`, for `point["run_id"] or ""` -/
def isRefused (p : Point) : Bool :=
  let runId := p.runId.getD ""
  "refused:".toList.isPrefixOf runId.toList || runId = ""

/-- `run_id.removeprefix("refused: ") or "not submitted"` -/
def refusal (p : Point) : String :=
  let runId := (p.runId.getD "").toList
  let text := if "refused: ".toList.isPrefixOf runId then runId.drop 9 else runId
  if text = [] then "not submitted" else String.ofList text

def row (p : Point) (status : RowStatus) (reason : Option String) : Row where
  ordinal := p.ordinal
  parameters := p.parameters
  runId := p.runId
  status := status
  reason := reason

def measuredRow (p : Point) (run : RunRow) (metrics : List Metric) : Row :=
  { p.row (.ran run.status) none with
    terminalReason := run.terminalReason
    metrics := metrics
    unsourced := some (metrics.countP fun m ↦ !m.complete) }

end Point

def Summary.of (rows : List Row) : Summary where
  points := rows.length
  succeeded := rows.countP fun r ↦ r.status = .ran .succeeded
  failed := rows.countP fun r ↦ r.status = .ran .failed
  refused := rows.countP fun r ↦ r.status = .refused
  unsourcedMetrics := (rows.map fun r ↦ r.unsourced.getD 0).sum

structure Comparison where
  sweep : Sweep
  seenRuns : Nat := 0
  rest : List Point
  rows : List Row := []

def Comparison.add (c : Comparison) (rest : List Point) (seenRuns : Nat) (row : Row) :
    Comparison :=
  { c with rest := rest, seenRuns := seenRuns, rows := c.rows ++ [row] }

def Comparison.report (c : Comparison) : Report where
  sweep := c.sweep
  points := c.rows
  summary := .of c.rows

/-! ## Threads -/

abbrev ThreadId := Nat

inductive Stage where
  | idle
  /-- The sweep is in the database, and `submit_sweep` is to read it again. -/
  | created (sweepId : String) (a : SweepRequest)
  | submitting (sweep : Sweep) (a : SweepRequest) (rest : List Point)
  /-- `client.submit` has sent its request and waits for the answer. -/
  | calling (sweep : Sweep) (a : SweepRequest) (p : Point) (id : RequestId) (rest : List Point)
  /-- The call for the point is over, and `record_submission` is next. -/
  | recording (sweep : Sweep) (a : SweepRequest) (p : Point) (runId : String) (rest : List Point)
  | comparing (c : Comparison)
  /-- The kernel has answered with the run, and is asked for the metrics. -/
  | measuring (c : Comparison) (p : Point) (run : RunRow) (rest : List Point)

structure Lab where
  store : SweepStore := {}
  gate : Gate := {}
  /-- The runs that the handlers of the kernel answer with. -/
  runs : RequestId → Option RunRow := fun _ ↦ none
  stage : ThreadId → Stage := fun _ ↦ .idle
  /-- The sweeps whose `submit_sweep` has returned. -/
  submitted : List String := []
  reports : List Report := []

inductive LabEvent where
  | create (thread : ThreadId) (a : SweepRequest) (d : SweepDraws)
  | load (thread : ThreadId)
  /-- `client.submit` sends its request, which brings what the kernel meets. -/
  | submit (thread : ThreadId) (id : RequestId) (r : RunRequest)
  /-- The answer arrives; a refusal has this message. -/
  | hear (thread : ThreadId) (message : String)
  /-- The request is not sent, or its answer is lost or unreadable: the exception has this text. -/
  | unreachable (thread : ThreadId) (text : String)
  | record (thread : ThreadId)
  | compare (thread : ThreadId) (sweepId : String)
  /-- The next point of a comparison; `failure` is the text of a `KernelError`. -/
  | look (thread : ThreadId) (failure : Option String)
  | measure (thread : ThreadId) (answer : Except String (List Metric))
  | answer (thread : ThreadId)
  /-- The handler ends in an exception. -/
  | dies (thread : ThreadId)
  /-- A handler of the kernel makes its next step, or something else happens to the kernel. -/
  | kernel (e : GateEvent)

namespace Lab

variable (H : Bytes → String) (derive : String → Bytes → Nat → Bytes) (api : KernelApi)
variable (zip : Bundle.Archive → Bytes) (str : Json → String)

/-- The run that a handler of the kernel gets when it submits its task. -/
def submittedRun (w : Bundle.World) : Progress → Option RunRow
  | .submitting _ r task => (api.submit H r task ⟨w.depot, w.tables⟩).1.toOption
  | _ => none

def runsAfter (s : Gate) (runs : RequestId → Option RunRow) :
    GateEvent → RequestId → Option RunRow
  | .advances id _ =>
      match (s.requests id).bind (submittedRun H api s.stores) with
      | some run => Function.update runs id (some run)
      | none => runs
  | _ => runs

/-- The request of `client.submit(task, idempotent=True)`. -/
def request (task : TaskSpec) (r : RunRequest) : RunRequest :=
  { r with body := .names task, idempotent := some "1", idempotencyKey := none }

/-- What `submit_sweep` records for an answer. -/
def recorded (status : Nat) (run : Option RunRow) (message : String) : String :=
  match run with
  | some run => if status = 201 then run.runId else refusedText (errorMessage ⟨status, message⟩)
  | none => refusedText (errorMessage ⟨status, message⟩)

def goto (s : Lab) (thread : ThreadId) (stage : Stage) : Lab :=
  { s with stage := Function.update s.stage thread stage }

def lookAt (s : Lab) (thread : ThreadId) (c : Comparison) (p : Point) (rest : List Point)
    (failure : Option String) : Option Lab :=
  if p.isRefused then
    some (s.goto thread
      (.comparing (c.add rest c.seenRuns (p.row .refused (some p.refusal)))))
  else if maxComparisonRuns ≤ c.seenRuns then
    some (s.goto thread (.comparing (c.add rest c.seenRuns (p.row .notCompared
      (some ("comparison is limited to " ++ toString maxComparisonRuns ++ " runs"))))))
  else
    match failure, s.gate.stores.tables.run? (p.runId.getD "") with
    | some text, _ =>
        some (s.goto thread
          (.comparing (c.add rest (c.seenRuns + 1) (p.row .unavailable (some text)))))
    | none, some run => some (s.goto thread (.measuring c p run rest))
    | none, none => none

def step (s : Lab) : LabEvent → Option Lab
  | .create thread a d =>
      match s.stage thread with
      | .idle =>
          match s.store.createSweep a d with
          | (.error _, _) => some s
          | (.ok sweepId, store) =>
              some { s.goto thread (.created sweepId a) with store := store }
      | _ => none
  | .load thread =>
      match s.stage thread with
      | .created sweepId a =>
          match s.store.getSweep sweepId with
          | .error _ => some (s.goto thread .idle)
          | .ok (sweep, points) => some (s.goto thread (.submitting sweep a points))
      | _ => none
  | .submit thread id r =>
      match s.stage thread with
      | .submitting sweep a (p :: rest) =>
          (s.gate.step H derive api zip
            (.arrives id (.submit (request (taskOf str sweep a p) r)))).map fun gate ↦
              { s.goto thread (.calling sweep a p id rest) with gate := gate }
      | _ => none
  | .hear thread message =>
      match s.stage thread with
      | .calling sweep a p id rest =>
          match s.gate.requests id with
          | some (.answered status) =>
              some (s.goto thread
                (.recording sweep a p (recorded status (s.runs id) message) rest))
          | _ => none
      | _ => none
  | .unreachable thread text =>
      match s.stage thread with
      | .submitting sweep a (p :: rest) | .calling sweep a p _ rest =>
          some (s.goto thread (.recording sweep a p (refusedText text) rest))
      | _ => none
  | .record thread =>
      match s.stage thread with
      | .recording sweep a p runId rest =>
          some { s.goto thread (.submitting sweep a rest) with
            store := s.store.recordSubmission p.pointId (taskId sweep.sweepId p.ordinal) runId }
      | _ => none
  | .compare thread sweepId =>
      match s.stage thread with
      | .idle =>
          match s.store.getSweep sweepId with
          | .error _ => some s
          | .ok (sweep, points) =>
              some (s.goto thread (.comparing { sweep := sweep, rest := points }))
      | _ => none
  | .look thread failure =>
      match s.stage thread with
      | .comparing c =>
          match c.rest with
          | [] => none
          | p :: rest => s.lookAt thread c p rest failure
      | _ => none
  | .measure thread answer =>
      match s.stage thread with
      | .measuring c p run rest =>
          match answer with
          | .error text =>
              some (s.goto thread
                (.comparing (c.add rest (c.seenRuns + 1) (p.row .unavailable (some text)))))
          | .ok metrics =>
              some (s.goto thread
                (.comparing (c.add rest (c.seenRuns + 1) (p.measuredRow run metrics))))
      | _ => none
  | .answer thread =>
      match s.stage thread with
      | .submitting sweep _ [] =>
          some { s.goto thread .idle with submitted := sweep.sweepId :: s.submitted }
      | .comparing c =>
          if c.rest.isEmpty then
            some { s.goto thread .idle with reports := c.report :: s.reports }
          else none
      | _ => none
  | .dies thread => some (s.goto thread .idle)
  | .kernel e =>
      (s.gate.step H derive api zip e).map fun gate ↦
        { s with gate := gate, runs := runsAfter H api s.gate s.runs e }

end Lab

end ChipEvolve.DseLab
