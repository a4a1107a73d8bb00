import ChipEvolve.Plan.Executor
import ChipEvolve.Runtime.ResultFile
import ChipEvolve.Worker.Budget

/-!
# Who is blamed for the end of a run

`classify_failure` of the plan executor reads the last attempt's failure, then
the terminal reason, then the status of a run that ended, while the worker, its
sweep and the reclaim pass write these from different vocabularies.  A world is
watched here: beside it stand who decided the result a thread carries, what was
raised in a thread, and what ended each run.
-/

namespace ChipEvolve

open Machine Sql

/-! ## The described view -/

namespace Tables

/-- The attempts `describe_run` lists, stage by stage. -/
def attemptsIn (t : Tables) (runId : RunId) : List AttemptRow :=
  (t.listStages runId).flatMap fun s ↦ t.listAttempts s.stageRunId

/-- What `classify_failure` reads of a run. -/
def detail (t : Tables) (r : RunRow) : Plans.RunDetail :=
  { status := r.status
    terminalReason := r.terminalReason
    failures := (t.attemptsIn r.runId).map AttemptRow.failure }

def last? (t : Tables) (runId : RunId) : Option AttemptRow := (t.attemptsIn runId).getLast?

/-- The failure of the last attempt, without one no members. -/
def lastFailure (t : Tables) (runId : RunId) : JsonObject :=
  ((t.last? runId).bind AttemptRow.failure).getD []

end Tables

/-! ## What ends a run -/

/-- What the platform decides itself about an attempt: the branches of `_load_result` before the
result file is read, and `protocol_failure`. -/
inductive Decision where
  | cancelled
  | timedOut
  | exceeded (message : String)
  | protocolError (message : String)

/-- What is measured of the process of an attempt. -/
structure Measurements where
  exitCode : Int := 0
  cpuSeconds : Option Rat := none
  peakMemoryBytes : Option Int := none
  peakProcesses : Option Int := none

namespace Decision

def status : Decision → RuntimeStatus
  | cancelled => .cancelled
  | timedOut => .timedOut
  | exceeded _ | protocolError _ => .failed

def category : Decision → String
  | cancelled => "cancelled"
  | timedOut => "timeout"
  | exceeded _ => "resource_exceeded"
  | protocolError _ => "protocol_error"

def message : Decision → String
  | cancelled => "cancellation requested"
  | timedOut => "adapter deadline exceeded"
  | exceeded message | protocolError message => message

def failure : Decision → JsonObject
  | exceeded message =>
      [("category", .str "resource_exceeded"), ("message", .str message),
        ("retryable", .bool false)]
  | c => [("category", .str c.category), ("message", .str c.message)]

def result (c : Decision) (m : Measurements) : PluginResult where
  status := c.status
  exitCode := m.exitCode
  failure := some c.failure
  cpuSeconds := m.cpuSeconds
  peakMemoryBytes := m.peakMemoryBytes
  peakProcesses := m.peakProcesses
  statusValid := by cases c <;> simp [status]
  exitCodeValid := by cases c <;> simp [status]

end Decision

namespace PluginResult

/-- The category a result reports of itself. -/
def category (str : Json → String) (r : PluginResult) : String :=
  (Plans.truthyText str ((r.failure.getD []).get? "category")).getD r.status.value

def message (str : Json → String) (r : PluginResult) : String :=
  (Plans.truthyText str ((r.failure.getD []).get? "message")).getD (r.category str)

/-- The result says nothing about why it failed. -/
def unexplained (r : PluginResult) : Bool := (r.failure.getD []).isEmpty

end PluginResult

/-- What ended a run: the platform in one of five ways, or the result file of a plugin. -/
inductive Cause where
  | cancellation
  | preflight (message : String)
  | decided (c : Decision)
  | runtime (message : String)
  | lease
  | reported (result : PluginResult)

namespace Cause

def source : Cause → String
  | reported _ => "plugin"
  | _ => "platform"

def category (str : Json → String) : Cause → String
  | cancellation => "cancelled"
  | preflight _ => "preflight_error"
  | decided c => c.category
  | runtime _ => "runtime_error"
  | lease => "lease_expired"
  | reported result => result.category str

def message (str : Json → String) : Cause → String
  | cancellation => "cancellation requested"
  | preflight message | runtime message => message
  | decided c => c.message
  | lease => "worker stopped heartbeating; process fenced"
  | reported result => result.message str

/-- A classified failure is about this end: its source and category are those of the end, and so
is its message, or it repeats the category. -/
structure Tells (str : Json → String) (cause : Cause) (failure : JsonObject) : Prop where
  source : failure.get? "source" = some (.str cause.source)
  category : failure.get? "category" = some (.str (cause.category str))
  message : failure.get? "message" = some (.str (cause.message str)) ∨
    failure.get? "message" = some (.str (cause.category str))

end Cause

namespace Adapter

/-- Whose result an execution returns: the platform has decided it, or the result file of the
plugin holds it. -/
theorem author_of_concluded {H : Bytes → String} {read : Bytes → Except ReadError Json}
    {manifest : PluginManifest} {task : TaskSpec} {allowReserved : Bool}
    {outcome : Attempt.ProcessOutcome} {left : Left} {e : Execution}
    (h : concluded H read manifest task allowReserved outcome left = .ok e) :
    (∃ (c : Decision) (exitCode : Int),
        e.result = ownResult outcome c.status exitCode c.failure) ∨
      ∃ bytes payload, left.resultFile = some bytes ∧ read bytes = .ok payload ∧
        Payload.PluginResult.fromDict payload = .ok e.result := by
  unfold concluded at h
  split at h
  · rename_i message _
    obtain rfl := Except.ok.inj h
    exact .inl ⟨.protocolError message, _, rfl⟩
  · simp only [attempted, Except.bind_eq_ok, loadResult_eq_ok] at h
    obtain ⟨result, hcounts, items, _, artifacts, _, hsame⟩ := h
    obtain rfl := Except.ok.inj hsame
    rcases hcounts with hdecided | ⟨_, bytes, payload, hfile, hread, hdict, _⟩
    · refine .inl ?_
      unfold decided at hdecided
      split at hdecided
      · obtain rfl := Option.some.inj hdecided
        exact ⟨.cancelled, _, rfl⟩
      split at hdecided
      · obtain rfl := Option.some.inj hdecided
        exact ⟨.timedOut, _, rfl⟩
      obtain ⟨message, _, rfl⟩ := Option.map_eq_some_iff.mp hdecided
      exact ⟨.exceeded message, _, rfl⟩
    · exact .inr ⟨bytes, payload, hfile, hread, hdict⟩

end Adapter

/-! ## A world that is watched -/

/-- A statement of a thread.  Where a process ended, the platform has decided its result, or the
result is the one the plugin's file reports. -/
inductive Deed where
  | event (ev : Event)
  | decided (c : Decision) (m : Measurements)

def Deed.toEvent : Deed → Event
  | event ev => ev
  | decided c m => .done (c.result m)

structure Chronicle where
  world : World := {}
  authors : ThreadId → Option Decision := fun _ ↦ none
  raised : ThreadId → String := fun _ ↦ ""
  causes : RunId → Option Cause := fun _ ↦ none

/-- The run ended, and not with success. -/
def Tables.failedRun (t : Tables) (runId : RunId) : Bool :=
  (t.runStatus? runId).any fun status ↦ status ∈ Plans.failedStatuses

namespace Chronicle

/-- What a thread that ends a run ends it for. -/
def ending? (x : Chronicle) (tid : ThreadId) : Option Cause :=
  match x.world.threads tid with
  | .settling _ result =>
      some (match x.authors tid with
        | some c => .decided c
        | none => .reported result)
  | .terminating _ => some (.runtime (x.raised tid))
  | .reclaiming _ => some .lease
  | .aborted _ message => some (.preflight message)
  | .escaped _ message => some (.preflight message)
  | .dropping _ => some .cancellation
  | _ => none

def step (d : Deployment) (x : Chronicle) (l : ThreadId × Deed) : Option Chronicle :=
  (x.world.step d (l.1, l.2.toEvent)).map fun w ↦
    { world := w
      authors :=
        match l.2 with
        | .decided c _ => Function.update x.authors l.1 (some c)
        | .event (.done _) => Function.update x.authors l.1 none
        | _ => x.authors
      raised :=
        match w.threads l.1 with
        | .failing _ message => Function.update x.raised l.1 message
        | _ => x.raised
      causes := fun runId ↦
        if w.tables.failedRun runId &&
            w.tables.runStatus? runId ≠ x.world.tables.runStatus? runId then
          x.ending? l.1
        else x.causes runId }

/-- Every run that ended without success is classified by what ended it. -/
def Blames (str : Json → String) (x : Chronicle) : Prop :=
  ∀ r ∈ x.world.tables.runs, r.status ∈ Plans.failedStatuses →
    ∃ cause, x.causes r.runId = some cause ∧
      cause.Tells str (Plans.classifyFailure str (x.world.tables.detail r))

end Chronicle

/-! ## Where the blame goes wrong -/

namespace Tables

def mayMove (t : Tables) (runId : RunId) (target : RuntimeStatus) : Bool :=
  (t.runStatus? runId).any fun status ↦ runTransitionAllowed status target

/-- `fail_queued_run` fails the run. -/
def mayFailEarly (t : Tables) (runId : RunId) (message eventId : String) (now : Timestamp) : Bool :=
  message ≠ "" &&
    !t.refusesEvent (preflightEvent runId "preflight_error" message eventId now) &&
    (t.runStatus? runId).any RuntimeStatus.waiting

/-- The run has a terminal reason, and it is not the value of the status. -/
def explainedOtherwise (t : Tables) (runId : RunId) (status : RuntimeStatus) : Bool :=
  ((t.run? runId).bind RunRow.terminalReason).any fun reason ↦
    reason ≠ "" && reason ≠ status.value

/-- What the attempt left. -/
def failureOf (t : Tables) (attemptId : AttemptId) : JsonObject :=
  ((t.attempt? attemptId).bind AttemptRow.failure).getD []

end Tables

namespace Chronicle

/-- A failure that names another category than the one given, or a message of another end. -/
def speaksOfAnother (str : Json → String) (category message : String) (failure : JsonObject) :
    Bool :=
  (Plans.truthyText str (failure.get? "category")).any (· ≠ category) ||
    (Plans.truthyText str (failure.get? "message")).any fun text ↦
      text ≠ message && text ≠ category

/-- The statement ends a run that will be classified by something else: a preflight failure; a
swept cancellation unless the last attempt was cancelled by the platform; a runtime failure after
the attempt had ended otherwise; and a plugin's own result that names a category of the platform,
or names none while the run has an older terminal reason. -/
def misblames (d : Deployment) (x : Chronicle) (l : ThreadId × Deed) : Bool :=
  match x.world.threads l.1, l.2 with
  | .settling job result, .event (.next _) =>
      (x.authors l.1).isNone && !job.shouldRetry result &&
        result.status ∈ Plans.failedStatuses &&
        x.world.tables.mayMove job.runId result.status &&
        (result.category d.str ∈ Plans.platformFailures ||
          result.unexplained && x.world.tables.explainedOtherwise job.runId result.status)
  | .terminating job, .event (.next _) =>
      x.world.tables.mayMove job.runId .failed &&
        (x.world.tables.isLost job.attemptId ||
          speaksOfAnother d.str "runtime_error" (x.raised l.1)
            (x.world.tables.failureOf job.attemptId))
  | .aborted job message, .event (.next r) =>
      x.world.tables.mayFailEarly job.runId message r.fresh r.now
  | .escaped runId message, .event (.next r) =>
      x.world.tables.mayFailEarly runId message r.fresh r.now
  | .dropping (runId :: _), .event (.next _) =>
      x.world.tables.mayMove runId .cancelled &&
        ((Plans.truthyText d.str ((x.world.tables.lastFailure runId).get? "category")).isNone ||
          speaksOfAnother d.str "cancelled" "cancellation requested"
            (x.world.tables.lastFailure runId))
  | _, _ => false

end Chronicle

/-! ## What a classification says -/

section Classify

open Plans

variable {str : Json → String} {detail detail' : RunDetail}

/-- Of the attempts only the last one counts. -/
theorem classifyFailure_congr (hstatus : detail.status = detail'.status)
    (hreason : detail.terminalReason = detail'.terminalReason)
    (hfailure : detail.failures.getLast?.join.getD [] = detail'.failures.getLast?.join.getD []) :
    classifyFailure str detail = classifyFailure str detail' := by
  simp only [classifyFailure, hstatus, hreason, hfailure]

theorem Cause.tells_classify {cause : Cause} {f : JsonObject}
    (hf : detail.failures.getLast?.join.getD [] = f)
    (hcategory : (truthyText str (f.get? "category")).getD
      ((detail.terminalReason.filter (· ≠ "")).getD detail.status.value) = cause.category str)
    (hsource : (if cause.category str ∈ platformFailures then "platform" else "plugin") =
      cause.source)
    (hmessage : ∀ text, truthyText str (f.get? "message") = some text →
      text = cause.message str ∨ text = cause.category str) :
    cause.Tells str (classifyFailure str detail) := by
  have hmessage' : (truthyText str (f.get? "message")).getD (cause.category str) =
      cause.message str ∨
        (truthyText str (f.get? "message")).getD (cause.category str) = cause.category str := by
    cases htext : truthyText str (f.get? "message") with
    | none => exact .inr rfl
    | some text => exact hmessage text htext
  refine ⟨?_, ?_, ?_⟩ <;>
    simp only [classifyFailure, hf, hcategory, JsonObject.get?_set]
  · simp [hsource]
  · simp
  · simpa using hmessage'

theorem lastFailure_detail (t : Tables) (r : RunRow) :
    (t.detail r).failures.getLast?.join.getD [] = t.lastFailure r.runId := by
  unfold Tables.detail Tables.lastFailure Tables.last?
  rw [List.getLast?_map]
  cases (t.attemptsIn r.runId).getLast? <;> rfl

end Classify

/-! ## The last attempt -/

section Last

variable {t : Tables} {s : StageRow} {a : AttemptRow} {e : Effect}

theorem listStages_eq (hwf : WellFormed t) (hs : s ∈ t.stages) : t.listStages s.runId = [s] := by
  have hperm := List.perm_insertionSort (fun a b : StageRow ↦ a.ordinal ≤ b.ordinal)
    (t.stages.filter fun s' ↦ s'.runId = s.runId)
  have hfilter : (t.stages.filter fun s' ↦ s'.runId = s.runId) = [s] := by
    refine List.perm_singleton.mp ((List.perm_ext_iff_of_nodup ?_ (List.nodup_singleton s)).mpr ?_)
    · exact (List.Nodup.of_map _ hwf.stageIds).filter _
    · intro s'
      rw [List.mem_filter, List.mem_singleton]
      constructor
      · rintro ⟨hs', hrun⟩
        exact hwf.stage_eq_of_run hs' hs (by simpa using hrun)
      · rintro rfl
        exact ⟨hs, by simp⟩
  unfold Tables.listStages
  rw [hfilter] at hperm ⊢
  exact List.perm_singleton.mp hperm

theorem listAttempts_eq (hwf : WellFormed t) (stageRunId : StageRunId) :
    t.listAttempts stageRunId = t.attemptsOf stageRunId := by
  refine List.Pairwise.insertionSort_eq (List.pairwise_map.mp ?_)
  rw [hwf.numbered]
  exact List.pairwise_le_range'

theorem attemptsIn_eq (hwf : WellFormed t) (hs : s ∈ t.stages) :
    t.attemptsIn s.runId = t.attemptsOf s.stageRunId := by
  simp [Tables.attemptsIn, listStages_eq hwf hs, listAttempts_eq hwf]

/-- The attempt with the highest number is the last one listed. -/
theorem last?_of_number (hwf : WellFormed t) (hs : s ∈ t.stages) (ha : a ∈ t.attempts)
    (hstage : a.stageRunId = s.stageRunId) (hnumber : a.attemptNumber = t.used s.stageRunId) :
    t.last? s.runId = some a := by
  have hmem : a ∈ t.attemptsOf s.stageRunId := List.mem_filter.mpr ⟨ha, by simp [hstage]⟩
  obtain ⟨i, hi, hget⟩ := List.getElem_of_mem hmem
  have hi' : i < ((t.attemptsOf s.stageRunId).map AttemptRow.attemptNumber).length := by
    simpa using hi
  have hindex : ((t.attemptsOf s.stageRunId).map AttemptRow.attemptNumber)[i] = 1 + i := by
    simp [hwf.numbered]
  have hlast : i = (t.attemptsOf s.stageRunId).length - 1 := by
    rw [List.getElem_map, hget, hnumber] at hindex
    unfold Tables.used at hindex
    omega
  rw [Tables.last?, attemptsIn_eq hwf hs, List.getLast?_eq_getElem?, ← hlast,
    List.getElem?_eq_getElem hi, hget]

/-- An effect rewrites the last attempt of a run, unless it adds another. -/
theorem last?_apply (hwf : WellFormed t) (he : e.Enabled t) (hs : s ∈ t.stages)
    (hclaim : ∀ stage c attemptId now, e = .claim stage c attemptId now →
      stage.stageRunId ≠ s.stageRunId) :
    (e.apply t).last? s.runId = (t.last? s.runId).map e.onAttempt := by
  have hs' : e.onStage s ∈ (e.apply t).stages := by
    rw [e.stages_apply]
    exact List.mem_append_left _ (List.mem_map_of_mem hs)
  have hafter := attemptsIn_eq (hwf.apply he) hs'
  rw [Effect.onStage_runId, Effect.onStage_stageRunId, attemptsOf_apply_unclaimed hclaim] at hafter
  rw [Tables.last?, Tables.last?, hafter, attemptsIn_eq hwf hs, List.getLast?_map]

theorem mem_of_last? {runId : RunId} (h : t.last? runId = some a) : a ∈ t.attempts := by
  obtain ⟨s, _, ha⟩ := List.mem_flatMap.mp (List.mem_of_getLast? h)
  unfold Tables.listAttempts at ha
  rw [(List.perm_insertionSort _ _).mem_iff] at ha
  exact (List.mem_filter.mp ha).1

theorem exists_stage_of_last? {runId : RunId} (h : t.last? runId = some a) :
    ∃ s ∈ t.stages, s.runId = runId := by
  obtain ⟨s, hs, _⟩ := List.mem_flatMap.mp (List.mem_of_getLast? h)
  unfold Tables.listStages at hs
  rw [(List.perm_insertionSort _ _).mem_iff, List.mem_filter] at hs
  exact ⟨s, hs.1, by simpa using hs.2⟩

end Last

/-! ## What the attempts say -/

/-- An attempt that an effect does not end keeps its status and its failure. -/
theorem Effect.onAttempt_of_not_ends {e : Effect} {a : AttemptRow} (h : ¬e.Ends a) :
    (e.onAttempt a).status = a.status ∧ (e.onAttempt a).failure = a.failure := by
  cases e with
  | finish attemptId status ending now =>
      have hid : a.attemptId ≠ attemptId := fun hid ↦ h hid.symm
      simp [onAttempt, hid]
  | lose attemptId reference =>
      have hmisses : ¬(a.attemptId = attemptId && a.expired reference) = true := by
        intro hmeets
        obtain ⟨hid, hexpired⟩ := Bool.and_eq_true_iff.mp hmeets
        exact h ⟨(of_decide_eq_true hid).symm, hexpired⟩
      simp only [onAttempt, if_neg hmisses, and_self]
  | beat | attach =>
      simp only [onAttempt]
      split <;> exact ⟨rfl, rfl⟩
  | _ => exact ⟨rfl, rfl⟩

/-- The result a thread is about to record, or has recorded and is about to settle. -/
def Thread.result? : Thread → Option PluginResult
  | .finishing _ result => some result
  | .settling _ result => some result
  | _ => none

namespace Thread

variable {d : Deployment} {tid : ThreadId} {t : Tables} {th : Thread} {ev : Event}
  {next : Thread × Tables} {result : PluginResult}

theorem result?_ofPass (pass : Pass) : (ofPass pass).result? = none := by
  cases pass <;> rfl

theorem request_result? (h : th.request d.custody t ev = some next) : next.1.result? = none := by
  unfold request at h
  split at h
  · obtain rfl := Option.some.inj h
    rfl
  · split at h <;> obtain rfl := Option.some.inj h <;> rfl
  · obtain rfl := Option.some.inj h
    rfl
  · obtain rfl := Option.some.inj h
    rfl
  · obtain rfl := Option.some.inj h
    exact result?_ofPass (Pass.start _ t)
  · obtain rfl := Option.some.inj h
    exact result?_ofPass _
  · cases h

theorem result?_escape (runId : RunId) (e : StoreError) : (escape runId e).result? = none := by
  unfold escape
  split <;> rfl

theorem select_result? (h : th.select (d.config tid) t ev = some next) :
    next.1.result? = none := by
  unfold select at h
  split at h
  case h_9 => cases h
  all_goals try split at h
  all_goals obtain rfl := Option.some.inj h
  all_goals first
    | rfl
    | exact result?_escape _ _
    | (dsimp only; split <;> rfl)

theorem recover_result? (h : th.recover t ev = some next) : next.1.result? = none := by
  unfold recover at h
  split at h
  case h_9 => cases h
  all_goals try split at h
  all_goals obtain rfl := Option.some.inj h
  all_goals first
    | rfl
    | (dsimp only; split <;> rfl)

theorem sweep_result? (h : th.sweep t ev = some next) : next.1.result? = none := by
  unfold sweep at h
  split at h
  case h_6 => cases h
  all_goals try split at h
  all_goals obtain rfl := Option.some.inj h
  all_goals first
    | rfl
    | (dsimp only; split <;> rfl)

/-- A thread comes by a result when its process ends, and keeps it when it records it. -/
inductive Brings (t : Tables) (result : PluginResult) (th : Thread) :
    Event → Thread × Tables → Prop
  | ended {job} : Brings t result th (.done result) (finishing job result, t)
  | recorded {job r} (hth : th = finishing job result) :
      Brings t result th (.next r) (settling job result,
        (Effect.finish job.attemptId (attemptStatus result.status) result.ending r.now).apply t)

theorem work_result? (h : th.work (d.config tid) d.str t ev = some next)
    (hresult : next.1.result? = some result) : th.Brings t result ev next := by
  unfold work at h
  split at h
  case h_7 =>
    obtain rfl := Option.some.inj h
    obtain rfl := Option.some.inj hresult
    exact .ended
  case h_11 job result' r =>
    rcases finishAttempt_cases t job.attemptId (attemptStatus result'.status) result'.ending r.now
      with ⟨_, x, hkeeps⟩ | hcommits
    · rw [hkeeps.exec] at h
      obtain rfl := Option.some.inj h
      cases hresult
    · rw [hcommits.exec] at h
      obtain rfl := Option.some.inj h
      obtain rfl := Option.some.inj hresult
      exact .recorded rfl
  all_goals try split at h
  all_goals first
    | (obtain rfl := Option.some.inj h; cases hresult)
    | cases h

theorem step_result? (h : th.step d tid t ev = some next)
    (hresult : next.1.result? = some result) : th.Brings t result ev next := by
  unfold step at h
  cases hrequest : th.request d.custody t ev with
  | some x =>
      obtain rfl : x = next := by simpa [hrequest] using h
      rw [request_result? hrequest] at hresult
      cases hresult
  | none =>
      rw [hrequest] at h
      cases hselect : th.select (d.config tid) t ev with
      | some x =>
          obtain rfl : x = next := by simpa [hselect] using h
          rw [select_result? hselect] at hresult
          cases hresult
      | none =>
          rw [hselect] at h
          cases hwork : th.work (d.config tid) d.str t ev with
          | some x =>
              obtain rfl : x = next := by simpa [hwork] using h
              exact work_result? hwork hresult
          | none =>
              rw [hwork] at h
              cases hrecover : th.recover t ev with
              | some x =>
                  obtain rfl : x = next := by simpa [hrecover] using h
                  rw [recover_result? hrecover] at hresult
                  cases hresult
              | none =>
                  rw [sweep_result? (by simpa [hrecover] using h)] at hresult
                  cases hresult

end Thread

/-- What the attempts of a world say. -/
structure World.Evident (w : World) : Prop where
  running : ∀ a ∈ w.tables.attempts, a.status = .running → a.failure = none
  lost : ∀ a ∈ w.tables.attempts, a.status = .lost → a.failure = some leaseFailure
  recorded : ∀ tid job result, w.threads tid = .settling job result →
    ∀ a, w.tables.attempt? job.attemptId = some a → a.failure = result.ending.recorded
  owed : ∀ tid pass, (w.threads tid).pass? = some pass → ∀ runId ∈ pass.owed,
    ∃ a, w.tables.last? runId = some a ∧ a.status = .lost

namespace World

variable {d : Deployment} {w w' : World} {l : ThreadId × Event} {e : Effect} {runId : RunId}

theorem step_result? (hstep : w.step d l = some w') {result : PluginResult}
    (hresult : (w'.threads l.1).result? = some result) :
    (w.threads l.1).Brings w.tables result l.2 (w'.threads l.1, w'.tables) :=
  Thread.step_result? (step_thread hstep) hresult

namespace Evident

theorem empty : World.Evident {} where
  running _ h := by cases h
  lost _ h := by cases h
  recorded _ _ _ h := by cases h
  owed _ _ h := by cases h

theorem running_act (h : w.Evident) (hsound : w.Sound) (he : e.Enabled w.tables) {a' : AttemptRow}
    (ha' : a' ∈ (e.apply w.tables).attempts) (hrunning : a'.status = .running) :
    a'.failure = none := by
  rcases attempt_cases ha' with ⟨a, ha, rfl⟩ | ⟨_, _, _, _, _, rfl⟩
  · have hnot : ¬e.Ends a := fun hends ↦
      hends.not_running hsound.wellFormed hsound.noPending he ha hrunning
    obtain ⟨hstatus, hfailure⟩ := Effect.onAttempt_of_not_ends hnot
    rw [hfailure]
    exact h.running a ha (hstatus.symm.trans hrunning)
  · rfl

/-- Only a reclaim pass marks an attempt `lost`. -/
theorem lost_act (h : w.Evident) {th' : Thread}
    (hacts : (w.threads l.1).Acts d l.1 w.tables l.2 e th') {a' : AttemptRow}
    (ha' : a' ∈ (e.apply w.tables).attempts) (hlost : a'.status = .lost) :
    a'.failure = some leaseFailure := by
  rcases attempt_cases ha' with ⟨a, ha, rfl⟩ | ⟨_, _, _, _, _, rfl⟩
  · by_cases hends : e.Ends a
    · cases e with
      | finish attemptId status ending now =>
          have hstatus : status = .succeeded ∨ status = .failed := by
            generalize w.threads l.1 = th at hacts
            generalize l.2 = ev at hacts
            cases hacts with
            | finish => exact attemptStatus_cases _
            | fail => exact .inr rfl
            | pass hemits => cases hemits
          obtain rfl := hends
          rcases hstatus with rfl | rfl <;> simp [Effect.onAttempt, AttemptRow.finished] at hlost
      | lose attemptId reference =>
          obtain ⟨rfl, hexpired⟩ := hends
          simp [Effect.onAttempt, hexpired, AttemptRow.markedLost]
      | _ => cases hends
    · obtain ⟨hstatus, hfailure⟩ := Effect.onAttempt_of_not_ends hends
      rw [hfailure]
      exact h.lost a ha (hstatus.symm.trans hlost)
  · cases hlost

theorem recorded_other (h : w.Evident) (hsound : w.Sound) (he : e.Enabled w.tables)
    {tid : ThreadId} {job : Job} {result : PluginResult}
    (hth : w.threads tid = .settling job result) {a' : AttemptRow}
    (ha' : (e.apply w.tables).attempt? job.attemptId = some a') :
    a'.failure = result.ending.recorded := by
  have hphase : (w.threads tid).phase? = some (job, .settling) := by rw [hth]; rfl
  obtain ⟨⟨a, ha, _⟩, _, _⟩ := hsound.jobs tid job .settling hphase
  obtain rfl := Option.some.inj ((attempt?_apply e ha).symm.trans ha')
  have hended : a.status.ended = true := by
    rcases hsound.fits tid job .settling a hphase ha with hstatus | hstatus <;>
      simp [hstatus, AttemptStatus.ended]
  rw [onAttempt_of_ended hsound.wellFormed he (Table.mem_of_get? ha) hended]
  exact h.recorded tid job result hth a ha

/-- A run stays owed with its last attempt `lost`. -/
theorem owed_keep (h : w.Evident) (hex : w.Excludes) (hagree : Paired (fun r s ↦ s = r) w.tables)
    (he : e.Enabled w.tables) {tid : ThreadId} {pass : Pass}
    (hpass : (w.threads tid).pass? = some pass) (howed : runId ∈ pass.owed) :
    ∃ a, (e.apply w.tables).last? runId = some a ∧ a.status = .lost := by
  have hwf := hex.sound.wellFormed
  obtain ⟨a, ha, hlost⟩ := h.owed tid pass hpass runId howed
  obtain ⟨s, hs, rfl⟩ := exists_stage_of_last? ha
  have hmem := mem_of_last? ha
  have hkeep := last?_apply hwf he hs
    (hex.unclaimed_of_held hagree he hs (x := .inr tid) (.pass hpass howed))
  rw [ha, Option.map_some, onAttempt_of_ended hwf he hmem (by simp [hlost, AttemptStatus.ended])]
    at hkeep
  exact ⟨a, hkeep, hlost⟩

/-- A pass comes to owe a run when it marks its running attempt, the last one. -/
theorem owed_marked (hex : w.Excludes) (hbudget : w.Budget) {tid : ThreadId}
    {reference : Timestamp} {row : ExpiredAttempt} {rows : List ExpiredAttempt}
    {ids : List AttemptId} {runIds : List RunId}
    (hpass : (w.threads tid).pass? = some (.fencing reference (row :: rows) ids runIds))
    (hlapsed : 0 < w.tables.lapsed row.attemptId reference) :
    ∃ a, ((Effect.lose row.attemptId reference).apply w.tables).last? row.runId = some a ∧
      a.status = .lost := by
  have hwf := hex.sound.wellFormed
  obtain ⟨a, ha, hmeets⟩ := List.countP_pos_iff.mp hlapsed
  obtain ⟨hid, hexpired⟩ : a.attemptId = row.attemptId ∧ a.expired reference = true := by
    simpa using hmeets
  obtain ⟨b, s, hb, hs, hrun⟩ := hex.sound.rows tid _ hpass row List.mem_cons_self
  obtain rfl := hwf.attempt_eq hb ha hid
  have hmem := Table.mem_of_get? hs
  have hstage : s.stageRunId = b.stageRunId := Table.key_of_get? hs
  have hrunning : RunningIn w.tables row.runId b :=
    ⟨ha, running_of_expired hexpired, s, hmem, hstage, hrun⟩
  have hnumber := hbudget.newest row.runId b hrunning
  have hlast := last?_of_number hwf hmem ha hstage.symm (by rw [hnumber, hstage])
  have hafter := last?_apply hwf (e := .lose row.attemptId reference) trivial hmem (by simp)
  rw [hlast, hrun, Option.map_some] at hafter
  exact ⟨_, hafter, by simp [Effect.onAttempt, hid, hexpired, AttemptRow.markedLost]⟩

/-- A thread goes on to settle what it has just recorded. -/
theorem recorded_own (hsound : w.Sound) (hstep : w.step d l = some w') {job : Job}
    {result : PluginResult} (hth : w'.threads l.1 = .settling job result) {a' : AttemptRow}
    (ha' : w'.tables.attempt? job.attemptId = some a') :
    a'.failure = result.ending.recorded := by
  have hbrings := step_result? hstep (by rw [hth]; rfl)
  generalize hnext : (w'.threads l.1, w'.tables) = next at hbrings
  generalize l.2 = ev at hbrings
  cases hbrings with
  | ended =>
      rw [hth] at hnext
      cases (Prod.mk.inj hnext).1
  | @recorded job' r hfinishing =>
      obtain ⟨hsettling, htables⟩ := Prod.mk.inj hnext
      obtain ⟨rfl, -⟩ := Thread.settling.inj (hth.symm.trans hsettling)
      obtain ⟨⟨a, ha, _⟩, _, _⟩ := hsound.jobs l.1 job .working (by rw [hfinishing]; rfl)
      have hid : a.attemptId = job.attemptId := Table.key_of_get? ha
      rw [htables, attempt?_apply _ ha] at ha'
      obtain rfl := Option.some.inj ha'
      simp [Effect.onAttempt, hid, AttemptRow.finished]

theorem rest (h : w.Evident) (hsound : w.Sound) (hstep : w.step d l = some w')
    (hsame : w'.tables = w.tables)
    (hrests : (w.threads l.1).Rests w.tables (w'.threads l.1)) : w'.Evident := by
  refine ⟨?_, ?_, ?_, ?_⟩
  · rw [hsame]
    exact h.running
  · rw [hsame]
    exact h.lost
  · intro tid job result hth a ha
    by_cases htid : tid = l.1
    · subst htid
      exact recorded_own hsound hstep hth ha
    · rw [step_other hstep htid] at hth
      rw [hsame] at ha
      exact h.recorded tid job result hth a ha
  · rw [hsame]
    intro tid pass hpass runId howed
    by_cases htid : tid = l.1
    · subst htid
      rcases hrests.pass_cases hpass with ⟨reference, rfl⟩ | ⟨pass, now, gone, hold, rfl, hsame'⟩
      · cases howed
      · rcases Pass.owed_step howed with hin | ⟨_, row, _, _, _, _, _, hlapsed, happly⟩
        · exact h.owed l.1 pass hold runId hin
        · exact absurd (happly.symm.trans hsame') (lose_apply_ne hlapsed)
    · rw [step_other hstep htid] at hpass
      exact h.owed tid pass hpass runId howed

theorem act (h : w.Evident) (hex : w.Excludes) (hbudget : w.Budget)
    (hagree : Paired (fun r s ↦ s = r) w.tables) (hstep : w.step d l = some w')
    (hacts : (w.threads l.1).Acts d l.1 w.tables l.2 e (w'.threads l.1))
    (he : e.Enabled w.tables) (happly : w'.tables = e.apply w.tables) : w'.Evident := by
  refine ⟨?_, ?_, ?_, ?_⟩
  · rw [happly]
    exact fun a ha ↦ h.running_act hex.sound he ha
  · rw [happly]
    exact fun a ha ↦ h.lost_act hacts ha
  · intro tid job result hth a ha
    by_cases htid : tid = l.1
    · subst htid
      exact recorded_own hex.sound hstep hth ha
    · rw [step_other hstep htid] at hth
      rw [happly] at ha
      exact h.recorded_other hex.sound he hth ha
  · rw [happly]
    intro tid pass hpass runId howed
    by_cases htid : tid = l.1
    · subst htid
      obtain ⟨pass, now, gone, hold, rfl, htables, _⟩ := hacts.pass_step hpass
      rcases Pass.owed_step howed with
        hin | ⟨reference, row, rows, ids, runIds, rfl, rfl, hlapsed, hlose⟩
      · exact h.owed_keep hex hagree he hold hin
      · rw [← htables, hlose]
        exact owed_marked hex hbudget hold hlapsed
    · rw [step_other hstep htid] at hpass
      exact h.owed_keep hex hagree he hpass howed

theorem of_reachable (h : ReachableBy (World.step d) (fun w l ↦ w.failsReclaimed l = false) {} w) :
    w.Evident := by
  induction h with
  | init => exact empty
  | next hs _ hstep ih =>
      have hex := Excludes.of_reachable hs
      rcases step_turn hstep with ⟨hsame, hrests⟩ | ⟨e, hacts, he, happly⟩
      · exact ih.rest hex.sound hstep hsame hrests
      · exact ih.act hex (Budget.of_reachable hs) (agree_of_reachable hs) hstep hacts he happly

end Evident

/-- A thread that still has to settle a run holds its last attempt. -/
theorem Budget.last?_of_owes (h : w.Budget) (hex : w.Excludes) {tid : ThreadId} {job : Job}
    {p : Phase} (hphase : (w.threads tid).phase? = some (job, p)) (hsettles : p.settles = true)
    (hresulted : ∀ a, w.tables.attempt? job.attemptId = some a → a.status.resulted = true) :
    ∃ a, w.tables.attempt? job.attemptId = some a ∧ w.tables.last? job.runId = some a := by
  have hjob := hex.sound.jobs tid job p hphase
  have hnumber := h.settled tid job p hphase
    (Thread.owes_of_resulted hphase hsettles hjob hresulted)
  obtain ⟨⟨a, ha, hstage, hsame⟩, ⟨s, hs, hrun⟩, _⟩ := hjob
  have hkey : s.stageRunId = job.stage.stageRunId := Table.key_of_get? hs
  refine ⟨a, ha, ?_⟩
  rw [← hrun]
  exact last?_of_number hex.sound.wellFormed (Table.mem_of_get? hs) (Table.mem_of_get? ha)
    (hstage.trans hkey.symm) (by rw [hsame, hnumber, hkey])

end World

/-! ## A run that ends -/

/-- The classification of a run that ended, which nothing will change any more. -/
structure Explained (str : Json → String) (t : Tables) (r : RunRow) (cause : Cause) : Prop where
  stopped : ∀ a, t.last? r.runId = some a → a.status ≠ .running
  tells : cause.Tells str (Plans.classifyFailure str (t.detail r))

section Ends

open Plans

variable {str : Json → String} {t : Tables} {e : Effect} {r : RunRow} {s : StageRow}
  {cause : Cause}

theorem terminal_of_failed {status : RuntimeStatus} (h : status ∈ failedStatuses) :
    status.isTerminal = true := by
  revert h
  cases status <;> decide

/-- A run ends by a move or by a preflight failure. -/
theorem ends_by (hwf : WellFormed t) (he : e.Enabled t) (hr : r ∈ t.runs) (hs : s ∈ t.stages)
    (hrun : s.runId = r.runId) (hfailed : (e.onRun r).status ∈ failedStatuses)
    (hne : (e.onRun r).status ≠ r.status) :
    (∃ target reason now, e = .move r.runId target reason now ∧ target ∈ failedStatuses) ∨
      ∃ category message eventId now, e = .failEarly r.runId category message eventId now := by
  have hmoves := hwf.moves he hr hs hrun
  generalize (e.onRun r).status = r' at hmoves hfailed hne
  generalize (e.onStage s).status = s' at hmoves
  cases hmoves with
  | keep | rescheduleStage => exact absurd rfl hne
  | move => exact .inl ⟨_, _, _, rfl, hfailed⟩
  | fail => exact .inr ⟨_, _, _, _, rfl⟩
  | claim =>
      split at hfailed
      · cases terminal_of_failed hfailed
      · rename_i hwaiting
        rw [if_neg hwaiting] at hne
        exact absurd rfl hne
  | reschedule | rescheduleRun | retry => cases terminal_of_failed hfailed

/-- A run that ended is not written again while it stays as it is. -/
theorem onRun_of_failed (hwf : WellFormed t) (he : e.Enabled t) (hr : r ∈ t.runs)
    (hfailed : r.status ∈ failedStatuses) (hsame : (e.onRun r).status = r.status) :
    e.onRun r = r := by
  have hterminal := terminal_of_failed hfailed
  have hwaiting := terminal_not_waiting hterminal
  cases e with
  | move runId target reason now =>
      obtain ⟨row, hrow, hallowed⟩ := he
      by_cases hid : r.runId = runId
      · obtain rfl := hwf.run_eq hrow hr hid
        rw [not_terminal_of_transition hallowed] at hterminal
        cases hterminal
      · simp only [Effect.onRun, if_neg hid]
  | failEarly runId category message eventId now =>
      obtain ⟨_, _, row, hrow, hwaits⟩ := he
      by_cases hid : r.runId = runId
      · obtain rfl := hwf.run_eq hrow hr hid
        rw [hwaiting] at hwaits
        cases hwaits
      · simp only [Effect.onRun, if_neg hid]
  | claim => simp [Effect.onRun, hwaiting]
  | reschedule runId stageRunId reason =>
      by_cases hid : r.runId = runId
      · simp only [Effect.onRun, if_pos hid, RunRow.retried] at hsame
        rw [← hsame] at hterminal
        cases hterminal
      · simp only [Effect.onRun, if_neg hid]
  | retry runId stage attempt requester reason eventId now =>
      by_cases hid : r.runId = runId
      · simp only [Effect.onRun, if_pos hid, RunRow.retried] at hsame
        rw [← hsame] at hterminal
        cases hterminal
      · simp only [Effect.onRun, if_neg hid]
  | _ => rfl

/-- What explains a run goes on explaining it. -/
theorem Explained.keep (h : Explained str t r cause) (hwf : WellFormed t)
    (hpending : NoPending t) (hagree : Paired (fun r s ↦ s = r) t) (he : e.Enabled t)
    (hr : r ∈ t.runs) (hs : s ∈ t.stages) (hrun : s.runId = r.runId)
    (hfailed : r.status ∈ failedStatuses) : Explained str (e.apply t) r cause := by
  have hunclaimed : ∀ stage c attemptId now, e = .claim stage c attemptId now →
      stage.stageRunId ≠ s.stageRunId := by
    rintro stage c attemptId now rfl hid
    obtain rfl := hwf.stageIds.eq_of_key (Table.mem_of_get? he.1) hs hid
    have hclosed := closed_of_terminal (terminal_of_failed hfailed)
    rw [← hagree r hr stage hs hrun, not_closed_of_claimable he.2.1] at hclosed
    cases hclosed
  have hlast : (e.apply t).last? r.runId = t.last? r.runId := by
    rw [← hrun, last?_apply hwf he hs hunclaimed, hrun]
    cases hold : t.last? r.runId with
    | none => rfl
    | some a =>
        have ha := mem_of_last? hold
        have hended : a.status.ended = true := by
          have hstopped := h.stopped a hold
          have hnotPending := hpending a ha
          cases hstatus : a.status <;> simp_all [AttemptStatus.ended]
        rw [Option.map_some, onAttempt_of_ended hwf he ha hended]
  refine ⟨fun a ha ↦ h.stopped a (by rwa [← hlast]), ?_⟩
  have hsame : classifyFailure str ((e.apply t).detail r) = classifyFailure str (t.detail r) :=
    classifyFailure_congr rfl rfl (by
      rw [lastFailure_detail, lastFailure_detail, Tables.lastFailure, hlast, Tables.lastFailure])
  rw [hsame]
  exact h.tells

/-- A run that is moved to its end is classified from its last attempt, then from the reason it
is given, then from the one it had. -/
theorem Explained.moved {target : RuntimeStatus} {reason : Option String} {now : Timestamp}
    {a : AttemptRow} (hwf : WellFormed t)
    (he : (Effect.move r.runId target reason now).Enabled t) (hs : s ∈ t.stages)
    (hrun : s.runId = r.runId) (hlast : t.last? r.runId = some a) (hstopped : a.status ≠ .running)
    (hcategory : (truthyText str ((a.failure.getD []).get? "category")).getD
      (((reason.or r.terminalReason).filter (· ≠ "")).getD target.value) = cause.category str)
    (hsource : (if cause.category str ∈ platformFailures then "platform" else "plugin") =
      cause.source)
    (hmessage : ∀ text, truthyText str ((a.failure.getD []).get? "message") = some text →
      text = cause.message str ∨ text = cause.category str) :
    Explained str ((Effect.move r.runId target reason now).apply t)
      ((Effect.move r.runId target reason now).onRun r) cause := by
  have hafter : ((Effect.move r.runId target reason now).apply t).last? r.runId = some a := by
    have hkeep := last?_apply hwf he hs (by simp)
    rw [hrun, hlast] at hkeep
    exact hkeep
  refine ⟨fun a' ha' ↦ ?_, Cause.tells_classify (f := a.failure.getD []) ?_ ?_ hsource hmessage⟩
  · rw [Effect.onRun_runId, hafter] at ha'
    obtain rfl := Option.some.inj ha'
    exact hstopped
  · rw [lastFailure_detail, Effect.onRun_runId, Tables.lastFailure, hafter, Option.bind_some]
  · simpa [Tables.detail, Effect.onRun, RunRow.moved] using hcategory

theorem recorded_getD (result : PluginResult) :
    result.ending.recorded.getD [] = result.failure.getD [] := by
  unfold Ending.recorded PluginResult.ending
  cases hfailure : result.failure with
  | none => rfl
  | some f => cases f <;> rfl

theorem getD_filter_self {value : String} :
    ((some value).filter (· ≠ "")).getD value = value := by
  by_cases hempty : value = "" <;> simp [Option.filter, hempty]

/-- The terminal reason of a settled run adds nothing to what its result says. -/
theorem settled_category {result : PluginResult} {reason : Option String}
    (hreason : result.unexplained = true →
      (reason.any fun text ↦ text ≠ "" && text ≠ result.status.value) = false) :
    (truthyText str ((result.failure.getD []).get? "category")).getD
      ((((result.terminalReason str).or reason).filter (· ≠ "")).getD result.status.value) =
      result.category str := by
  unfold PluginResult.category
  cases hcategory : truthyText str ((result.failure.getD []).get? "category") with
  | some category => rfl
  | none =>
      simp only [Option.getD_none]
      by_cases hunexplained : result.unexplained = true
      · have hnone : result.terminalReason str = none := by
          unfold PluginResult.terminalReason
          unfold PluginResult.unexplained at hunexplained
          cases hfailure : result.failure with
          | none => rfl
          | some f => simp_all
        have hold := hreason hunexplained
        rw [hnone, Option.none_or]
        cases reason with
        | none => rfl
        | some text =>
            by_cases hempty : text = ""
            · simp [Option.filter, hempty]
            · have hvalue : text = result.status.value := by simpa [hempty] using hold
              rw [hvalue]
              exact getD_filter_self
      · have hsome : result.terminalReason str = some result.status.value := by
          unfold PluginResult.terminalReason
          unfold PluginResult.unexplained at hunexplained
          cases hfailure : result.failure with
          | none => simp [hfailure] at hunexplained
          | some f =>
              simp only [hfailure, Option.getD_some] at hunexplained hcategory
              simp only [hunexplained]
              cases hget : JsonObject.get? f "category" with
              | none => rfl
              | some category =>
                  have hfalsy : category.truthy = false := by
                    simpa [truthyText, hget] using hcategory
                  simp [hfalsy]
        rw [hsome, Option.some_or]
        exact getD_filter_self

theorem Explained.settled {result : PluginResult} {now : Timestamp} {a : AttemptRow}
    (hwf : WellFormed t)
    (he : (Effect.move r.runId result.status (result.terminalReason str) now).Enabled t)
    (hr : r ∈ t.runs) (hs : s ∈ t.stages) (hrun : s.runId = r.runId)
    (hlast : t.last? r.runId = some a) (hstopped : a.status ≠ .running)
    (hrecorded : a.failure = result.ending.recorded)
    (hreason : result.unexplained = true →
      t.explainedOtherwise r.runId result.status = false)
    (hcategory : result.category str = cause.category str)
    (hsource : (if cause.category str ∈ platformFailures then "platform" else "plugin") =
      cause.source)
    (hmessage : ∀ text, truthyText str ((result.failure.getD []).get? "message") = some text →
      text = cause.message str ∨ text = cause.category str) :
    Explained str
      ((Effect.move r.runId result.status (result.terminalReason str) now).apply t)
      ((Effect.move r.runId result.status (result.terminalReason str) now).onRun r) cause := by
  have hfailure : a.failure.getD [] = result.failure.getD [] := by
    rw [hrecorded, recorded_getD]
  refine .moved hwf he hs hrun hlast hstopped ?_ hsource (by rwa [hfailure])
  rw [hfailure, ← hcategory]
  refine settled_category fun hunexplained ↦ ?_
  have hold := hreason hunexplained
  rwa [Tables.explainedOtherwise, hwf.run?_of_mem hr, Option.bind_some] at hold

/-- What the platform decides, its category names. -/
theorem Decision.source_eq (c : Decision) :
    (if c.category ∈ platformFailures then "platform" else "plugin") = "platform" := by
  cases c <;> rfl

theorem Decision.get?_failure (c : Decision) :
    c.failure.get? "category" = some (.str c.category) ∧
      c.failure.get? "message" = some (.str c.message) := by
  cases c <;> exact ⟨rfl, rfl⟩

theorem truthyText_str (hstr : ∀ text, str (.str text) = text) {value text : String}
    (h : truthyText str (some (.str value)) = some text) : text = value := by
  unfold truthyText at h
  obtain ⟨value', hvalue, rfl⟩ := Option.map_eq_some_iff.mp h
  obtain ⟨hsame, _⟩ := Option.filter_eq_some_iff.mp hvalue
  rw [← Option.some.inj hsame, hstr]

theorem truthyText_of_ne (hstr : ∀ text, str (.str text) = text) {value : String}
    (hne : value ≠ "") : truthyText str (some (.str value)) = some value := by
  simp [truthyText, Option.filter, Json.truthy, hne, hstr]

theorem Decision.category_eq (hstr : ∀ text, str (.str text) = text) (c : Decision)
    {result : PluginResult} (hfailure : result.failure = some c.failure) :
    result.category str = c.category := by
  unfold PluginResult.category
  rw [hfailure, Option.getD_some, c.get?_failure.1, truthyText_of_ne hstr]
  · rfl
  · cases c <;> simp [category]

end Ends

/-! ## One statement -/

theorem Deed.eq_event_of_next {deed : Deed} {r : Reading} (h : deed.toEvent = .next r) :
    deed = .event (.next r) := by
  cases deed with
  | event ev => exact congrArg Deed.event h
  | decided => cases h

namespace Chronicle

open Plans

variable {d : Deployment} {x x' : Chronicle} {tid : ThreadId} {deed : Deed} {r : RunRow}
  {s : StageRow} {now : Timestamp}

/-- What the ghosts of a watched world say is true. -/
structure Told (d : Deployment) (x : Chronicle) : Prop where
  authors : ∀ tid result c, (x.world.threads tid).result? = some result →
    x.authors tid = some c → result.status = c.status ∧ result.failure = some c.failure
  explained : ∀ r ∈ x.world.tables.runs, r.status ∈ failedStatuses →
    ∃ cause, x.causes r.runId = some cause ∧ Explained d.str x.world.tables r cause

theorem not_failsReclaimed (h : x.misblames d (tid, deed) = false) :
    x.world.failsReclaimed (tid, deed.toEvent) = false := by
  by_contra hfails
  rw [Bool.not_eq_false] at hfails
  unfold World.failsReclaimed at hfails
  split at hfails
  · rename_i job r hth hev
    obtain rfl := Deed.eq_event_of_next hev
    obtain ⟨hlost, hmay⟩ := Bool.and_eq_true_iff.mp hfails
    have hmay' : x.world.tables.mayMove job.runId .failed = true := hmay
    simp only [misblames, hth, hmay', hlost, Bool.true_or, Bool.and_self] at h
    cases h
  · cases hfails

/-- A worker settles the run with the result it has recorded. -/
theorem ends_settling (hstr : ∀ text, d.str (.str text) = text) (htold : x.Told d)
    (hex : x.world.Excludes) (hbudget : x.world.Budget) (hevident : x.world.Evident) {job : Job}
    {result : PluginResult} {reading : Reading}
    (hth : x.world.threads tid = .settling job result)
    (hguard : x.misblames d (tid, .event (.next reading)) = false)
    (hretry : job.shouldRetry result = false) (hkey : r.runId = job.runId)
    (he : (Effect.move r.runId result.status (result.terminalReason d.str) now).Enabled
      x.world.tables)
    (hr : r ∈ x.world.tables.runs) (hs : s ∈ x.world.tables.stages) (hrun : s.runId = r.runId)
    (hfailed : result.status ∈ failedStatuses) :
    ∃ cause, x.ending? tid = some cause ∧ Explained d.str
      ((Effect.move r.runId result.status (result.terminalReason d.str) now).apply x.world.tables)
      ((Effect.move r.runId result.status (result.terminalReason d.str) now).onRun r) cause := by
  have hwf := hex.sound.wellFormed
  have hphase : (x.world.threads tid).phase? = some (job, .settling) := by rw [hth]; rfl
  obtain ⟨a, ha, hlast⟩ := hbudget.last?_of_owes hex hphase rfl fun a ha ↦ by
    rcases hex.sound.fits tid job .settling a hphase ha with hstatus | hstatus <;>
      simp [hstatus, AttemptStatus.resulted]
  rw [← hkey] at hlast
  have hstopped : a.status ≠ .running := by
    rcases hex.sound.fits tid job .settling a hphase ha with hstatus | hstatus <;> simp [hstatus]
  have hrecorded := hevident.recorded tid job result hth a ha
  cases hauthor : x.authors tid with
  | some c =>
      obtain ⟨hstatus, hfailure⟩ := htold.authors tid result c (by rw [hth]; rfl) hauthor
      refine ⟨.decided c, by simp [ending?, hth, hauthor], ?_⟩
      refine .settled hwf he hr hs hrun hlast hstopped hrecorded ?_ (c.category_eq hstr hfailure)
        c.source_eq ?_
      · intro hunexplained
        rw [PluginResult.unexplained, hfailure] at hunexplained
        cases c <;> cases hunexplained
      · intro text htext
        rw [hfailure, Option.getD_some, c.get?_failure.2] at htext
        exact .inl (truthyText_str hstr htext)
  | none =>
      have hmay : x.world.tables.mayMove job.runId result.status = true :=
        move_enabled_iff.mp (hkey ▸ he)
      simp only [misblames, hth, hauthor, hretry, hfailed, hmay, Option.isNone_none, Bool.not_false,
        decide_true, Bool.and_self, Bool.true_and, Bool.or_eq_false_iff, decide_eq_false_iff_not]
        at hguard
      obtain ⟨hplugin, hexplained⟩ := hguard
      refine ⟨.reported result, by simp [ending?, hth, hauthor], ?_⟩
      refine .settled hwf he hr hs hrun hlast hstopped hrecorded ?_ rfl (if_neg hplugin) ?_
      · intro hunexplained
        rw [hunexplained, Bool.true_and] at hexplained
        rwa [hkey]
      · intro text htext
        refine .inl ?_
        rw [Cause.message, PluginResult.message, htext, Option.getD_some]

theorem eq_of_not_speaksOfAnother {str : Json → String} {category message : String}
    {failure : JsonObject} (h : speaksOfAnother str category message failure = false) :
    (∀ text, truthyText str (failure.get? "category") = some text → text = category) ∧
      ∀ text, truthyText str (failure.get? "message") = some text →
        text = message ∨ text = category := by
  unfold speaksOfAnother at h
  obtain ⟨hcategory, hmessage⟩ := Bool.or_eq_false_iff.mp h
  refine ⟨fun text htext ↦ ?_, fun text htext ↦ ?_⟩
  · simpa [htext] using hcategory
  · rw [htext] at hmessage
    by_contra hneither
    obtain ⟨hne, hne'⟩ := not_or.mp hneither
    simp [hne, hne'] at hmessage

/-- A worker fails the run after an exception. -/
theorem ends_terminating (hex : x.world.Excludes) (hbudget : x.world.Budget) {job : Job}
    {reading : Reading} (hth : x.world.threads tid = .terminating job)
    (hguard : x.misblames d (tid, .event (.next reading)) = false) (hkey : r.runId = job.runId)
    (he : (Effect.move r.runId .failed (some "runtime_error") now).Enabled x.world.tables)
    (hs : s ∈ x.world.tables.stages) (hrun : s.runId = r.runId) :
    ∃ cause, x.ending? tid = some cause ∧ Explained d.str
      ((Effect.move r.runId .failed (some "runtime_error") now).apply x.world.tables)
      ((Effect.move r.runId .failed (some "runtime_error") now).onRun r) cause := by
  have hphase : (x.world.threads tid).phase? = some (job, .rechecking) := by rw [hth]; rfl
  have hmay : x.world.tables.mayMove job.runId .failed = true :=
    move_enabled_iff.mp (hkey ▸ he)
  simp only [misblames, hth, hmay, Bool.true_and, Bool.or_eq_false_iff] at hguard
  obtain ⟨hnotLost, hspeaks⟩ := hguard
  have hresulted : ∀ a, x.world.tables.attempt? job.attemptId = some a →
      a.status.resulted = true := by
    intro a ha
    have hnotRunning : a.status ≠ .running := hex.sound.fits tid job .rechecking a hphase ha
    have hnotPending := hex.sound.noPending a (Table.mem_of_get? ha)
    have hnotLost' : a.status ≠ .lost := by simpa [Tables.isLost, ha] using hnotLost
    cases hstatus : a.status <;> simp_all [AttemptStatus.resulted]
  obtain ⟨a, ha, hlast⟩ := hbudget.last?_of_owes hex hphase rfl hresulted
  rw [← hkey] at hlast
  have hstopped : a.status ≠ .running := hex.sound.fits tid job .rechecking a hphase ha
  rw [Tables.failureOf, ha, Option.bind_some] at hspeaks
  obtain ⟨hcategory, hmessage⟩ := eq_of_not_speaksOfAnother hspeaks
  refine ⟨.runtime (x.raised tid), by simp [ending?, hth], ?_⟩
  refine .moved hex.sound.wellFormed he hs hrun hlast hstopped ?_ rfl hmessage
  cases hnamed : truthyText d.str ((a.failure.getD []).get? "category") with
  | none => rfl
  | some text => exact hcategory text hnamed

/-- The sweep drops a run whose cancellation was requested. -/
theorem ends_dropping (hex : x.world.Excludes) (hevident : x.world.Evident) {runId : RunId}
    {runIds : List RunId} {reading : Reading} {reason : Option String}
    (hth : x.world.threads tid = .dropping (runId :: runIds))
    (hguard : x.misblames d (tid, .event (.next reading)) = false) (hkey : r.runId = runId)
    (he : (Effect.move r.runId .cancelled reason now).Enabled x.world.tables)
    (hs : s ∈ x.world.tables.stages) (hrun : s.runId = r.runId) :
    ∃ cause, x.ending? tid = some cause ∧ Explained d.str
      ((Effect.move r.runId .cancelled reason now).apply x.world.tables)
      ((Effect.move r.runId .cancelled reason now).onRun r) cause := by
  subst hkey
  have hmay : x.world.tables.mayMove r.runId .cancelled = true := move_enabled_iff.mp he
  simp only [misblames, hth, hmay, Bool.true_and, Bool.or_eq_false_iff,
    Option.isNone_eq_false_iff] at hguard
  obtain ⟨hnamed, hspeaks⟩ := hguard
  obtain ⟨hcategory, hmessage⟩ := eq_of_not_speaksOfAnother hspeaks
  obtain ⟨text, htext⟩ := Option.isSome_iff_exists.mp hnamed
  obtain ⟨a, hlast⟩ : ∃ a, x.world.tables.last? r.runId = some a := by
    cases hlast : x.world.tables.last? r.runId with
    | some a => exact ⟨a, rfl⟩
    | none =>
        rw [Tables.lastFailure, hlast] at htext
        cases htext
  have hfailure : x.world.tables.lastFailure r.runId = a.failure.getD [] := by
    rw [Tables.lastFailure, hlast, Option.bind_some]
  rw [hfailure] at htext hcategory hmessage
  have hstopped : a.status ≠ .running := by
    intro hrunning
    rw [hevident.running a (mem_of_last? hlast) hrunning] at htext
    cases htext
  refine ⟨.cancellation, by simp [ending?, hth], ?_⟩
  refine .moved hex.sound.wellFormed he hs hrun hlast hstopped ?_ rfl hmessage
  rw [htext]
  exact hcategory text htext

/-- A reclaim pass loses a run it owes. -/
theorem ends_losing (hstr : ∀ text, d.str (.str text) = text) (hex : x.world.Excludes)
    (hevident : x.world.Evident) {runId : RunId} {runIds : List RunId} {ids : List AttemptId}
    {reason : Option String} (hth : x.world.threads tid = .reclaiming (.losing ids runId runIds))
    (hkey : r.runId = runId)
    (he : (Effect.move r.runId .lost reason now).Enabled x.world.tables)
    (hs : s ∈ x.world.tables.stages) (hrun : s.runId = r.runId) :
    ∃ cause, x.ending? tid = some cause ∧ Explained d.str
      ((Effect.move r.runId .lost reason now).apply x.world.tables)
      ((Effect.move r.runId .lost reason now).onRun r) cause := by
  subst hkey
  obtain ⟨a, hlast, hlost⟩ := hevident.owed tid (.losing ids r.runId runIds) (by rw [hth]; rfl)
    r.runId List.mem_cons_self
  have hfailure := hevident.lost a (mem_of_last? hlast) hlost
  refine ⟨.lease, by simp [ending?, hth], ?_⟩
  refine .moved hex.sound.wellFormed he hs hrun hlast (by simp [hlost]) ?_ rfl ?_
  · rw [hfailure, Option.getD_some, show leaseFailure.get? "category" = some (.str "lease_expired")
      from rfl, truthyText_of_ne hstr (by decide)]
    rfl
  · intro text htext
    rw [hfailure] at htext
    exact .inl (truthyText_str hstr htext)

/-- Whoever moves a run to its end leaves a classification that fits. -/
theorem ends_moving (hstr : ∀ text, d.str (.str text) = text) (htold : x.Told d)
    (hex : x.world.Excludes) (hbudget : x.world.Budget) (hevident : x.world.Evident)
    {target : RuntimeStatus} {reason : Option String} {th' : Thread}
    (hguard : x.misblames d (tid, deed) = false)
    (hacts : (x.world.threads tid).Acts d tid x.world.tables deed.toEvent
      (.move r.runId target reason now) th')
    (he : (Effect.move r.runId target reason now).Enabled x.world.tables)
    (hr : r ∈ x.world.tables.runs) (hs : s ∈ x.world.tables.stages) (hrun : s.runId = r.runId)
    (hfailed : target ∈ failedStatuses) :
    ∃ cause, x.ending? tid = some cause ∧ Explained d.str
      ((Effect.move r.runId target reason now).apply x.world.tables)
      ((Effect.move r.runId target reason now).onRun r) cause := by
  generalize hkey : r.runId = runId at hacts
  generalize hth : x.world.threads tid = th at hacts
  generalize hev : deed.toEvent = ev at hacts
  cases hacts with
  | cancel | precancel | relay => cases terminal_of_failed hfailed
  | settle hretry =>
      obtain rfl := Deed.eq_event_of_next hev
      rw [← hkey]
      exact ends_settling hstr htold hex hbudget hevident hth hguard hretry hkey he hr hs hrun
        hfailed
  | terminate =>
      obtain rfl := Deed.eq_event_of_next hev
      rw [← hkey]
      exact ends_terminating hex hbudget hth hguard hkey he hs hrun
  | drop =>
      obtain rfl := Deed.eq_event_of_next hev
      rw [← hkey]
      exact ends_dropping hex hevident hth hguard hkey he hs hrun
  | pass hemits =>
      cases hemits
      rw [← hkey]
      exact ends_losing hstr hex hevident hth hkey he hs hrun

/-- A preflight failure is always misblamed. -/
theorem misblames_of_failEarly {runId : RunId} {category message eventId : String} {th' : Thread}
    (hacts : (x.world.threads tid).Acts d tid x.world.tables deed.toEvent
      (.failEarly runId category message eventId now) th')
    (he : (Effect.failEarly runId category message eventId now).Enabled x.world.tables) :
    x.misblames d (tid, deed) = true := by
  obtain ⟨⟨_, hmessage⟩, hevent, row, hrow, hwaiting⟩ := he
  have hmay : category = "preflight_error" →
      x.world.tables.mayFailEarly runId message eventId now = true := by
    rintro rfl
    simp [Tables.mayFailEarly, Tables.runStatus?, hmessage, hevent, hrow, hwaiting]
  generalize hth : x.world.threads tid = th at hacts
  generalize hev : deed.toEvent = ev at hacts
  cases hacts with
  | abort | escape =>
      obtain rfl := Deed.eq_event_of_next hev
      simp only [misblames, hth]
      exact hmay rfl
  | pass hemits => cases hemits

/-- Whose a result is. -/
theorem Told.authors_step {l : ThreadId × Deed} (h : x.Told d) (hstep : x.step d l = some x')
    {tid : ThreadId} {result : PluginResult} {c : Decision}
    (hresult : (x'.world.threads tid).result? = some result) (hauthor : x'.authors tid = some c) :
    result.status = c.status ∧ result.failure = some c.failure := by
  obtain ⟨w, hworld, rfl⟩ := Option.map_eq_some_iff.mp hstep
  obtain ⟨tid', deed⟩ := l
  by_cases htid : tid = tid'
  · subst htid
    have hbrings := World.step_result? hworld hresult
    simp only at hauthor hbrings
    generalize (w.threads tid, w.tables) = next at hbrings
    generalize hev : deed.toEvent = ev at hbrings
    cases hbrings with
    | ended =>
        cases deed with
        | event ev' =>
            obtain rfl : ev' = .done result := hev
            simp at hauthor
        | decided c' m =>
            obtain rfl := Event.done.inj hev
            obtain rfl : c' = c := by simpa using hauthor
            exact ⟨rfl, rfl⟩
    | recorded hth =>
        obtain rfl := Deed.eq_event_of_next hev
        exact h.authors tid result c (by rw [hth]; rfl) hauthor
  · rw [World.step_other hworld htid] at hresult
    refine h.authors tid result c hresult ?_
    cases deed with
    | decided => simpa [htid] using hauthor
    | event ev => cases ev <;> simpa [htid] using hauthor

theorem Told.step {l : ThreadId × Deed} (hstr : ∀ text, d.str (.str text) = text) (h : x.Told d)
    (hex : x.world.Excludes) (hbudget : x.world.Budget) (hevident : x.world.Evident)
    (hagree : Paired (fun r s ↦ s = r) x.world.tables) (hstep : x.step d l = some x')
    (hguard : x.misblames d l = false) : x'.Told d := by
  refine ⟨fun tid result c ↦ h.authors_step hstep, fun r' hr' hfailed ↦ ?_⟩
  obtain ⟨w, hworld, rfl⟩ := Option.map_eq_some_iff.mp hstep
  obtain ⟨tid, deed⟩ := l
  have hwf := hex.sound.wellFormed
  simp only at hr' hfailed ⊢
  rcases World.step_turn hworld with ⟨hsame, _⟩ | ⟨e, hacts, he, happly⟩
  · have htables : w.tables = x.world.tables := hsame
    rw [htables] at hr' ⊢
    simpa using h.explained r' hr' hfailed
  · have htables : w.tables = e.apply x.world.tables := happly
    rw [htables] at hr' ⊢
    obtain ⟨s', hs'⟩ := (hwf.apply he).exists_stage ((hwf.apply he).run?_of_mem hr')
    rcases hwf.pair_cases he hr' (Table.mem_of_get? hs') (Table.key_of_get? hs') with
      ⟨r, hr, s, hs, hrun, rfl, rfl⟩ | ⟨a, pluginId, rfl, rfl, rfl⟩
    · have hbefore : x.world.tables.runStatus? r.runId = some r.status := by
        rw [Tables.runStatus?, hwf.run?_of_mem hr, Option.map_some]
      have hafter : (e.apply x.world.tables).runStatus? r.runId = some (e.onRun r).status := by
        rw [Tables.runStatus?, run?_apply e (hwf.run?_of_mem hr), Option.map_some]
      rw [Effect.onRun_runId]
      by_cases hstays : (e.onRun r).status = r.status
      · obtain ⟨cause, hcause, hexplained⟩ := h.explained r hr (hstays ▸ hfailed)
        rw [onRun_of_failed hwf he hr (hstays ▸ hfailed) hstays]
        refine ⟨cause, ?_, hexplained.keep hwf hex.sound.noPending hagree he hr hs hrun
          (hstays ▸ hfailed)⟩
        rw [if_neg (by simp [hbefore, hafter, hstays])]
        exact hcause
      · have hends : ((e.apply x.world.tables).failedRun r.runId &&
            decide ((e.apply x.world.tables).runStatus? r.runId ≠
              x.world.tables.runStatus? r.runId)) = true := by
          simp [Tables.failedRun, hbefore, hafter, hstays, hfailed]
        rw [if_pos hends]
        rcases ends_by hwf he hr hs hrun hfailed hstays with
          ⟨target, reason, now, rfl, htarget⟩ | ⟨category, message, eventId, now, rfl⟩
        · exact ends_moving hstr h hex hbudget hevident hguard hacts he hr hs hrun htarget
        · rw [misblames_of_failEarly hacts he] at hguard
          cases hguard
    · cases terminal_of_failed hfailed

theorem Told.of_reachable (hstr : ∀ text, d.str (.str text) = text)
    (h : ReachableBy (Chronicle.step d) (fun x l ↦ x.misblames d l = false) {} x) : x.Told d := by
  have hworld : ∀ {x}, ReachableBy (Chronicle.step d) (fun x l ↦ x.misblames d l = false) {} x →
      ReachableBy (World.step d) (fun w l ↦ w.failsReclaimed l = false) {} x.world := by
    intro x h
    refine h.simulation Chronicle.world ?_
    rintro x ⟨tid, deed⟩ x' _ hguard hstep
    obtain ⟨w, hw, rfl⟩ := Option.map_eq_some_iff.mp hstep
    exact .inr ⟨_, not_failsReclaimed hguard, hw⟩
  induction h with
  | init =>
      refine ⟨?_, ?_⟩
      · intro tid result c hresult
        cases hresult
      · intro r hr
        cases hr
  | next hs hguard hstep ih =>
      have hw := hworld hs
      exact ih.step hstr (.of_reachable hw) (.of_reachable hw) (.of_reachable hw)
        (World.agree_of_reachable hw) hstep hguard

end Chronicle

/-! ## Over a whole history -/

/-- In a history without a statement that misblames the end it brings about, every run that
ended without success is always classified by what ended it. -/
theorem failures_blamed (d : Deployment) (hstr : ∀ text, d.str (.str text) = text)
    (history : List (ThreadId × Deed))
    (hnone : ∀ x l x', Takes (Chronicle.step d) {} history x l x' → x.misblames d l = false)
    (x : Chronicle) (hx : Visits (Chronicle.step d) {} history x) : x.Blames d.str := by
  intro r hr hfailed
  obtain ⟨cause, hcause, hexplained⟩ :=
    (Chronicle.Told.of_reachable hstr (hx.reachableBy hnone)).explained r hr hfailed
  exact ⟨cause, hcause, hexplained.tells⟩

/-- Worker 0 ends the first attempt with what the plugin reports and the run fails for it. -/
def Sample.reports : List (ThreadId × Deed) :=
  ([(9, .submit (Sample.submission 1))] ++ Sample.starts 0 "a1" 0 ++
    [(0, .done
      { status := .failed
        exitCode := 2
        failure := some [("category", .str "unplaced"), ("message", .str "no room")]
        statusValid := by simp
        exitCodeValid := by simp })] ++
    Sample.goesOn 0 3 1 : List (ThreadId × Event)).map fun l ↦ (l.1, .event l.2)

theorem failures_blamed_reports :
    (run (Chronicle.step Sample.deployment) {} Sample.reports).isSome = true ∧
      ∀ x, Visits (Chronicle.step Sample.deployment) {} Sample.reports x →
        x.Blames Sample.deployment.str := by
  refine ⟨by decide +kernel,
    failures_blamed Sample.deployment (fun _ ↦ rfl) Sample.reports ?_⟩
  have hnone : allSteps (Chronicle.step Sample.deployment)
      (fun x l ↦ !x.misblames Sample.deployment l) {} Sample.reports = true := by decide +kernel
  intro x l x' htakes
  simpa using htakes.of_allSteps hnone

/-- The plugin of a run cannot be loaded: the platform fails the run and the plugin is blamed. -/
def Sample.unloadable : List (ThreadId × Deed) :=
  ([(9, .submit (Sample.submission 1)), (0, .execute "run" false), (0, .next { now := 0 }),
    (0, .next { now := 0 }), (0, .raise "no such plugin"),
    (0, .next { now := 0, fresh := "event" })] : List (ThreadId × Event)).map
      fun l ↦ (l.1, .event l.2)

theorem preflight_blamed_on_plugin :
    ¬∀ (d : Deployment), (∀ text, d.str (.str text) = text) → ∀ history x,
      Visits (Chronicle.step d) {} history x → x.Blames d.str := by
  intro hclaim
  have hends : (run (Chronicle.step Sample.deployment) {} Sample.unloadable).any (fun x ↦
      x.world.tables.runs.any fun r ↦ r.status ∈ Plans.failedStatuses &&
        ((x.causes r.runId).any fun cause ↦ cause.source = "platform") &&
        Plans.truthyText Sample.deployment.str
          ((Plans.classifyFailure Sample.deployment.str (x.world.tables.detail r)).get? "source") =
            some "plugin") = true := by
    decide +kernel
  obtain ⟨x, hx, hblames⟩ := Visits.of_any hends
  obtain ⟨r, hr, hends⟩ := List.any_eq_true.mp hblames
  simp only [Bool.and_eq_true, decide_eq_true_eq] at hends
  obtain ⟨⟨hfailed, hcause⟩, hplugin⟩ := hends
  have hstr : ∀ text, Sample.deployment.str (.str text) = text := fun _ ↦ rfl
  obtain ⟨cause, hcaused, htells⟩ := hclaim Sample.deployment hstr _ x hx r hr hfailed
  have hsource : cause.source = "platform" := by simpa [hcaused] using hcause
  rw [htells.source, hsource] at hplugin
  exact absurd (truthyText_str hstr hplugin) (by decide)

end ChipEvolve
