import ChipEvolve.Contracts.Progress
import ChipEvolve.FirstOf

/-!
# The observer of an attempt's output

`ProgressObserver` (`observer.py`): the stage events it records in the store for the
lines that the guardian hands it, one after the other.  A call that raises leaves the
observer as it was, and the next line follows.
-/

namespace ChipEvolve.Progress

open Except (Raises)

/-! ## The observer -/

/-- What the observer is made with. -/
structure Scope where
  runId : String
  stageRunId : String
  attemptId : String
  marker : String
  producer : String

/-- The arguments of `record_event`. -/
structure Event where
  runId : String
  eventType : String
  payload : Members
  producer : String
  stageRunId : String
  attemptId : String

structure ProgressObserver where
  scope : Scope
  started : List String := []
  finished : List String := []
  malformed : Nat := 0
  /-- The events recorded so far. -/
  events : List Event := []

def Scope.event (scope : Scope) (eventType : String) (payload : Members) : Event where
  runId := scope.runId
  eventType := eventType
  payload := payload
  producer := scope.producer
  stageRunId := scope.stageRunId
  attemptId := scope.attemptId

/-- The payload of a `stage.finished` event. -/
def finishedPayload (report : ProgressReport) : Members :=
  [("stage", .str report.stage),
    ("status", (report.status.map fun status ↦ .str status.value).getD .null)] ++
  (report.seconds.map fun seconds ↦ ("seconds", seconds)).toList ++
  if report.detail.isEmpty then [] else [("detail", .obj report.detail)]

namespace ProgressObserver

variable (o : ProgressObserver)

def recordEvent (eventType : String) (payload : Members) : ProgressObserver :=
  { o with events := o.events ++ [o.scope.event eventType payload] }

def observe (report : ProgressReport) : ProgressObserver :=
  if report.phase = some .started then
    if report.stage ∈ o.started then o
    else recordEvent { o with started := report.stage :: o.started } "stage.started"
      [("stage", .str report.stage)]
  else if report.stage ∈ o.finished then o
  else recordEvent { o with finished := report.stage :: o.finished } "stage.finished"
    (finishedPayload report)

/-- `__call__` -/
def call (loads : String → Except LoadsError Parsed) (line : String) :
    Except DecodeError ProgressObserver :=
  match decodeProgressLine loads o.scope.marker line with
  | .error (.report (.contract _)) => .ok { o with malformed := o.malformed + 1 }
  | .error e => .error e
  | .ok none => .ok o
  | .ok (some report) => .ok (o.observe report)

def recordSummary : ProgressObserver :=
  if o.malformed ≠ 0 then
    o.recordEvent "progress.malformed"
      [("count", .number (.int o.malformed)), ("marker", .str o.scope.marker)]
  else o

/-- The observer after some lines, and what was raised on the way. -/
def feed (loads : String → Except LoadsError Parsed) :
    ProgressObserver → List String → ProgressObserver × List DecodeError
  | o, [] => (o, [])
  | o, line :: lines =>
      match o.call loads line with
      | .ok o' => feed loads o' lines
      | .error e => ((feed loads o lines).1, e :: (feed loads o lines).2)

end ProgressObserver

/-! ## What should be recorded -/

namespace Envelope

/-- The stage and the phase of a report. -/
def key (e : Envelope) : String × ProgressPhase := (e.stage, e.step.phase)

/-- The event that a report is recorded as. -/
def event (scope : Scope) (e : Envelope) : Event :=
  match e.step with
  | .started => scope.event "stage.started" [("stage", .str e.stage)]
  | .finished status => scope.event "stage.finished" <|
      [("stage", .str e.stage), ("status", .str status.value)] ++
      (e.seconds.map fun seconds ↦ ("seconds", .number seconds)).toList ++
      if e.detail.isEmpty then [] else [("detail", .obj e.detail)]

end Envelope

/-- The lines that should be counted. -/
def Malformed (loads : String → Except LoadsError Parsed) (marker line : String) : Prop :=
  Marked marker line ∧ (Envelope.ofLine loads marker line).isNone = true

instance {loads : String → Except LoadsError Parsed} {marker : String} :
    DecidablePred (Malformed loads marker) := fun _ ↦ inferInstanceAs (Decidable (_ ∧ _))

/-- The events are those of the first well-formed report of each stage and phase, in order, a
finished one has a status, the malformed lines are counted, and nothing is raised. -/
structure Exact (loads : String → Except LoadsError Parsed) (scope : Scope)
    (lines : List String) : Prop where
  events : (ProgressObserver.feed loads { scope } lines).1.events =
    ((lines.filterMap (Envelope.ofLine loads scope.marker)).eraseDupsBy
      fun later first ↦ later.key = first.key).map (Envelope.event scope)
  finished : ∀ event ∈ (ProgressObserver.feed loads { scope } lines).1.events,
    event.eventType = "stage.finished" →
      ∃ status : ProgressStatus, event.payload.lookup "status" = some (.str status.value)
  malformed : (ProgressObserver.feed loads { scope } lines).1.malformed =
    lines.countP fun line ↦ Malformed loads scope.marker line
  raised : (ProgressObserver.feed loads { scope } lines).2 = []

/-! ## One line -/

namespace ProgressObserver

variable {loads : String → Except LoadsError Parsed} {o : ProgressObserver} {line : String}
  {lines : List String} {e : Envelope}

/-- The stages and phases that have an event. -/
def seen (o : ProgressObserver) (key : String × ProgressPhase) : Bool :=
  match key.2 with
  | .started => key.1 ∈ o.started
  | .finished => key.1 ∈ o.finished

theorem observe_of_seen (h : o.seen e.key = true) : o.observe e.report = o := by
  unfold observe
  cases hstep : e.step with
  | started =>
      have hmem : e.stage.1 ∈ o.started := by
        simpa [seen, Envelope.key, hstep, Step.phase] using h
      simp [Envelope.report, hstep, Step.phase, hmem]
  | finished status =>
      have hmem : e.stage.1 ∈ o.finished := by
        simpa [seen, Envelope.key, hstep, Step.phase] using h
      simp [Envelope.report, hstep, Step.phase, hmem]

theorem observe_of_new (h : o.seen e.key = false) :
    (o.observe e.report).events = o.events ++ [e.event o.scope] ∧
      ∀ key, (o.observe e.report).seen key = (decide (key = e.key) || o.seen key) := by
  unfold observe
  cases hstep : e.step with
  | started =>
      have hmem : e.stage.1 ∉ o.started := by
        simpa [seen, Envelope.key, hstep, Step.phase] using h
      simp only [Envelope.report, hstep, Step.phase, if_true, if_neg hmem]
      refine ⟨by simp [recordEvent, Envelope.event, hstep], fun key ↦ ?_⟩
      obtain ⟨stage, phase⟩ := key
      rw [Bool.eq_iff_iff]
      cases phase with
      | started => simp [recordEvent, seen, Envelope.key, hstep, Step.phase]
      | finished =>
          simp only [Envelope.key, hstep, Step.phase, Prod.mk.injEq, reduceCtorEq, and_false,
            decide_false, Bool.false_or]
          exact Iff.rfl
  | finished status =>
      have hmem : e.stage.1 ∉ o.finished := by
        simpa [seen, Envelope.key, hstep, Step.phase] using h
      have hphase : ¬(some ProgressPhase.finished = some .started) := by simp
      simp only [Envelope.report, hstep, Step.phase, if_neg hphase, if_neg hmem]
      refine ⟨?_, fun key ↦ ?_⟩
      · simp [recordEvent, Envelope.event, hstep, finishedPayload, Step.status, Function.comp_def]
      · obtain ⟨stage, phase⟩ := key
        rw [Bool.eq_iff_iff]
        cases phase with
        | started =>
            simp only [Envelope.key, hstep, Step.phase, Prod.mk.injEq, reduceCtorEq, and_false,
              decide_false, Bool.false_or]
            exact Iff.rfl
        | finished => simp [recordEvent, seen, Envelope.key, hstep, Step.phase]

theorem observe_frame (o : ProgressObserver) (report : ProgressReport) :
    (o.observe report).scope = o.scope ∧
    (o.observe report).malformed = o.malformed := by
  unfold observe
  split
  · split <;> exact ⟨rfl, rfl⟩
  · split <;> exact ⟨rfl, rfl⟩

/-! ## All lines -/

/-- Over lines in order the observer does what the grammar asks for. -/
theorem feed_of_sound (h : ∀ line ∈ lines, Sound loads o.scope.marker line) :
    (feed loads o lines).2 = [] ∧
      (feed loads o lines).1.malformed =
        o.malformed + lines.countP (fun line ↦ Malformed loads o.scope.marker line) ∧
      (feed loads o lines).1.events = o.events ++
        (FirstOf.fresh Envelope.key o.seen
          (lines.filterMap (Envelope.ofLine loads o.scope.marker))).map
            (Envelope.event o.scope) := by
  induction lines generalizing o with
  | nil => simp [feed]
  | cons line lines ih =>
      rw [List.forall_mem_cons] at h
      rcases decode_of_sound h.1 with ⟨hmarked, hdecode, hline⟩ |
        ⟨hmarked, hline, message, hdecode⟩ | ⟨e, hline, hdecode⟩
      · have hcall : o.call loads line = .ok o := by simp only [call, hdecode]
        have hcount : ¬Malformed loads o.scope.marker line := fun hm ↦ hmarked hm.1
        simp only [feed, hcall, List.filterMap_cons, hline]
        rw [List.countP_cons_of_neg (by simpa using hcount)]
        exact ih h.2
      · have hcall : o.call loads line = .ok { o with malformed := o.malformed + 1 } := by
          simp only [call, hdecode]
        have hcount : Malformed loads o.scope.marker line := ⟨hmarked, by rw [hline]; rfl⟩
        obtain ⟨hraised, hmalformed, hevents⟩ :=
          ih (o := { o with malformed := o.malformed + 1 }) h.2
        simp only [feed, hcall, List.filterMap_cons, hline]
        rw [List.countP_cons_of_pos (by simpa using hcount)]
        exact ⟨hraised, by rw [hmalformed, Nat.add_right_comm]; rfl, hevents⟩
      · have hcall : o.call loads line = .ok (o.observe e.report) := by simp only [call, hdecode]
        have hcount : ¬Malformed loads o.scope.marker line := fun hm ↦ by
          simp [Malformed, hline] at hm
        obtain ⟨hscope, hsame⟩ := observe_frame o e.report
        obtain ⟨hraised, hmalformed, hevents⟩ := ih (o := o.observe e.report) (hscope ▸ h.2)
        simp only [feed, hcall, List.filterMap_cons, hline]
        rw [List.countP_cons_of_neg (by simpa using hcount)]
        refine ⟨hraised, by rw [hmalformed, hsame, hscope], ?_⟩
        rw [hevents, hscope]
        cases hseen : o.seen e.key with
        | true => rw [FirstOf.fresh_cons_of_seen hseen, observe_of_seen hseen]
        | false =>
            obtain ⟨hnew, hkeys⟩ := observe_of_new hseen
            rw [FirstOf.fresh_cons_of_new hseen hkeys, hnew, List.map_cons, List.append_assoc]
            rfl

/-- What is counted is what the decoder refuses. -/
def handled (loads : String → Except LoadsError Parsed) (marker line : String) : Bool :=
  match decodeProgressLine loads marker line with
  | .error (.report (.contract _)) => true
  | _ => false

theorem call_cases (loads : String → Except LoadsError Parsed) (o : ProgressObserver)
    (line : String) :
    (∃ error, o.call loads line = .error error ∧
      handled loads o.scope.marker line = false) ∨
    ∃ o', o.call loads line = .ok o' ∧ o'.scope = o.scope ∧
      (∀ error, decodeProgressLine loads o.scope.marker line = .error error → ¬error.Escaping) ∧
      o'.malformed = o.malformed + if handled loads o.scope.marker line then 1 else 0 := by
  unfold call handled
  cases decodeProgressLine loads o.scope.marker line with
  | error error =>
      cases error with
      | recursionError message => exact .inl ⟨_, rfl, rfl⟩
      | report error =>
          cases error with
          | contract message =>
              refine .inr ⟨_, rfl, rfl, fun error herror ↦ ?_, rfl⟩
              obtain rfl := Except.error.inj herror
              exact id
          | _ => exact .inl ⟨_, rfl, rfl⟩
  | ok report =>
      cases report with
      | none => exact .inr ⟨_, rfl, rfl, by simp, rfl⟩
      | some report =>
          exact .inr ⟨_, rfl, (observe_frame ..).1, by simp, (observe_frame ..).2⟩

theorem malformed_feed : (feed loads o lines).1.malformed =
    o.malformed + lines.countP (handled loads o.scope.marker) := by
  induction lines generalizing o with
  | nil => rfl
  | cons line lines ih =>
      rw [List.countP_cons]
      rcases call_cases loads o line with
        ⟨error, hcall, hhandled⟩ | ⟨o', hcall, hscope, _, hmalformed⟩
      · simp only [feed, hcall, hhandled]
        exact ih
      · simp only [feed, hcall]
        rw [ih, hscope, hmalformed]
        omega

theorem mem_raised {error : DecodeError} (hline : line ∈ lines)
    (hdecode : decodeProgressLine loads o.scope.marker line = .error error)
    (hescape : error.Escaping) : (feed loads o lines).2 ≠ [] := by
  induction lines generalizing o with
  | nil => cases hline
  | cons first lines ih =>
      rcases call_cases loads o first with
        ⟨_, hcall, _⟩ | ⟨o', hcall, hscope, hok, _⟩
      · simp [feed, hcall]
      · simp only [feed, hcall]
        rcases List.mem_cons.mp hline with rfl | hline
        · exact absurd hescape (hok error hdecode)
        · exact ih hline (hscope ▸ hdecode)

/-- What the decoder refuses should be counted. -/
theorem malformed_of_handled {marker : String} (h : handled loads marker line = true) :
    Malformed loads marker line := by
  have hrefused : ∃ message, decodeProgressLine loads marker line =
      .error (.report (.contract message)) := by
    unfold handled at h
    split at h
    · exact ⟨_, by assumption⟩
    · cases h
  obtain ⟨message, hmessage⟩ := hrefused
  cases decoding loads marker line with
  | ordinary _ hdecode _ =>
      rw [hdecode] at hmessage
      cases hmessage
  | refused hmarked _ _ hobject _ =>
      refine ⟨hmarked, ?_⟩
      unfold Envelope.ofLine
      split
      · next m hloaded => exact absurd hloaded (hobject m)
      · rfl
  | deep _ _ hdecode _ =>
      rw [hdecode] at hmessage
      cases hmessage
  | object hmarked m hdecode hloaded =>
      refine ⟨hmarked, ?_⟩
      cases he : Envelope.ofObject m with
      | none => simp [Envelope.ofLine, hloaded, he]
      | some e =>
          rw [hdecode, fromDict_of_ofObject he] at hmessage
          cases hmessage

end ProgressObserver

/-- A finished event has a status. -/
theorem status_of_event {scope : Scope} {e : Envelope}
    (h : (e.event scope).eventType = "stage.finished") :
    ∃ status : ProgressStatus,
      (e.event scope).payload.lookup "status" = some (.str status.value) := by
  unfold Envelope.event at h ⊢
  cases hstep : e.step with
  | started => simp [hstep, Scope.event] at h
  | finished status =>
      refine ⟨status, ?_⟩
      simp [Scope.event, List.lookup_cons]

/-- The recorded events and the count are exact when every line is in order, and not otherwise. -/
theorem progress_exact_iff (loads : String → Except LoadsError Parsed) (scope : Scope)
    (lines : List String) :
    Exact loads scope lines ↔ ∀ line ∈ lines, Sound loads scope.marker line := by
  constructor
  · intro h line hline
    by_contra hsound
    rcases decode_of_not_sound hsound with ⟨error, herror, hescape⟩ |
      ⟨hmarked, hnone, report, hreport⟩
    · exact ProgressObserver.mem_raised (o := { scope }) hline herror hescape h.raised
    · have hcount : lines.countP (ProgressObserver.handled loads scope.marker) =
          lines.countP fun line ↦ Malformed loads scope.marker line := by
        rw [← h.malformed, ProgressObserver.malformed_feed]
        simp
      have hhandled := FirstOf.of_countP_eq
        (fun line _ h ↦ decide_eq_true (ProgressObserver.malformed_of_handled h)) hcount line hline
        (decide_eq_true ⟨hmarked, by rw [hnone]; rfl⟩)
      simp [ProgressObserver.handled, hreport] at hhandled
  · intro h
    obtain ⟨hraised, hmalformed, hevents⟩ :=
      ProgressObserver.feed_of_sound (o := { scope }) h
    have hnew : ProgressObserver.seen { scope } = fun _ ↦ false := by
      funext key
      obtain ⟨stage, phase⟩ := key
      cases phase <;> simp [ProgressObserver.seen]
    rw [hnew, FirstOf.fresh_none, List.nil_append] at hevents
    refine ⟨hevents, fun event hevent htype ↦ ?_, by simpa using hmalformed, hraised⟩
    rw [hevents] at hevent
    obtain ⟨e, _, rfl⟩ := List.mem_map.mp hevent
    exact status_of_event htype

/-- Over lines in order, what `record_summary` reports is the number of malformed lines. -/
theorem summary_of_sound {loads : String → Except LoadsError Parsed} {scope : Scope}
    {lines : List String} (h : ∀ line ∈ lines, Sound loads scope.marker line) {event : Event}
    (hevent : event ∈ (ProgressObserver.feed loads { scope } lines).1.recordSummary.events)
    (htype : event.eventType = "progress.malformed") :
    event.payload.lookup "count" = some (.number (.int
      (lines.countP fun line ↦ Malformed loads scope.marker line : Nat))) := by
  obtain ⟨_, hmalformed, hevents⟩ := ProgressObserver.feed_of_sound (o := { scope }) h
  have hold : event ∉ (ProgressObserver.feed loads { scope } lines).1.events := fun hmem ↦ by
    rw [hevents, List.nil_append] at hmem
    obtain ⟨e, _, rfl⟩ := List.mem_map.mp hmem
    unfold Envelope.event at htype
    cases hstep : e.step <;> simp [hstep, Scope.event] at htype
  unfold ProgressObserver.recordSummary at hevent
  split at hevent
  · rcases List.mem_append.mp hevent with hmem | hmem
    · exact absurd hmem hold
    · obtain rfl := List.mem_singleton.mp hmem
      simp only [Scope.event, List.lookup_cons_self, hmalformed, Nat.zero_add]
  · exact absurd hevent hold

namespace Sample

def scope : Scope where
  runId := "run"
  stageRunId := "stage"
  attemptId := "attempt"
  marker := "[progress]"
  producer := "adapter:yosys@1"

/-- A report whose phase is null, on a line and as `json.loads` gives it. -/
def phaseless : String := "[progress] \x7b\"stage\": \"route\", \"phase\": null\x7d\n"

def loads (text : String) : Except LoadsError Parsed :=
  if text = "\x7b\"stage\": \"route\", \"phase\": null\x7d" then
    .ok (.obj [("stage", .str "route"), ("phase", .null)])
  else .error (.decodeError "Expecting value")

end Sample

/-- It is recorded as a finished stage without a status. -/
theorem phaseless_report_recorded : ¬Exact Sample.loads Sample.scope [Sample.phaseless] := by
  intro h
  have hmalformed : (ProgressObserver.feed Sample.loads { scope := Sample.scope }
      [Sample.phaseless]).1.malformed = 0 := by decide +kernel
  have hcount : [Sample.phaseless].countP
      (fun line ↦ Malformed Sample.loads Sample.scope.marker line) = 1 := by decide +kernel
  have hequal := h.malformed
  rw [hmalformed, hcount] at hequal
  cases hequal

end ChipEvolve.Progress
