import ChipEvolve.Runtime.Observer
import ChipEvolve.Store.Tables
import Mathlib.Data.List.Pairwise

/-!
# The progress view of the run console

`progress` (`run_console`) folds a run's timeline into one entry for each stage.
Each event overwrites the fields it knows and leaves the others, whichever attempt
they came from, so the entry is that of the last attempt only where this
attempt overwrites everything an earlier one has left.
-/

namespace ChipEvolve.Apps.RunConsole

open Progress

/-! ## The fold -/

structure TimelineEvent where
  event : Event
  occurredAt : Timestamp

structure StageEntry where
  stage : String
  status : Parsed := .str "started"
  startedAt : Option Timestamp := none
  finishedAt : Option Timestamp := none
  seconds : Parsed := .null
  detail : Parsed := .null

structure View where
  stages : List StageEntry := []
  malformed : Int := 0

/-- `payload.get(key)` -/
def get (payload : Members) (key : String) : Parsed := (payload.lookup key).getD .null

/-- `payload.get("stage")`, when it is a text and not empty. -/
def stageName (payload : Members) : Option String :=
  match get payload "stage" with
  | .str s => if s = "" then none else some s
  | _ => none

/-- `int(payload.get("count") or 0)`, of the integers observers write there -/
def malformedCount (payload : Members) : Int :=
  match get payload "count" with
  | .number (.int n) => n
  | _ => 0

namespace TimelineEvent

def isStarted (t : TimelineEvent) : Bool := t.event.eventType = "stage.started"

def isFinished (t : TimelineEvent) : Bool := t.event.eventType = "stage.finished"

/-- `payload.get("status") or "finished"` -/
def shownStatus (t : TimelineEvent) : Parsed :=
  if (get t.event.payload "status").truthy then get t.event.payload "status"
  else .str "finished"

/-- The event is about the stage. -/
def reports (name : String) (t : TimelineEvent) : Bool :=
  t.event.eventType ≠ "progress.malformed" && stageName t.event.payload = some name

end TimelineEvent

def StageEntry.note (e : StageEntry) (t : TimelineEvent) : StageEntry :=
  if t.isStarted then
    { e with startedAt := some t.occurredAt, status := .str "running" }
  else if t.isFinished then
    { e with
      finishedAt := some t.occurredAt
      status := t.shownStatus
      seconds := get t.event.payload "seconds"
      detail := get t.event.payload "detail" }
  else e

/-- `stages.setdefault(name, …)` -/
def setDefault (stages : List StageEntry) (name : String) : List StageEntry :=
  if stages.any fun e ↦ e.stage = name then stages else stages ++ [{ stage := name }]

def View.read (v : View) (t : TimelineEvent) : View :=
  if t.event.eventType = "progress.malformed" then
    { v with malformed := v.malformed + malformedCount t.event.payload }
  else
    match stageName t.event.payload with
    | none => v
    | some name =>
        { v with
          stages := (setDefault v.stages name).map fun e ↦
            if e.stage = name then e.note t else e }

def progress (timeline : List TimelineEvent) : View := timeline.foldl View.read {}

/-! ## One entry -/

def View.entryOf? (v : View) (name : String) : Option StageEntry :=
  Table.get? StageEntry.stage name v.stages

@[simp] theorem StageEntry.note_stage (e : StageEntry) (t : TimelineEvent) :
    (e.note t).stage = e.stage := by
  unfold StageEntry.note
  split_ifs <;> rfl

variable {v : View} {t : TimelineEvent} {name other : String} {timeline : List TimelineEvent}

theorem find?_setDefault (stages : List StageEntry) (name other : String) :
    (setDefault stages name).find? (fun e ↦ e.stage = other) =
      if name = other then some ((stages.find? fun e ↦ e.stage = other).getD { stage := other })
      else stages.find? fun e ↦ e.stage = other := by
  unfold setDefault
  by_cases hany : (stages.any fun e ↦ e.stage = name) = true
  · rw [if_pos hany]
    split_ifs with heq
    · subst heq
      have hsome : (stages.find? fun e ↦ e.stage = name).isSome = true := by
        simpa using hany
      obtain ⟨e, he⟩ := Option.isSome_iff_exists.mp hsome
      rw [he, Option.getD_some]
    · rfl
  · rw [if_neg hany, List.find?_append]
    have hnone : ∀ e ∈ stages, e.stage ≠ name := by simpa using hany
    split_ifs with heq
    · subst heq
      have hfind : (stages.find? fun e ↦ e.stage = name) = none := by simpa using hnone
      simp [hfind]
    · simp [heq]

/-- An event changes the entry of its stage only. -/
theorem entryOf?_read : (v.read t).entryOf? other =
    if t.reports other then some (((v.entryOf? other).getD { stage := other }).note t)
    else v.entryOf? other := by
  unfold View.read View.entryOf? Table.get? TimelineEvent.reports
  by_cases hmalformed : t.event.eventType = "progress.malformed"
  · simp [hmalformed]
  · cases hname : stageName t.event.payload with
    | none => simp [hmalformed]
    | some name =>
        have hkey : ((fun e : StageEntry ↦ (decide (e.stage = other))) ∘
            fun e ↦ if e.stage = name then e.note t else e) = fun e ↦ decide (e.stage = other) := by
          funext e
          by_cases he : e.stage = name <;> simp [he]
        simp only [if_neg hmalformed, List.find?_map, hkey, find?_setDefault]
        by_cases heq : name = other
        · subst heq
          cases hfind : v.stages.find? fun e ↦ e.stage = name with
          | none => simp [hmalformed]
          | some e =>
              have he : e.stage = name := by simpa using List.find?_some hfind
              simp [hmalformed, he]
        · cases hfind : v.stages.find? fun e ↦ e.stage = other with
          | none => simp [heq]
          | some e =>
              have he : e.stage = other := by simpa using List.find?_some hfind
              have hne : e.stage ≠ name := fun h ↦ heq (h.symm.trans he)
              simp [heq, hne]

/-- The entry of a stage comes from the events about it. -/
theorem entryOf?_foldl (v : View) (timeline : List TimelineEvent) :
    (timeline.foldl View.read v).entryOf? name =
      if timeline.filter (·.reports name) = [] then v.entryOf? name
      else some ((timeline.filter (·.reports name)).foldl StageEntry.note
        ((v.entryOf? name).getD { stage := name })) := by
  induction timeline generalizing v with
  | nil => rfl
  | cons t timeline ih =>
      rw [List.foldl_cons, ih, entryOf?_read]
      cases hreports : t.reports name with
      | false => simp [hreports]
      | true =>
          simp only [hreports, List.filter_cons_of_pos, reduceCtorEq, if_false, if_true,
            List.foldl_cons, Option.getD_some]
          split_ifs with hnil
          · rw [hnil, List.foldl_nil]
          · rfl

theorem entryOf?_progress (h : timeline.filter (·.reports name) ≠ []) :
    (progress timeline).entryOf? name =
      some ((timeline.filter (·.reports name)).foldl StageEntry.note { stage := name }) := by
  rw [progress, entryOf?_foldl, if_neg h]
  rfl

theorem nodup_setDefault {stages : List StageEntry} (h : (stages.map StageEntry.stage).Nodup) :
    ((setDefault stages name).map StageEntry.stage).Nodup := by
  unfold setDefault
  split_ifs with hany
  · exact h
  · rw [List.map_append, List.nodup_append]
    refine ⟨h, List.nodup_singleton _, fun a ha b hb hab ↦ hany ?_⟩
    obtain ⟨e, he, rfl⟩ := List.mem_map.mp ha
    simp only [List.map_cons, List.map_nil, List.mem_singleton] at hb
    exact List.any_eq_true.mpr ⟨e, he, by simpa using hab.trans hb⟩

/-- No two entries are about one stage. -/
theorem unique_progress (timeline : List TimelineEvent) :
    Table.Unique StageEntry.stage (progress timeline).stages := by
  have hread : ∀ (v : View) (t : TimelineEvent), (v.stages.map StageEntry.stage).Nodup →
      ((v.read t).stages.map StageEntry.stage).Nodup := by
    intro v t hv
    unfold View.read
    split_ifs with hmalformed
    · exact hv
    · cases stageName t.event.payload with
      | none => exact hv
      | some name =>
          have hstages : (((setDefault v.stages name).map fun e ↦
              if e.stage = name then e.note t else e).map StageEntry.stage) =
                (setDefault v.stages name).map StageEntry.stage := by
            rw [List.map_map]
            refine List.map_congr_left fun e _ ↦ ?_
            by_cases he : e.stage = name <;> simp [he]
          simp only [hstages]
          exact nodup_setDefault hv
  exact List.foldlRecOn timeline View.read List.nodup_nil fun v hv t _ ↦ hread v t hv

/-! ## What observers record -/

/-- The event is of a kind and about the stage. -/
def about (kind name : String) (e : Event) : Bool :=
  e.eventType = kind && stageName e.payload = some name

/-- What one observer leaves: each start and each finish of a stage once. -/
structure Recorded (events : List Event) : Prop where
  shaped : ∀ e ∈ events, e.eventType = "stage.started" ∨ e.eventType = "progress.malformed" ∨
    e.eventType = "stage.finished" ∧ ∃ report, e.payload = finishedPayload report
  startedOnce : ∀ name, events.countP (about "stage.started" name) ≤ 1
  finishedOnce : ∀ name, events.countP (about "stage.finished" name) ≤ 1

/-- The sets of an observer hold the stages it has events of. -/
structure Observing (o : ProgressObserver) : Prop where
  recorded : Recorded o.events
  started : ∀ e ∈ o.events, ∀ name, about "stage.started" name e = true → name ∈ o.started
  finished : ∀ e ∈ o.events, ∀ name, about "stage.finished" name e = true → name ∈ o.finished

theorem stageName_of_lookup {payload : Members} {stage : String}
    (h : payload.lookup "stage" = some (.str stage)) (hname : stageName payload = some name) :
    name = stage := by
  unfold stageName get at hname
  rw [h] at hname
  simp only [Option.getD_some] at hname
  split_ifs at hname
  exact (Option.some.inj hname).symm

theorem countP_concat_le {events : List Event} {e : Event} {p : Event → Bool}
    (hold : events.countP p ≤ 1) (hnew : p e = true → ∀ x ∈ events, p x ≠ true) :
    (events ++ [e]).countP p ≤ 1 := by
  rw [List.countP_append, List.countP_singleton]
  split_ifs with hp
  · rw [List.countP_eq_zero.mpr (hnew hp)]
  · exact hold

/-- An event about a stage that is not yet in its set. -/
theorem Observing.record {o : ProgressObserver} (h : Observing o) {kind stage : String}
    {payload : Members} {started finished : List String}
    (hkind : kind = "stage.started" ∧ stage ∉ o.started ∧ started = stage :: o.started ∧
        finished = o.finished ∨
      (kind = "stage.finished" ∧ ∃ report, payload = finishedPayload report) ∧
        stage ∉ o.finished ∧ started = o.started ∧ finished = stage :: o.finished)
    (hstage : payload.lookup "stage" = some (.str stage)) :
    Observing (ProgressObserver.recordEvent
      { o with started := started, finished := finished } kind payload) := by
  have habout : ∀ kind' name, about kind' name (o.scope.event kind payload) = true →
      kind = kind' ∧ name = stage := by
    intro kind' name hevent
    obtain ⟨hsame, hname⟩ := (Bool.and_eq_true _ _).mp hevent
    exact ⟨of_decide_eq_true hsame, stageName_of_lookup hstage (of_decide_eq_true hname)⟩
  refine ⟨⟨fun e he ↦ ?_, fun name ↦ ?_, fun name ↦ ?_⟩, fun e he name hname ↦ ?_,
    fun e he name hname ↦ ?_⟩
  · rcases List.mem_append.mp he with he | he
    · exact h.recorded.shaped e he
    · obtain rfl := List.mem_singleton.mp he
      rcases hkind with ⟨hkind, _⟩ | ⟨hkind, _⟩
      · exact .inl hkind
      · exact .inr (.inr hkind)
  · refine countP_concat_le (h.recorded.startedOnce name) fun hnew x hx hold ↦ ?_
    obtain ⟨hsame, rfl⟩ := habout _ _ hnew
    rcases hkind with ⟨_, hnotMem, _⟩ | ⟨⟨hother, _⟩, _⟩
    · exact hnotMem (h.started x hx _ hold)
    · exact absurd (hsame.symm.trans hother) (by decide)
  · refine countP_concat_le (h.recorded.finishedOnce name) fun hnew x hx hold ↦ ?_
    obtain ⟨hsame, rfl⟩ := habout _ _ hnew
    rcases hkind with ⟨hother, _⟩ | ⟨_, hnotMem, _⟩
    · exact absurd (hsame.symm.trans hother) (by decide)
    · exact hnotMem (h.finished x hx _ hold)
  · rcases List.mem_append.mp he with he | he
    · have hmem := h.started e he name hname
      rcases hkind with ⟨_, _, rfl, _⟩ | ⟨_, _, rfl, _⟩
      · exact List.mem_cons_of_mem _ hmem
      · exact hmem
    · obtain rfl := List.mem_singleton.mp he
      obtain ⟨hsame, rfl⟩ := habout _ _ hname
      rcases hkind with ⟨_, _, rfl, _⟩ | ⟨⟨hother, _⟩, _⟩
      · exact List.mem_cons_self
      · exact absurd (hsame.symm.trans hother) (by decide)
  · rcases List.mem_append.mp he with he | he
    · have hmem := h.finished e he name hname
      rcases hkind with ⟨_, _, _, rfl⟩ | ⟨_, _, _, rfl⟩
      · exact hmem
      · exact List.mem_cons_of_mem _ hmem
    · obtain rfl := List.mem_singleton.mp he
      obtain ⟨hsame, rfl⟩ := habout _ _ hname
      rcases hkind with ⟨hother, _⟩ | ⟨_, _, _, rfl⟩
      · exact absurd (hsame.symm.trans hother) (by decide)
      · exact List.mem_cons_self

theorem Observing.observe {o : ProgressObserver} (h : Observing o) (report : ProgressReport) :
    Observing (o.observe report) := by
  unfold ProgressObserver.observe
  split_ifs with hphase hmem hmem
  · exact h
  · exact h.record (.inl ⟨rfl, hmem, rfl, rfl⟩) rfl
  · exact h
  · exact h.record (.inr ⟨⟨rfl, report, rfl⟩, hmem, rfl, rfl⟩) rfl

theorem Observing.call {loads : String → Except LoadsError Parsed} {o o' : ProgressObserver}
    {line : String} (h : Observing o) (hcall : o.call loads line = .ok o') : Observing o' := by
  unfold ProgressObserver.call at hcall
  split at hcall
  · obtain rfl := Except.ok.inj hcall
    exact ⟨h.recorded, h.started, h.finished⟩
  · cases hcall
  · obtain rfl := Except.ok.inj hcall
    exact h
  · obtain rfl := Except.ok.inj hcall
    exact h.observe _

theorem Observing.feed {loads : String → Except LoadsError Parsed} {o : ProgressObserver}
    (h : Observing o) (lines : List String) :
    Observing (ProgressObserver.feed loads o lines).1 := by
  induction lines generalizing o with
  | nil => exact h
  | cons line lines ih =>
      unfold ProgressObserver.feed
      cases hcall : o.call loads line with
      | ok o' => exact ih (h.call hcall)
      | error e => exact ih h

theorem Observing.summary {o : ProgressObserver} (h : Observing o) :
    Recorded o.recordSummary.events := by
  unfold ProgressObserver.recordSummary
  split_ifs with hcount
  · refine ⟨fun e he ↦ ?_, fun name ↦ ?_, fun name ↦ ?_⟩
    · rcases List.mem_append.mp he with he | he
      · exact h.recorded.shaped e he
      · obtain rfl := List.mem_singleton.mp he
        exact .inr (.inl rfl)
    · exact countP_concat_le (h.recorded.startedOnce name) fun hnew ↦ by cases hnew
    · exact countP_concat_le (h.recorded.finishedOnce name) fun hnew ↦ by cases hnew
  · exact h.recorded

theorem recorded_feed (loads : String → Except LoadsError Parsed) (scope : Scope)
    (lines : List String) :
    Recorded (ProgressObserver.feed loads { scope := scope } lines).1.recordSummary.events := by
  have hstart : Observing { scope := scope } := by
    refine ⟨⟨?_, ?_, ?_⟩, ?_, ?_⟩ <;> simp
  exact (hstart.feed lines).summary

/-! ## The timeline of a run -/

/-- The event is not an observer's. -/
def TimelineEvent.foreign (t : TimelineEvent) : Bool :=
  (t.event.payload.lookup "stage").isNone && t.event.eventType ≠ "progress.malformed"

/-- A run's timeline, one attempt after the other; in the stretch of an attempt stands
what its observer managed to record, among events of others. -/
structure Timeline (loads : String → Except LoadsError Parsed) where
  attempts : List (List TimelineEvent)
  observed : ∀ a ∈ attempts, ∃ scope lines,
    ((a.filter (!·.foreign)).map TimelineEvent.event).Sublist
      (ProgressObserver.feed loads { scope := scope } lines).1.recordSummary.events
  ordered : attempts.flatten.Pairwise fun t t' ↦ t.occurredAt ≤ t'.occurredAt

/-- The entry agrees with the reports of one attempt. -/
structure StageEntry.Describes (e : StageEntry) (reports : List TimelineEvent) : Prop where
  startedAt : e.startedAt = (reports.find? (·.isStarted)).map TimelineEvent.occurredAt
  finishedAt : e.finishedAt = (reports.find? (·.isFinished)).map TimelineEvent.occurredAt
  seconds : e.seconds = ((reports.find? (·.isFinished)).map
    fun t ↦ get t.event.payload "seconds").getD .null
  detail : e.detail = ((reports.find? (·.isFinished)).map
    fun t ↦ get t.event.payload "detail").getD .null
  status : e.status = .str "running" ∧ (∃ t ∈ reports, t.isStarted = true) ∨
    ∃ t ∈ reports, t.isFinished = true ∧ e.status = t.shownStatus
  running : e.status = .str "running" → e.finishedAt = none ∧ e.seconds = .null ∧ e.detail = .null
  finished : e.status ≠ .str "running" → ∀ s ∈ e.startedAt, ∀ f ∈ e.finishedAt, s ≤ f

/-- The last attempt that reports the stage overwrites what earlier ones reported: it has the
start and then the finish, or only a start and no earlier finish stands, or only a finish and
no earlier start stands. -/
def Overwrites (earlier : List TimelineEvent) : List TimelineEvent → Prop
  | [t] => (t.isStarted = true ∧ ∀ u ∈ earlier, u.isFinished = false) ∨
      t.isFinished = true ∧ ∀ u ∈ earlier, u.isStarted = false
  | [s, f] => s.isStarted = true ∧ f.isFinished = true
  | _ => False

theorem not_started_of_finished (h : t.isFinished = true) : t.isStarted = false := by
  unfold TimelineEvent.isFinished TimelineEvent.isStarted at *
  rw [of_decide_eq_true h]
  decide

/-- What an observer's events about a stage can be. -/
structure Reporting (reports : List TimelineEvent) : Prop where
  shaped : ∀ t ∈ reports, t.isStarted = true ∨ t.isFinished = true
  shown : ∀ t ∈ reports, t.isFinished = true → t.shownStatus ≠ .str "running"
  startedOnce : reports.countP (·.isStarted) ≤ 1
  finishedOnce : reports.countP (·.isFinished) ≤ 1

theorem shownStatus_ne_running {report : ProgressReport}
    (h : t.event.payload = finishedPayload report) : t.shownStatus ≠ .str "running" := by
  have hstatus : get t.event.payload "status" =
      (report.status.map fun status ↦ Parsed.str status.value).getD .null := by
    rw [h]
    simp [get, finishedPayload, List.lookup_cons]
  unfold TimelineEvent.shownStatus
  rw [hstatus]
  cases report.status with
  | none => simp [Parsed.truthy]
  | some status => cases status <;> simp [Parsed.truthy, ProgressStatus.value]

theorem reports_iff : t.reports name = true ↔
    t.event.eventType ≠ "progress.malformed" ∧ stageName t.event.payload = some name := by
  simp [TimelineEvent.reports]

theorem not_foreign_of_reports (h : t.reports name = true) : t.foreign = false := by
  have hname := (reports_iff.mp h).2
  unfold TimelineEvent.foreign
  cases hlookup : t.event.payload.lookup "stage" with
  | none => simp [stageName, get, hlookup] at hname
  | some stage => simp

theorem countP_reports_le {a : List TimelineEvent} {events : List Event} {kind : String}
    {p : TimelineEvent → Bool}
    (hsub : ((a.filter (!·.foreign)).map TimelineEvent.event).Sublist events)
    (honce : events.countP (about kind name) ≤ 1)
    (hp : ∀ t, p t = true → t.event.eventType = kind) :
    (a.filter (·.reports name)).countP p ≤ 1 := by
  refine le_trans ?_ (hsub.countP_le.trans honce)
  rw [List.countP_map, List.countP_filter, List.countP_filter]
  refine List.countP_mono_left fun t _ ht ↦ ?_
  obtain ⟨hkind, hreports⟩ := (Bool.and_eq_true _ _).mp ht
  simp [about, hp t hkind, (reports_iff.mp hreports).2, not_foreign_of_reports hreports]

theorem reporting_of_observed {a : List TimelineEvent} {events : List Event}
    (hrecorded : Recorded events)
    (hsub : ((a.filter (!·.foreign)).map TimelineEvent.event).Sublist events) (name : String) :
    Reporting (a.filter (·.reports name)) := by
  have hmem : ∀ t ∈ a.filter (·.reports name),
      t.event.eventType ≠ "progress.malformed" ∧ t.event ∈ events := by
    intro t ht
    obtain ⟨ht, hreports⟩ := List.mem_filter.mp ht
    refine ⟨(reports_iff.mp hreports).1, hsub.subset (List.mem_map_of_mem ?_)⟩
    exact List.mem_filter.mpr ⟨ht, by simp [not_foreign_of_reports hreports]⟩
  refine ⟨fun t ht ↦ ?_, fun t ht hfinished ↦ ?_, ?_, ?_⟩
  · obtain ⟨hkind, hevent⟩ := hmem t ht
    rcases hrecorded.shaped _ hevent with hstarted | hmalformed | ⟨hfinished, _⟩
    · exact .inl (decide_eq_true hstarted)
    · exact absurd hmalformed hkind
    · exact .inr (decide_eq_true hfinished)
  · obtain ⟨hkind, hevent⟩ := hmem t ht
    rcases hrecorded.shaped _ hevent with hstarted | hmalformed | ⟨_, report, hpayload⟩
    · have hnot := not_started_of_finished hfinished
      exact absurd hstarted (of_decide_eq_false hnot)
    · exact absurd hmalformed hkind
    · exact shownStatus_ne_running hpayload
  · exact countP_reports_le hsub (hrecorded.startedOnce name) fun _ ↦ of_decide_eq_true
  · exact countP_reports_le hsub (hrecorded.finishedOnce name) fun _ ↦ of_decide_eq_true

/-- One event, or a start and a finish in some order. -/
theorem Reporting.cases {reports : List TimelineEvent} (h : Reporting reports)
    (hne : reports ≠ []) : (∃ t, reports = [t]) ∨ ∃ t u, reports = [t, u] ∧
      (t.isStarted = true ∧ u.isFinished = true ∨ t.isFinished = true ∧ u.isStarted = true) := by
  obtain ⟨hshaped, _, hstarted, hfinished⟩ := h
  cases reports with
  | nil => exact absurd rfl hne
  | cons t reports =>
      cases reports with
      | nil => exact .inl ⟨t, rfl⟩
      | cons u reports =>
          have hsplit := List.length_eq_countP_add_countP (·.isStarted)
            (l := t :: u :: reports)
          have hrest : (t :: u :: reports).countP (fun x ↦ ¬x.isStarted = true) ≤ 1 := by
            refine le_trans (List.countP_mono_left fun x hx hnot ↦ ?_) hfinished
            exact (hshaped x hx).resolve_left (of_decide_eq_true hnot)
          have hlength : reports.length = 0 := by
            rw [List.length_cons, List.length_cons] at hsplit
            omega
          obtain rfl := List.eq_nil_of_length_eq_zero hlength
          refine .inr ⟨t, u, rfl, ?_⟩
          rcases hshaped t (by simp) with ht | ht <;> rcases hshaped u (by simp) with hu | hu
          · simp [ht, hu] at hstarted
          · exact .inl ⟨ht, hu⟩
          · exact .inr ⟨ht, hu⟩
          · simp [ht, hu] at hfinished

/-! ## What earlier attempts leave in the entry -/

theorem foldl_note_startedAt (earlier : List TimelineEvent) (e : StageEntry) :
    (earlier.foldl StageEntry.note e).startedAt = none ↔
      e.startedAt = none ∧ ∀ u ∈ earlier, u.isStarted = false := by
  induction earlier generalizing e with
  | nil => simp
  | cons u earlier ih =>
      rw [List.foldl_cons, ih, List.forall_mem_cons, ← and_assoc]
      refine and_congr_left fun _ ↦ ?_
      unfold StageEntry.note
      split_ifs with hstarted hfinished <;> simp [hstarted]

theorem foldl_note_finishedAt (earlier : List TimelineEvent) (e : StageEntry) :
    (earlier.foldl StageEntry.note e).finishedAt = none ↔
      e.finishedAt = none ∧ ∀ u ∈ earlier, u.isFinished = false := by
  induction earlier generalizing e with
  | nil => simp
  | cons u earlier ih =>
      rw [List.foldl_cons, ih, List.forall_mem_cons, ← and_assoc]
      refine and_congr_left fun _ ↦ ?_
      unfold StageEntry.note
      split_ifs with hstarted hfinished
      · have hnot : u.isFinished = false := by
          by_contra h
          rw [Bool.not_eq_false] at h
          simp [not_started_of_finished h] at hstarted
        simp [hnot]
      · simp [hfinished]
      · simp [hfinished]

theorem foldl_note_unfinished {earlier : List TimelineEvent} (e : StageEntry)
    (h : ∀ u ∈ earlier, u.isFinished = false) :
    (earlier.foldl StageEntry.note e).seconds = e.seconds ∧
      (earlier.foldl StageEntry.note e).detail = e.detail := by
  induction earlier generalizing e with
  | nil => exact ⟨rfl, rfl⟩
  | cons u earlier ih =>
      rw [List.forall_mem_cons] at h
      rw [List.foldl_cons, (ih _ h.2).1, (ih _ h.2).2]
      unfold StageEntry.note
      split_ifs with hstarted hfinished
      · exact ⟨rfl, rfl⟩
      · rw [h.1] at hfinished
        cases hfinished
      · exact ⟨rfl, rfl⟩

theorem describes_iff {earlier reports : List TimelineEvent} (h : Reporting reports)
    (hne : reports ≠ []) (hordered : reports.Pairwise fun t t' ↦ t.occurredAt ≤ t'.occurredAt) :
    (reports.foldl StageEntry.note
      (earlier.foldl StageEntry.note { stage := name })).Describes reports ↔
        Overwrites earlier reports := by
  have hstart := foldl_note_startedAt earlier { stage := name }
  have hfinish := foldl_note_finishedAt earlier { stage := name }
  simp only [true_and] at hstart hfinish
  have hrest := @foldl_note_unfinished earlier { stage := name }
  generalize earlier.foldl StageEntry.note { stage := name } = e at hstart hfinish hrest ⊢
  rcases h.cases hne with ⟨t, rfl⟩ | ⟨t, u, rfl, ⟨ht, hu⟩ | ⟨ht, hu⟩⟩
  · rcases h.shaped t List.mem_cons_self with ht | ht
    · -- a start alone: what an earlier finish left would stay
      have hnotFinished : t.isFinished = false := by
        by_contra hfinished
        rw [Bool.not_eq_false] at hfinished
        simp [not_started_of_finished hfinished] at ht
      simp only [List.foldl_cons, List.foldl_nil, StageEntry.note, ht, if_true]
      constructor
      · intro hdescribes
        have hnone : e.finishedAt = none := by
          simpa [hnotFinished] using hdescribes.finishedAt
        exact .inl ⟨ht, hfinish.mp hnone⟩
      · rintro (⟨_, hearlier⟩ | ⟨hfinished, _⟩)
        · obtain ⟨hseconds, hdetail⟩ := hrest hearlier
          have hnone := hfinish.mpr hearlier
          constructor <;> simp [ht, hnotFinished, hnone, hseconds, hdetail]
        · rw [hnotFinished] at hfinished
          cases hfinished
    · -- a finish alone: what an earlier start left would stay
      have hnotStarted := not_started_of_finished ht
      have hshown := h.shown t List.mem_cons_self ht
      simp only [List.foldl_cons, List.foldl_nil, StageEntry.note, ht, hnotStarted, if_true,
        Bool.false_eq_true, if_false]
      constructor
      · intro hdescribes
        have hnone : e.startedAt = none := by
          simpa [hnotStarted] using hdescribes.startedAt
        exact .inr ⟨ht, hstart.mp hnone⟩
      · rintro (⟨hstarted, _⟩ | ⟨_, hearlier⟩)
        · rw [hnotStarted] at hstarted
          cases hstarted
        · have hnone := hstart.mpr hearlier
          constructor <;> simp [ht, hnotStarted, hnone, hshown]
  · have hnotStarted := not_started_of_finished hu
    have hshown := h.shown u (by simp) hu
    have hle : t.occurredAt ≤ u.occurredAt := by
      simpa using hordered
    have hnotFinished : t.isFinished = false := by
      by_contra hfinished
      rw [Bool.not_eq_false] at hfinished
      simp [not_started_of_finished hfinished] at ht
    simp only [List.foldl_cons, List.foldl_nil, StageEntry.note, ht, hu, hnotStarted, if_true,
      Bool.false_eq_true, if_false]
    refine ⟨fun _ ↦ ⟨ht, hu⟩, fun _ ↦ ?_⟩
    constructor <;> simp [ht, hu, hnotFinished, hshown, hle]
  · -- the start overwrites the status and leaves the finish
    have hnotStarted := not_started_of_finished ht
    simp only [List.foldl_cons, List.foldl_nil, StageEntry.note, ht, hu, hnotStarted, if_true,
      Bool.false_eq_true, if_false]
    constructor
    · intro hdescribes
      have hrunning := (hdescribes.running rfl).1
      cases hrunning
    · rintro ⟨hstarted, _⟩
      rw [hnotStarted] at hstarted
      cases hstarted

/-- The view shows a stage as the last attempt that reported it did, exactly when this
attempt overwrites what earlier ones reported of it. -/
theorem progress_latest_iff {loads : String → Except LoadsError Parsed}
    (timeline : Timeline loads) {before after : List (List TimelineEvent)}
    {last : List TimelineEvent} (hsplit : timeline.attempts = before ++ last :: after)
    (hlast : ∃ t ∈ last, t.reports name = true)
    (hafter : ∀ a ∈ after, ∀ t ∈ a, t.reports name = false) :
    Table.Unique StageEntry.stage (progress timeline.attempts.flatten).stages ∧
      ((∃ e ∈ (progress timeline.attempts.flatten).stages, e.stage = name ∧
          e.Describes (last.filter (·.reports name))) ↔
        Overwrites (before.flatten.filter (·.reports name)) (last.filter (·.reports name))) := by
  have hreports : timeline.attempts.flatten.filter (·.reports name) =
      before.flatten.filter (·.reports name) ++ last.filter (·.reports name) := by
    have hrest : after.flatten.filter (·.reports name) = [] := by
      refine List.filter_eq_nil_iff.mpr fun t ht ↦ ?_
      obtain ⟨a, ha, ht⟩ := List.mem_flatten.mp ht
      simp [hafter a ha t ht]
    rw [hsplit, List.flatten_append, List.flatten_cons, List.filter_append, List.filter_append,
      hrest, List.append_nil]
  have hne : last.filter (·.reports name) ≠ [] := by
    obtain ⟨t, ht, hname⟩ := hlast
    exact List.ne_nil_of_mem (List.mem_filter.mpr ⟨ht, hname⟩)
  have hmem : last ∈ timeline.attempts := by
    rw [hsplit]
    exact List.mem_append_right _ List.mem_cons_self
  obtain ⟨scope, lines, hsub⟩ := timeline.observed last hmem
  have hreporting := reporting_of_observed (recorded_feed loads scope lines) hsub name
  have hordered : (last.filter (·.reports name)).Pairwise
      fun t t' ↦ t.occurredAt ≤ t'.occurredAt :=
    timeline.ordered.sublist (List.filter_sublist.trans (List.sublist_flatten_of_mem hmem))
  have hsome : timeline.attempts.flatten.filter (·.reports name) ≠ [] := by
    rw [hreports]
    simp [hne]
  have hentry := entryOf?_progress hsome
  rw [hreports, List.foldl_append] at hentry
  have hunique := unique_progress timeline.attempts.flatten
  have hfound := hunique.get?_iff.mp hentry
  have hdescribes := @describes_iff name (before.flatten.filter (·.reports name)) _
    hreporting hne hordered
  refine ⟨hunique, Iff.trans ⟨?_, fun h ↦ ⟨_, hfound.1, hfound.2, h⟩⟩ hdescribes⟩
  rintro ⟨e, he, hname, h⟩
  exact hunique.eq_of_key he hfound.1 (hname.trans hfound.2.symm) ▸ h

/-! ## A retry that has only started -/

namespace Sample

def scope (attemptId : String) : Scope where
  runId := "run"
  stageRunId := "stage"
  attemptId := attemptId
  marker := "@"
  producer := "adapter:yosys@1"

def startedText : String := "\x7b\"stage\": \"synth\", \"phase\": \"started\"\x7d"

def finishedText : String :=
  "\x7b\"stage\": \"synth\", \"phase\": \"finished\", \"status\": \"failed\"\x7d"

def loads (text : String) : Except LoadsError Parsed :=
  if text = startedText then
    .ok (.obj [("stage", .str "synth"), ("phase", .str "started")])
  else if text = finishedText then
    .ok (.obj [("stage", .str "synth"), ("phase", .str "finished"), ("status", .str "failed")])
  else .error (.decodeError "Expecting value")

def started (attemptId : String) (occurredAt : Timestamp) : TimelineEvent where
  event := (scope attemptId).event "stage.started" [("stage", .str "synth")]
  occurredAt := occurredAt

def finished (attemptId : String) (occurredAt : Timestamp) : TimelineEvent where
  event := (scope attemptId).event "stage.finished"
    [("stage", .str "synth"), ("status", .str "failed")]
  occurredAt := occurredAt

def startedReport : ProgressReport where
  stage := "synth"
  phase := some .started
  status := none
  seconds := none
  detail := []

def finishedReport : ProgressReport where
  stage := "synth"
  phase := some .finished
  status := some .failed
  seconds := none
  detail := []

theorem decode_started :
    decodeProgressLine loads "@" ("@" ++ startedText) = .ok (some startedReport) := by
  have htext : payloadText "@" ("@" ++ startedText) = some startedText.toList := by
    decide +kernel
  have hreport : ProgressReport.fromDict (withVersion
      [("stage", .str "synth"), ("phase", .str "started")]) = .ok startedReport :=
    fromDict_eq_ok.mpr ⟨by decide, ⟨_, rfl, by decide⟩, rfl, rfl, rfl, by simp [startedReport],
      by simp [startedReport], rfl, rfl⟩
  unfold decodeProgressLine
  rw [htext]
  simp only [String.ofList_toList]
  rw [if_neg (by decide +kernel)]
  simp [loads, hreport]
  rfl

theorem decode_finished :
    decodeProgressLine loads "@" ("@" ++ finishedText) = .ok (some finishedReport) := by
  have htext : payloadText "@" ("@" ++ finishedText) = some finishedText.toList := by
    decide +kernel
  have hreport : ProgressReport.fromDict (withVersion
      [("stage", .str "synth"), ("phase", .str "finished"), ("status", .str "failed")]) =
        .ok finishedReport :=
    fromDict_eq_ok.mpr ⟨by decide, ⟨_, rfl, by decide⟩, rfl, rfl, rfl, by simp [finishedReport],
      by simp [finishedReport], rfl, rfl⟩
  have hother : finishedText ≠ startedText := by decide
  unfold decodeProgressLine
  rw [htext]
  simp only [String.ofList_toList]
  rw [if_neg (by decide +kernel)]
  simp [loads, hother, hreport]
  rfl

theorem events_feed (attemptId : String) :
    (ProgressObserver.feed loads { scope := scope attemptId }
        ["@" ++ startedText, "@" ++ finishedText]).1.recordSummary.events =
      [(started attemptId 0).event, (finished attemptId 0).event] := by
  have hmarker : (scope attemptId).marker = "@" := rfl
  simp [ProgressObserver.feed, ProgressObserver.call, hmarker, decode_started, decode_finished,
    ProgressObserver.observe, ProgressObserver.recordEvent, ProgressObserver.recordSummary,
    startedReport, finishedReport, finishedPayload, started, finished, ProgressStatus.value]

/-- A failed attempt, and the start of the next. -/
def retried : Timeline loads where
  attempts := [[started "a1" 1, finished "a1" 2], [started "a2" 3]]
  observed := by
    simp only [List.forall_mem_cons, List.not_mem_nil, false_imp_iff, implies_true, and_true]
    refine ⟨⟨scope "a1", ["@" ++ startedText, "@" ++ finishedText], ?_⟩,
      scope "a2", ["@" ++ startedText, "@" ++ finishedText], ?_⟩
    · rw [events_feed]
      exact List.Sublist.refl _
    · rw [events_feed]
      exact (List.nil_sublist _).cons_cons _
  ordered := by decide

/-- Two attempts that both finished. -/
def repeated : Timeline loads where
  attempts := [[started "a1" 1, finished "a1" 2], [started "a2" 3, finished "a2" 4]]
  observed := by
    simp only [List.forall_mem_cons, List.not_mem_nil, false_imp_iff, implies_true, and_true]
    refine ⟨⟨scope "a1", ["@" ++ startedText, "@" ++ finishedText], ?_⟩,
      scope "a2", ["@" ++ startedText, "@" ++ finishedText], ?_⟩
    · rw [events_feed]
      exact List.Sublist.refl _
    · rw [events_feed]
      exact List.Sublist.refl _
  ordered := by decide

end Sample

/-- The stage runs again, and the view says when it finished. -/
theorem retry_keeps_old_finish : ¬∃ e ∈ (progress Sample.retried.attempts.flatten).stages,
    e.stage = "synth" ∧
      e.Describes ([Sample.started "a2" 3].filter (·.reports "synth")) := by
  have hstages : (progress Sample.retried.attempts.flatten).stages =
      [{ stage := "synth", status := .str "running", startedAt := some 3, finishedAt := some 2
         seconds := .null, detail := .null }] := by
    rfl
  rw [hstages]
  rintro ⟨e, he, _, hdescribes⟩
  obtain rfl := List.mem_singleton.mp he
  have hnone := (hdescribes.running rfl).1
  cases hnone

theorem progress_latest_repeated :
    ∃ e ∈ (progress Sample.repeated.attempts.flatten).stages, e.stage = "synth" ∧
      e.Describes ([Sample.started "a2" 3, Sample.finished "a2" 4].filter (·.reports "synth")) := by
  have hsplit : Sample.repeated.attempts =
      [[Sample.started "a1" 1, Sample.finished "a1" 2]] ++
        [Sample.started "a2" 3, Sample.finished "a2" 4] :: [] := rfl
  have hlast : ∃ t ∈ [Sample.started "a2" 3, Sample.finished "a2" 4], t.reports "synth" = true :=
    ⟨Sample.started "a2" 3, List.mem_cons_self, rfl⟩
  exact (progress_latest_iff Sample.repeated hsplit hlast (by simp)).2.mpr ⟨rfl, rfl⟩

end ChipEvolve.Apps.RunConsole
