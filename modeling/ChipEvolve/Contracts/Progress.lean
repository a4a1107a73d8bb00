import ChipEvolve.Apps.Console
import ChipEvolve.Contracts.Malformed

/-!
# Progress envelopes

`ProgressReport` and `decode_progress_line` (`contracts/progress.py`).  A line is parsed by
`json.loads`, which also reads `NaN` and infinite numbers, so that the values here are more
than those of `Json`.  The grammar of a well-formed report stands beside the decoder.
-/

namespace ChipEvolve.Progress

open Apps (strip)
open Builtins (dict dictable textPairable)
open Except (Raises Returns bind_eq_ok)
open Payload (FromDictError Reads contractual refuseUnknownKeys)

/-! ## What `json.loads` gives -/

inductive Number
  | int (n : Int)
  | float (q : Rat)
  | nan
  | infinity
  | negativeInfinity

/-- `x < 0` -/
def Number.negative : Number → Bool
  | int n => n < 0
  | float q => q < 0
  | nan | infinity => false
  | negativeInfinity => true

/-- `0 <= x`; neither order holds of a NaN. -/
def Number.nonNegative : Number → Bool
  | int n => 0 ≤ n
  | float q => 0 ≤ q
  | nan | negativeInfinity => false
  | infinity => true

inductive Parsed
  | null
  | bool (b : Bool)
  | number (x : Number)
  | str (s : String)
  | arr (items : List Parsed)
  | obj (members : List (String × Parsed))

/-- A string-keyed object. -/
abbrev Members := List (String × Parsed)

instance : Builtins.Untyped Parsed where
  shape
    | .str s => .text s
    | .arr items => .list items
    | .obj members => .mapping members
    | _ => .scalar
  ofText := .str
  shape_ofText _ := rfl

/-- `bool(value)` -/
def Parsed.truthy : Parsed → Bool
  | null => false
  | bool b => b
  | number (.int n) => n ≠ 0
  | number (.float q) => q ≠ 0
  | number _ => true
  | str s => s ≠ ""
  | arr items => !items.isEmpty
  | obj members => !members.isEmpty

/-- `value == SCHEMA_VERSION` -/
def Parsed.isVersion : Parsed → Bool
  | number (.int n) => n = schemaVersion
  | number (.float q) => q = schemaVersion
  | _ => false

/-- What `json.loads` raises. -/
inductive LoadsError
  | decodeError (message : String)
  | recursionError (message : String)

/-! ## `ProgressReport` -/

inductive ProgressPhase
  | started
  | finished
  deriving DecidableEq

inductive ProgressStatus
  | succeeded
  | failed
  | cancelled
  deriving DecidableEq

def ProgressStatus.value : ProgressStatus → String
  | succeeded => "succeeded"
  | failed => "failed"
  | cancelled => "cancelled"

def phases : List (String × ProgressPhase) := [("started", .started), ("finished", .finished)]

def statuses : List (String × ProgressStatus) :=
  [("succeeded", .succeeded), ("failed", .failed), ("cancelled", .cancelled)]

/-- A report that passed `validate`, with the seconds left out when they are `None`. -/
structure ProgressReport where
  stage : String
  phase : Option ProgressPhase
  status : Option ProgressStatus
  seconds : Option Parsed
  detail : Members

/-- The fields as the constructor leaves them; a detail with a key that is no text is `none`. -/
structure Arguments where
  stage : Parsed
  phase : Option ProgressPhase
  status : Option ProgressStatus
  seconds : Parsed
  detail : Option Members
  schemaVersion : Parsed

def fieldNames : List String := ["stage", "phase", "status", "seconds", "detail", "schema_version"]

/-- `enum(value[key])`, unless there is no value or it is `None`. -/
def toMember {α : Type} (values : List (String × α)) (invalid : String) :
    Option Parsed → Reads (Option α)
  | none | some .null => .ok none
  | some (.str s) =>
      match values.lookup s with
      | some member => .ok (some member)
      | none => .error (.contract invalid)
  | some _ => .error (.contract invalid)

/-- `dict(value.get("detail") or {})` -/
def toDetail : Option Parsed → Reads (Option Members)
  | none => .ok (some [])
  | some j => if j.truthy then Payload.builtin (dict j) else .ok (some [])

/-- `instantiate` -/
def instantiate (m : Members) (phase : Option ProgressPhase) (status : Option ProgressStatus)
    (detail : Option Members) : Except String Arguments :=
  match m.lookup "stage", m.lookup "phase", m.lookup "schema_version" with
  | none, _, _ => .error "ProgressReport payload does not match its fields: missing 'stage'"
  | _, none, _ => .error "ProgressReport payload does not match its fields: missing 'phase'"
  | some stage, some _, version => .ok
      { stage := stage, phase := phase, status := status
        seconds := (m.lookup "seconds").getD .null, detail := detail
        schemaVersion := version.getD (.number (.int ChipEvolve.schemaVersion)) }

def validateStage : Parsed → Except String String
  | .str s => do
      Payload.ProgressReport.validateStage (.str s)
      return s
  | _ => .error "progress stage is required"

/-- A boolean is an integer, and none is negative. -/
def validateSeconds : Parsed → Except String (Option Parsed)
  | .null => .ok none
  | .bool b => .ok (some (.bool b))
  | .number x =>
      if x.negative then .error "seconds must be a non-negative number"
      else .ok (some (.number x))
  | _ => .error "seconds must be a non-negative number"

def validateDetail : Option Members → Except String Members
  | some members => .ok members
  | none => .error "detail must be a string-keyed object"

namespace ProgressReport

def validate (a : Arguments) : Except String ProgressReport := do
  refuseIf (¬a.schemaVersion.isVersion) "unsupported schema_version"
  let stage ← validateStage a.stage
  refuseIf (a.phase = some .finished ∧ a.status = none) "a finished report requires a status"
  refuseIf (a.phase = some .started ∧ a.status ≠ none) "a started report must not carry a status"
  let seconds ← validateSeconds a.seconds
  let detail ← validateDetail a.detail
  return { stage := stage, phase := a.phase, status := a.status, seconds := seconds,
           detail := detail }

def fromDict (m : Members) : Reads ProgressReport := do
  contractual (refuseIf ("schema_version" ∉ m.map Prod.fst)
    "ProgressReport requires schema_version")
  refuseUnknownKeys "ProgressReport" fieldNames (m.map fun member ↦ .str member.1)
  let phase ← toMember phases "invalid progress phase" (m.lookup "phase")
  let status ← toMember statuses "invalid progress status" (m.lookup "status")
  let detail ← toDetail (m.lookup "detail")
  let arguments ← contractual (instantiate m phase status detail)
  contractual (validate arguments)

end ProgressReport

/-! ## `decode_progress_line` -/

inductive DecodeError
  | report (e : FromDictError)
  | recursionError (message : String)

/-- It is no `ContractError`. -/
def DecodeError.Escaping : DecodeError → Prop
  | report e => e.Escaping
  | recursionError _ => True

/-- The text after the marker, when the line is an envelope. -/
def payloadText (marker line : String) : Option (List Char) :=
  let stripped := strip line.toList
  if marker.toList.isPrefixOf stripped then some (strip (stripped.drop marker.toList.length))
  else none

def maxEnvelopeBytes : Nat := 4096

/-- `{"schema_version": SCHEMA_VERSION, **payload}` -/
def withVersion (payload : Members) : Members :=
  if "schema_version" ∈ payload.map Prod.fst then payload
  else ("schema_version", .number (.int schemaVersion)) :: payload

def refused {α : Type} (message : String) : Except DecodeError α :=
  .error (.report (.contract message))

def decodeProgressLine (loads : String → Except LoadsError Parsed) (marker line : String) :
    Except DecodeError (Option ProgressReport) :=
  match payloadText marker line with
  | none => .ok none
  | some text =>
      if text = [] ∨ maxEnvelopeBytes < text.length then
        refused "progress envelope payload is empty or oversized"
      else
        match loads (String.ofList text) with
        | .error (.decodeError m) => refused ("progress envelope is not valid JSON: " ++ m)
        | .error (.recursionError m) => .error (.recursionError m)
        | .ok (.obj payload) =>
            ((ProgressReport.fromDict (withVersion payload)).map some).mapError .report
        | .ok _ => refused "progress envelope must be a JSON object"

/-! ## The grammar of a well-formed report -/

def ValidStage (s : String) : Prop :=
  s ≠ "" ∧ s.length ≤ 64 ∧ ∀ c ∈ s.toList, ¬(c.toNat < 0x20 ∨ c.toNat = 0x7F)

instance : DecidablePred ValidStage := fun s ↦
  have : Decidable (∀ c ∈ s.toList, ¬(c.toNat < 0x20 ∨ c.toNat = 0x7F)) :=
    List.decidableBAll _ _
  inferInstanceAs (Decidable (_ ∧ _ ∧ _))

/-- A phase, with a status exactly when it is the finished one. -/
inductive Step
  | started
  | finished (status : ProgressStatus)

def Step.phase : Step → ProgressPhase
  | started => .started
  | finished _ => .finished

def Step.status : Step → Option ProgressStatus
  | started => none
  | finished status => some status

/-- What a well-formed report says. -/
structure Envelope where
  stage : {s : String // ValidStage s}
  step : Step
  seconds : Option {x : Number // x.nonNegative = true}
  detail : Members

/-- The object has only fields of a report, and its version, if it gives one, is the platform's. -/
def Versioned (m : Members) : Prop :=
  (∀ key ∈ m.map Prod.fst, key ∈ fieldNames) ∧ ∀ j ∈ m.lookup "schema_version", j.isVersion = true

instance : DecidablePred Versioned := fun _ ↦ inferInstanceAs (Decidable (_ ∧ _))

/-- The line starts with the marker after stripping. -/
def Marked (marker line : String) : Prop := (payloadText marker line).isSome = true

instance {marker : String} : DecidablePred (Marked marker) :=
  fun _ ↦ inferInstanceAs (Decidable (_ = _))

/-- What `json.loads` makes of the text after the marker, when that is neither empty nor
oversized. -/
def loaded (loads : String → Except LoadsError Parsed) (marker line : String) :
    Option (Except LoadsError Parsed) :=
  (payloadText marker line).bind fun text ↦
    if text ≠ [] ∧ text.length ≤ maxEnvelopeBytes then some (loads (String.ofList text)) else none

namespace Envelope

def stage? : Option Parsed → Option {s : String // ValidStage s}
  | some (.str s) => if h : ValidStage s then some ⟨s, h⟩ else none
  | _ => none

def noValue : Option Parsed → Bool
  | none | some .null => true
  | _ => false

/-- The member of an enumeration that a value names. -/
def named? {α : Type} (values : List (String × α)) : Option Parsed → Option α
  | some (.str s) => values.lookup s
  | _ => none

def step? (phase status : Option Parsed) : Option Step :=
  match named? phases phase with
  | some .started => if noValue status then some .started else none
  | some .finished => (named? statuses status).map .finished
  | none => none

def seconds? : Option Parsed → Option (Option {x : Number // x.nonNegative = true})
  | none | some .null => some none
  | some (.number x) => if h : x.nonNegative = true then some (some ⟨x, h⟩) else none
  | _ => none

def detail? : Option Parsed → Option Members
  | none | some .null => some []
  | some (.obj members) => some members
  | _ => none

/-- The report that an object is, if it is well formed. -/
def ofObject (m : Members) : Option Envelope := do
  guard (Versioned m)
  let stage ← stage? (m.lookup "stage")
  let step ← step? (m.lookup "phase") (m.lookup "status")
  let seconds ← seconds? (m.lookup "seconds")
  let detail ← detail? (m.lookup "detail")
  return { stage := stage, step := step, seconds := seconds, detail := detail }

/-- The report on a line, if the line carries a well-formed one. -/
def ofLine (loads : String → Except LoadsError Parsed) (marker line : String) :
    Option Envelope :=
  match loaded loads marker line with
  | some (.ok (.obj m)) => ofObject m
  | _ => none

/-- The report as the class holds it. -/
def report (e : Envelope) : ProgressReport where
  stage := e.stage
  phase := some e.step.phase
  status := e.step.status
  seconds := e.seconds.map fun x ↦ .number x
  detail := e.detail

end Envelope

/-! ## What the class makes of an object -/

/-- A detail that ends as a string-keyed object: one that is false, an object, or pairs. -/
def detailTaken (j : Parsed) : Bool :=
  !j.truthy || match j with
    | .obj _ => true
    | .arr items => items.all textPairable
    | _ => false

/-- Null, absent, or a name of the enumeration. -/
def memberTaken {α : Type} (values : List (String × α)) (given : Option Parsed) : Prop :=
  Envelope.noValue given = true ∨ (Envelope.named? values given).isSome = true

/-- The objects that the class takes for a report. -/
structure Taken (m : Members) : Prop where
  versioned : Versioned m
  stage : (Envelope.stage? (m.lookup "stage")).isSome = true
  phase : (Envelope.step? (m.lookup "phase") (m.lookup "status")).isSome = true ∨
    m.lookup "phase" = some .null ∧ memberTaken statuses (m.lookup "status")
  seconds : ∀ j ∈ m.lookup "seconds",
    j = .null ∨ (∃ b, j = .bool b) ∨ ∃ x : Number, j = .number x ∧ x.negative = false
  detail : ∀ j ∈ m.lookup "detail", detailTaken j = true

/-- A null phase, seconds that are a boolean or NaN, or a detail that is neither an object nor
null. -/
def Lax (m : Members) : Prop :=
  m.lookup "phase" = some .null ∨
    (∃ j ∈ m.lookup "seconds", (∃ b, j = .bool b) ∨ j = .number .nan) ∨
    ∃ j ∈ m.lookup "detail", Envelope.detail? (some j) = none

/-- Only fields of a report, a phase and a status of the enumerations or null, and a detail that
is true and that no dictionary can be made of. -/
structure Breaks (m : Members) : Prop where
  known : ∀ key ∈ m.map Prod.fst, key ∈ fieldNames
  phase : memberTaken phases (m.lookup "phase")
  status : memberTaken statuses (m.lookup "status")
  detail : ∃ j ∈ m.lookup "detail", j.truthy = true ∧ dictable j = false

section Fields

variable {α : Type} {given : Option Parsed} {values : List (String × α)} {invalid : String}

theorem raises_toDetail : Raises FromDictError.Escaping (toDetail given) ↔
    ∃ j ∈ given, j.truthy = true ∧ dictable j = false := by
  cases given with
  | none => simp [toDetail]
  | some j => simp [toDetail, Except.raises_ite, Payload.raises_dict]

theorem toDetail_eq_some :
    (∃ d, toDetail given = .ok (some d)) ↔ ∀ j ∈ given, detailTaken j = true := by
  cases given with
  | none => simp [toDetail]
  | some j =>
      simp only [toDetail, Option.mem_some_iff, forall_eq']
      cases htruthy : j.truthy with
      | false => simp [detailTaken, htruthy]
      | true =>
          simp only [if_true, Payload.builtin_eq_ok, detailTaken, htruthy, Bool.not_true,
            Bool.false_or]
          cases j with
          | obj m => exact iff_of_true ⟨m, rfl⟩ rfl
          | arr items => exact Builtins.dict_list rfl
          | null => cases htruthy
          | bool | number | str =>
              refine iff_of_false ?_ Bool.false_ne_true
              rintro ⟨d, hd⟩
              have hdictable := Builtins.returns_dict.mp ⟨_, hd⟩
              simp_all [dictable, Builtins.Untyped.shape, Parsed.truthy]

theorem toDetail_of_detail? {d : Members} (h : Envelope.detail? given = some d) :
    toDetail given = .ok (some d) := by
  cases given with
  | none =>
      obtain rfl := Option.some.inj h
      rfl
  | some j =>
      cases j with
      | null =>
          obtain rfl := Option.some.inj h
          rfl
      | obj m =>
          obtain rfl := Option.some.inj h
          cases m <;> rfl
      | _ => cases h

theorem toMember_eq_ok {member : Option α} : toMember values invalid given = .ok member ↔
    Envelope.noValue given = true ∧ member = none ∨
      ∃ a, Envelope.named? values given = some a ∧ member = some a := by
  cases given with
  | none => simp [toMember, Envelope.noValue, Envelope.named?, eq_comm]
  | some j =>
      cases j with
      | null => simp [toMember, Envelope.noValue, Envelope.named?, eq_comm]
      | str s =>
          cases hlookup : values.lookup s <;>
            simp [toMember, Envelope.noValue, Envelope.named?, hlookup, eq_comm]
      | _ => simp [toMember, Envelope.noValue, Envelope.named?]

theorem returns_toMember : Returns (toMember values invalid given) ↔ memberTaken values given := by
  constructor
  · rintro ⟨member, h⟩
    rcases toMember_eq_ok.mp h with ⟨hnone, _⟩ | ⟨a, ha, _⟩
    · exact .inl hnone
    · exact .inr (Option.isSome_iff_exists.mpr ⟨a, ha⟩)
  · rintro (hnone | hsome)
    · exact ⟨none, toMember_eq_ok.mpr (.inl ⟨hnone, rfl⟩)⟩
    · obtain ⟨a, ha⟩ := Option.isSome_iff_exists.mp hsome
      exact ⟨some a, toMember_eq_ok.mpr (.inr ⟨a, ha, rfl⟩)⟩

theorem not_raises_toMember :
    ¬Raises FromDictError.Escaping (toMember values invalid given) := by
  unfold toMember
  split <;> try simp [FromDictError.Escaping]
  split <;> simp [FromDictError.Escaping]

theorem validateStage_eq_ok {j : Parsed} {s : String} :
    validateStage j = .ok s ↔ ∃ h : ValidStage s, Envelope.stage? (some j) = some ⟨s, h⟩ := by
  cases j with
  | str text =>
      have hvalid : Payload.ProgressReport.validateStage (.str text) = .ok () ↔
          ValidStage text := by
        simp [Payload.ProgressReport.validateStage, Validated.bind_eq_ok, refuseIf_eq_ok,
          ValidStage]
      simp only [validateStage, bind_eq_ok, hvalid, Envelope.stage?]
      by_cases h : ValidStage text
      · simp only [h, true_and, pure, Except.pure, Except.ok.injEq, dif_pos, Option.some.injEq,
          Subtype.mk.injEq, exists_prop, exists_const]
        exact ⟨fun hs ↦ ⟨hs ▸ h, hs⟩, And.right⟩
      · simp [h]
  | _ => simp [validateStage, Envelope.stage?]

theorem returns_validateSeconds {j : Parsed} : Returns (validateSeconds j) ↔
    j = .null ∨ (∃ b, j = .bool b) ∨ ∃ x : Number, j = .number x ∧ x.negative = false := by
  cases j with
  | number x => cases hx : x.negative <;> simp [validateSeconds, hx]
  | _ => simp [validateSeconds]

theorem negative_of_nonNegative {x : Number} (h : x.nonNegative = true) : x.negative = false := by
  cases x with
  | int n => simpa [Number.nonNegative, Number.negative] using h
  | float q => simpa [Number.nonNegative, Number.negative] using h
  | infinity => rfl
  | nan | negativeInfinity => cases h

theorem validateSeconds_of_seconds? {seconds} (h : Envelope.seconds? given = some seconds) :
    validateSeconds (given.getD .null) = .ok (seconds.map fun x ↦ .number x) := by
  cases given with
  | none =>
      obtain rfl := Option.some.inj h
      rfl
  | some j =>
      cases j with
      | null =>
          obtain rfl := Option.some.inj h
          rfl
      | number x =>
          simp only [Envelope.seconds?] at h
          split at h
          · next hx =>
              obtain rfl := Option.some.inj h
              simp [validateSeconds, negative_of_nonNegative hx]
          · cases h
      | _ => cases h

end Fields

section Classes

variable {m : Members} {phase : Option ProgressPhase} {status : Option ProgressStatus}
  {detail : Option Members} {a : Arguments} {r : ProgressReport}

theorem lookup_withVersion {key : String} (hkey : key ≠ "schema_version") :
    (withVersion m).lookup key = m.lookup key := by
  unfold withVersion
  split
  · rfl
  · rw [List.lookup_cons, beq_eq_false_iff_ne.mpr hkey]

theorem mem_keys_withVersion {key : String} : key ∈ (withVersion m).map Prod.fst ↔
    key = "schema_version" ∨ key ∈ m.map Prod.fst := by
  unfold withVersion
  split
  · next h => exact ⟨.inr, fun hkey ↦ hkey.elim (fun heq ↦ heq ▸ h) id⟩
  · rw [List.map_cons, List.mem_cons]

theorem isVersion_withVersion {default : Parsed} :
    (((withVersion m).lookup "schema_version").getD default).isVersion = true ↔
      ∀ j ∈ m.lookup "schema_version", j.isVersion = true := by
  unfold withVersion
  split
  · next h =>
      cases hversion : m.lookup "schema_version" with
      | some j => simp
      | none =>
          obtain ⟨member, hmember, hkey⟩ := List.mem_map.mp h
          have hne := List.lookup_eq_none_iff.mp hversion member hmember
          simp [hkey] at hne
  · next h =>
      have hnone : m.lookup "schema_version" = none := by
        rw [List.lookup_eq_none_iff]
        intro member hmember
        have hne : "schema_version" ≠ member.1 := fun heq ↦
          h (heq ▸ List.mem_map_of_mem hmember)
        simpa using hne
      simp [hnone, Parsed.isVersion]

theorem versioned_withVersion : Versioned m ↔
    (∀ key ∈ (withVersion m).map Prod.fst, key ∈ fieldNames) ∧
      (((withVersion m).lookup "schema_version").getD
        (.number (.int schemaVersion))).isVersion = true := by
  have hname : "schema_version" ∈ fieldNames := by decide
  rw [isVersion_withVersion]
  simp only [mem_keys_withVersion, forall_eq_or_imp, hname, true_and]
  rfl

theorem instantiate_eq_ok : instantiate m phase status detail = .ok a ↔
    ∃ stage p, m.lookup "stage" = some stage ∧ m.lookup "phase" = some p ∧
      a = { stage := stage, phase := phase, status := status
            seconds := (m.lookup "seconds").getD .null, detail := detail
            schemaVersion :=
              (m.lookup "schema_version").getD (.number (.int ChipEvolve.schemaVersion)) } := by
  unfold instantiate
  cases m.lookup "stage" with
  | none => simp
  | some stage =>
      cases m.lookup "phase" with
      | none => simp
      | some p => simp [eq_comm]

theorem validate_eq_ok : ProgressReport.validate a = .ok r ↔
    a.schemaVersion.isVersion = true ∧ validateStage a.stage = .ok r.stage ∧
      ¬(a.phase = some .finished ∧ a.status = none) ∧
      ¬(a.phase = some .started ∧ a.status ≠ none) ∧ validateSeconds a.seconds = .ok r.seconds ∧
      a.detail = some r.detail ∧ r.phase = a.phase ∧ r.status = a.status := by
  have hdetail : ∀ d, validateDetail a.detail = .ok d ↔ a.detail = some d := fun d ↦ by
    cases a.detail <;> simp [validateDetail]
  unfold ProgressReport.validate
  simp only [bind_eq_ok, refuseIf_eq_ok, hdetail, exists_const, not_not]
  constructor
  · rintro ⟨hversion, stage, hstage, hfinished, hstarted, seconds, hseconds, d, hd, h⟩
    obtain rfl := Except.ok.inj h
    exact ⟨hversion, hstage, hfinished, hstarted, hseconds, hd, rfl, rfl⟩
  · rintro ⟨hversion, hstage, hfinished, hstarted, hseconds, hd, hphase, hstatus⟩
    refine ⟨hversion, _, hstage, hfinished, hstarted, _, hseconds, _, hd, ?_⟩
    rw [← hphase, ← hstatus]
    rfl

theorem refuse_withVersion {u : Unit} :
    refuseUnknownKeys "ProgressReport" fieldNames
        ((withVersion m).map fun member ↦ .str member.1) = .ok u ↔
      ∀ key ∈ (withVersion m).map Prod.fst, key ∈ fieldNames := by
  rw [Payload.refuse_eq_ok]
  simp only [List.forall_mem_map, Json.str.injEq, exists_eq_right']

/-- An object that the class takes, field by field. -/
theorem fromDict_eq_ok : ProgressReport.fromDict (withVersion m) = .ok r ↔
    Versioned m ∧ (∃ stage, m.lookup "stage" = some stage ∧ validateStage stage = .ok r.stage) ∧
      (m.lookup "phase").isSome = true ∧
      toMember phases "invalid progress phase" (m.lookup "phase") = .ok r.phase ∧
      toMember statuses "invalid progress status" (m.lookup "status") = .ok r.status ∧
      ¬(r.phase = some .finished ∧ r.status = none) ∧
      ¬(r.phase = some .started ∧ r.status ≠ none) ∧
      validateSeconds ((m.lookup "seconds").getD .null) = .ok r.seconds ∧
      toDetail (m.lookup "detail") = .ok (some r.detail) := by
  have hmem : "schema_version" ∈ (withVersion m).map Prod.fst := mem_keys_withVersion.mpr (.inl rfl)
  have hstage : (withVersion m).lookup "stage" = m.lookup "stage" := lookup_withVersion (by decide)
  have hphase : (withVersion m).lookup "phase" = m.lookup "phase" := lookup_withVersion (by decide)
  have hstatus : (withVersion m).lookup "status" = m.lookup "status" :=
    lookup_withVersion (by decide)
  have hseconds : (withVersion m).lookup "seconds" = m.lookup "seconds" :=
    lookup_withVersion (by decide)
  have hdetail : (withVersion m).lookup "detail" = m.lookup "detail" :=
    lookup_withVersion (by decide)
  unfold ProgressReport.fromDict
  simp only [bind_eq_ok, Payload.contractual_eq_ok, refuseIf_eq_ok, not_not, hmem, true_and,
    refuse_withVersion, instantiate_eq_ok, validate_eq_ok, hstage, hphase, hstatus, hseconds,
    hdetail, exists_const, versioned_withVersion, Option.isSome_iff_exists]
  constructor
  · rintro ⟨hknown, phase, hp, status, hs, detail, hd, a, ⟨stage, p, hgiven, hpresent, rfl⟩,
      hversion, hvalid, hfinished, hstarted, htaken, rfl, rfl, rfl⟩
    exact ⟨⟨hknown, hversion⟩, ⟨stage, hgiven, hvalid⟩, ⟨p, hpresent⟩, hp, hs, hfinished, hstarted,
      htaken, hd⟩
  · rintro ⟨⟨hknown, hversion⟩, ⟨stage, hgiven, hvalid⟩, ⟨p, hpresent⟩, hp, hs, hfinished,
      hstarted, htaken, hd⟩
    exact ⟨hknown, _, hp, _, hs, _, hd, _, ⟨stage, p, hgiven, hpresent, rfl⟩, hversion, hvalid,
      hfinished, hstarted, htaken, rfl, rfl, rfl⟩

end Classes

section Outcomes

variable {m : Members} {phase status : Option Parsed} {e : Envelope}

theorem isSome_step? : (Envelope.step? phase status).isSome = true ↔
    Envelope.named? phases phase = some .started ∧ Envelope.noValue status = true ∨
      Envelope.named? phases phase = some .finished ∧
        (Envelope.named? statuses status).isSome = true := by
  unfold Envelope.step?
  cases Envelope.named? phases phase with
  | none => simp
  | some p =>
      cases p with
      | started => cases Envelope.noValue status <;> simp
      | finished => cases Envelope.named? statuses status <;> simp

theorem null_of_noValue (h : Envelope.noValue phase = true) (hsome : phase.isSome = true) :
    phase = some .null := by
  cases phase with
  | none => cases hsome
  | some j => cases j <;> first | rfl | cases h

theorem forall_seconds : (∀ j ∈ m.lookup "seconds",
      j = .null ∨ (∃ b, j = .bool b) ∨ ∃ x : Number, j = .number x ∧ x.negative = false) ↔
    Returns (validateSeconds ((m.lookup "seconds").getD .null)) := by
  cases m.lookup "seconds" with
  | none => simp [validateSeconds]
  | some j =>
      rw [Option.getD_some, returns_validateSeconds]
      simp

theorem isSome_stage? {given : Option Parsed} : (Envelope.stage? given).isSome = true ↔
    ∃ stage s, given = some stage ∧ validateStage stage = .ok s := by
  cases given with
  | none => simp [Envelope.stage?]
  | some stage =>
      simp only [Option.some.injEq, exists_eq_left', exists_and_left, validateStage_eq_ok,
        Option.isSome_iff_exists, Subtype.exists]

theorem isSome_of_named? {α : Type} {values : List (String × α)} {given : Option Parsed} {a : α}
    (h : Envelope.named? values given = some a) : given.isSome = true := by
  cases given with
  | none => cases h
  | some j => rfl

/-- The two checks of the status let a phase without a value pass with any status. -/
theorem phase_taken_iff :
    (phase.isSome = true ∧ ∃ p st, toMember phases "invalid progress phase" phase = .ok p ∧
      toMember statuses "invalid progress status" status = .ok st ∧
      ¬(p = some .finished ∧ st = none) ∧ ¬(p = some .started ∧ st ≠ none)) ↔
    (Envelope.step? phase status).isSome = true ∨
      phase = some .null ∧ memberTaken statuses status := by
  rw [isSome_step?]
  constructor
  · rintro ⟨hpresent, p, st, hphase, hstatus, hfinished, hstarted⟩
    rcases toMember_eq_ok.mp hphase with ⟨hnone, _⟩ | ⟨p, hp, rfl⟩
    · exact .inr ⟨null_of_noValue hnone hpresent, returns_toMember.mp ⟨_, hstatus⟩⟩
    · rcases toMember_eq_ok.mp hstatus with ⟨hnone, rfl⟩ | ⟨st, hst, rfl⟩
      · cases p with
        | started => exact .inl (.inl ⟨hp, hnone⟩)
        | finished => exact absurd ⟨rfl, rfl⟩ hfinished
      · cases p with
        | started => exact absurd ⟨rfl, Option.some_ne_none st⟩ hstarted
        | finished => exact .inl (.inr ⟨hp, by simp [hst]⟩)
  · rintro ((⟨hp, hnone⟩ | ⟨hp, hsome⟩) | ⟨rfl, hstatus⟩)
    · exact ⟨isSome_of_named? hp, some .started, none, toMember_eq_ok.mpr (.inr ⟨_, hp, rfl⟩),
        toMember_eq_ok.mpr (.inl ⟨hnone, rfl⟩), by simp, by simp⟩
    · obtain ⟨st, hst⟩ := Option.isSome_iff_exists.mp hsome
      exact ⟨isSome_of_named? hp, some .finished, some st,
        toMember_eq_ok.mpr (.inr ⟨_, hp, rfl⟩), toMember_eq_ok.mpr (.inr ⟨_, hst, rfl⟩),
        by simp, by simp⟩
    · obtain ⟨st, hst⟩ : Returns (toMember statuses "invalid progress status" status) :=
        returns_toMember.mpr hstatus
      exact ⟨rfl, none, st, rfl, hst, by simp, by simp⟩

/-- The class takes an object exactly when each of its fields is taken. -/
theorem returns_fromDict : Returns (ProgressReport.fromDict (withVersion m)) ↔ Taken m := by
  constructor
  · rintro ⟨r, hr⟩
    obtain ⟨hversioned, ⟨stage, hgiven, hstage⟩, hpresent, hphase, hstatus, hfinished, hstarted,
      hseconds, hdetail⟩ := fromDict_eq_ok.mp hr
    exact ⟨hversioned, isSome_stage?.mpr ⟨_, _, hgiven, hstage⟩,
      phase_taken_iff.mp ⟨hpresent, _, _, hphase, hstatus, hfinished, hstarted⟩,
      forall_seconds.mpr ⟨_, hseconds⟩, toDetail_eq_some.mp ⟨_, hdetail⟩⟩
  · intro h
    obtain ⟨stage, s, hgiven, hs⟩ := isSome_stage?.mp h.stage
    obtain ⟨hpresent, p, st, hp, hst, hfinished, hstarted⟩ := phase_taken_iff.mpr h.phase
    obtain ⟨seconds, hseconds⟩ := forall_seconds.mp h.seconds
    obtain ⟨d, hd⟩ := toDetail_eq_some.mpr h.detail
    exact ⟨{ stage := s, phase := p, status := st, seconds := seconds, detail := d },
      fromDict_eq_ok.mpr ⟨h.versioned, ⟨stage, hgiven, hs⟩, hpresent, hp, hst, hfinished, hstarted,
        hseconds, hd⟩⟩

/-- The only exception that escapes is that of a detail. -/
theorem raises_fromDict :
    Raises FromDictError.Escaping (ProgressReport.fromDict (withVersion m)) ↔ Breaks m := by
  have hmem : "schema_version" ∈ (withVersion m).map Prod.fst := mem_keys_withVersion.mpr (.inl rfl)
  have hknown : (∀ key ∈ (withVersion m).map Prod.fst, key ∈ fieldNames) ↔
      ∀ key ∈ m.map Prod.fst, key ∈ fieldNames := by
    have hname : "schema_version" ∈ fieldNames := by decide
    simp only [mem_keys_withVersion, forall_eq_or_imp, hname, true_and]
  have hkeys : ¬Raises FromDictError.Escaping (refuseUnknownKeys "ProgressReport" fieldNames
      ((withVersion m).map fun member ↦ .str member.1)) := by
    rw [Payload.raises_refuse]
    simp [Builtins.text?]
  have hphase : (withVersion m).lookup "phase" = m.lookup "phase" := lookup_withVersion (by decide)
  have hstatus : (withVersion m).lookup "status" = m.lookup "status" :=
    lookup_withVersion (by decide)
  have hdetail : (withVersion m).lookup "detail" = m.lookup "detail" :=
    lookup_withVersion (by decide)
  unfold ProgressReport.fromDict
  simp only [Except.raises_bind, Payload.not_raises_contractual, Payload.contractual_eq_ok,
    refuseIf_eq_ok, not_not, hmem, hkeys, false_or, true_and, refuse_withVersion, hknown, hphase,
    hstatus, hdetail, exists_const, not_raises_toMember, raises_toDetail, and_false,
    exists_false, or_false, exists_and_right]
  constructor
  · rintro ⟨hnames, hp, hs, hd⟩
    exact ⟨hnames, returns_toMember.mp hp, returns_toMember.mp hs, hd⟩
  · rintro ⟨hnames, hp, hs, hd⟩
    exact ⟨hnames, returns_toMember.mpr hp, returns_toMember.mpr hs, hd⟩

theorem ofObject_eq_some : Envelope.ofObject m = some e ↔
    Versioned m ∧ Envelope.stage? (m.lookup "stage") = some e.stage ∧
      Envelope.step? (m.lookup "phase") (m.lookup "status") = some e.step ∧
      Envelope.seconds? (m.lookup "seconds") = some e.seconds ∧
      Envelope.detail? (m.lookup "detail") = some e.detail := by
  unfold Envelope.ofObject
  by_cases h : Versioned m
  · simp only [guard, h, if_true, true_and, Option.pure_def, Option.bind_eq_bind,
      Option.bind_some, Option.bind_eq_some_iff, Option.some.injEq]
    constructor
    · rintro ⟨stage, hstage, step, hstep, seconds, hseconds, d, hd, rfl⟩
      exact ⟨hstage, hstep, hseconds, hd⟩
    · rintro ⟨hstage, hstep, hseconds, hd⟩
      exact ⟨_, hstage, _, hstep, _, hseconds, _, hd, rfl⟩
  · simp [guard, h]

theorem step?_eq_some {step : Step} (h : Envelope.step? phase status = some step) :
    toMember phases "invalid progress phase" phase = .ok (some step.phase) ∧
      toMember statuses "invalid progress status" status = .ok step.status := by
  unfold Envelope.step? at h
  rw [toMember_eq_ok, toMember_eq_ok]
  cases hp : Envelope.named? phases phase with
  | none => simp [hp] at h
  | some p =>
      cases p with
      | started =>
          cases hnone : Envelope.noValue status with
          | false => simp [hp, hnone] at h
          | true =>
              obtain rfl : Step.started = step := by simpa [hp, hnone] using h
              exact ⟨.inr ⟨_, rfl, rfl⟩, .inl ⟨rfl, rfl⟩⟩
      | finished =>
          simp only [hp] at h
          obtain ⟨st, hst, rfl⟩ := Option.map_eq_some_iff.mp h
          exact ⟨.inr ⟨_, rfl, rfl⟩, .inr ⟨_, hst, rfl⟩⟩

/-- A well-formed report is read as what it says. -/
theorem fromDict_of_ofObject (h : Envelope.ofObject m = some e) :
    ProgressReport.fromDict (withVersion m) = .ok e.report := by
  obtain ⟨hversioned, hstage, hstep, hseconds, hdetail⟩ := ofObject_eq_some.mp h
  obtain ⟨hphase, hstatus⟩ := step?_eq_some hstep
  obtain ⟨stage, s, hgiven, hs⟩ := isSome_stage?.mp (by rw [hstage]; rfl)
  obtain ⟨hvalid, hsame⟩ := validateStage_eq_ok.mp hs
  have hstageText : s = e.stage := by
    rw [hgiven, hsame] at hstage
    exact congrArg Subtype.val (Option.some.inj hstage)
  have hpresent : (m.lookup "phase").isSome = true :=
    (phase_taken_iff.mpr (.inl (by rw [hstep]; rfl))).1
  refine fromDict_eq_ok.mpr ⟨hversioned, ⟨stage, hgiven, hs.trans (congrArg Except.ok hstageText)⟩,
    hpresent, hphase, hstatus, ?_, ?_, validateSeconds_of_seconds? hseconds,
    toDetail_of_detail? hdetail⟩
  · rintro ⟨hfinished, hnone⟩
    cases hs : e.step <;> simp [Envelope.report, hs, Step.phase, Step.status] at hfinished hnone
  · rintro ⟨hstarted, hsome⟩
    cases hs : e.step <;> simp [Envelope.report, hs, Step.phase, Step.status] at hstarted hsome

/-- An object that the class takes is a well-formed report unless one of its fields is lax. -/
theorem isSome_ofObject : (Envelope.ofObject m).isSome = true ↔ Taken m ∧ ¬Lax m := by
  constructor
  · intro h
    obtain ⟨e, he⟩ := Option.isSome_iff_exists.mp h
    obtain ⟨_, _, hstep, hseconds, hdetail⟩ := ofObject_eq_some.mp he
    refine ⟨returns_fromDict.mp ⟨_, fromDict_of_ofObject he⟩, ?_⟩
    rintro (hnull | ⟨j, hj, hlax⟩ | ⟨j, hj, hlax⟩)
    · rw [hnull] at hstep
      cases hstep
    · rw [Option.mem_def.mp hj] at hseconds
      rcases hlax with ⟨b, rfl⟩ | rfl
      · cases hseconds
      · cases hseconds
    · rw [Option.mem_def.mp hj, hlax] at hdetail
      cases hdetail
  · rintro ⟨htaken, hlax⟩
    simp only [Lax, not_or, not_exists, not_and] at hlax
    obtain ⟨hphase, hseconds, hdetail⟩ := hlax
    obtain ⟨stage, hstage⟩ := Option.isSome_iff_exists.mp htaken.stage
    obtain ⟨step, hstep⟩ : ∃ step,
        Envelope.step? (m.lookup "phase") (m.lookup "status") = some step := by
      rcases htaken.phase with hstep | ⟨hnull, _⟩
      · exact Option.isSome_iff_exists.mp hstep
      · exact absurd hnull hphase
    obtain ⟨seconds, hs⟩ : ∃ seconds,
        Envelope.seconds? (m.lookup "seconds") = some seconds := by
      cases hgiven : m.lookup "seconds" with
      | none => exact ⟨none, rfl⟩
      | some j =>
          rcases htaken.seconds j hgiven with rfl | ⟨b, rfl⟩ | ⟨x, rfl, hx⟩
          · exact ⟨none, rfl⟩
          · exact absurd rfl ((hseconds _ hgiven).1 b)
          · have hnonNegative : x.nonNegative = true := by
              cases x with
              | nan => exact absurd rfl (hseconds _ hgiven).2
              | int n => simpa [Number.nonNegative, Number.negative] using hx
              | float q => simpa [Number.nonNegative, Number.negative] using hx
              | infinity => rfl
              | negativeInfinity => cases hx
            exact ⟨some ⟨x, hnonNegative⟩, by simp [Envelope.seconds?, hnonNegative]⟩
    obtain ⟨d, hd⟩ : ∃ d, Envelope.detail? (m.lookup "detail") = some d := by
      cases hgiven : m.lookup "detail" with
      | none => exact ⟨[], rfl⟩
      | some j => exact Option.ne_none_iff_exists'.mp (hdetail j hgiven)
    rw [Option.isSome_iff_exists]
    exact ⟨⟨stage, step, seconds, d⟩,
      ofObject_eq_some.mpr ⟨htaken.versioned, hstage, hstep, hs, hd⟩⟩

end Outcomes

/-! ## Lines -/

section Lines

variable {loads : String → Except LoadsError Parsed} {marker line : String} {m : Members}
  {e : Envelope}

/-- `json.loads` gets through the text, and what it gives is neither an object that the class
breaks on nor one that it takes with a lax field. -/
def Sound (loads : String → Except LoadsError Parsed) (marker line : String) : Prop :=
  (∀ message, loaded loads marker line ≠ some (.error (.recursionError message))) ∧
    ∀ m, loaded loads marker line = some (.ok (.obj m)) → ¬Breaks m ∧ ¬(Taken m ∧ Lax m)

/-- How the decoder answers, with what the grammar says of the same line. -/
inductive Decoding (loads : String → Except LoadsError Parsed) (marker line : String) : Prop
  | ordinary (hmarked : ¬Marked marker line)
      (hdecode : decodeProgressLine loads marker line = .ok none)
      (hloaded : loaded loads marker line = none)
  | refused (hmarked : Marked marker line) (message : String)
      (hdecode : decodeProgressLine loads marker line = .error (.report (.contract message)))
      (hobject : ∀ m, loaded loads marker line ≠ some (.ok (.obj m)))
      (hdeep : ∀ message, loaded loads marker line ≠ some (.error (.recursionError message)))
  | deep (hmarked : Marked marker line) (message : String)
      (hdecode : decodeProgressLine loads marker line = .error (.recursionError message))
      (hloaded : loaded loads marker line = some (.error (.recursionError message)))
  | object (hmarked : Marked marker line) (m : Members)
      (hdecode : decodeProgressLine loads marker line =
        ((ProgressReport.fromDict (withVersion m)).map some).mapError .report)
      (hloaded : loaded loads marker line = some (.ok (.obj m)))

theorem decoding (loads : String → Except LoadsError Parsed) (marker line : String) :
    Decoding loads marker line := by
  cases htext : payloadText marker line with
  | none =>
      exact .ordinary (by simp [Marked, htext]) (by simp [decodeProgressLine, htext])
        (by simp [loaded, htext])
  | some text =>
      have hmarked : Marked marker line := by simp [Marked, htext]
      by_cases hsize : text ≠ [] ∧ text.length ≤ maxEnvelopeBytes
      · have hloaded : loaded loads marker line = some (loads (String.ofList text)) := by
          simp only [loaded, htext, Option.bind_some, if_pos hsize]
        have hread : ¬(text = [] ∨ maxEnvelopeBytes < text.length) := by
          rintro (hnil | hlong)
          · exact hsize.1 hnil
          · exact Nat.not_lt_of_ge hsize.2 hlong
        cases hresult : loads (String.ofList text) with
        | error e =>
            cases e with
            | decodeError m =>
                exact .refused hmarked ("progress envelope is not valid JSON: " ++ m)
                  (by simp only [decodeProgressLine, htext, if_neg hread, hresult]; rfl)
                  (by simp [hloaded, hresult]) (by simp [hloaded, hresult])
            | recursionError m =>
                exact .deep hmarked m
                  (by simp only [decodeProgressLine, htext, if_neg hread, hresult])
                  (by rw [hloaded, hresult])
        | ok j =>
            cases j with
            | obj m =>
                exact .object hmarked m
                  (by simp only [decodeProgressLine, htext, if_neg hread, hresult])
                  (by rw [hloaded, hresult])
            | _ =>
                exact .refused hmarked "progress envelope must be a JSON object"
                  (by simp only [decodeProgressLine, htext, if_neg hread, hresult]; rfl)
                  (by simp [hloaded, hresult]) (by simp [hloaded, hresult])
      · have hread : text = [] ∨ maxEnvelopeBytes < text.length := by
          by_contra hnot
          rw [not_or, Nat.not_lt] at hnot
          exact hsize hnot
        have hloaded : loaded loads marker line = none := by
          simp only [loaded, htext, Option.bind_some, if_neg hsize]
        exact .refused hmarked "progress envelope payload is empty or oversized"
          (by simp only [decodeProgressLine, htext, if_pos hread]; rfl)
          (by simp [hloaded]) (by simp [hloaded])

/-- A line in order is ordinary output, or counted as malformed, or read as what it says. -/
theorem decode_of_sound (h : Sound loads marker line) :
    (¬Marked marker line ∧ decodeProgressLine loads marker line = .ok none ∧
        Envelope.ofLine loads marker line = none) ∨
      (Marked marker line ∧ Envelope.ofLine loads marker line = none ∧ ∃ message,
        decodeProgressLine loads marker line = .error (.report (.contract message))) ∨
      ∃ e, Envelope.ofLine loads marker line = some e ∧
        decodeProgressLine loads marker line = .ok (some e.report) := by
  cases decoding loads marker line with
  | ordinary hmarked hdecode hloaded =>
      exact .inl ⟨hmarked, hdecode, by simp [Envelope.ofLine, hloaded]⟩
  | refused hmarked message hdecode hobject =>
      refine .inr (.inl ⟨hmarked, ?_, message, hdecode⟩)
      unfold Envelope.ofLine
      split
      · next m hloaded => exact absurd hloaded (hobject m)
      · rfl
  | deep _ message _ hloaded => exact absurd hloaded (h.1 message)
  | object hmarked m hdecode hloaded =>
      have hline : Envelope.ofLine loads marker line = Envelope.ofObject m := by
        simp [Envelope.ofLine, hloaded]
      obtain ⟨hbreaks, hlax⟩ := h.2 m hloaded
      cases he : Envelope.ofObject m with
      | some e =>
          refine .inr (.inr ⟨e, hline.trans he, ?_⟩)
          rw [hdecode, fromDict_of_ofObject he]
          rfl
      | none =>
          refine .inr (.inl ⟨hmarked, hline.trans he, ?_⟩)
          have htaken : ¬Taken m := fun htaken ↦ by
            have hsome := isSome_ofObject.mpr ⟨htaken, fun hm ↦ hlax ⟨htaken, hm⟩⟩
            rw [he] at hsome
            cases hsome
          cases hresult : ProgressReport.fromDict (withVersion m) with
          | ok r => exact absurd (returns_fromDict.mp ⟨r, hresult⟩) htaken
          | error e =>
              cases e with
              | contract message => exact ⟨message, by rw [hdecode, hresult]; rfl⟩
              | _ =>
                  exact absurd (raises_fromDict.mp ⟨_, hresult, trivial⟩) hbreaks

/-- On any other line the decoder raises, or it takes for a report what is none. -/
theorem decode_of_not_sound (h : ¬Sound loads marker line) :
    Raises DecodeError.Escaping (decodeProgressLine loads marker line) ∨
      Marked marker line ∧ Envelope.ofLine loads marker line = none ∧
        ∃ r, decodeProgressLine loads marker line = .ok (some r) := by
  cases decoding loads marker line with
  | ordinary _ _ hloaded => exact absurd ⟨by simp [hloaded], by simp [hloaded]⟩ h
  | refused _ _ _ hobject hdeep => exact absurd ⟨hdeep, fun m hm ↦ absurd hm (hobject m)⟩ h
  | deep _ message hdecode _ =>
      rw [hdecode]
      exact .inl (Except.raises_error.mpr trivial)
  | object hmarked m hdecode hloaded =>
      have hlax : Breaks m ∨ Taken m ∧ Lax m := by
        by_contra hnot
        refine h ⟨by simp [hloaded], fun m' hm' ↦ ?_⟩
        obtain rfl : m = m' := by simpa [hloaded] using hm'
        exact not_or.mp hnot
      rw [hdecode]
      rcases hlax with hbreaks | ⟨htaken, hlax⟩
      · obtain ⟨e, he, hescape⟩ := raises_fromDict.mpr hbreaks
        exact .inl ⟨.report e, by rw [he]; rfl, hescape⟩
      · obtain ⟨r, hr⟩ := returns_fromDict.mpr htaken
        refine .inr ⟨hmarked, ?_, r, by rw [hr]; rfl⟩
        have hnone : ¬(Envelope.ofObject m).isSome = true := fun hsome ↦
          (isSome_ofObject.mp hsome).2 hlax
        simpa [Envelope.ofLine, hloaded] using hnone

end Lines

end ChipEvolve.Progress
