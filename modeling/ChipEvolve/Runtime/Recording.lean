import ChipEvolve.Contracts.RoundTrip
import ChipEvolve.Runtime.Registering

/-!
# What it takes to record a verdict

The evaluator's boundary (`_load_verdict`, `Verdict.validate` and `_check_traceability`
of `boundary.py`) and the runtime (`_evaluate`, `_collect_manifest_artifacts`,
`register_artifacts` and `_register_metrics`) decide over the same files and metrics.
The boundary asks that a cited path lead to a file of the workspace; the runtime asks
that it be the store key of a registered artifact.  Each group of declarations is
without repetition; nothing asks that of the combined list before its rows clash.
-/

namespace ChipEvolve.Attempt

open Builtins (text?)
open Except (bind_eq_ok mem_of_mapM forM_eq_ok)

/-! ## The verdict file -/

/-- An exception of a function that does not speak the adapter protocol. -/
def raising {α : Type} : Except String α → Checked α
  | .ok a => .ok a
  | .error message => .error (.other message)

/-- `VerdictStatus(value)` -/
def verdictStatus : Json → Checked VerdictStatus
  | .str "admissible" => .ok .admissible
  | .str "rejected" => .ok .rejected
  | .str "incomplete" => .ok .incomplete
  | _ => .error (.other "verdict status is not one of ['admissible', 'rejected', 'incomplete']")

/-- `payload.get(name, ())`, as it is iterated over. -/
def itemsOf (payload : JsonObject) (name : String) : Checked (List Json) :=
  match payload.get? name with
  | some items => raising (Payload.tupleOf items)
  | none => .ok []

/-- `Metric.from_dict({"schema_version": SCHEMA_VERSION, **item})` -/
def loadMetric : Json → Checked Metric
  | .obj item => do
      let v ← raising (Payload.Metric.contract.fromDict
        (item.foldl (fun members m ↦ members.set m.1 m.2) [("schema_version", .int schemaVersion)]))
      let field := Payload.json v.named
      pure { name := field "name", value := field "value", unit := field "unit",
             sourceArtifactId := field "source_artifact_id", parserId := field "parser_id",
             parserVersion := field "parser_version",
             context := Payload.Metric.context (field "context") }
  | _ => .error (.other "TypeError: the item is not a mapping")

/-- One artifact of a verdict, declared without authority. -/
def loadArtifact : Json → Checked ArtifactDeclaration
  | .obj item =>
      match JsonObject.get? item "kind", JsonObject.get? item "path" with
      | some (.str kind), some (.str path) => do
          let metadata ← pyDict ((JsonObject.get? item "metadata").getD .null)
          pure { kind := kind, path := path, metadata := metadata }
      | some _, some _ => .error (.other "the verdict does not satisfy its contract")
      | _, _ => .error (.other "KeyError")
  | _ => .error (.other "TypeError: indices must be integers")

/-- `_load_verdict`, after the file is parsed; `str` is that of a value that is no text. -/
def loadVerdict (str : Json → String) : Json → Checked Verdict
  | .obj payload => do
      let status ← verdictStatus ((JsonObject.get? payload "status").getD .null)
      let metrics ← (← itemsOf payload "metrics").mapM loadMetric
      let artifacts ← (← itemsOf payload "artifacts").mapM loadArtifact
      let _ ← pyDict ((JsonObject.get? payload "loss_manifest").getD .null)
      let reason := ((JsonObject.get? payload "reason").filter Json.truthy).map (textOf str)
      let verdict : Verdict :=
        { status := status, metrics := metrics, artifacts := artifacts, reason := reason }
      raising (verdict.validate.mapError ("the verdict does not satisfy its contract: " ++ ·))
      pure verdict
  | _ => .error (.other "AttributeError: no attribute 'get'")

/-! ## What is recorded, and when -/

namespace Situation

variable (H : Bytes → String) (s : Situation)

/-- The list that `_run_attempt` hands to `register_artifacts`. -/
def combined : Checked (Declared × List (Party × Declaration)) := do
  let d ← s.declared H
  let collected ← s.collected d
  pure (d, d.declarations ++ collected.map (Party.toolkit, ·))

/-- The combined artifacts and the combined metrics are registered. -/
def Recorded : Prop :=
  ∃ d declarations rows metrics, s.combined H = .ok (d, declarations) ∧
    registerArtifacts H s.newId s.attemptId s.final s.existing declarations = .ok rows ∧
    registerMetrics s.attemptId (byStoreKey rows) d.metrics = .ok metrics

/-- The attempt comes to an accepted verdict: the adapter succeeded with declarations that
were accepted, the platform declared its own files, and the boundary lets an admissible
verdict pass, whose kinds the manifest allows. -/
structure Reaches (rules : List JsonObject) (platform : List Declaration)
    (execution : AdapterExecution) (payload : Json) (verdict : Verdict) : Prop where
  running : s.trouble .running = none
  ruled : ruleObjects s.manifest.artifactRules = .ok rules
  executed : execute s.manifest s.task s.outcome s.resultFile s.workspace = .ok execution
  succeeded : execution.result.status = .succeeded
  genuine : execution.result.artifacts.forM rejectForged = .ok ()
  bookkept : ∃ receipt, s.receipt = .ok receipt ∧ receipt.toList.forM (s.checkWritten H) = .ok () ∧
    s.inputManifest.toList.forM (s.checkWritten H) = .ok () ∧
    validateArtifactDeclarations s.workspace s.manifest
      ((s.inputManifest.toList ++ receipt.toList).map Written.item) [] false true = .ok platform
  file : s.verdictFile = some (loadVerdict s.str payload)
  loaded : loadVerdict s.str payload = .ok verdict
  traceable : checkTraceability s.final s.str verdict = .ok ()
  admissible : verdict.status = .admissible
  allowed : ∀ kinds, allowedKinds rules = .ok kinds → kinds.isEmpty = true ∨
    ∀ a ∈ verdict.artifacts, ∃ k ∈ kinds, text? k = some a.kind

/-- The environment does its part: digests and ids are what they should be, the attempt
has no artifacts yet, and the workspace loses no file. -/
structure Undisturbed : Prop where
  digests : ∀ bytes, isSha256 (H bytes) = true
  before : s.workspace.Lawful
  after : s.final.Lawful
  kept : s.workspace.Keeps s.final
  ids : ∀ d declarations, s.combined H = .ok (d, declarations) →
    FreshIds s.newId s.existing declarations.length
  first : ∀ r ∈ s.existing, r.attemptId ≠ s.attemptId

/-- The paths that are taken before the rules collect. -/
def Occupied (platform : List Declaration) (execution : AdapterExecution) (verdict : Verdict)
    (key : String) : Prop :=
  (∃ d ∈ platform ++ execution.artifacts, d.storeKey = key) ∨
    ∃ a ∈ verdict.artifacts, s.final.resolve a.path = some key

/-- The store keys of the combined list. -/
def Known (rules : List JsonObject) (platform : List Declaration) (execution : AdapterExecution)
    (verdict : Verdict) (key : String) : Prop :=
  s.Occupied platform execution verdict key ∨
    ∃ rule ∈ rules, collects rule = true ∧ key ∈ pathsOf s.final s.str rule

/-- What neither party checks: the three groups declare different files, the rules can be
carried out, every metric cites a file that is registered and by its store key, and its
parser is named by identifiers. -/
structure Fits (rules : List JsonObject) (platform : List Declaration)
    (execution : AdapterExecution) (verdict : Verdict) : Prop where
  adapterApart : ∀ d ∈ execution.artifacts, ∀ d' ∈ platform, d.storeKey ≠ d'.storeKey
  verdictApart : ∀ a ∈ verdict.artifacts, ∀ d ∈ platform ++ execution.artifacts,
    s.final.resolve a.path ≠ some d.storeKey
  verdictOnce : (verdict.artifacts.map fun a ↦ s.final.resolve a.path).Nodup
  collectable : Collectable s.final s.str rules (s.Occupied platform execution verdict)
  adapterMetrics : ∀ raw ∈ execution.result.metrics,
    Recordable (s.Known rules platform execution verdict) raw
  verdictMetrics : ∀ m ∈ verdict.metrics, Traces (s.Known rules platform execution verdict) m

end Situation

/-! ## Recording -/

theorem verdict_of_loadVerdict {str : Json → String} {payload : Json} {v : Verdict}
    (h : loadVerdict str payload = .ok v) : v.validate = .ok () ∧
      ∀ a ∈ v.artifacts, a = { kind := a.kind, path := a.path, metadata := a.metadata } := by
  cases payload with
  | obj payload =>
      obtain ⟨status, _, h⟩ := bind_eq_ok.mp h
      obtain ⟨_, _, h⟩ := bind_eq_ok.mp h
      obtain ⟨metrics, _, h⟩ := bind_eq_ok.mp h
      obtain ⟨_, _, h⟩ := bind_eq_ok.mp h
      obtain ⟨artifacts, hartifacts, h⟩ := bind_eq_ok.mp h
      obtain ⟨_, _, h⟩ := bind_eq_ok.mp h
      obtain ⟨_, hvalid, h⟩ := bind_eq_ok.mp h
      obtain rfl := Except.ok.inj h
      constructor
      · cases hchecked : Verdict.validate _ with
        | ok _ => rfl
        | error message =>
            rw [hchecked] at hvalid
            cases hvalid
      · intro a ha
        obtain ⟨item, _, hitem⟩ := (mem_of_mapM hartifacts).2 a ha
        unfold loadArtifact at hitem
        split at hitem
        · split at hitem
          · obtain ⟨metadata, _, hitem⟩ := bind_eq_ok.mp hitem
            obtain rfl := Except.ok.inj hitem
            rfl
          · cases hitem
          · cases hitem
        · cases hitem
  | _ => cases h

namespace Situation

variable {H : Bytes → String} {s : Situation} {rules : List JsonObject}
  {platform : List Declaration} {execution : AdapterExecution} {payload : Json} {verdict : Verdict}

/-- What the verdict declares. -/
def verdictDeclarations (s : Situation) (verdict : Verdict) : List Declaration :=
  verdict.artifacts.map fun a ↦
    { kind := a.kind, storeKey := (s.final.resolve a.path).getD "", metadata := a.metadata }

/-- A succeeded execution was accepted under the rules of the manifest. -/
theorem execution_group (hlawful : s.workspace.Lawful)
    (hreaches : s.Reaches H rules platform execution payload verdict) :
    ((∃ kinds, allowedKinds rules = .ok kinds) ∧
      (execution.artifacts.map Declaration.storeKey).Nodup) ∧
      ∀ d ∈ execution.artifacts, s.workspace.Holds d.storeKey ∧ isIdentifier d.kind = true := by
  obtain ⟨_, _, h⟩ := bind_eq_ok.mp hreaches.executed
  obtain ⟨_, _, h⟩ := bind_eq_ok.mp h
  obtain ⟨_, _, h⟩ := bind_eq_ok.mp h
  simp only at h
  split at h
  · -- a protocol failure has not succeeded
    obtain rfl := Except.ok.inj h
    cases hreaches.succeeded
  · obtain ⟨result, _, h⟩ := bind_eq_ok.mp h
    obtain ⟨artifacts, hartifacts, h⟩ := bind_eq_ok.mp h
    obtain rfl := Except.ok.inj h
    obtain ⟨rules', kinds, hrules, hkinds, _⟩ := validated_eq_ok hartifacts
    obtain rfl := Except.ok.inj (hreaches.ruled.symm.trans hrules)
    obtain ⟨hnodup, hall⟩ := validated_group hlawful hartifacts
    exact ⟨⟨⟨kinds, hkinds⟩, hnodup⟩, hall⟩

/-- What the boundary let pass is a file of the workspace. -/
theorem verdict_file (hreaches : s.Reaches H rules platform execution payload verdict)
    {a : ArtifactDeclaration} (ha : a ∈ verdict.artifacts) :
    ∃ key, s.final.resolve a.path = some key ∧ s.final.content key ≠ none := by
  obtain ⟨_, htraceable, _⟩ := bind_eq_ok.mp hreaches.traceable
  have htraced := forM_eq_ok.mp htraceable a ha
  split at htraced
  · cases htraced
  · next key hkey => exact ⟨key, hkey, raiseWhen_eq_ok.mp htraced⟩

theorem verdictDeclarations_keys
    (hreaches : s.Reaches H rules platform execution payload verdict) :
    ((s.verdictDeclarations verdict).map Declaration.storeKey).map some =
      verdict.artifacts.map fun a ↦ s.final.resolve a.path := by
  unfold verdictDeclarations
  rw [List.map_map, List.map_map]
  refine List.map_congr_left fun a ha ↦ ?_
  obtain ⟨key, hkey, _⟩ := verdict_file hreaches ha
  simp [hkey]

theorem verdict_declarable {kinds : List Json} (hkinds : allowedKinds rules = .ok kinds)
    (hreaches : s.Reaches H rules platform execution payload verdict)
    {a : ArtifactDeclaration} (ha : a ∈ verdict.artifacts) (d : Declaration) :
    Declarable s.final kinds false
        { kind := a.kind, path := a.path, metadata := .obj a.metadata } d ↔
      d = { kind := a.kind, storeKey := (s.final.resolve a.path).getD ""
            metadata := a.metadata } := by
  obtain ⟨hvalid, hplain⟩ := verdict_of_loadVerdict hreaches.loaded
  obtain ⟨key, hkey, hthere⟩ := verdict_file hreaches ha
  have hmetadata : metadataOf (.obj a.metadata) = .ok (some a.metadata) := by
    cases hempty : a.metadata <;> rfl
  constructor
  · rintro ⟨hread, _, _, hleads, _, hkind⟩
    have hsame : d.metadata = a.metadata :=
      Option.some.inj (Except.ok.inj (hread.symm.trans hmetadata))
    rw [show s.final.resolve a.path = some d.storeKey from hleads, ← hsame,
      ← show d.kind = a.kind from hkind]
    rfl
  · rintro rfl
    refine ⟨hmetadata, ?_, ?_, ?_, ?_, rfl⟩
    · have hall := (Validated.bind_eq_ok.mp (Validated.bind_eq_ok.mp (Validated.bind_eq_ok.mp
        (Validated.bind_eq_ok.mp hvalid).2).2).2).2
      have hown := forM_eq_ok.mp hall a ha
      rw [hplain a ha] at hown
      exact hown
    · rcases hreaches.allowed kinds hkinds with hempty | hallowed
      · simp [hempty]
      · obtain ⟨k, hk, htext⟩ := hallowed a ha
        have hany : (kinds.any fun k ↦ text? k = some a.kind) = true :=
          List.any_eq_true.mpr ⟨k, hk, by simpa using htext⟩
        simp [hany]
    · rw [hkey]
      rfl
    · rw [hkey]
      exact hthere

/-- The evaluator's artifacts are accepted exactly when they are different files. -/
theorem verdict_declared (hlawful : s.workspace.Lawful)
    (hreaches : s.Reaches H rules platform execution payload verdict)
    {result : List Declaration × List Metric} :
    s.evaluate execution = .ok result ↔
      result = (s.verdictDeclarations verdict, verdict.metrics) ∧
        (verdict.artifacts.map fun a ↦ s.final.resolve a.path).Nodup := by
  obtain ⟨kinds, hkinds⟩ := (execution_group hlawful hreaches).1.1
  have hvalid := (verdict_of_loadVerdict hreaches.loaded).1
  have hevaluate : s.evaluate execution = (do
      let artifacts ← declareAll s.final kinds false []
        (verdict.artifacts.map fun a ↦
          { kind := a.kind, path := a.path, metadata := .obj a.metadata })
      pure (artifacts, verdict.metrics)) := by
    unfold evaluate validateArtifactDeclarations
    rw [if_neg (not_not.mpr hreaches.succeeded), hreaches.file, hreaches.loaded]
    have hrejected : ¬verdict.status = .rejected := by
      rw [hreaches.admissible]
      exact VerdictStatus.noConfusion
    simp only [bind, Except.bind, contract, hvalid, hreaches.traceable, raiseWhen, hrejected,
      hreaches.ruled, hkinds, if_false, Bool.false_eq_true]
    cases declareAll s.final kinds false [] _ <;> rfl
  have hdeclared : ∀ ds, declareAll s.final kinds false []
      (verdict.artifacts.map fun a ↦
        { kind := a.kind, path := a.path, metadata := .obj a.metadata }) = .ok ds ↔
      ds = s.verdictDeclarations verdict ∧
        (verdict.artifacts.map fun a ↦ s.final.resolve a.path).Nodup := by
    intro ds
    rw [declareAll_eq_ok, List.forall₂_map_left_iff,
      Pointwise.eq_map_iff fun a ha ↦ verdict_declarable hkinds hreaches ha]
    refine and_congr_right fun hds ↦ ?_
    change ds = s.verdictDeclarations verdict at hds
    rw [hds, ← verdictDeclarations_keys hreaches,
      List.nodup_map_iff (Option.some_injective String)]
    simp
  rw [hevaluate, bind_eq_ok]
  constructor
  · rintro ⟨ds, hds, h⟩
    obtain ⟨rfl, hnodup⟩ := (hdeclared ds).mp hds
    exact ⟨(Except.ok.inj h).symm, hnodup⟩
  · rintro ⟨rfl, hnodup⟩
    exact ⟨_, (hdeclared _).mpr ⟨rfl, hnodup⟩, rfl⟩

/-- What the three parties declared, and the metrics. -/
def declaredBy (s : Situation) (platform : List Declaration) (execution : AdapterExecution)
    (verdict : Verdict) : Declared :=
  { execution := execution
    declarations := platform.map (Party.platform, ·) ++
      execution.artifacts.map (Party.adapter, ·) ++
      (s.verdictDeclarations verdict).map (Party.evaluator, ·)
    metrics := execution.result.metrics ++ verdict.metrics.map metricItem }

theorem declaredBy_occupied : (s.declaredBy platform execution verdict).occupied =
    (platform ++ execution.artifacts).map Declaration.storeKey ++
      (s.verdictDeclarations verdict).map Declaration.storeKey := by
  simp [declaredBy, Declared.occupied, Function.comp_def]

theorem mem_verdictDeclarations (hreaches : s.Reaches H rules platform execution payload verdict)
    {key : String} : key ∈ (s.verdictDeclarations verdict).map Declaration.storeKey ↔
      ∃ a ∈ verdict.artifacts, s.final.resolve a.path = some key := by
  rw [← List.mem_map, ← verdictDeclarations_keys hreaches]
  simp

theorem mem_occupied (hreaches : s.Reaches H rules platform execution payload verdict)
    {key : String} : key ∈ (s.declaredBy platform execution verdict).occupied ↔
      s.Occupied platform execution verdict key := by
  rw [declaredBy_occupied, List.mem_append, mem_verdictDeclarations hreaches, List.mem_map]
  rfl

theorem declared_eq_ok (hlawful : s.workspace.Lawful)
    (hreaches : s.Reaches H rules platform execution payload verdict) {d : Declared} :
    s.declared H = .ok d ↔ d = s.declaredBy platform execution verdict ∧
      (verdict.artifacts.map fun a ↦ s.final.resolve a.path).Nodup := by
  obtain ⟨receipt, hreceipt, hwritten, hmanifest, hplatform⟩ := hreaches.bookkept
  have hdeclared : s.declared H = (do
      let evaluated ← s.evaluate execution
      pure { execution := execution
             declarations := platform.map (Party.platform, ·) ++
               execution.artifacts.map (Party.adapter, ·) ++
               evaluated.1.map (Party.evaluator, ·)
             metrics := execution.result.metrics ++ evaluated.2.map metricItem }) := by
    unfold declared
    simp only [stumble, hreaches.running, hreceipt, hreaches.executed, hreaches.genuine, hwritten,
      hmanifest, hplatform, bind, Except.bind]
  rw [hdeclared, bind_eq_ok]
  constructor
  · rintro ⟨result, hresult, h⟩
    obtain ⟨rfl, hnodup⟩ := (verdict_declared hlawful hreaches).mp hresult
    exact ⟨(Except.ok.inj h).symm, hnodup⟩
  · rintro ⟨rfl, hnodup⟩
    exact ⟨_, (verdict_declared hlawful hreaches).mpr ⟨rfl, hnodup⟩, rfl⟩

theorem combined_eq_ok (hlawful : s.workspace.Lawful)
    (hreaches : s.Reaches H rules platform execution payload verdict) {d : Declared}
    {declarations : List (Party × Declaration)} :
    s.combined H = .ok (d, declarations) ↔
      (d = s.declaredBy platform execution verdict ∧
        (verdict.artifacts.map fun a ↦ s.final.resolve a.path).Nodup) ∧
      ∃ collected, collectManifestArtifacts s.final s.str rules d.occupied = .ok collected ∧
        declarations = d.declarations ++ collected.map (Party.toolkit, ·) := by
  have hcollected : ∀ d, s.collected d =
      collectManifestArtifacts s.final s.str rules d.occupied := by
    intro d
    unfold Situation.collected
    rw [hreaches.ruled]
    rfl
  rw [← declared_eq_ok hlawful hreaches]
  constructor
  · intro h
    obtain ⟨d', hd', h⟩ := bind_eq_ok.mp h
    obtain ⟨collected, hc, h⟩ := bind_eq_ok.mp h
    obtain ⟨rfl, rfl⟩ := Prod.mk.inj (Except.ok.inj h)
    exact ⟨hd', collected, (hcollected d').symm.trans hc, rfl⟩
  · rintro ⟨hd, collected, hc, rfl⟩
    exact bind_eq_ok.mpr ⟨d, hd, bind_eq_ok.mpr ⟨collected, (hcollected d).trans hc, rfl⟩⟩

/-- The three groups and what is collected are without repetition exactly when the groups
are apart. -/
theorem combined_nodup_iff (hundisturbed : s.Undisturbed H)
    (hreaches : s.Reaches H rules platform execution payload verdict)
    (honce : (verdict.artifacts.map fun a ↦ s.final.resolve a.path).Nodup)
    {collected : List Declaration}
    (hcollected : collectManifestArtifacts s.final s.str rules
      (s.declaredBy platform execution verdict).occupied = .ok collected) :
    (((s.declaredBy platform execution verdict).declarations ++
        collected.map (Party.toolkit, ·)).map fun p ↦ p.2.storeKey).Nodup ↔
      (∀ d ∈ execution.artifacts, ∀ d' ∈ platform, d.storeKey ≠ d'.storeKey) ∧
        ∀ a ∈ verdict.artifacts, ∀ d ∈ platform ++ execution.artifacts,
          s.final.resolve a.path ≠ some d.storeKey := by
  obtain ⟨_, _, _, _, hplatform⟩ := hreaches.bookkept
  have hown := (validated_group hundisturbed.before hplatform).1
  have hadapter := (execution_group hundisturbed.before hreaches).1.2
  have hverdict : ((s.verdictDeclarations verdict).map Declaration.storeKey).Nodup := by
    rwa [← verdictDeclarations_keys hreaches,
      List.nodup_map_iff (Option.some_injective String)] at honce
  obtain ⟨hrest, hfree, _⟩ := collectManifestArtifacts_keys hundisturbed.after hcollected
  have hkeys : (((s.declaredBy platform execution verdict).declarations ++
      collected.map (Party.toolkit, ·)).map fun p ↦ p.2.storeKey) =
        (s.declaredBy platform execution verdict).occupied ++
          collected.map Declaration.storeKey := by
    simp [Declared.occupied, Function.comp_def]
  have happart : ∀ a ∈ (s.declaredBy platform execution verdict).occupied,
      ∀ b ∈ collected.map Declaration.storeKey, a ≠ b := by
    intro a ha b hb heq
    obtain ⟨d, hd, rfl⟩ := List.mem_map.mp hb
    exact (hfree d hd).1 (heq ▸ ha)
  have hcross : (∀ a ∈ (platform ++ execution.artifacts).map Declaration.storeKey,
      ∀ b ∈ (s.verdictDeclarations verdict).map Declaration.storeKey, a ≠ b) ↔
        ∀ a ∈ verdict.artifacts, ∀ d ∈ platform ++ execution.artifacts,
          s.final.resolve a.path ≠ some d.storeKey := by
    constructor
    · intro h a ha d hd hkey
      exact h d.storeKey (List.mem_map_of_mem hd) d.storeKey
        ((mem_verdictDeclarations hreaches).mpr ⟨a, ha, hkey⟩) rfl
    · intro h key hkey key' hkey' heq
      obtain ⟨d, hd, rfl⟩ := List.mem_map.mp hkey
      obtain ⟨a, ha, hleads⟩ := (mem_verdictDeclarations hreaches).mp hkey'
      exact h a ha d hd (by rw [hleads, heq])
  have hfirst : (∀ a ∈ platform.map Declaration.storeKey,
      ∀ b ∈ execution.artifacts.map Declaration.storeKey, a ≠ b) ↔
        ∀ d ∈ execution.artifacts, ∀ d' ∈ platform, d.storeKey ≠ d'.storeKey := by
    rw [List.forall_mem_map]
    simp only [List.forall_mem_map]
    exact ⟨fun h d hd d' hd' heq ↦ h d' hd' d hd heq.symm,
      fun h d' hd' d hd heq ↦ h d hd d' hd' heq.symm⟩
  rw [hkeys, List.nodup_append, declaredBy_occupied, List.nodup_append, List.map_append,
    List.nodup_append, ← List.map_append, hcross, hfirst]
  rw [declaredBy_occupied] at happart
  exact ⟨fun h ↦ ⟨h.1.1.2.2, h.1.2.2⟩,
    fun h ↦ ⟨⟨⟨hown, hadapter, h.1⟩, hverdict, h.2⟩, hrest, happart⟩⟩

/-- Every file of the combined list is one of the workspace, and the kinds that were
declared are identifiers. -/
theorem combined_files (hundisturbed : s.Undisturbed H)
    (hreaches : s.Reaches H rules platform execution payload verdict)
    (p : Party × Declaration) (hp : p ∈ (s.declaredBy platform execution verdict).declarations) :
    s.final.Holds p.2.storeKey ∧ isIdentifier p.2.kind = true := by
  obtain ⟨_, _, _, _, hplatform⟩ := hreaches.bookkept
  have hown := (validated_group hundisturbed.before hplatform).2
  obtain ⟨⟨⟨kinds, hkinds⟩, _⟩, hadapter⟩ := execution_group hundisturbed.before hreaches
  rcases List.mem_append.mp hp with hp | hp
  · rcases List.mem_append.mp hp with hp | hp
    · obtain ⟨d, hd, rfl⟩ := List.mem_map.mp hp
      exact ⟨hundisturbed.kept _ (hown d hd).1, (hown d hd).2⟩
    · obtain ⟨d, hd, rfl⟩ := List.mem_map.mp hp
      exact ⟨hundisturbed.kept _ (hadapter d hd).1, (hadapter d hd).2⟩
  · obtain ⟨d, hd, rfl⟩ := List.mem_map.mp hp
    obtain ⟨a, ha, rfl⟩ := List.mem_map.mp hd
    have hdeclarable := (verdict_declarable hkinds hreaches ha _).mpr rfl
    exact ⟨hundisturbed.after.resolved _ _ hdeclarable.leads
      (Option.isSome_iff_ne_none.mpr hdeclarable.there), isIdentifier_of_declarable hdeclarable⟩

/-- What is collected has identifiers for kinds exactly when the rules give them. -/
theorem collected_kinds_iff {occupied : List String} {collected : List Declaration}
    (h : collectManifestArtifacts s.final s.str rules occupied = .ok collected) :
    (∀ d ∈ collected, isIdentifier d.kind = true) ↔
      ∀ rule path, Finds s.final s.str rules (· ∈ occupied) rule path →
        ∃ kind, rule.get? "kind" = some kind ∧ isIdentifier (textOf s.str kind) = true := by
  have hpicks := mem_collectManifestArtifacts h
  constructor
  · intro hkinds rule path hfinds
    obtain ⟨kind, hkind⟩ := (collectManifestArtifacts_ok_iff.mp ⟨collected, h⟩).2 rule path hfinds
    obtain ⟨before, after, heq, hcollects, hpath, hfree, hbefore⟩ := hfinds
    obtain ⟨d, hd, hsame, _⟩ := (hpicks (textOf s.str kind) path).mpr
      ⟨before, rule, after, heq, hcollects, ⟨kind, hkind, rfl⟩, hpath, hfree, hbefore⟩
    exact ⟨kind, hkind, hsame ▸ hkinds d hd⟩
  · intro hrules d hd
    obtain ⟨before, rule, after, heq, hcollects, ⟨kind, hkind, htext⟩, hpath, hfree, hbefore⟩ :=
      (hpicks d.kind d.storeKey).mp ⟨d, hd, rfl, rfl⟩
    obtain ⟨kind', hkind', hvalid⟩ :=
      hrules rule d.storeKey ⟨before, after, heq, hcollects, hpath, hfree, hbefore⟩
    obtain rfl := Option.some.inj (hkind.symm.trans hkind')
    rwa [← htext]

theorem collectable_iff (hreaches : s.Reaches H rules platform execution payload verdict) :
    Collectable s.final s.str rules (s.Occupied platform execution verdict) ↔
      ∃ collected, collectManifestArtifacts s.final s.str rules
        (s.declaredBy platform execution verdict).occupied = .ok collected ∧
          ∀ d ∈ collected, isIdentifier d.kind = true := by
  have htaken : (fun key ↦ key ∈ (s.declaredBy platform execution verdict).occupied) =
      s.Occupied platform execution verdict :=
    funext fun key ↦ propext (mem_occupied hreaches)
  constructor
  · rintro ⟨hcarried, hkinds⟩
    rw [← htaken] at hkinds
    obtain ⟨collected, hcollected⟩ := collectManifestArtifacts_ok_iff.mpr
      ⟨hcarried, fun rule path hfinds ↦ (hkinds rule path hfinds).imp fun _ h ↦ h.1⟩
    exact ⟨collected, hcollected, (collected_kinds_iff hcollected).mpr hkinds⟩
  · rintro ⟨collected, hcollected, hkinds⟩
    refine ⟨(collectManifestArtifacts_ok_iff.mp ⟨collected, hcollected⟩).1, ?_⟩
    rw [← htaken]
    exact (collected_kinds_iff hcollected).mp hkinds

/-- The metrics of both are recorded with the rows of the combined list exactly when they
cite its keys. -/
theorem metrics_recorded_iff (hundisturbed : s.Undisturbed H)
    (hreaches : s.Reaches H rules platform execution payload verdict)
    {collected : List Declaration} {rows : List (Party × ArtifactRow)}
    (hcollected : collectManifestArtifacts s.final s.str rules
      (s.declaredBy platform execution verdict).occupied = .ok collected)
    (hkeys : (rows.map fun p ↦ p.2.storeKey) =
      (s.declaredBy platform execution verdict).occupied ++ collected.map Declaration.storeKey)
    (hids : ∀ p ∈ rows, isIdentifier p.2.artifactId = true) :
    (∃ metrics, registerMetrics s.attemptId (byStoreKey rows)
        (s.declaredBy platform execution verdict).metrics = .ok metrics) ↔
      (∀ raw ∈ execution.result.metrics,
        Recordable (s.Known rules platform execution verdict) raw) ∧
      ∀ m ∈ verdict.metrics, Traces (s.Known rules platform execution verdict) m := by
  have hknown : (fun key ↦ key ∈ rows.map fun p ↦ p.2.storeKey) =
      s.Known rules platform execution verdict := by
    funext key
    rw [hkeys, (collectManifestArtifacts_keys hundisturbed.after hcollected).2.2,
      mem_occupied hreaches]
    rfl
  have hvalid := (verdict_of_loadVerdict hreaches.loaded).1
  have hmetrics := forM_eq_ok.mp (Validated.bind_eq_ok.mp (Validated.bind_eq_ok.mp
    (Validated.bind_eq_ok.mp (Validated.bind_eq_ok.mp hvalid).2).2).2).1
  rw [registerMetrics_ok_iff]
  simp only [accepted_rows_iff hids, hknown, declaredBy, List.forall_mem_append,
    List.forall_mem_map]
  refine and_congr_right fun _ ↦ forall₂_congr fun m hm ↦ recordable_metricItem ?_
  exact (Validated.bind_eq_ok.mp (hmetrics m hm)).1

theorem registered_keys {collected : List Declaration} {rows : List (Party × ArtifactRow)}
    (h : registerArtifacts H s.newId s.attemptId s.final s.existing
      ((s.declaredBy platform execution verdict).declarations ++
        collected.map (Party.toolkit, ·)) = .ok rows) :
    (rows.map fun p ↦ p.2.storeKey) = (s.declaredBy platform execution verdict).occupied ++
      collected.map Declaration.storeKey ∧ ∀ p ∈ rows, isIdentifier p.2.artifactId = true := by
  obtain ⟨hkeys, hids⟩ := registerArtifacts_keys h
  refine ⟨?_, hids⟩
  rw [hkeys]
  simp [Declared.occupied, Function.comp_def]

section Listed

variable {collected : List Declaration} (hundisturbed : s.Undisturbed H)
  (hreaches : s.Reaches H rules platform execution payload verdict)
  (honce : (verdict.artifacts.map fun a ↦ s.final.resolve a.path).Nodup)
  (hcollected : collectManifestArtifacts s.final s.str rules
    (s.declaredBy platform execution verdict).occupied = .ok collected)

include hundisturbed hreaches honce hcollected

/-- A combined list is registered exactly when it is without repetition and what was
collected has kinds. -/
theorem registered_iff :
    (∃ rows, registerArtifacts H s.newId s.attemptId s.final s.existing
        ((s.declaredBy platform execution verdict).declarations ++
          collected.map (Party.toolkit, ·)) = .ok rows) ↔
      (((s.declaredBy platform execution verdict).declarations ++
        collected.map (Party.toolkit, ·)).map fun p ↦ p.2.storeKey).Nodup ∧
        ∀ d ∈ collected, isIdentifier d.kind = true := by
  have hfresh := hundisturbed.ids _ _ ((combined_eq_ok hundisturbed.before hreaches).mpr
    ⟨⟨rfl, honce⟩, collected, hcollected, rfl⟩)
  obtain ⟨_, hfree, _⟩ := collectManifestArtifacts_keys hundisturbed.after hcollected
  have hdeclared := combined_files hundisturbed hreaches
  rw [registerArtifacts_ok_iff hundisturbed.after hundisturbed.digests hfresh]
  · rw [List.forall_mem_append, List.forall_mem_map]
    refine and_congr_right fun _ ↦ ⟨fun h ↦ h.1.2, fun h ↦ ⟨⟨fun p hp ↦ (hdeclared p hp).2, h⟩, ?_⟩⟩
    exact fun p _ r hr hattempt ↦ absurd hattempt (hundisturbed.first r hr)
  · rw [List.forall_mem_append, List.forall_mem_map]
    exact ⟨fun p hp ↦ (hdeclared p hp).1, fun d hd ↦ (hfree d hd).2⟩

end Listed

/-- An attempt that is not in trouble succeeds exactly when the verdict is recorded. -/
theorem runAttempt_succeeded_iff (hlawful : s.workspace.Lawful)
    (hreaches : s.Reaches H rules platform execution payload verdict)
    (htrouble : ∀ stage, s.trouble stage = none) :
    (s.runAttempt H).status = .ok .succeeded ↔ s.Recorded H := by
  constructor
  · intro hsucceeded
    rcases runAttempt_metrics H s with ⟨_, hfailed, _⟩ | ⟨d, rows, _, hmeasures, _, hmetrics⟩
    · exact absurd hsucceeded hfailed
    · obtain ⟨d', hd, h⟩ := bind_eq_ok.mp hmeasures.1
      obtain ⟨collected, hcollected, h⟩ := bind_eq_ok.mp h
      obtain ⟨_, _, h⟩ := bind_eq_ok.mp h
      obtain ⟨rows', hrows, h⟩ := bind_eq_ok.mp h
      obtain ⟨rfl, rfl⟩ := Prod.mk.inj (Except.ok.inj h)
      exact ⟨d', _, rows', _, bind_eq_ok.mpr ⟨d', hd, bind_eq_ok.mpr ⟨collected, hcollected, rfl⟩⟩,
        hrows, hmetrics⟩
  · rintro ⟨d, declarations, rows, metrics, hlist, hrows, hmetrics⟩
    obtain ⟨⟨rfl, _⟩, _⟩ := (combined_eq_ok hlawful hreaches).mp hlist
    obtain ⟨d', hd, h⟩ := bind_eq_ok.mp hlist
    obtain ⟨collected, hcollected, h⟩ := bind_eq_ok.mp h
    obtain ⟨rfl, rfl⟩ := Prod.mk.inj (Except.ok.inj h)
    have hregistered : s.registered H = .ok (s.declaredBy platform execution verdict, rows) := by
      refine bind_eq_ok.mpr ⟨_, hd, bind_eq_ok.mpr ⟨collected, hcollected, ?_⟩⟩
      refine bind_eq_ok.mpr ⟨(), by simp [stumble, htrouble], ?_⟩
      exact bind_eq_ok.mpr ⟨rows, hrows, rfl⟩
    have hstatus : (s.declaredBy platform execution verdict).execution.result.status =
        .succeeded := hreaches.succeeded
    simp only [runAttempt, hregistered, hstatus, stumble, htrouble, bind, Except.bind, hmetrics,
      if_true]

/-- An attempt whose adapter succeeds without artifacts and leaves `report.json`, from
which an admissible verdict reads an area. -/
def sampleEvaluated (payload : Json) : Situation :=
  { sampleSituation [] [] with
    workspace := sampleWorkspace ["report.json"]
    verdictFile := some (loadVerdict (fun _ ↦ "") payload)
    final := sampleWorkspace ["report.json"] }

def sampleArea : Metric :=
  { name := .str "area", value := .int 1
    context := [("source_artifact_store_key", .str "report.json")] }

/-- A verdict that cites `report.json`, with what it declares. -/
def samplePayload (artifacts : List Json) : Json :=
  .obj [("status", .str "admissible"),
    ("metrics", .arr [.obj [("name", sampleArea.name), ("value", sampleArea.value),
      ("context", .obj sampleArea.context)]]), ("artifacts", .arr artifacts)]

def sampleExecution : AdapterExecution :=
  { result := { status := .succeeded, exitCode := 0, startedAt := "s", endedAt := "e" }
    artifacts := [] }

theorem sampleExecution_executed :
    execute (sampleSituation [] []).manifest (sampleSituation [] []).task
      (sampleSituation [] []).outcome (sampleSituation [] []).resultFile
      (sampleWorkspace ["report.json"]) = .ok sampleExecution :=
  bind_eq_ok.mpr ⟨(), rfl, bind_eq_ok.mpr ⟨(), rfl, bind_eq_ok.mpr ⟨(), rfl, rfl⟩⟩⟩

def sampleVerdict (artifacts : List ArtifactDeclaration) : Verdict :=
  { status := .admissible, metrics := [sampleArea], artifacts := artifacts }

theorem sampleEvaluated_undisturbed {payload : Json} (count : Nat)
    (hcombined : ((sampleEvaluated payload).combined sampleHash).toOption.map
      (fun list ↦ list.2.length) = some count) (hcount : count ≤ 1) :
    (sampleEvaluated payload).Undisturbed sampleHash := by
  have hholds : ∀ key, (sampleWorkspace ["report.json"]).Holds key ↔ key = "report.json" := by
    intro key
    simp [Workspace.Holds, sampleWorkspace]
  have hlawful : (sampleWorkspace ["report.json"]).Lawful := by
    refine ⟨fun path key hkey hthere ↦ ⟨rfl, hthere⟩, fun key hkey ↦ ?_, ?_⟩
    · rw [(hholds key).mp hkey]
      decide
    · intro pattern paths hpaths key hkey
      obtain rfl := Except.ok.inj hpaths
      rw [hholds]
      simp at hkey
      exact hkey.1
  have hdigest : isSha256 (String.ofList (List.replicate 64 '0')) = true := by decide
  refine ⟨fun _ ↦ hdigest, hlawful, hlawful, fun _ ↦ id, fun d list hlist ↦ ?_, nofun⟩
  rw [hlist] at hcombined
  have hlength : list.length = count := Option.some.inj hcombined
  refine ⟨fun n hn ↦ ?_, fun m hm n hn _ ↦ by omega, nofun⟩
  obtain rfl : n = 0 := by omega
  change isIdentifier ("art-" ++ toString (0 + 0)) = true
  decide

theorem sampleEvaluated_reaches (items : List Json) (artifacts : List ArtifactDeclaration)
    (hloaded : loadVerdict (fun _ ↦ "") (samplePayload items) = .ok (sampleVerdict artifacts))
    (htraceable : checkTraceability (sampleWorkspace ["report.json"]) (fun _ ↦ "")
      (sampleVerdict artifacts) = .ok ()) :
    (sampleEvaluated (samplePayload items)).Reaches sampleHash [] [] sampleExecution
      (samplePayload items) (sampleVerdict artifacts) where
  running := rfl
  ruled := rfl
  executed := sampleExecution_executed
  succeeded := rfl
  genuine := rfl
  bookkept := ⟨none, rfl, rfl, rfl, rfl⟩
  file := rfl
  loaded := hloaded
  traceable := htraceable
  admissible := rfl
  allowed kinds hkinds := by
    obtain rfl := Except.ok.inj hkinds
    exact .inl rfl

end Situation

end ChipEvolve.Attempt
