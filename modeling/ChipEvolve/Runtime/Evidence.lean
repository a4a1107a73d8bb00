import ChipEvolve.Outcome
import ChipEvolve.Runtime.Attempt

/-!
# Reserved kinds and traceable metrics

The adapter and the evaluator cannot declare a reserved kind, since their
declarations pass `ArtifactDeclaration.validate` without the authority to do so.
What the platform collects for a rule of the manifest passes no such test.  A
metric that cites its source by store key is resolved against the artifacts that
were registered; one that gives an id is not.
-/

namespace ChipEvolve.Attempt

open Builtins (text?)
open Except (bind_eq_ok mem_of_mapM mapM_of_forall)

theorem raiseWhen_eq_ok {p : Prop} [Decidable p] {e : Raised} {u : Unit} :
    raiseWhen p e = .ok u ↔ ¬p := by
  unfold raiseWhen
  split <;> simp_all

theorem translated_eq_ok {lead : String} {v : Validated} {u : Unit} :
    translated lead v = .ok u ↔ v = .ok () := by
  cases v <;> simp [translated]

/-! ## Declared kinds -/

section Declarations

variable {w : Workspace} {manifest : PluginManifest} {task : TaskSpec} {outcome : ProcessOutcome}
  {file : Checked AdapterResult} {execution : AdapterExecution}

/-- A declaration without authority does not validate with a reserved kind. -/
theorem not_reserved_of_validate {a : ArtifactDeclaration} (h : a.validate = .ok ())
    (hallow : a.allowReserved = false) : a.kind ∉ reservedArtifactKinds := by
  have hreserved := (Validated.of_bind (Validated.of_bind h).2).1
  intro hkind
  simp [refuseIf, hkind, hallow] at hreserved

theorem declare_not_reserved {allowed : List Json} {seenKeys : List String} {item : ResultArtifact}
    {d : Declaration} (h : declare w allowed false seenKeys item = .ok d) :
    d.kind ∉ reservedArtifactKinds := by
  obtain ⟨metadata, _, h⟩ := bind_eq_ok.mp h
  obtain ⟨_, hvalid, h⟩ := bind_eq_ok.mp h
  obtain ⟨_, _, h⟩ := bind_eq_ok.mp h
  have hkind : item.kind ∉ reservedArtifactKinds :=
    not_reserved_of_validate (Validated.bind_eq_ok.mp (translated_eq_ok.mp hvalid)).1 rfl
  split at h
  · cases h
  · obtain ⟨_, _, h⟩ := bind_eq_ok.mp h
    obtain ⟨_, _, h⟩ := bind_eq_ok.mp h
    obtain rfl := Except.ok.inj h
    exact hkind

theorem declareAll_not_reserved {allowed : List Json} {seenKeys : List String}
    {items : List ResultArtifact} {ds : List Declaration}
    (h : declareAll w allowed false seenKeys items = .ok ds) :
    ∀ d ∈ ds, d.kind ∉ reservedArtifactKinds := by
  induction items generalizing seenKeys ds with
  | nil =>
      obtain rfl := Except.ok.inj h
      simp
  | cons item items ih =>
      obtain ⟨d, hd, h⟩ := bind_eq_ok.mp h
      obtain ⟨rest, hrest, h⟩ := bind_eq_ok.mp h
      obtain rfl := Except.ok.inj h
      rw [List.forall_mem_cons]
      exact ⟨declare_not_reserved hd, ih hrest⟩

theorem validated_not_reserved {items : List ResultArtifact} {expected : List String}
    {requireExpected : Bool} {ds : List Declaration}
    (h : validateArtifactDeclarations w manifest items expected requireExpected false = .ok ds) :
    ∀ d ∈ ds, d.kind ∉ reservedArtifactKinds := by
  obtain ⟨_, _, h⟩ := bind_eq_ok.mp h
  obtain ⟨_, _, h⟩ := bind_eq_ok.mp h
  obtain ⟨normalized, hall, h⟩ := bind_eq_ok.mp h
  have hsame : normalized = ds := by
    split at h
    · obtain ⟨_, _, h⟩ := bind_eq_ok.mp h
      exact Except.ok.inj h
    · exact Except.ok.inj h
  rw [← hsame]
  exact declareAll_not_reserved hall

theorem execute_not_reserved (h : execute manifest task outcome file w = .ok execution) :
    ∀ d ∈ execution.artifacts, d.kind ∉ reservedArtifactKinds := by
  obtain ⟨_, _, h⟩ := bind_eq_ok.mp h
  obtain ⟨_, _, h⟩ := bind_eq_ok.mp h
  obtain ⟨_, _, h⟩ := bind_eq_ok.mp h
  simp only at h
  split at h
  · -- a protocol failure declares nothing
    obtain rfl := Except.ok.inj h
    simp
  · obtain ⟨result, _, h⟩ := bind_eq_ok.mp h
    obtain ⟨artifacts, hartifacts, h⟩ := bind_eq_ok.mp h
    obtain rfl := Except.ok.inj h
    exact validated_not_reserved hartifacts

end Declarations

/-! ## Collected kinds -/

/-- The files a rule finds, none if it raises. -/
def pathsOf (w : Workspace) (str : Json → String) (rule : JsonObject) : List String :=
  (matched w str rule).toOption.getD []

/-- A rule collects `path` as `kind`: it finds it, it is not taken, and no rule before
it found it. -/
def Picks (w : Workspace) (str : Json → String) (rules : List JsonObject) (occupied : List String)
    (kind path : String) : Prop :=
  ∃ before rule after, rules = before ++ rule :: after ∧ collects rule = true ∧
    (∃ k, rule.get? "kind" = some k ∧ textOf str k = kind) ∧ path ∈ pathsOf w str rule ∧
    path ∉ occupied ∧ ∀ r ∈ before, collects r = true → path ∉ pathsOf w str r

section Collection

variable {w : Workspace} {str : Json → String} {rule : JsonObject} {rules : List JsonObject}
  {occupied : List String} {ds : List Declaration}

/-- What one rule adds, and that its other files were taken. -/
theorem mem_collectRule (h : collectRule w str rule occupied = .ok ds) (kind path : String) :
    ((∃ d ∈ ds, d.kind = kind ∧ d.storeKey = path) ↔
      collects rule = true ∧ (∃ k, rule.get? "kind" = some k ∧ textOf str k = kind) ∧
        path ∈ pathsOf w str rule ∧ path ∉ occupied) ∧
      (path ∈ occupied ++ ds.map Declaration.storeKey ↔
        path ∈ occupied ∨ (collects rule = true ∧ path ∈ pathsOf w str rule)) := by
  unfold collectRule at h
  split at h
  · next hcollects =>
      obtain ⟨paths, hpaths, h⟩ := bind_eq_ok.mp h
      have hpathsOf : pathsOf w str rule = paths := by simp [pathsOf, hpaths, Except.toOption]
      simp only at h
      split at h
      · next k hk =>
          obtain rfl := Except.ok.inj h
          rw [hpathsOf]
          constructor
          · constructor
            · rintro ⟨d, hd, rfl, rfl⟩
              obtain ⟨path, hpath, rfl⟩ := List.mem_map.mp hd
              have hmem : path ∈ paths ∧ path ∉ occupied := by simpa using hpath
              exact ⟨hcollects, ⟨k, hk, rfl⟩, hmem.1, hmem.2⟩
            · rintro ⟨_, ⟨k', hk', rfl⟩, hpath, hfree⟩
              obtain rfl : k = k' := Option.some.inj (hk.symm.trans hk')
              refine ⟨_, List.mem_map.mpr ⟨path, ?_, rfl⟩, rfl, rfl⟩
              simpa using ⟨hpath, hfree⟩
          · simp only [List.mem_append, List.map_map, Function.comp_def, List.map_id',
              List.mem_filter, decide_eq_true_eq, hcollects, true_and]
            tauto
      · next hnone =>
          obtain ⟨_, hempty, h⟩ := bind_eq_ok.mp h
          obtain rfl := Except.ok.inj h
          have hnothing : paths.filter (fun path ↦ path ∉ occupied) = [] := by
            simpa using raiseWhen_eq_ok.mp hempty
          have htaken : ∀ path ∈ paths, path ∈ occupied := by
            simpa [List.filter_eq_nil_iff] using hnothing
          rw [hpathsOf]
          simp only [List.not_mem_nil, false_and, exists_false, hnone, reduceCtorEq, and_false,
            List.map_nil, List.append_nil, hcollects, true_and, iff_self_or]
          exact htaken path
  · next hidle =>
      obtain rfl := Except.ok.inj h
      simp [hidle]

theorem mem_collectManifestArtifacts (h : collectManifestArtifacts w str rules occupied = .ok ds)
    (kind path : String) :
    (∃ d ∈ ds, d.kind = kind ∧ d.storeKey = path) ↔ Picks w str rules occupied kind path := by
  induction rules generalizing occupied ds with
  | nil =>
      obtain rfl := Except.ok.inj h
      simp [Picks]
  | cons rule rules ih =>
      obtain ⟨declared, hdeclared, h⟩ := bind_eq_ok.mp h
      obtain ⟨rest, hrest, h⟩ := bind_eq_ok.mp h
      obtain rfl := Except.ok.inj h
      obtain ⟨hfirst, htaken⟩ := mem_collectRule hdeclared kind path
      have hlater := ih hrest
      constructor
      · rintro ⟨d, hd, hkind, hpath⟩
        rcases List.mem_append.mp hd with hd | hd
        · obtain ⟨hcollects, hk, hmem, hfree⟩ := hfirst.mp ⟨d, hd, hkind, hpath⟩
          exact ⟨[], rule, rules, rfl, hcollects, hk, hmem, hfree, by simp⟩
        · obtain ⟨before, r, after, rfl, hcollects, hk, hmem, hfree, hbefore⟩ :=
            hlater.mp ⟨d, hd, hkind, hpath⟩
          rw [htaken, not_or] at hfree
          refine ⟨rule :: before, r, after, rfl, hcollects, hk, hmem, hfree.1, ?_⟩
          rw [List.forall_mem_cons]
          exact ⟨fun hc hpath' ↦ hfree.2 ⟨hc, hpath'⟩, hbefore⟩
      · rintro ⟨before, r, after, heq, hcollects, hk, hmem, hfree, hbefore⟩
        cases before with
        | nil =>
            obtain ⟨rfl, rfl⟩ := List.cons.inj heq
            obtain ⟨d, hd, hd'⟩ := hfirst.mpr ⟨hcollects, hk, hmem, hfree⟩
            exact ⟨d, List.mem_append_left _ hd, hd'⟩
        | cons r' before =>
            obtain ⟨rfl, rfl⟩ := List.cons.inj heq
            rw [List.forall_mem_cons] at hbefore
            have hfree' : path ∉ occupied ++ declared.map Declaration.storeKey := by
              rw [htaken, not_or]
              exact ⟨hfree, fun h ↦ hbefore.1 h.1 h.2⟩
            obtain ⟨d, hd, hd'⟩ :=
              hlater.mpr ⟨before, r, after, rfl, hcollects, hk, hmem, hfree', hbefore.2⟩
            exact ⟨d, List.mem_append_right _ hd, hd'⟩

end Collection

/-! ## Registered rows -/

section Rows

variable {H : Bytes → String} {newId : Nat → String} {attemptId : AttemptId} {w : Workspace}
  {existing : List ArtifactRow} {ds : List (Party × Declaration)}
  {rows : List (Party × ArtifactRow)}

theorem registerOne_row {artifactId : String} {d : Declaration} {row : ArtifactRow}
    (h : registerOne H artifactId attemptId w existing d = .ok row) :
    row.kind = d.kind ∧ row.storeKey = d.storeKey := by
  unfold registerOne at h
  split at h
  · cases h
  · split at h
    · cases h
    · obtain ⟨_, _, h⟩ := bind_eq_ok.mp h
      obtain ⟨_, _, h⟩ := bind_eq_ok.mp h
      obtain rfl := Except.ok.inj h
      exact ⟨rfl, rfl⟩

/-- A row for each declaration, of its kind and from its party. -/
theorem registerArtifacts_kinds (h : registerArtifacts H newId attemptId w existing ds = .ok rows) :
    rows.map (fun p ↦ (p.1, p.2.kind)) = ds.map fun p ↦ (p.1, p.2.kind) := by
  induction ds generalizing existing rows with
  | nil =>
      obtain rfl := Except.ok.inj h
      rfl
  | cons p ds ih =>
      obtain ⟨row, hrow, h⟩ := bind_eq_ok.mp h
      obtain ⟨rest, hrest, h⟩ := bind_eq_ok.mp h
      obtain rfl := Except.ok.inj h
      rw [List.map_cons, List.map_cons, ih hrest, (registerOne_row hrow).1]

/-- A property of parties and kinds holds of the rows as it holds of the declarations. -/
theorem registerArtifacts_forall (h : registerArtifacts H newId attemptId w existing ds = .ok rows)
    (P : Party → String → Prop) :
    (∀ p ∈ rows, P p.1 p.2.kind) ↔ ∀ p ∈ ds, P p.1 p.2.kind := by
  have hrows : (∀ p ∈ rows, P p.1 p.2.kind) ↔
      ∀ q ∈ rows.map (fun p ↦ (p.1, p.2.kind)), P q.1 q.2 := by
    rw [List.forall_mem_map]
  rw [hrows, registerArtifacts_kinds h, List.forall_mem_map]

end Rows

namespace Situation

variable {H : Bytes → String} {s : Situation}

/-- Everyone but the platform declares no reserved kind. -/
def Authorised (p : Party) (kind : String) : Prop := kind ∈ reservedArtifactKinds → p = .platform

theorem evaluate_not_reserved {execution : AdapterExecution} {ds : List Declaration}
    {metrics : List Metric} (h : s.evaluate execution = .ok (ds, metrics)) :
    ∀ d ∈ ds, d.kind ∉ reservedArtifactKinds := by
  unfold evaluate at h
  split at h
  · obtain ⟨rfl, _⟩ := Prod.mk.inj (Except.ok.inj h)
    simp
  · split at h
    · obtain ⟨_, _, h⟩ := bind_eq_ok.mp h
      obtain ⟨rfl, _⟩ := Prod.mk.inj (Except.ok.inj h)
      simp
    · obtain ⟨verdict, _, h⟩ := bind_eq_ok.mp h
      obtain ⟨_, _, h⟩ := bind_eq_ok.mp h
      obtain ⟨_, _, h⟩ := bind_eq_ok.mp h
      obtain ⟨_, _, h⟩ := bind_eq_ok.mp h
      obtain ⟨artifacts, hartifacts, h⟩ := bind_eq_ok.mp h
      obtain ⟨rfl, _⟩ := Prod.mk.inj (Except.ok.inj h)
      exact validated_not_reserved hartifacts

theorem declared_authorised {d : Declared} (h : s.declared H = .ok d) :
    ∀ p ∈ d.declarations, Authorised p.1 p.2.kind := by
  obtain ⟨_, _, h⟩ := bind_eq_ok.mp h
  obtain ⟨receipt, _, h⟩ := bind_eq_ok.mp h
  obtain ⟨execution, hexecution, h⟩ := bind_eq_ok.mp h
  obtain ⟨_, _, h⟩ := bind_eq_ok.mp h
  obtain ⟨_, _, h⟩ := bind_eq_ok.mp h
  obtain ⟨_, _, h⟩ := bind_eq_ok.mp h
  obtain ⟨runtimeArtifacts, _, h⟩ := bind_eq_ok.mp h
  obtain ⟨⟨evaluatorArtifacts, evaluatorMetrics⟩, hevaluated, h⟩ := bind_eq_ok.mp h
  obtain rfl := Except.ok.inj h
  intro p hp
  rcases List.mem_append.mp hp with hp | hp
  · rcases List.mem_append.mp hp with hp | hp
    · obtain ⟨a, _, rfl⟩ := List.mem_map.mp hp
      exact fun _ ↦ rfl
    · obtain ⟨a, ha, rfl⟩ := List.mem_map.mp hp
      exact fun hkind ↦ absurd hkind (execute_not_reserved hexecution a ha)
  · obtain ⟨a, ha, rfl⟩ := List.mem_map.mp hp
    exact fun hkind ↦ absurd hkind (evaluate_not_reserved hevaluated a ha)

theorem failureEvidence_platform {existing : List ArtifactRow} {rows : List (Party × ArtifactRow)}
    (h : s.failureEvidence H existing = .ok rows) : ∀ p ∈ rows, Authorised p.1 p.2.kind := by
  rw [registerArtifacts_forall h Authorised, List.forall_mem_map]
  exact fun _ _ _ ↦ rfl

theorem fails_rows (rows : List (Party × ArtifactRow)) (metrics : List MetricRow) (e : Raised) :
    ∃ more, (s.fails H rows metrics e).rows = rows ++ more ∧
      ∀ p ∈ more, Authorised p.1 p.2.kind := by
  refine ⟨_, rfl, ?_⟩
  cases hevidence : s.failureEvidence H (s.existing ++ rows.map Prod.snd) with
  | error e => simp [Except.toOption]
  | ok more => exact failureEvidence_platform hevidence

/-- The rows of an attempt are those it registered and evidence of the platform. -/
theorem runAttempt_rows :
    ∃ more, (s.runAttempt H).rows = (((s.registered H).toOption.map Prod.snd).getD []) ++ more ∧
      ∀ p ∈ more, Authorised p.1 p.2.kind := by
  unfold runAttempt
  cases hregistered : s.registered H with
  | error e => exact fails_rows [] [] e
  | ok result =>
      obtain ⟨d, rows⟩ := result
      simp only [Except.toOption, Option.map_some, Option.getD_some]
      split
      · split
        · exact fails_rows rows [] _
        · split
          · exact fails_rows rows _ _
          · exact ⟨[], by simp⟩
      · split
        · exact fails_rows rows [] _
        · next evidence hevidence =>
            have hplatform := failureEvidence_platform hevidence
            split
            · next e _ =>
                obtain ⟨more, hmore, hall⟩ := fails_rows (s := s) (H := H) (rows ++ evidence) [] e
                refine ⟨evidence ++ more, by rw [hmore, List.append_assoc], ?_⟩
                exact List.forall_mem_append.mpr ⟨hplatform, hall⟩
            · exact ⟨evidence, rfl, hplatform⟩

/-- The attempt gets to register its artifacts, and a rule of a reserved kind collects
a file that no party declared and no rule before it found. -/
def CollectsReserved (H : Bytes → String) (s : Situation) : Prop :=
  ∃ d rows rules, s.registered H = .ok (d, rows) ∧ ruleObjects s.manifest.artifactRules = .ok rules ∧
    ∃ kind ∈ reservedArtifactKinds, ∃ path, Picks s.final s.str rules d.occupied kind path

/-- Every row of a reserved kind was declared by the platform exactly when no rule of
a reserved kind collects a file that was left to it. -/
theorem reserved_kinds_platform_iff (H : Bytes → String) (s : Situation) :
    (∀ p ∈ (s.runAttempt H).rows, p.2.kind ∈ reservedArtifactKinds → p.1 = .platform) ↔
      ¬s.CollectsReserved H := by
  obtain ⟨more, hrows, hmore⟩ := runAttempt_rows (s := s) (H := H)
  rw [hrows, List.forall_mem_append]
  cases hregistered : s.registered H with
  | error e =>
      refine iff_of_true ⟨by simp [Except.toOption], hmore⟩ ?_
      rintro ⟨d, rows, rules, hok, _⟩
      rw [hregistered] at hok
      cases hok
  | ok result =>
      obtain ⟨d, rows⟩ := result
      obtain ⟨d', hd, h⟩ := bind_eq_ok.mp hregistered
      obtain ⟨collected, hcollected, h⟩ := bind_eq_ok.mp h
      obtain ⟨_, _, h⟩ := bind_eq_ok.mp h
      obtain ⟨rows', hregister, h⟩ := bind_eq_ok.mp h
      obtain ⟨rfl, rfl⟩ := Prod.mk.inj (Except.ok.inj h)
      obtain ⟨rules, hrules, hpicks⟩ := bind_eq_ok.mp hcollected
      have hall := registerArtifacts_forall hregister Authorised
      rw [List.forall_mem_append, List.forall_mem_map] at hall
      simp only [Except.toOption, Option.map_some, Option.getD_some]
      constructor
      · rintro ⟨hauthorised, _⟩ ⟨d, rows, rules', hok, hrules', kind, hkind, path, hpick⟩
        rw [hregistered] at hok
        obtain ⟨rfl, rfl⟩ := Prod.mk.inj (Except.ok.inj hok)
        obtain rfl := Except.ok.inj (hrules.symm.trans hrules')
        obtain ⟨a, ha, rfl, _⟩ := (mem_collectManifestArtifacts hpicks kind path).mpr hpick
        cases (hall.mp hauthorised).2 a ha hkind
      · intro hnone
        refine ⟨hall.mpr ⟨declared_authorised hd, fun a ha hkind ↦ ?_⟩, hmore⟩
        have hpick := (mem_collectManifestArtifacts hpicks a.kind a.storeKey).mp ⟨a, ha, rfl, rfl⟩
        exact absurd ⟨_, _, rules, hregistered, hrules, a.kind, hkind, a.storeKey, hpick⟩ hnone

/-- A workspace with plain files of one name each. -/
def sampleWorkspace (files : List String) : Workspace where
  resolve := some
  content path := if path ∈ files then some [] else none
  outside _ := false
  glob pattern := .ok ((files.filter (· = pattern)).map some)

/-- An attempt that succeeded without artifacts and left `forged.json`. -/
def sampleSituation (rules : List Json) (metrics : List Json) : Situation where
  manifest := { pluginId := "p", pluginVersion := "1", adapterEntry := ["run"],
                capabilities := ["c"], supportedArch := ["x86_64"], artifactRules := rules,
                progressMarker := "@@" }
  task := { taskId := "t", projectId := "p", designId := "d", pluginId := some "p" }
  attemptId := "att-1"
  inputManifestSha256 := ""
  receiptSha256 := ""
  outcome := { returncode := 0, startedAt := "s", endedAt := "e" }
  resultFile := .ok { status := .succeeded, exitCode := 0, startedAt := "s", endedAt := "e",
                      metrics := metrics }
  workspace := sampleWorkspace ["forged.json"]
  verdictFile := none
  final := sampleWorkspace ["forged.json"]
  newId n := "art-" ++ toString n
  str _ := ""
  trouble _ := none

/-- The digest of every byte string. -/
def sampleHash (_ : Bytes) : String := String.ofList (List.replicate 64 '0')

/-- A rule `{"kind": "runtime_protocol_receipt", "patterns": "forged.json"}` makes the
plugin's file a protocol receipt. -/
theorem plugin_file_registered_as_receipt :
    ¬∀ p ∈ ((sampleSituation [.obj [("kind", .str "runtime_protocol_receipt"),
        ("patterns", .str "forged.json")]] []).runAttempt sampleHash).rows,
      p.2.kind ∈ reservedArtifactKinds → p.1 = .platform := by
  decide +kernel

end Situation

/-! ## Citations -/

/-- What a metric cites, as it is written. -/
inductive Citation where
  | storeKey (key : Json)
  | artifactId (id : Json)
  | nothing

/-- A store key comes first; an id counts where there is none. -/
def citation (raw : Json) : Citation :=
  match pyDict raw with
  | .error _ => .nothing
  | .ok item =>
      match pyDict ((item.get? "context").getD .null) with
      | .error _ => .nothing
      | .ok context =>
          match (context.get? "source_artifact_store_key").getD .null,
              (item.get? "source_artifact_id").getD .null with
          | .null, .null => .nothing
          | .null, id => .artifactId id
          | key, _ => .storeKey key

/-- The citation is of one of the artifacts `(store key, id)`. -/
def Citation.Of (artifacts : List (String × String)) : Citation → Prop
  | .storeKey key => ∃ a ∈ artifacts, key = .str a.1
  | .artifactId id => ∃ a ∈ artifacts, id = .str a.2
  | .nothing => True

/-- A metric that both checks let pass. -/
def Accepted (byStoreKey : List (String × String)) (raw : Json) : Prop :=
  ∃ m, resolveMetric byStoreKey raw = .ok m ∧ m.validate = .ok ()

section Metrics

variable {byStoreKey : List (String × String)} {raw : Json} {m : Metric}

/-- A metric that was resolved cites a registered store key, or carries the id it was
given. -/
theorem resolveMetric_citation (h : resolveMetric byStoreKey raw = .ok m) :
    match citation raw with
    | .storeKey key => ∃ a ∈ byStoreKey, key = .str a.1 ∧ m.sourceArtifactId = .str a.2
    | .artifactId id => m.sourceArtifactId = id
    | .nothing => m.sourceArtifactId = .null := by
  obtain ⟨item, hitem, h⟩ := bind_eq_ok.mp h
  obtain ⟨context, hcontext, h⟩ := bind_eq_ok.mp h
  obtain ⟨id, hid, h⟩ := bind_eq_ok.mp h
  obtain ⟨_, _, h⟩ := bind_eq_ok.mp h
  have hsource : m.sourceArtifactId = id := by
    split at h
    · obtain rfl := Except.ok.inj h
      rfl
    · cases h
  simp only [citation, hitem, hcontext, hsource]
  unfold citedId at hid
  split at hid
  · next hnull =>
      obtain rfl := Except.ok.inj hid
      rw [hnull]
      cases (item.get? "source_artifact_id").getD .null <;> rfl
  · next key hkey =>
      rw [hkey]
      split at hid
      · next artifactId hfound =>
          obtain rfl := Except.ok.inj hid
          obtain ⟨a, ha, rfl⟩ := Option.map_eq_some_iff.mp hfound
          have hmem := List.mem_of_find?_eq_some ha
          have heq : a.1 = key := by simpa using List.find?_some ha
          exact ⟨a, List.mem_reverse.mp hmem, by rw [heq], rfl⟩
      · cases hid
  · cases hid

theorem contract_eq_ok {v : Validated} {u : Unit} : contract v = .ok u ↔ v = .ok () := by
  cases v <;> simp [contract]

theorem forM_contract_eq_ok {ms : List Metric} :
    (ms.forM fun m ↦ contract m.validate) = .ok () ↔ ∀ m ∈ ms, m.validate = .ok () := by
  rw [Except.forM_eq_ok]
  simp only [contract_eq_ok]

/-- The metrics are recorded together: each passed, and each row is that of one. -/
theorem registerMetrics_rows {attemptId : AttemptId} {raws : List Json} {rows : List MetricRow}
    (h : registerMetrics attemptId byStoreKey raws = .ok rows) :
    (∀ raw ∈ raws, Accepted byStoreKey raw ∧ rows ≠ []) ∧
      ∀ row ∈ rows, ∃ raw ∈ raws, ∃ m, resolveMetric byStoreKey raw = .ok m ∧
        row = metricRow attemptId m := by
  obtain ⟨ms, hms, h⟩ := bind_eq_ok.mp h
  obtain ⟨_, hvalid, h⟩ := bind_eq_ok.mp h
  obtain rfl := Except.ok.inj h
  obtain ⟨hforth, hback⟩ := mem_of_mapM hms
  have hvalid := forM_contract_eq_ok.mp hvalid
  constructor
  · intro raw hraw
    obtain ⟨m, hm, hresolve⟩ := hforth raw hraw
    refine ⟨⟨m, hresolve, hvalid m hm⟩, ?_⟩
    simpa using List.ne_nil_of_mem hm
  · intro row hrow
    obtain ⟨m, hm, rfl⟩ := List.mem_map.mp hrow
    obtain ⟨raw, hraw, hresolve⟩ := hback m hm
    exact ⟨raw, hraw, m, hresolve, rfl⟩

/-- Metrics that are not recorded hold one that does not pass. -/
theorem registerMetrics_error {attemptId : AttemptId} {raws : List Json} {e : Raised}
    (h : registerMetrics attemptId byStoreKey raws = .error e) :
    ∃ raw ∈ raws, ¬Accepted byStoreKey raw := by
  by_contra hnone
  have hall : ∀ raw ∈ raws, Accepted byStoreKey raw := by simpa using hnone
  obtain ⟨ms, hms⟩ := mapM_of_forall fun raw hraw ↦ (hall raw hraw).imp fun _ hm ↦ hm.1
  have hvalid : (ms.forM fun m ↦ contract m.validate) = .ok () := by
    rw [forM_contract_eq_ok]
    intro m hm
    obtain ⟨raw, hraw, hresolve⟩ := (mem_of_mapM hms).2 m hm
    obtain ⟨m', hresolve', hvalid'⟩ := hall raw hraw
    obtain rfl := Except.ok.inj (hresolve.symm.trans hresolve')
    exact hvalid'
  have hok : registerMetrics attemptId byStoreKey raws = .ok (ms.map (metricRow attemptId)) := by
    unfold registerMetrics
    rw [hms]
    change (ms.forM (fun m ↦ contract m.validate) >>= fun _ ↦ _) = _
    rw [hvalid]
    rfl
  rw [hok] at h
  cases h

end Metrics

namespace Situation

variable {H : Bytes → String} {s : Situation}

/-- The store keys and ids of the artifacts registered for the attempt. -/
def artifactsOf (s : Situation) (rows : List (Party × ArtifactRow)) : List (String × String) :=
  ((s.existing.filter fun r ↦ r.attemptId = s.attemptId) ++ rows.map Prod.snd).map fun r ↦
    (r.storeKey, r.artifactId)

/-- Every recorded metric that carries an id carries that of an artifact of its
attempt, and a metric that cites anything else fails the attempt, which then records
no metric. -/
def Traceable (H : Bytes → String) (s : Situation) : Prop :=
  (∀ m ∈ (s.runAttempt H).metrics, ∀ id, m.sourceArtifactId = some id →
    ∃ a ∈ s.artifactsOf (s.runAttempt H).rows, a.2 = id) ∧
  ∀ d rows, s.registered H = .ok (d, rows) → ∀ raw ∈ d.metrics,
    ¬(citation raw).Of (s.artifactsOf rows) →
      (s.runAttempt H).status ≠ .ok .succeeded ∧ (s.runAttempt H).metrics = []

/-- The attempt gets to record its metrics. -/
def Measures (H : Bytes → String) (s : Situation) (d : Declared)
    (rows : List (Party × ArtifactRow)) : Prop :=
  s.registered H = .ok (d, rows) ∧ d.execution.result.status = .succeeded ∧
    s.trouble .measuring = none

/-- The attempt records no metric and does not succeed, and if it got that far one was
refused; or it records what it was given. -/
theorem runAttempt_metrics (H : Bytes → String) (s : Situation) :
    ((s.runAttempt H).metrics = [] ∧ (s.runAttempt H).status ≠ .ok .succeeded ∧
      ∀ d rows, s.Measures H d rows → ∃ raw ∈ d.metrics, ¬Accepted (byStoreKey rows) raw) ∨
    ∃ d rows more, s.Measures H d rows ∧ (s.runAttempt H).rows = rows ++ more ∧
      registerMetrics s.attemptId (byStoreKey rows) d.metrics = .ok (s.runAttempt H).metrics := by
  cases hregistered : s.registered H with
  | error e =>
      refine .inl ?_
      simp [runAttempt, hregistered, fails, Measures]
  | ok result =>
      obtain ⟨d, rows⟩ := result
      by_cases hsucceeded : d.execution.result.status = .succeeded
      · cases htrouble : s.trouble .measuring with
        | some message =>
            refine .inl ?_
            simp [runAttempt, hregistered, hsucceeded, stumble, htrouble, bind, Except.bind, fails,
              Measures]
        | none =>
            cases hmetrics : registerMetrics s.attemptId (byStoreKey rows) d.metrics with
            | error e =>
                refine .inl ?_
                have hrefused := registerMetrics_error hmetrics
                simp only [runAttempt, hregistered, hsucceeded, stumble, htrouble, bind, Except.bind,
                  fails, hmetrics, if_true]
                refine ⟨trivial, by simp, ?_⟩
                rintro d' rows' ⟨hok, _⟩
                obtain ⟨rfl, rfl⟩ := Prod.mk.inj (Except.ok.inj (hregistered.symm.trans hok))
                exact hrefused
            | ok metrics =>
                refine .inr ?_
                have hmeasures : s.Measures H d rows := ⟨hregistered, hsucceeded, htrouble⟩
                cases hfinish : s.trouble .finishing with
                | some message =>
                    have hout : s.runAttempt H = s.fails H rows metrics (.other message) := by
                      simp [runAttempt, hregistered, hsucceeded, stumble, htrouble, bind,
                        Except.bind, hmetrics, hfinish]
                    obtain ⟨more, hmore, _⟩ :=
                      fails_rows (s := s) (H := H) rows metrics (.other message)
                    rw [hout]
                    exact ⟨d, rows, more, hmeasures, hmore, hmetrics⟩
                | none =>
                    refine ⟨d, rows, [], hmeasures, ?_⟩
                    simp [runAttempt, hregistered, hsucceeded, stumble, htrouble, bind, Except.bind,
                      hmetrics, hfinish]
      · refine .inl ?_
        have hnot : ∀ d' rows', ¬s.Measures H d' rows' := by
          rintro d' rows' ⟨hok, hstatus, _⟩
          obtain ⟨rfl, rfl⟩ := Prod.mk.inj (Except.ok.inj (hregistered.symm.trans hok))
          exact hsucceeded hstatus
        simp only [runAttempt, hregistered, hsucceeded, if_false]
        split
        · exact ⟨rfl, by simp [fails], fun d rows h ↦ absurd h (hnot d rows)⟩
        · split
          · exact ⟨rfl, by simp [fails], fun d rows h ↦ absurd h (hnot d rows)⟩
          · exact ⟨rfl, by simpa using hsucceeded, fun d rows h ↦ absurd h (hnot d rows)⟩

end Situation

end ChipEvolve.Attempt
