import ChipEvolve.Runtime.Evidence

/-!
# When declarations, artifacts and metrics are accepted

Each function that an attempt hands a list to, by what it asks of the items and of the
list: `validate_artifact_declarations`, `register_artifacts`,
`_collect_manifest_artifacts` and `_register_metrics`; and with it the metrics that are
traceable.
-/

namespace ChipEvolve.Attempt

open Builtins (text?)
open Except (bind_eq_ok mem_of_mapM)

/-! ## Files -/

namespace Workspace

variable (w : Workspace)

/-- A regular file by its own path. -/
def Holds (key : String) : Prop := w.resolve key = some key ∧ (w.content key).isSome = true

/-- Resolving twice is resolving once, the path of a file inside is relative to the
workspace, and what a pattern finds is a file. -/
structure Lawful : Prop where
  resolved : ∀ path key, w.resolve path = some key → (w.content key).isSome = true → w.Holds key
  relative : ∀ key, w.Holds key → key ≠ "" ∧ key.toList.head? ≠ some '/' ∧
    ['.', '.'] ∉ splitSlash key.toList
  found : ∀ pattern paths, w.glob pattern = .ok paths → ∀ key, some key ∈ paths → w.Holds key

/-- No file is taken away. -/
def Keeps (w' : Workspace) : Prop := ∀ key, w.Holds key → w'.Holds key

end Workspace

/-- The ids of the next rows are identifiers that no row has. -/
structure FreshIds (newId : Nat → String) (existing : List ArtifactRow) (count : Nat) : Prop where
  valid : ∀ n < count, isIdentifier (newId (existing.length + n)) = true
  distinct : ∀ m < count, ∀ n < count,
    newId (existing.length + m) = newId (existing.length + n) → m = n
  unused : ∀ n < count, ∀ r ∈ existing, r.artifactId ≠ newId (existing.length + n)

/-! ## What is asked of metrics and rules -/

/-- A citation by store key, if there is one, is of a known key. -/
def Cites (known : String → Prop) (key : Json) : Prop := key = .null ∨ ∃ k, key = .str k ∧ known k

/-- A metric as `_register_metrics` builds it, its parser taken from its context. -/
def measured (item context : JsonObject) (name value id : Json) : Metric :=
  { name := name, value := value, unit := (item.get? "unit").getD .null, sourceArtifactId := id
    parserId := (context.get? "parser_id").getD .null
    parserVersion := (context.get? "parser_version").getD .null
    context := context.filter fun m ↦ m.1 ∉ consumedKeys }

/-- A metric of an adapter that can be recorded: an object with the fields of a metric,
and as it is built it satisfies the contract. -/
def Recordable (known : String → Prop) (raw : Json) : Prop :=
  ∃ item context name value, pyDict raw = .ok item ∧
    pyDict ((item.get? "context").getD .null) = .ok context ∧
    (∀ m ∈ item, m.1 ∈ "source_artifact_store_key" :: metricFields) ∧
    item.get? "name" = some name ∧ item.get? "value" = some value ∧
    Cites known ((context.get? "source_artifact_store_key").getD .null) ∧
    Metric.validate (measured item context name value
      (if ((context.get? "source_artifact_store_key").getD .null).isNull then
        (item.get? "source_artifact_id").getD .null
      else .null)) = .ok ()

/-- A metric of an accepted verdict that can be recorded. -/
def Traces (known : String → Prop) (m : Metric) : Prop :=
  Cites known m.sourceKey ∧
    ∀ field ∈ ["parser_id", "parser_version"],
      validateIdentifierValue field ((m.context.get? field).getD .null) false = .ok ()

/-- A rule is the first to find a file that was not taken. -/
def Finds (w : Workspace) (str : Json → String) (rules : List JsonObject) (occupied : String → Prop)
    (rule : JsonObject) (path : String) : Prop :=
  ∃ before after, rules = before ++ rule :: after ∧ collects rule = true ∧
    path ∈ pathsOf w str rule ∧ ¬occupied path ∧
    ∀ r ∈ before, collects r = true → path ∉ pathsOf w str r

/-- The rules of a manifest can be carried out: none of them raises, and what is left to
a rule it collects as a kind. -/
structure Collectable (w : Workspace) (str : Json → String) (rules : List JsonObject)
    (occupied : String → Prop) : Prop where
  carried : ∀ rule ∈ rules, collects rule = true → ∃ paths, matched w str rule = .ok paths
  kinds : ∀ rule path, Finds w str rules occupied rule path →
    ∃ kind, rule.get? "kind" = some kind ∧ isIdentifier (textOf str kind) = true

/-! ## Declaring -/

section Declaring

variable {w : Workspace} {allowed : List Json} {allowReserved : Bool} {seenKeys : List String}
  {item : ResultArtifact} {items : List ResultArtifact} {d : Declaration} {ds : List Declaration}

/-- A declaration that passes, but for those before it. -/
structure Declarable (w : Workspace) (allowed : List Json) (allowReserved : Bool)
    (item : ResultArtifact) (d : Declaration) : Prop where
  metadata : metadataOf item.metadata = .ok (some d.metadata)
  valid : ArtifactDeclaration.validate
    { kind := item.kind, path := item.path, metadata := d.metadata
      allowReserved := allowReserved } = .ok ()
  granted : ¬(!allowed.isEmpty && !(allowed.any fun k ↦ text? k = some item.kind) &&
    !allowReserved) = true
  leads : w.resolve item.path = some d.storeKey
  there : w.content d.storeKey ≠ none
  kind : d.kind = item.kind

theorem validateDeclaration_eq_ok {kind path : String} {metadata : Option JsonObject} :
    validateDeclaration kind path metadata allowReserved = .ok () ↔
      ∃ members, metadata = some members ∧ ArtifactDeclaration.validate
        { kind := kind, path := path, metadata := members, allowReserved := allowReserved } =
          .ok () := by
  cases metadata <;> simp [validateDeclaration, Validated.bind_eq_ok, refuseIf_eq_ok]

theorem declare_eq_ok : declare w allowed allowReserved seenKeys item = .ok d ↔
    Declarable w allowed allowReserved item d ∧ d.storeKey ∉ seenKeys := by
  constructor
  · intro h
    obtain ⟨metadata, hmetadata, h⟩ := bind_eq_ok.mp h
    obtain ⟨_, hchecked, h⟩ := bind_eq_ok.mp h
    obtain ⟨_, hgranted, h⟩ := bind_eq_ok.mp h
    obtain ⟨members, rfl, hvalid⟩ := validateDeclaration_eq_ok.mp (translated_eq_ok.mp hchecked)
    split at h
    · cases h
    · next key hkey =>
        obtain ⟨_, hthere, h⟩ := bind_eq_ok.mp h
        obtain ⟨_, hfresh, h⟩ := bind_eq_ok.mp h
        obtain rfl := Except.ok.inj h
        exact ⟨⟨hmetadata, hvalid, raiseWhen_eq_ok.mp hgranted, hkey,
          raiseWhen_eq_ok.mp hthere, rfl⟩, raiseWhen_eq_ok.mp hfresh⟩
  · rintro ⟨⟨hmetadata, hvalid, hgranted, hleads, hthere, hkind⟩, hfresh⟩
    refine bind_eq_ok.mpr ⟨_, hmetadata, bind_eq_ok.mpr ⟨(), translated_eq_ok.mpr ?_, ?_⟩⟩
    · exact validateDeclaration_eq_ok.mpr ⟨_, rfl, hvalid⟩
    refine bind_eq_ok.mpr ⟨(), raiseWhen_eq_ok.mpr hgranted, ?_⟩
    simp only [hleads]
    refine bind_eq_ok.mpr ⟨(), raiseWhen_eq_ok.mpr hthere, ?_⟩
    refine bind_eq_ok.mpr ⟨(), raiseWhen_eq_ok.mpr hfresh, ?_⟩
    rw [← hkind]
    rfl

/-- The files are different from each other and from those that were seen. -/
theorem declareAll_eq_ok : declareAll w allowed allowReserved seenKeys items = .ok ds ↔
    List.Forall₂ (Declarable w allowed allowReserved) items ds ∧
      (ds.map Declaration.storeKey).Nodup ∧ ∀ d ∈ ds, d.storeKey ∉ seenKeys := by
  induction items generalizing seenKeys ds with
  | nil =>
      constructor
      · intro h
        obtain rfl := Except.ok.inj h
        exact ⟨.nil, .nil, by simp⟩
      · rintro ⟨h, _⟩
        cases h
        rfl
  | cons item items ih =>
      constructor
      · intro h
        obtain ⟨d, hd, h⟩ := bind_eq_ok.mp h
        obtain ⟨rest, hrest, h⟩ := bind_eq_ok.mp h
        obtain rfl := Except.ok.inj h
        obtain ⟨hdeclarable, hfresh⟩ := declare_eq_ok.mp hd
        obtain ⟨hall, hnodup, hseen⟩ := ih.mp hrest
        simp only [List.mem_cons, not_or] at hseen
        refine ⟨.cons hdeclarable hall, ?_, ?_⟩
        · rw [List.map_cons, List.nodup_cons]
          refine ⟨fun hmem ↦ ?_, hnodup⟩
          obtain ⟨d', hd', heq⟩ := List.mem_map.mp hmem
          exact (hseen d' hd').1 heq
        · rw [List.forall_mem_cons]
          exact ⟨hfresh, fun d' hd' ↦ (hseen d' hd').2⟩
      · rintro ⟨hall, hnodup, hseen⟩
        cases hall with
        | cons hdeclarable hall =>
            rw [List.map_cons, List.nodup_cons] at hnodup
            rw [List.forall_mem_cons] at hseen
            refine bind_eq_ok.mpr ⟨_, declare_eq_ok.mpr ⟨hdeclarable, hseen.1⟩, ?_⟩
            refine bind_eq_ok.mpr ⟨_, ih.mpr ⟨hall, hnodup.2, fun d' hd' ↦ ?_⟩, rfl⟩
            rw [List.mem_cons, not_or]
            refine ⟨fun heq ↦ hnodup.1 ?_, hseen.2 d' hd'⟩
            exact List.mem_map.mpr ⟨d', hd', heq⟩

/-- What was accepted was declared under the kinds of the manifest. -/
theorem validated_eq_ok {manifest : PluginManifest} {expected : List String}
    {requireExpected : Bool}
    (h : validateArtifactDeclarations w manifest items expected requireExpected allowReserved =
      .ok ds) :
    ∃ rules allowed, ruleObjects manifest.artifactRules = .ok rules ∧
      allowedKinds rules = .ok allowed ∧ declareAll w allowed allowReserved [] items = .ok ds := by
  obtain ⟨rules, hrules, h⟩ := bind_eq_ok.mp h
  obtain ⟨allowed, hallowed, h⟩ := bind_eq_ok.mp h
  obtain ⟨normalized, hall, h⟩ := bind_eq_ok.mp h
  refine ⟨rules, allowed, hrules, hallowed, ?_⟩
  rw [hall]
  split at h
  · obtain ⟨_, _, h⟩ := bind_eq_ok.mp h
    exact h
  · exact h

theorem isIdentifier_of_valid {name s : String} {required : Bool}
    (h : validateIdentifier name (some s) required = .ok ()) : isIdentifier s = true := by
  by_contra hnot
  simp [validateIdentifier, hnot] at h

theorem isIdentifier_of_declarable (h : Declarable w allowed allowReserved item d) :
    isIdentifier d.kind = true := by
  rw [h.kind]
  exact isIdentifier_of_valid (Validated.of_bind h.valid).1

/-- An accepted group: its files are different, and its kinds are identifiers. -/
theorem validated_group {manifest : PluginManifest} {expected : List String}
    {requireExpected : Bool} (hlawful : w.Lawful)
    (h : validateArtifactDeclarations w manifest items expected requireExpected allowReserved =
      .ok ds) :
    (ds.map Declaration.storeKey).Nodup ∧
      ∀ d ∈ ds, w.Holds d.storeKey ∧ isIdentifier d.kind = true := by
  obtain ⟨rules, allowed, _, _, hall⟩ := validated_eq_ok h
  obtain ⟨hdeclarable, hnodup, _⟩ := declareAll_eq_ok.mp hall
  refine ⟨hnodup, fun d hd ↦ ?_⟩
  obtain ⟨item, _, hitem⟩ := (Pointwise.mem hdeclarable).2 d hd
  have hthere := Option.isSome_iff_ne_none.mpr hitem.there
  exact ⟨hlawful.resolved item.path d.storeKey hitem.leads hthere, isIdentifier_of_declarable hitem⟩

end Declaring

/-! ## Registering -/

section Registering

variable {H : Bytes → String} {newId : Nat → String} {artifactId : String} {attemptId : AttemptId}
  {w : Workspace} {existing : List ArtifactRow} {d : Declaration} {ds : List (Party × Declaration)}
  {row : ArtifactRow} {rows : List (Party × ArtifactRow)}

theorem registerOne_identity (h : registerOne H artifactId attemptId w existing d = .ok row) :
    row.artifactId = artifactId ∧ row.attemptId = attemptId ∧ row.storeKey = d.storeKey ∧
      isIdentifier artifactId = true := by
  unfold registerOne at h
  split at h
  · cases h
  · split at h
    · cases h
    · obtain ⟨_, hvalid, h⟩ := bind_eq_ok.mp h
      obtain ⟨_, _, h⟩ := bind_eq_ok.mp h
      obtain rfl := Except.ok.inj h
      exact ⟨rfl, rfl, rfl,
        isIdentifier_of_valid (Validated.of_bind (contract_eq_ok.mp hvalid)).1⟩

/-- A file of the workspace is registered exactly when its kind is an identifier and no
row has its key. -/
theorem registerOne_ok_iff (hlawful : w.Lawful) (hhash : ∀ bytes, isSha256 (H bytes) = true)
    (hid : isIdentifier artifactId = true) (hunused : ∀ r ∈ existing, r.artifactId ≠ artifactId)
    (hholds : w.Holds d.storeKey) :
    (∃ row, registerOne H artifactId attemptId w existing d = .ok row) ↔
      isIdentifier d.kind = true ∧
        ∀ r ∈ existing, r.attemptId = attemptId → r.storeKey ≠ d.storeKey := by
  obtain ⟨bytes, hbytes⟩ := Option.isSome_iff_exists.mp hholds.2
  obtain ⟨hempty, hhead, hdots⟩ := hlawful.relative _ hholds
  have hcontract : (Artifact.validate
      { artifactId := artifactId, kind := d.kind, storeKey := d.storeKey, sha256 := H bytes,
        sizeBytes := bytes.length, metadata := d.metadata }) = .ok () ↔
        isIdentifier d.kind = true := by
    by_cases hkind : isIdentifier d.kind = true
    · simp [Artifact.validate, validateIdentifier, validateRelativePath, validateSha256, refuseIf,
        hid, hkind, hempty, hhead, hdots, hhash, bind, Except.bind]
    · simp [Artifact.validate, validateIdentifier, hid, hkind, bind, Except.bind]
  have hclash : (existing.any (ArtifactRow.clashes
      { artifactId := artifactId, attemptId := attemptId, kind := d.kind, storeKey := d.storeKey,
        sizeBytes := bytes.length, sha256 := H bytes, metadata := d.metadata,
        storage := .object })) = false ↔
        ∀ r ∈ existing, r.attemptId = attemptId → r.storeKey ≠ d.storeKey := by
    rw [List.any_eq_false]
    refine forall₂_congr fun r hr ↦ ?_
    have hother := Ne.symm (hunused r hr)
    simp only [ArtifactRow.clashes, hother, decide_false, Bool.false_or, Bool.and_eq_true,
      decide_eq_true_eq, not_and]
    exact ⟨fun h heq hkey ↦ h heq.symm hkey.symm, fun h heq hkey ↦ h heq.symm hkey.symm⟩
  rw [← hcontract, ← hclash]
  unfold registerOne
  simp only [hholds.1, hbytes]
  constructor
  · rintro ⟨row, h⟩
    obtain ⟨_, hvalid, h⟩ := bind_eq_ok.mp h
    obtain ⟨_, hfree, h⟩ := bind_eq_ok.mp h
    exact ⟨contract_eq_ok.mp hvalid, by simpa using raiseWhen_eq_ok.mp hfree⟩
  · rintro ⟨hvalid, hfree⟩
    have hunclashed := Bool.eq_false_iff.mp hfree
    exact ⟨_, bind_eq_ok.mpr ⟨(), contract_eq_ok.mpr hvalid,
      bind_eq_ok.mpr ⟨(), raiseWhen_eq_ok.mpr hunclashed, rfl⟩⟩⟩

theorem FreshIds.head {count : Nat} (h : FreshIds newId existing (count + 1)) :
    isIdentifier (newId existing.length) = true ∧
      ∀ r ∈ existing, r.artifactId ≠ newId existing.length :=
  ⟨h.valid 0 (by omega), h.unused 0 (by omega)⟩

theorem FreshIds.tail {count : Nat} (h : FreshIds newId existing (count + 1))
    (hrow : row.artifactId = newId existing.length) : FreshIds newId (existing ++ [row]) count := by
  have hnext : ∀ n, (existing ++ [row]).length + n = existing.length + (n + 1) := by
    intro n
    rw [List.length_append, List.length_singleton]
    omega
  refine ⟨fun n hn ↦ ?_, fun m hm n hn heq ↦ ?_, fun n hn r hr ↦ ?_⟩
  · rw [hnext]
    exact h.valid (n + 1) (by omega)
  · rw [hnext, hnext] at heq
    have := h.distinct (m + 1) (by omega) (n + 1) (by omega) heq
    omega
  · rw [hnext]
    rcases List.mem_append.mp hr with hr | hr
    · exact h.unused (n + 1) (by omega) r hr
    · rw [List.mem_singleton.mp hr, hrow]
      intro heq
      have := h.distinct 0 (by omega) (n + 1) (by omega) heq
      omega

/-- A list of files is registered exactly when their keys are different, from each other
and from those of the rows of the attempt, and their kinds are identifiers. -/
theorem registerArtifacts_ok_iff (hlawful : w.Lawful)
    (hhash : ∀ bytes, isSha256 (H bytes) = true) (hfresh : FreshIds newId existing ds.length)
    (hholds : ∀ p ∈ ds, w.Holds p.2.storeKey) :
    (∃ rows, registerArtifacts H newId attemptId w existing ds = .ok rows) ↔
      (ds.map fun p ↦ p.2.storeKey).Nodup ∧ (∀ p ∈ ds, isIdentifier p.2.kind = true) ∧
        ∀ p ∈ ds, ∀ r ∈ existing, r.attemptId = attemptId → r.storeKey ≠ p.2.storeKey := by
  induction ds generalizing existing with
  | nil => simp [registerArtifacts]
  | cons p ds ih =>
      rw [List.forall_mem_cons] at hholds
      obtain ⟨hid, hunused⟩ := hfresh.head
      have hone : (∃ row, registerOne H (newId existing.length) attemptId w existing p.2 =
            .ok row) ↔
          isIdentifier p.2.kind = true ∧
            ∀ r ∈ existing, r.attemptId = attemptId → r.storeKey ≠ p.2.storeKey :=
        registerOne_ok_iff hlawful hhash hid hunused hholds.1
      rw [List.map_cons, List.nodup_cons, List.forall_mem_cons, List.forall_mem_cons]
      constructor
      · rintro ⟨rows, h⟩
        obtain ⟨row, hrow, h⟩ := bind_eq_ok.mp h
        obtain ⟨rest, hrest, _⟩ := bind_eq_ok.mp h
        obtain ⟨hkind, hfree⟩ := hone.mp ⟨row, hrow⟩
        obtain ⟨hartifact, hattempt, hkey, _⟩ := registerOne_identity hrow
        obtain ⟨hnodup, hkinds, hothers⟩ := (ih (hfresh.tail hartifact) hholds.2).mp ⟨rest, hrest⟩
        refine ⟨⟨fun hmem ↦ ?_, hnodup⟩, ⟨hkind, hkinds⟩, hfree, fun q hq r hr ↦ ?_⟩
        · obtain ⟨q, hq, heq⟩ := List.mem_map.mp hmem
          refine hothers q hq row (by simp) hattempt ?_
          rw [hkey]
          exact heq.symm
        · exact hothers q hq r (List.mem_append_left _ hr)
      · rintro ⟨⟨hhead, hnodup⟩, ⟨hkind, hkinds⟩, hfree, hothers⟩
        obtain ⟨row, hrow⟩ := hone.mpr ⟨hkind, hfree⟩
        obtain ⟨hartifact, _, hkey, _⟩ := registerOne_identity hrow
        have hlater : ∀ q ∈ ds, ∀ r ∈ existing ++ [row], r.attemptId = attemptId →
            r.storeKey ≠ q.2.storeKey := by
          intro q hq r hr hattempt
          rcases List.mem_append.mp hr with hr | hr
          · exact hothers q hq r hr hattempt
          · rw [List.mem_singleton.mp hr, hkey]
            exact fun heq ↦ hhead (List.mem_map.mpr ⟨q, hq, heq.symm⟩)
        obtain ⟨rest, hrest⟩ := (ih (hfresh.tail hartifact) hholds.2).mpr ⟨hnodup, hkinds, hlater⟩
        exact ⟨_, bind_eq_ok.mpr ⟨row, hrow, bind_eq_ok.mpr ⟨rest, hrest, rfl⟩⟩⟩

/-- A row for each declaration, with its key and an identifier. -/
theorem registerArtifacts_keys
    (h : registerArtifacts H newId attemptId w existing ds = .ok rows) :
    (rows.map fun p ↦ p.2.storeKey) = (ds.map fun p ↦ p.2.storeKey) ∧
      ∀ p ∈ rows, isIdentifier p.2.artifactId = true := by
  induction ds generalizing existing rows with
  | nil =>
      obtain rfl := Except.ok.inj h
      exact ⟨rfl, by simp⟩
  | cons p ds ih =>
      obtain ⟨row, hrow, h⟩ := bind_eq_ok.mp h
      obtain ⟨rest, hrest, h⟩ := bind_eq_ok.mp h
      obtain rfl := Except.ok.inj h
      obtain ⟨hartifact, _, hkey, hvalid⟩ := registerOne_identity hrow
      obtain ⟨hkeys, hids⟩ := ih hrest
      rw [List.map_cons, List.map_cons, hkeys, hkey, List.forall_mem_cons]
      exact ⟨rfl, by rw [hartifact]; exact hvalid, hids⟩

end Registering

/-! ## Collecting -/

section Collecting

variable {w : Workspace} {str : Json → String} {rule : JsonObject} {rules : List JsonObject}
  {occupied : List String} {paths : List String} {ds : List Declaration}

theorem eq_map_some_of_mapM {α : Type} {xs : List (Option α)} {ys : List α}
    (h : xs.mapM id = some ys) : xs = ys.map some := by
  induction xs generalizing ys with
  | nil =>
      obtain rfl := Option.some.inj h
      rfl
  | cons x xs ih =>
      rw [List.mapM_cons] at h
      obtain ⟨y, hy, h⟩ := Option.bind_eq_some_iff.mp h
      obtain ⟨rest, hrest, h⟩ := Option.bind_eq_some_iff.mp h
      obtain rfl := Option.some.inj h
      rw [List.map_cons, ← ih hrest]
      exact congrArg (· :: xs) hy

/-- What a rule finds are different files of the workspace. -/
theorem matched_paths (hlawful : w.Lawful) (h : matched w str rule = .ok paths) :
    paths.Nodup ∧ ∀ path ∈ paths, w.Holds path := by
  obtain ⟨patterns, _, h⟩ := bind_eq_ok.mp h
  obtain ⟨found, hfound, h⟩ := bind_eq_ok.mp h
  obtain ⟨_, _, h⟩ := bind_eq_ok.mp h
  split at h
  · next inside hinside =>
      obtain rfl := Except.ok.inj h
      refine ⟨(List.perm_insertionSort _ _).nodup_iff.mpr (List.nodup_dedup _), fun path hpath ↦ ?_⟩
      have hmem : path ∈ inside := by simpa using hpath
      have hsome : some path ∈ found.flatten := by
        rw [eq_map_some_of_mapM hinside]
        exact List.mem_map_of_mem hmem
      obtain ⟨group, hgroup, hpath⟩ := List.mem_flatten.mp hsome
      obtain ⟨pattern, _, hglob⟩ := (mem_of_mapM hfound).2 group hgroup
      exact hlawful.found _ group hglob path hpath
  · cases h

theorem mem_pathsOf {path : String} (h : path ∈ pathsOf w str rule) :
    ∃ paths, matched w str rule = .ok paths ∧ path ∈ paths := by
  unfold pathsOf at h
  cases hmatched : matched w str rule with
  | error e => simp [hmatched, Except.toOption] at h
  | ok paths =>
      rw [hmatched] at h
      exact ⟨paths, rfl, h⟩

/-- A rule raises if it cannot look for files, or if it has no kind for one it finds. -/
theorem collectRule_ok_iff : (∃ ds, collectRule w str rule occupied = .ok ds) ↔
    (collects rule = true → (∃ paths, matched w str rule = .ok paths) ∧
      ∀ path ∈ pathsOf w str rule, path ∉ occupied → ∃ kind, rule.get? "kind" = some kind) := by
  unfold collectRule
  split
  · next hcollects =>
      simp only [hcollects, true_implies]
      cases hmatched : matched w str rule with
      | error e => simp [bind, Except.bind]
      | ok paths =>
          have hpaths : pathsOf w str rule = paths := by simp [pathsOf, hmatched, Except.toOption]
          rw [hpaths]
          cases hkind : rule.get? "kind" with
          | some kind => simp [bind, Except.bind, pure, Except.pure]
          | none =>
              by_cases hall : ∀ path ∈ paths, path ∈ occupied
              · have hnothing : ¬(paths.filter fun path ↦ path ∉ occupied) ≠ [] := by
                  simpa [List.filter_eq_nil_iff] using hall
                refine iff_of_true ⟨[], bind_eq_ok.mpr ⟨paths, rfl, ?_⟩⟩
                  ⟨⟨paths, rfl⟩, fun path hpath hfree ↦ absurd (hall path hpath) hfree⟩
                exact bind_eq_ok.mpr ⟨(), raiseWhen_eq_ok.mpr hnothing, rfl⟩
              · have hsome : (paths.filter fun path ↦ path ∉ occupied) ≠ [] := by
                  simpa [List.filter_eq_nil_iff] using hall
                refine iff_of_false ?_ fun h ↦ hall fun path hp ↦ ?_
                · rintro ⟨ds, h⟩
                  obtain ⟨_, hpaths, h⟩ := bind_eq_ok.mp h
                  obtain rfl := Except.ok.inj hpaths
                  obtain ⟨_, hnothing, _⟩ := bind_eq_ok.mp h
                  exact raiseWhen_eq_ok.mp hnothing hsome
                · by_contra hfree
                  obtain ⟨kind, hkind⟩ := h.2 path hp hfree
                  cases hkind
  · next hidle => exact iff_of_true ⟨[], rfl⟩ fun hcollects ↦ absurd hcollects hidle

/-- The keys that one rule adds are different and were not taken. -/
theorem collectRule_keys (hlawful : w.Lawful) (h : collectRule w str rule occupied = .ok ds) :
    (ds.map Declaration.storeKey).Nodup ∧
      ∀ d ∈ ds, d.storeKey ∉ occupied ∧ w.Holds d.storeKey := by
  have hmem := fun d (hd : d ∈ ds) ↦
    (mem_collectRule h d.kind d.storeKey).1.mp ⟨d, hd, rfl, rfl⟩
  refine ⟨?_, fun d hd ↦ ⟨(hmem d hd).2.2.2, ?_⟩⟩
  · unfold collectRule at h
    split at h
    · obtain ⟨paths, hpaths, h⟩ := bind_eq_ok.mp h
      have hnodup := (matched_paths hlawful hpaths).1.filter fun path ↦ decide (path ∉ occupied)
      simp only at h
      split at h
      · obtain rfl := Except.ok.inj h
        simpa [List.map_map, Function.comp_def] using hnodup
      · obtain ⟨_, _, h⟩ := bind_eq_ok.mp h
        obtain rfl := Except.ok.inj h
        exact .nil
    · obtain rfl := Except.ok.inj h
      exact .nil
  · obtain ⟨paths, hpaths, hpath⟩ := mem_pathsOf (hmem d hd).2.2.1
    exact (matched_paths hlawful hpaths).2 _ hpath

theorem finds_cons {taken : String → Prop} {first : JsonObject} {path : String} :
    Finds w str (first :: rules) taken rule path ↔
      (rule = first ∧ collects first = true ∧ path ∈ pathsOf w str first ∧ ¬taken path) ∨
        Finds w str rules
          (fun p ↦ taken p ∨ (collects first = true ∧ p ∈ pathsOf w str first)) rule path := by
  constructor
  · rintro ⟨before, after, heq, hcollects, hpath, hfree, hbefore⟩
    cases before with
    | nil =>
        obtain ⟨rfl, rfl⟩ := List.cons.inj heq
        exact .inl ⟨rfl, hcollects, hpath, hfree⟩
    | cons r before =>
        obtain ⟨rfl, rfl⟩ := List.cons.inj heq
        rw [List.forall_mem_cons] at hbefore
        refine .inr ⟨before, after, rfl, hcollects, hpath, ?_, hbefore.2⟩
        rintro (htaken | ⟨hc, hp⟩)
        · exact hfree htaken
        · exact hbefore.1 hc hp
  · rintro (⟨rfl, hcollects, hpath, hfree⟩ | ⟨before, after, rfl, hcollects, hpath, hfree, hbefore⟩)
    · exact ⟨[], rules, rfl, hcollects, hpath, hfree, by simp⟩
    · rw [not_or] at hfree
      refine ⟨first :: before, after, rfl, hcollects, hpath, hfree.1, ?_⟩
      rw [List.forall_mem_cons]
      exact ⟨fun hc hp ↦ hfree.2 ⟨hc, hp⟩, hbefore⟩

/-- The rules are carried out exactly when none of them raises. -/
theorem collectManifestArtifacts_ok_iff :
    (∃ ds, collectManifestArtifacts w str rules occupied = .ok ds) ↔
      (∀ rule ∈ rules, collects rule = true → ∃ paths, matched w str rule = .ok paths) ∧
        ∀ rule path, Finds w str rules (· ∈ occupied) rule path →
          ∃ kind, rule.get? "kind" = some kind := by
  induction rules generalizing occupied with
  | nil => simp [collectManifestArtifacts, Finds]
  | cons first rules ih =>
      have htaken : ∀ {declared}, collectRule w str first occupied = .ok declared →
          (fun path ↦ path ∈ occupied ++ declared.map Declaration.storeKey) =
            fun path ↦ path ∈ occupied ∨ (collects first = true ∧ path ∈ pathsOf w str first) :=
        fun hdeclared ↦ funext fun path ↦ propext (mem_collectRule hdeclared "" path).2
      rw [List.forall_mem_cons]
      constructor
      · rintro ⟨ds, h⟩
        obtain ⟨declared, hdeclared, h⟩ := bind_eq_ok.mp h
        obtain ⟨rest, hrest, _⟩ := bind_eq_ok.mp h
        have hfirst := collectRule_ok_iff.mp ⟨declared, hdeclared⟩
        have hlater := ih.mp ⟨rest, hrest⟩
        rw [htaken hdeclared] at hlater
        refine ⟨⟨fun hcollects ↦ (hfirst hcollects).1, hlater.1⟩, fun rule path hfinds ↦ ?_⟩
        rcases finds_cons.mp hfinds with ⟨rfl, hcollects, hpath, hfree⟩ | hfinds
        · exact (hfirst hcollects).2 path hpath hfree
        · exact hlater.2 rule path hfinds
      · rintro ⟨⟨hmatched, hothers⟩, hkinds⟩
        obtain ⟨declared, hdeclared⟩ :
            ∃ declared, collectRule w str first occupied = .ok declared :=
          collectRule_ok_iff.mpr fun hcollects ↦ ⟨hmatched hcollects, fun path hpath hfree ↦
            hkinds first path (finds_cons.mpr (.inl ⟨rfl, hcollects, hpath, hfree⟩))⟩
        have hlater := @ih (occupied ++ declared.map Declaration.storeKey)
        rw [htaken hdeclared] at hlater
        obtain ⟨rest, hrest⟩ := hlater.mpr
          ⟨hothers, fun rule path hfinds ↦ hkinds rule path (finds_cons.mpr (.inr hfinds))⟩
        exact ⟨_, bind_eq_ok.mpr ⟨declared, hdeclared, bind_eq_ok.mpr ⟨rest, hrest, rfl⟩⟩⟩

/-- The keys that the rules add are different and were not taken; with those that were,
they are all that the rules find. -/
theorem collectManifestArtifacts_keys (hlawful : w.Lawful)
    (h : collectManifestArtifacts w str rules occupied = .ok ds) :
    (ds.map Declaration.storeKey).Nodup ∧
      (∀ d ∈ ds, d.storeKey ∉ occupied ∧ w.Holds d.storeKey) ∧
      ∀ path, path ∈ occupied ++ ds.map Declaration.storeKey ↔
        path ∈ occupied ∨ ∃ rule ∈ rules, collects rule = true ∧ path ∈ pathsOf w str rule := by
  induction rules generalizing occupied ds with
  | nil =>
      obtain rfl := Except.ok.inj h
      simp
  | cons first rules ih =>
      obtain ⟨declared, hdeclared, h⟩ := bind_eq_ok.mp h
      obtain ⟨rest, hrest, h⟩ := bind_eq_ok.mp h
      obtain rfl := Except.ok.inj h
      obtain ⟨hnodup, hown⟩ := collectRule_keys hlawful hdeclared
      obtain ⟨hnodup', hothers, hall⟩ := ih hrest
      refine ⟨?_, fun d hd ↦ ?_, fun path ↦ ?_⟩
      · rw [List.map_append]
        refine hnodup.append hnodup' fun key hkey hkey' ↦ ?_
        obtain ⟨d, hd, rfl⟩ := List.mem_map.mp hkey'
        exact (hothers d hd).1 (List.mem_append_right _ hkey)
      · rcases List.mem_append.mp hd with hd | hd
        · exact hown d hd
        · exact ⟨fun hmem ↦ (hothers d hd).1 (List.mem_append_left _ hmem), (hothers d hd).2⟩
      · rw [List.map_append, ← List.append_assoc, hall, (mem_collectRule hdeclared "" path).2,
          List.exists_mem_cons_iff, or_assoc]

end Collecting

/-! ## Measuring -/

section Measuring

variable {byStoreKey : List (String × String)} {item context : JsonObject} {id raw : Json}
  {m : Metric} {known : String → Prop}

theorem metric_validate_eq_ok : m.validate = .ok () ↔
    validateIdentifierValue "name" m.name = .ok () ∧ Metric.isScalar m.value = true ∧
      ifGiven (validateIdentifierValue "unit") (if m.unit.isNull then none else some m.unit) =
        .ok () ∧
      validateIdentifierValue "source_artifact_id" m.sourceArtifactId false = .ok () ∧
      validateIdentifierValue "parser_id" m.parserId false = .ok () ∧
      validateIdentifierValue "parser_version" m.parserVersion false = .ok () ∧
      ∀ member ∈ m.context, member.1 ∉ reservedMetricContextKeys := by
  have hleaked : (reservedMetricContextKeys.filter fun key ↦
      m.context.any fun member ↦ member.1 = key) = [] ↔
        ∀ member ∈ m.context, member.1 ∉ reservedMetricContextKeys := by
    simp only [List.filter_eq_nil_iff, List.any_eq_true, decide_eq_true_eq, not_exists, not_and]
    exact ⟨fun h member hmember hkey ↦ h member.1 hkey member hmember rfl,
      fun h key hkey member hmember heq ↦ h member hmember (heq ▸ hkey)⟩
  unfold Metric.validate
  simp only [Validated.bind_eq_ok, refuseIf_eq_ok, not_not, hleaked]

theorem fields_known_iff {names : List String} :
    ¬(item.any fun m ↦ m.1 ∉ names) = true ↔ ∀ m ∈ item, m.1 ∈ names := by
  simp only [List.any_eq_true, decide_eq_true_eq, not_exists, not_and, not_not]

theorem citedId_eq_ok (h : citedId byStoreKey item context = .ok id) :
    (((context.get? "source_artifact_store_key").getD .null) = .null ∧
        id = (item.get? "source_artifact_id").getD .null) ∨
      ∃ a ∈ byStoreKey, ((context.get? "source_artifact_store_key").getD .null) = .str a.1 ∧
        id = .str a.2 := by
  unfold citedId at h
  split at h
  · next hnull => exact .inl ⟨hnull, (Except.ok.inj h).symm⟩
  · next key hkey =>
      split at h
      · next artifactId hfound =>
          obtain rfl := Except.ok.inj h
          obtain ⟨a, ha, rfl⟩ := Option.map_eq_some_iff.mp hfound
          have heq : a.1 = key := by simpa using List.find?_some ha
          refine .inr ⟨a, List.mem_reverse.mp (List.mem_of_find?_eq_some ha), ?_, rfl⟩
          rw [hkey, heq]
      · cases h
  · cases h

theorem citedId_of_cites
    (h : Cites (· ∈ byStoreKey.map Prod.fst)
      ((context.get? "source_artifact_store_key").getD .null)) :
    ∃ id, citedId byStoreKey item context = .ok id := by
  unfold citedId
  rcases h with hnull | ⟨key, hkey, hmem⟩
  · rw [hnull]
    exact ⟨_, rfl⟩
  · rw [hkey]
    obtain ⟨a, ha, rfl⟩ := List.mem_map.mp hmem
    have hfound : (byStoreKey.reverse.find? fun p ↦ p.1 = a.1).isSome = true :=
      List.find?_isSome.mpr ⟨a, List.mem_reverse.mpr ha, by simp⟩
    obtain ⟨p, hp⟩ := Option.isSome_iff_exists.mp hfound
    simp only [hp]
    exact ⟨_, rfl⟩

theorem resolveMetric_eq_ok : resolveMetric byStoreKey raw = .ok m ↔
    ∃ item context name value id, pyDict raw = .ok item ∧
      pyDict ((item.get? "context").getD .null) = .ok context ∧
      (∀ m ∈ item, m.1 ∈ "source_artifact_store_key" :: metricFields) ∧
      item.get? "name" = some name ∧ item.get? "value" = some value ∧
      citedId byStoreKey item context = .ok id ∧ m = measured item context name value id := by
  constructor
  · intro h
    obtain ⟨item, hitem, h⟩ := bind_eq_ok.mp h
    obtain ⟨context, hcontext, h⟩ := bind_eq_ok.mp h
    obtain ⟨id, hid, h⟩ := bind_eq_ok.mp h
    obtain ⟨_, hfields, h⟩ := bind_eq_ok.mp h
    have hfields := fields_known_iff.mp (raiseWhen_eq_ok.mp hfields)
    split at h
    · next name value hname hvalue =>
        exact ⟨item, context, name, value, id, hitem, hcontext, hfields, hname, hvalue, hid,
          (Except.ok.inj h).symm⟩
    · cases h
  · rintro ⟨item, context, name, value, id, hitem, hcontext, hfields, hname, hvalue, hid, rfl⟩
    refine bind_eq_ok.mpr ⟨item, hitem, bind_eq_ok.mpr ⟨context, hcontext, ?_⟩⟩
    refine bind_eq_ok.mpr ⟨id, hid, bind_eq_ok.mpr ⟨(), ?_, ?_⟩⟩
    · exact raiseWhen_eq_ok.mpr (fields_known_iff.mpr hfields)
    · simp only [hname, hvalue]
      rfl

/-- An id of the platform does in place of none. -/
theorem validate_measured_iff {name value : Json} {artifactId : String}
    (hid : isIdentifier artifactId = true) :
    (measured item context name value (.str artifactId)).validate = .ok () ↔
      (measured item context name value .null).validate = .ok () := by
  have hvalid : validateIdentifierValue "source_artifact_id" (.str artifactId) false = .ok () :=
    if_pos hid
  have hnull : validateIdentifierValue "source_artifact_id" .null false = .ok () := rfl
  simp only [metric_validate_eq_ok, measured, hvalid, hnull]

/-- A metric passes exactly when it can be recorded with the keys that are registered. -/
theorem accepted_iff (hids : ∀ a ∈ byStoreKey, isIdentifier a.2 = true) :
    Accepted byStoreKey raw ↔ Recordable (· ∈ byStoreKey.map Prod.fst) raw := by
  constructor
  · rintro ⟨m, h, hvalid⟩
    obtain ⟨item, context, name, value, id, hitem, hcontext, hfields, hname, hvalue, hid, rfl⟩ :=
      resolveMetric_eq_ok.mp h
    refine ⟨item, context, name, value, hitem, hcontext, hfields, hname, hvalue, ?_⟩
    rcases citedId_eq_ok hid with ⟨hnull, rfl⟩ | ⟨a, ha, hkey, rfl⟩
    · refine ⟨.inl hnull, ?_⟩
      rw [hnull]
      exact hvalid
    · refine ⟨.inr ⟨a.1, hkey, List.mem_map_of_mem ha⟩, ?_⟩
      rw [hkey]
      exact (validate_measured_iff (hids a ha)).mp hvalid
  · rintro ⟨item, context, name, value, hitem, hcontext, hfields, hname, hvalue, hcites, hvalid⟩
    obtain ⟨id, hid⟩ : ∃ id, citedId byStoreKey item context = .ok id := citedId_of_cites hcites
    refine ⟨measured item context name value id, resolveMetric_eq_ok.mpr ⟨item, context, name,
      value, id, hitem, hcontext, hfields, hname, hvalue, hid, rfl⟩, ?_⟩
    rcases citedId_eq_ok hid with ⟨hnull, rfl⟩ | ⟨a, ha, hkey, rfl⟩
    · rw [hnull] at hvalid
      exact hvalid
    · rw [hkey] at hvalid
      exact (validate_measured_iff (hids a ha)).mpr hvalid

/-- For a metric of a verdict the contract is settled, but for the names of its parser. -/
theorem recordable_metricItem (hvalid : m.validate = .ok ()) :
    Recordable known (metricItem m) ↔ Traces known m := by
  obtain ⟨hname, hscalar, hunit, hsource, _, _, hreserved⟩ := metric_validate_eq_ok.mp hvalid
  obtain ⟨members, hmembers, hget, hfields⟩ : ∃ members : JsonObject, metricItem m = .obj members ∧
      (members.get? "name" = some m.name ∧ members.get? "value" = some m.value ∧
        members.get? "unit" = some m.unit ∧
        members.get? "source_artifact_id" = some m.sourceArtifactId ∧
        members.get? "context" = some (.obj m.context)) ∧
      ∀ member ∈ members, member.1 ∈ "source_artifact_store_key" :: metricFields :=
    ⟨_, rfl, ⟨rfl, rfl, rfl, rfl, rfl⟩, by simp [metricFields]⟩
  obtain ⟨hgetName, hgetValue, hgetUnit, hgetSource, hgetContext⟩ := hget
  have hitem : pyDict (metricItem m) = .ok members := by
    rw [hmembers]
    cases members with
    | nil => cases hgetName
    | cons => rfl
  have hcontext : pyDict ((members.get? "context").getD .null) = .ok m.context := by
    rw [hgetContext]
    cases hempty : m.context <;> rfl
  have hbuilt : ∀ source, validateIdentifierValue "source_artifact_id" source false = .ok () →
      ((measured members m.context m.name m.value source).validate = .ok () ↔
        ∀ field ∈ ["parser_id", "parser_version"],
          validateIdentifierValue field ((m.context.get? field).getD .null) false = .ok ()) := by
    intro source hsource
    have hkept : ∀ member ∈ m.context.filter (fun m ↦ m.1 ∉ consumedKeys),
        member.1 ∉ reservedMetricContextKeys := fun member hmember ↦
      hreserved member (List.mem_filter.mp hmember).1
    simp only [metric_validate_eq_ok, measured, hgetUnit, Option.getD_some, hname, hscalar, hunit,
      hsource, true_and, List.forall_mem_cons, List.not_mem_nil, false_implies, implies_true,
      and_true]
    exact ⟨fun h ↦ ⟨h.1, h.2.1⟩, fun h ↦ ⟨h.1, h.2, hkept⟩⟩
  have hnull : validateIdentifierValue "source_artifact_id" .null false = .ok () := rfl
  have hchosen : validateIdentifierValue "source_artifact_id"
      (if ((m.context.get? "source_artifact_store_key").getD .null).isNull then
        (members.get? "source_artifact_id").getD .null
      else .null) false = .ok () := by
    rw [hgetSource]
    split
    · exact hsource
    · exact hnull
  constructor
  · rintro ⟨item, context, name, value, hitem', hcontext', _, hname', hvalue', hcites, hbuilt'⟩
    obtain rfl := Except.ok.inj (hitem.symm.trans hitem')
    obtain rfl := Except.ok.inj (hcontext.symm.trans hcontext')
    obtain rfl := Option.some.inj (hgetName.symm.trans hname')
    obtain rfl := Option.some.inj (hgetValue.symm.trans hvalue')
    exact ⟨hcites, (hbuilt _ hchosen).mp hbuilt'⟩
  · rintro ⟨hcites, hparser⟩
    exact ⟨members, m.context, m.name, m.value, hitem, hcontext, hfields, hgetName, hgetValue,
      hcites, (hbuilt _ hchosen).mpr hparser⟩

/-- The metrics are recorded together, or none of them. -/
theorem registerMetrics_ok_iff {attemptId : AttemptId} {raws : List Json} :
    (∃ rows, registerMetrics attemptId byStoreKey raws = .ok rows) ↔
      ∀ raw ∈ raws, Accepted byStoreKey raw := by
  constructor
  · rintro ⟨rows, h⟩ raw hraw
    exact ((registerMetrics_rows h).1 raw hraw).1
  · intro hall
    cases h : registerMetrics attemptId byStoreKey raws with
    | ok rows => exact ⟨rows, rfl⟩
    | error e =>
        obtain ⟨raw, hraw, hrefused⟩ := registerMetrics_error h
        exact absurd (hall raw hraw) hrefused

end Measuring

/-! ## Traceable metrics -/

namespace Situation

/-- With registered rows, the keys are those of the rows. -/
theorem accepted_rows_iff {rows : List (Party × ArtifactRow)} {raw : Json}
    (hids : ∀ p ∈ rows, isIdentifier p.2.artifactId = true) :
    Accepted (byStoreKey rows) raw ↔ Recordable (· ∈ rows.map fun p ↦ p.2.storeKey) raw := by
  have hidentified : ∀ a ∈ byStoreKey rows, isIdentifier a.2 = true := by
    rw [byStoreKey, List.forall_mem_map]
    exact hids
  have hkeys : (byStoreKey rows).map Prod.fst = rows.map fun p ↦ p.2.storeKey := by
    simp [byStoreKey, Function.comp_def]
  rw [accepted_iff hidentified, hkeys]

/-- What is registered has identifiers. -/
theorem registered_identified {H : Bytes → String} {s : Situation} {d : Declared}
    {rows : List (Party × ArtifactRow)} (h : s.registered H = .ok (d, rows)) :
    ∀ p ∈ rows, isIdentifier p.2.artifactId = true := by
  obtain ⟨_, _, h⟩ := bind_eq_ok.mp h
  obtain ⟨_, _, h⟩ := bind_eq_ok.mp h
  obtain ⟨_, _, h⟩ := bind_eq_ok.mp h
  obtain ⟨_, hregister, h⟩ := bind_eq_ok.mp h
  obtain ⟨rfl, rfl⟩ := Prod.mk.inj (Except.ok.inj h)
  exact (registerArtifacts_keys hregister).2

/-- Metrics are traceable exactly when one of them cannot be recorded with the registered keys
or each id that is given without a store key is that of an artifact registered for the attempt. -/
theorem metrics_traceable_iff (H : Bytes → String) (s : Situation) :
    s.Traceable H ↔ ∀ d rows, s.Measures H d rows →
      (∃ raw ∈ d.metrics, ¬Recordable (· ∈ rows.map fun p ↦ p.2.storeKey) raw) ∨
        ∀ raw ∈ d.metrics, ∀ id, citation raw = .artifactId id →
          ∃ a ∈ s.artifactsOf rows, id = .str a.2 := by
  have hpasses : ∀ {d rows}, s.Measures H d rows → ∀ raw, Accepted (byStoreKey rows) raw ↔
      Recordable (· ∈ rows.map fun p ↦ p.2.storeKey) raw := fun hmeasures _ ↦
    accepted_rows_iff (registered_identified hmeasures.1)
  rcases runAttempt_metrics H s with ⟨hnone, hstatus, hrefused⟩ |
    ⟨d, rows, more, hmeasures, hrows, hmetrics⟩
  · refine iff_of_true ⟨?_, fun d rows _ raw _ _ ↦ ⟨hstatus, hnone⟩⟩ ?_
    · simp [hnone]
    · intro d rows hmeasures
      obtain ⟨raw, hraw, hnot⟩ := hrefused d rows hmeasures
      exact .inl ⟨raw, hraw, mt (hpasses hmeasures raw).mpr hnot⟩
  · obtain ⟨haccepted, hback⟩ := registerMetrics_rows hmetrics
    have hunique : ∀ d' rows', s.Measures H d' rows' → d = d' ∧ rows = rows' := by
      rintro d' rows' ⟨hok, _⟩
      exact Prod.mk.inj (Except.ok.inj (hmeasures.1.symm.trans hok))
    have hkeys : ∀ a ∈ byStoreKey rows, a ∈ s.artifactsOf rows := by
      intro a ha
      obtain ⟨p, hp, rfl⟩ := List.mem_map.mp ha
      exact List.mem_map.mpr ⟨p.2, List.mem_append_right _ (List.mem_map.mpr ⟨p, hp, rfl⟩), rfl⟩
    have hgrow : ∀ a ∈ s.artifactsOf rows, a ∈ s.artifactsOf (s.runAttempt H).rows := by
      intro a ha
      rw [hrows]
      simp only [artifactsOf, List.map_append, List.mem_append] at ha ⊢
      tauto
    constructor
    · rintro ⟨_, hcites⟩ d' rows' hmeasures'
      obtain ⟨rfl, rfl⟩ := hunique d' rows' hmeasures'
      refine .inr fun raw hraw id hid ↦ ?_
      by_contra hother
      have hnone := (hcites d rows hmeasures.1 raw hraw (by rwa [hid])).2
      exact (haccepted raw hraw).2 hnone
    · intro hcondition
      have hgiven : ∀ raw ∈ d.metrics, ∀ id, citation raw = .artifactId id →
          ∃ a ∈ s.artifactsOf rows, id = .str a.2 := by
        rcases hcondition d rows hmeasures with ⟨raw, hraw, hrefused⟩ | hgiven
        · exact absurd ((hpasses hmeasures raw).mp (haccepted raw hraw).1) hrefused
        · exact hgiven
      -- a metric that was resolved cites an artifact of the attempt, or nothing
      have hcited : ∀ raw ∈ d.metrics, ∀ m, resolveMetric (byStoreKey rows) raw = .ok m →
          (citation raw).Of (s.artifactsOf rows) ∧
            ∀ id, text? m.sourceArtifactId = some id → ∃ a ∈ s.artifactsOf rows, a.2 = id := by
        intro raw hraw m hresolve
        have hsource := resolveMetric_citation hresolve
        cases hcitation : citation raw with
        | storeKey key =>
            rw [hcitation] at hsource
            obtain ⟨a, ha, rfl, hid⟩ := hsource
            refine ⟨⟨a, hkeys a ha, rfl⟩, fun id htext ↦ ⟨a, hkeys a ha, ?_⟩⟩
            rw [hid] at htext
            exact Option.some.inj htext
        | artifactId given =>
            rw [hcitation] at hsource
            obtain ⟨a, ha, rfl⟩ := hgiven raw hraw given hcitation
            refine ⟨⟨a, ha, rfl⟩, fun id htext ↦ ⟨a, ha, ?_⟩⟩
            rw [hsource] at htext
            exact Option.some.inj htext
        | nothing =>
            rw [hcitation] at hsource
            refine ⟨trivial, fun id htext ↦ ?_⟩
            rw [hsource] at htext
            cases htext
      constructor
      · intro row hrow id hid
        obtain ⟨raw, hraw, m, hresolve, rfl⟩ := hback row hrow
        obtain ⟨a, ha, rfl⟩ := (hcited raw hraw m hresolve).2 id hid
        exact ⟨a, hgrow a ha, rfl⟩
      · intro d' rows' hok raw hraw hother
        obtain ⟨rfl, rfl⟩ := Prod.mk.inj (Except.ok.inj (hmeasures.1.symm.trans hok))
        obtain ⟨m, hresolve, _⟩ := (haccepted raw hraw).1
        exact absurd (hcited raw hraw m hresolve).1 hother

/-- A metric that gives an id of its own and no store key is recorded with it. -/
theorem metric_cites_no_artifact :
    ¬(sampleSituation [] [.obj [("name", .str "area"), ("value", .int 1),
      ("source_artifact_id", .str "art-of-another-run")]]).Traceable sampleHash := by
  set s := sampleSituation [] [.obj [("name", .str "area"), ("value", .int 1),
    ("source_artifact_id", .str "art-of-another-run")]] with hs
  have hrecorded : ((s.runAttempt sampleHash).metrics.any fun m ↦
      m.sourceArtifactId = some "art-of-another-run") = true := by
    rw [hs]
    decide +kernel
  have hunknown : ((s.artifactsOf (s.runAttempt sampleHash).rows).any fun a ↦
      a.2 = "art-of-another-run") = false := by
    rw [hs]
    decide +kernel
  rintro ⟨htraceable, _⟩
  obtain ⟨m, hm, hid⟩ := List.any_eq_true.mp hrecorded
  obtain ⟨a, ha, hfound⟩ := htraceable m hm "art-of-another-run" (by simpa using hid)
  rw [List.any_eq_false] at hunknown
  exact hunknown a ha (by simpa using hfound)

end Situation

end ChipEvolve.Attempt
