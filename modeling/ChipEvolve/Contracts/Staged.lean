import ChipEvolve.Contracts.Malformed

/-!
# Staged inputs that are added to a task

`TaskSpec.from_dict` (`contracts/task.py`) reads an object in which `staged_inputs` has been set
to the task's own declarations and some more.  Nothing but these declarations is read
differently, so the task is accepted if each addition is and all destinations are distinct.
-/

namespace ChipEvolve.Payload

open Builtins (asSet_eq_ok iterate text?)
open Except (Returns)

/-! ## Objects with a member set -/

section Set

variable {m : JsonObject} {key key' : String} {j : Json}

theorem get?_set_self : (m.set key j).get? key = some j := by
  unfold JsonObject.set Builtins.assign JsonObject.get?
  split
  · rename_i hany
    have hsame : (fun member : String × Json ↦ decide (member.1 = key)) ∘
        (fun member ↦ if member.1 = key then (key, j) else member) =
          fun member ↦ decide (member.1 = key) := by
      funext member
      by_cases hkey : member.1 = key <;> simp [hkey]
    have hfound : (m.reverse.find? fun member ↦ member.1 = key).isSome = true := by
      rw [List.find?_isSome]
      obtain ⟨member, hmember, hkey⟩ := List.any_eq_true.mp hany
      exact ⟨member, List.mem_reverse.mpr hmember, hkey⟩
    obtain ⟨member, hmember⟩ := Option.isSome_iff_exists.mp hfound
    have hkey : member.1 = key := by simpa using List.find?_some hmember
    rw [← List.map_reverse, List.find?_map, hsame, hmember]
    simp [hkey]
  · simp

theorem get?_set_of_ne (h : key' ≠ key) : (m.set key j).get? key' = m.get? key' := by
  unfold JsonObject.set Builtins.assign JsonObject.get?
  split
  · have hsame : (fun member : String × Json ↦ decide (member.1 = key')) ∘
        (fun member ↦ if member.1 = key then (key, j) else member) =
          fun member ↦ decide (member.1 = key') := by
      funext member
      by_cases hkey : member.1 = key
      · simp [hkey]
      · simp [hkey]
    rw [← List.map_reverse, List.find?_map, hsame]
    cases hfind : m.reverse.find? fun member ↦ member.1 = key' with
    | none => rfl
    | some member =>
        have hkey : member.1 = key' := by simpa using List.find?_some hfind
        simp [hkey, h]
  · simp [h.symm]

theorem mem_keys_set :
    key' ∈ (m.set key j).map Prod.fst ↔ key' = key ∨ key' ∈ m.map Prod.fst := by
  unfold JsonObject.set Builtins.assign
  split
  · rename_i hany
    obtain ⟨member, hmember, hkey⟩ := List.any_eq_true.mp hany
    have hmap : (m.map fun member ↦ if member.1 = key then (key, j) else member).map Prod.fst =
        m.map Prod.fst := by
      rw [List.map_map]
      refine List.map_congr_left fun member _ ↦ ?_
      by_cases hkey : member.1 = key <;> simp [hkey]
    rw [hmap]
    refine ⟨.inr, ?_⟩
    rintro (rfl | hmem)
    · exact of_decide_eq_true hkey ▸ List.mem_map_of_mem hmember
    · exact hmem
  · simp [or_comm]

end Set

/-! ## The arguments of the constructor -/

section Instantiate

variable {C : Contract} {m : JsonObject} {converted : List (String × Option Value)}
  {fields : Fields}

/-- What one name is converted to has no part in what is found under another. -/
theorem find?_other (before after : List (String × Option Value)) {key name : String}
    {x y : Option Value} (h : name ≠ key) :
    ((before ++ (key, x) :: after).find? fun c ↦ c.1 = name) =
      (before ++ (key, y) :: after).find? fun c ↦ c.1 = name := by
  simp [List.find?_append, h.symm]

theorem argument_congr {m' : JsonObject} {converted' : List (String × Option Value)} {f : Field}
    (hfind : (converted.find? fun c ↦ c.1 = f.name) = converted'.find? fun c ↦ c.1 = f.name)
    (hget : m.get? f.name = m'.get? f.name) :
    argument C m converted f = argument C m' converted' f := by
  unfold argument
  rw [hfind, hget]

theorem argument_eq_ok {f : Field} (key : String) {v : Value}
    (hfind : (converted.find? fun c ↦ c.1 = f.name) = some (key, some v)) :
    argument C m converted f = .ok (f.name, v) := by
  unfold argument
  rw [hfind]
  rfl

theorem argument_fst {f : Field} {x : String × Value} (h : argument C m converted f = .ok x) :
    x.1 = f.name := by
  unfold argument at h
  split at h <;> first | obtain rfl := Except.ok.inj h; rfl | cases h

/-- Each field of a value is the argument of its name. -/
theorem value?_instantiate (h : instantiate C m converted = .ok fields) {f : Field}
    (hf : f ∈ C.fields) :
    ∃ v, argument C m converted f = .ok (f.name, v) ∧ value? fields f.name = some v := by
  have hnodup := C.nodup
  unfold instantiate at h
  have hall := Except.forall₂_of_mapM h
  unfold value?
  generalize C.fields = known at hf hnodup hall
  clear h
  induction hall with
  | nil => cases hf
  | @cons g x known fields hread hrest ih =>
      obtain ⟨name, v⟩ := x
      obtain rfl : name = g.name := argument_fst hread
      rw [List.map_cons, List.nodup_cons] at hnodup
      rcases List.mem_cons.mp hf with rfl | hf
      · exact ⟨v, hread, by simp⟩
      · obtain ⟨v', hargument, hvalue⟩ := ih hf hnodup.2
        refine ⟨v', hargument, ?_⟩
        have hne : g.name ≠ f.name := fun heq ↦ hnodup.1 (heq ▸ List.mem_map_of_mem hf)
        rw [List.find?_cons_of_neg (by simpa using hne)]
        exact hvalue

theorem map_fst_instantiate (h : instantiate C m converted = .ok fields) :
    fields.map Prod.fst = C.fields.map Field.name := by
  unfold instantiate at h
  have hall := (Except.forall₂_of_mapM h).imp fun _ _ hread ↦ argument_fst hread
  have hmap := List.forall₂_map_left_iff.mpr (List.forall₂_map_right_iff.mpr
    (hall.imp fun _ _ hfst ↦ hfst.symm))
  rw [List.forall₂_eq_eq_eq] at hmap
  exact hmap.symm

/-- Two values differ in no field whose argument is the same. -/
theorem value?_congr {m' : JsonObject} {converted' : List (String × Option Value)}
    {fields' : Fields} (h : instantiate C m converted = .ok fields)
    (h' : instantiate C m' converted' = .ok fields') {name : String}
    (hargument : ∀ f ∈ C.fields, f.name = name →
      argument C m converted f = argument C m' converted' f) :
    value? fields name = value? fields' name := by
  by_cases hname : ∃ f ∈ C.fields, f.name = name
  · obtain ⟨f, hf, rfl⟩ := hname
    obtain ⟨v, hv, hvalue⟩ := value?_instantiate h hf
    obtain ⟨v', hv', hvalue'⟩ := value?_instantiate h' hf
    rw [hargument f hf rfl, hv'] at hv
    obtain rfl := (Prod.mk.inj (Except.ok.inj hv)).2
    rw [hvalue, hvalue']
  · have hnone : ∀ {v : Fields}, v.map Prod.fst = C.fields.map Field.name →
        value? v name = none := by
      intro v hv
      rw [value?, Option.map_eq_none_iff, List.find?_eq_none]
      intro member hmember
      have hmem : member.1 ∈ C.fields.map Field.name := hv ▸ List.mem_map_of_mem hmember
      obtain ⟨f, hf, hfname⟩ := List.mem_map.mp hmem
      simpa using fun heq : member.1 = name ↦ hname ⟨f, hf, hfname.trans heq⟩
    rw [hnone (map_fst_instantiate h), hnone (map_fst_instantiate h')]

end Instantiate

/-! ## Declarations -/

namespace InputFile

/-- The destination that a declaration names. -/
def destination : Json → Option String
  | .obj m => text? (part m "destination")
  | _ => none

/-- Only an object is taken for a declaration. -/
theorem eq_obj_of_returns {j : Json} (h : Returns (fromDict j)) : ∃ m, j = .obj m := by
  have hquiet : ¬Escapes j := fun hescapes ↦ by
    obtain ⟨e, he, _⟩ := raises_inputFile.mpr hescapes
    obtain ⟨r, hr⟩ := h
    rw [he] at hr
    cases hr
  obtain ⟨r, hr⟩ := h
  obtain ⟨keys, hkeys, hr⟩ := Except.bind_eq_ok.mp hr
  obtain ⟨_, hknown, hr⟩ := Except.bind_eq_ok.mp hr
  obtain ⟨_, hnamed, _⟩ := Except.bind_eq_ok.mp hr
  have hknown := refuse_eq_ok.mp hknown
  have hiterate := (asSet_eq_ok.mp (builtin_eq_ok.mp hkeys)).1
  obtain ⟨key, hkey, htext⟩ : ∃ key ∈ keys, text? key = some "destination" := by
    simpa [refuseIf_eq_ok] using contractual_eq_ok.mp hnamed
  obtain rfl := Json.text?_eq_some.mp htext
  cases j with
  | obj m => exact ⟨m, rfl⟩
  | arr items =>
      obtain rfl := Except.ok.inj hiterate
      exact absurd (.inr ⟨_, rfl, .inr ⟨hknown, hkey⟩⟩) hquiet
  | str s =>
      obtain rfl := eq_nil_of_chars (by decide) hiterate hknown
      cases hkey
  | null | bool | int | float => cases hiterate

theorem fromDict_obj {m : JsonObject} {r : JsonObject} (h : fromDict (.obj m) = .ok r) :
    inputFile.fromDict (.obj m) = .ok r := by
  obtain ⟨_, _, h⟩ := Except.bind_eq_ok.mp h
  obtain ⟨_, _, h⟩ := Except.bind_eq_ok.mp h
  obtain ⟨_, _, h⟩ := Except.bind_eq_ok.mp h
  exact contractual_eq_ok.mp h

/-- The record of a declaration is valid, and it has the declaration's destination. -/
theorem of_fromDict {j : Json} {r : JsonObject} (h : fromDict j = .ok r) :
    inputFileValidate r = .ok () ∧ text? (part r "destination") = destination j := by
  obtain ⟨m, rfl⟩ := eq_obj_of_returns ⟨r, h⟩
  have hflat := fromDict_obj h
  obtain ⟨hvalid, p, hopens, _, hread⟩ := Flat.fromDict_eq_ok hflat
  obtain rfl := Except.ok.inj hopens
  refine ⟨hvalid.valid, ?_⟩
  obtain ⟨m', r', hm, hr, hcompleted⟩ := Flat.completes_of_fromDict (by decide) hflat
  obtain rfl := Json.obj.inj hm
  obtain rfl := Json.obj.inj hr
  have hall : JsonObject.get? (m.filter fun member ↦ member.1 ∉ inputFile.dropped) "destination" =
      JsonObject.get? m "destination" :=
    get?_filter (p := fun key ↦ key ∉ inputFile.dropped) (by decide)
  obtain ⟨member, _, hmember⟩ :=
    (Except.mem_of_mapM hread).1 ("destination", none) List.mem_cons_self
  rw [Flat.read, hall] at hmember
  cases hget : JsonObject.get? m "destination" with
  | none =>
      rw [hget] at hmember
      cases hmember
  | some j => rw [destination, part, part, hget, hcompleted.kept "destination" j hget (by decide)]

/-- The fields of a declaration that names an artifact. -/
def ofArtifact (id destination : String) : JsonObject :=
  [("destination", .str destination), ("source", .null), ("artifact_id", .str id),
    ("input_id", .null), ("required", .bool true)]

theorem validate_ofArtifact {id destination : String} :
    inputFileValidate (ofArtifact id destination) = .ok () ↔
      validateRelativePath "input destination" destination "attempt workspace" = .ok () ∧
        isIdentifier id = true := by
  have hchecks : inputFileValidate (ofArtifact id destination) = (do
      validateRelativePath "input destination" destination "attempt workspace"
      validateIdentifier "input artifact_id" (some id) false
      .ok ()) := rfl
  have hid : validateIdentifier "input artifact_id" (some id) false = .ok () ↔
      isIdentifier id = true := by
    unfold validateIdentifier
    by_cases h : isIdentifier id = true
    · simp only [h, if_true]
    · simp only [h, if_false, reduceCtorEq]
  rw [hchecks, Validated.bind_eq_ok, Validated.bind_eq_ok, hid]
  simp only [and_true]

theorem returns_artifact {id destination : String} :
    Returns (fromDict (.obj [("artifact_id", .str id), ("destination", .str destination),
        ("required", .bool true)])) ↔
      validateRelativePath "input destination" destination "attempt workspace" = .ok () ∧
        isIdentifier id = true := by
  have hopened : fromDict (.obj [("artifact_id", .str id), ("destination", .str destination),
      ("required", .bool true)]) = contractual (do
        inputFileValidate (ofArtifact id destination)
        return ofArtifact id destination) := rfl
  rw [hopened, ← validate_ofArtifact]
  simp only [Returns, contractual_eq_ok, Except.bind_eq_ok]
  constructor
  · rintro ⟨_, _, hvalid, _⟩
    exact hvalid
  · intro hvalid
    exact ⟨_, _, hvalid, rfl⟩

theorem of_mapM {items : List Json} {read : List JsonObject}
    (h : items.mapM fromDict = .ok read) :
    (read.map fun r ↦ text? (part r "destination")) = items.map destination ∧
      ∀ r ∈ read, inputFileValidate r = .ok () := by
  induction Except.forall₂_of_mapM h with
  | nil => simp
  | cons hitem hrest ih =>
      obtain ⟨hvalid, hdestination⟩ := of_fromDict hitem
      obtain ⟨hmap, hall⟩ := ih (Except.mapM_of_forall₂ hrest)
      rw [List.map_cons, List.map_cons, hmap, hdestination, List.forall_mem_cons]
      exact ⟨rfl, hvalid, hall⟩

end InputFile

namespace TaskSpec

/-- The checks that do not read the staged inputs, in their order. -/
def validateRest (v : Fields) : Validated := do
  validateVersionValue (json v "schema_version")
  ["task_id", "project_id", "design_id"].forM fun name ↦
    validateIdentifierValue name (json v name)
  validateIdentifierValue "design_revision_id" (json v "design_revision_id") false
  validateIdentifierValue "experiment_id" (json v "experiment_id") false
  validateSha256Value "input_manifest_sha256" (json v "input_manifest_sha256")
  refuseIf (json v "plugin_id").isNull "TaskSpec must name the plugin it runs"
  validateIdentifierValue "plugin_id" (json v "plugin_id") false
  validateIdentifierValue "plugin_version" (json v "plugin_version") false
  ["inputs", "parameters", "labels"].forM fun name ↦ validateMapping name (json v name)
  ifGiven resourceRequestValidate (record? v "resources")
  validatePositive "timeout_seconds" (json v "timeout_seconds")
  validatePositive "max_attempts" (json v "max_attempts")
  refuseIf (¬allTexts (items v "expected_artifacts"))
    "expected_artifacts must contain non-empty strings"

theorem validate_eq_ok {v : Fields} : validate v = .ok () ↔ validateRest v = .ok () ∧
    (records v "staged_inputs").forM inputFileValidate = .ok () ∧
    ((records v "staged_inputs").map fun m ↦ text? (part m "destination")).Nodup := by
  unfold validate validateRest
  simp only [Validated.bind_eq_ok, refuseIf_eq_ok, not_not]
  tauto

theorem validateRest_congr {v v' : Fields}
    (h : ∀ name, name ≠ "staged_inputs" → value? v name = value? v' name) :
    validateRest v = validateRest v' := by
  have hjson : ∀ name, name ≠ "staged_inputs" → json v name = json v' name := by
    intro name hname
    rw [json, json, h name hname]
  unfold validateRest
  simp [hjson, record?, items, h]

/-- `task.get("staged_inputs") or []` where it is a list. -/
def declared (m : JsonObject) : List Json :=
  match m.get? "staged_inputs" with
  | some (.arr items) => items
  | _ => []

theorem fromDict_eq_ok {m : JsonObject} {fields : Fields} : fromDict (.obj m) = .ok fields ↔
    contract.knownPayload m = .ok () ∧ ∃ expected staged resources,
      given toTuple (JsonObject.get? m "expected_artifacts") = .ok expected ∧
      given toInputFiles (JsonObject.get? m "staged_inputs") = .ok staged ∧
      given toResources (JsonObject.get? m "resources") = .ok resources ∧
      instantiate contract m [("expected_artifacts", expected), ("staged_inputs", staged),
        ("resources", resources)] = .ok fields ∧ validate fields = .ok () := by
  simp only [fromDict, Except.bind_eq_ok, contractual_eq_ok]
  constructor
  · rintro ⟨_, hknown, expected, hexpected, staged, hstaged, resources, hresources, _, hfields, _,
      hvalid, hsame⟩
    obtain rfl := Except.ok.inj hsame
    exact ⟨hknown, expected, staged, resources, hexpected, hstaged, hresources, hfields, hvalid⟩
  · rintro ⟨hknown, expected, staged, resources, hexpected, hstaged, hresources, hfields, hvalid⟩
    exact ⟨_, hknown, expected, hexpected, staged, hstaged, resources, hresources, fields, hfields,
      _, hvalid, rfl⟩

/-- What the declarations of an accepted task are read as. -/
theorem declared_of_given {m : JsonObject} {staged : Option Value}
    (h : given toInputFiles (m.get? "staged_inputs") = .ok staged) :
    ∃ own, (declared m).mapM InputFile.fromDict = .ok own ∧
      staged.getD (.records []) = .records own := by
  unfold declared
  cases hget : m.get? "staged_inputs" with
  | none =>
      rw [hget] at h
      obtain rfl := Except.ok.inj h
      exact ⟨[], rfl, rfl⟩
  | some j =>
      rw [hget] at h
      obtain ⟨read, hread, rfl⟩ := Except.map_eq_ok.mp h
      obtain ⟨items, hitems, hread⟩ := Except.bind_eq_ok.mp hread
      obtain ⟨own, hown, rfl⟩ := Except.map_eq_ok.mp hread
      have hiterate := builtin_eq_ok.mp hitems
      have hobjects : ∀ item ∈ items, ∃ members, item = .obj members := fun item hitem ↦
        InputFile.eq_obj_of_returns (Except.returns_mapM.mp ⟨own, hown⟩ item hitem)
      cases j with
      | arr items' =>
          obtain rfl := Except.ok.inj hiterate
          exact ⟨own, hown, rfl⟩
      | str s | obj members =>
          obtain rfl : items = [] := by
            refine List.eq_nil_iff_forall_not_mem.mpr fun item hitem ↦ ?_
            obtain ⟨members, rfl⟩ := hobjects item hitem
            obtain rfl := Except.ok.inj hiterate
            obtain ⟨_, _, htext⟩ := List.mem_map.mp hitem
            cases htext
          obtain rfl := Except.ok.inj hown
          exact ⟨[], rfl, rfl⟩
      | null | bool | int | float => cases hiterate

theorem shaped_records_nil : (Kind.nestedTuple inputFile).Shaped (.records []) :=
  ⟨[], fun _ h ↦ absurd h List.not_mem_nil, rfl⟩

/-- The field of the staged inputs. -/
def stagedField : Field :=
  { name := "staged_inputs", kind := .nestedTuple inputFile
    absent := some ⟨.records [], shaped_records_nil⟩ }

theorem stagedField_mem : stagedField ∈ contract.fields := by
  simp [contract, stagedField]

section Staged

variable {m : JsonObject} {fields : Fields} {expected staged resources : Option Value}
  {own : List JsonObject}

/-- The staged inputs of a value are the declarations it was read from. -/
theorem records_instantiate (h : instantiate contract m [("expected_artifacts", expected),
      ("staged_inputs", staged), ("resources", resources)] = .ok fields)
    (hgiven : staged = none → m.get? "staged_inputs" = none)
    (hstaged : staged.getD (.records []) = .records own) :
    records fields "staged_inputs" = own := by
  obtain ⟨v, hv, hvalue⟩ := value?_instantiate h stagedField_mem
  have hname : stagedField.name = "staged_inputs" := rfl
  rw [hname] at hvalue
  have hown : v = .records own := by
    cases hs : staged with
    | none =>
        rw [hs] at hv hstaged
        have hempty : Value.records [] = v := by simpa [argument, stagedField, hgiven hs] using hv
        rw [← hempty, ← hstaged]
        rfl
    | some read =>
        rw [hs] at hv hstaged
        have hread : read = v := by simpa [argument, stagedField] using hv
        rw [← hread, ← hstaged]
        rfl
  rw [records, hvalue, hown]

theorem given_none {m : JsonObject} (h : given toInputFiles (m.get? "staged_inputs") = .ok none) :
    m.get? "staged_inputs" = none := by
  cases hget : m.get? "staged_inputs" with
  | none => rfl
  | some j =>
      rw [hget] at h
      obtain ⟨_, _, hsome⟩ := Except.map_eq_ok.mp h
      cases hsome

theorem knownPayload_set (h : contract.knownPayload m = .ok ()) (j : Json) :
    contract.knownPayload (m.set "staged_inputs" j) = .ok () := by
  obtain ⟨hversion, hknown⟩ := Contract.knownPayload_eq_ok.mp h
  refine Contract.knownPayload_eq_ok.mpr ⟨mem_keys_set.mpr (.inr hversion), fun key hkey ↦ ?_⟩
  rcases mem_keys_set.mp hkey with rfl | hkey
  · exact List.mem_map_of_mem stagedField_mem
  · exact hknown key hkey

/-- The destinations of an accepted task are distinct. -/
theorem nodup_declared (h : Returns (fromDict (.obj m))) :
    ((declared m).map InputFile.destination).Nodup := by
  obtain ⟨fields, h⟩ := h
  obtain ⟨_, _, staged, _, _, hstaged, _, hfields, hvalid⟩ := fromDict_eq_ok.mp h
  obtain ⟨own, hown, hread⟩ := declared_of_given hstaged
  have hnodup := (validate_eq_ok.mp hvalid).2.2
  rwa [records_instantiate hfields (fun hs ↦ given_none (hs ▸ hstaged)) hread,
    (InputFile.of_mapM hown).1] at hnodup

/-- A task with further declarations is accepted exactly where each of them is, and all
destinations are distinct. -/
theorem returns_set_staged (h : Returns (fromDict (.obj m))) {extra : List Json} :
    Returns (fromDict (.obj (m.set "staged_inputs" (.arr (declared m ++ extra))))) ↔
      (∀ j ∈ extra, Returns (InputFile.fromDict j)) ∧
        ((declared m ++ extra).map InputFile.destination).Nodup := by
  obtain ⟨fields, h⟩ := h
  obtain ⟨hknown, expected, staged, resources, hexpected, hstaged, hresources, hfields, hvalid⟩ :=
    fromDict_eq_ok.mp h
  obtain ⟨own, hown, _⟩ := declared_of_given hstaged
  have hrest := (validate_eq_ok.mp hvalid).1
  constructor
  · rintro ⟨fields', h'⟩
    obtain ⟨_, _, staged', _, _, hstaged', _, hfields', hvalid'⟩ := fromDict_eq_ok.mp h'
    rw [get?_set_self] at hstaged'
    obtain ⟨_, hlist, rfl⟩ := Except.map_eq_ok.mp hstaged'
    obtain ⟨read, hitems, rfl⟩ := Except.map_eq_ok.mp hlist
    have hrecords' := records_instantiate hfields' (by simp) rfl
    have hnodup := (validate_eq_ok.mp hvalid').2.2
    rw [hrecords', (InputFile.of_mapM hitems).1] at hnodup
    have hreturns := Except.returns_mapM.mp ⟨read, hitems⟩
    exact ⟨fun j hj ↦ hreturns j (List.mem_append_right _ hj), hnodup⟩
  · rintro ⟨hextra, hnodup⟩
    obtain ⟨read, hitems⟩ : Returns ((declared m ++ extra).mapM InputFile.fromDict) := by
      refine Except.returns_mapM.mpr fun j hj ↦ ?_
      rcases List.mem_append.mp hj with hj | hj
      · exact Except.returns_mapM.mp ⟨own, hown⟩ j hj
      · exact hextra j hj
    have hstaged' : given toInputFiles (some (.arr (declared m ++ extra))) =
        .ok (some (.records read)) :=
      Except.map_eq_ok.mpr ⟨_, Except.map_eq_ok.mpr ⟨read, hitems, rfl⟩, rfl⟩
    have hsame : ∀ f ∈ contract.fields, f.name ≠ "staged_inputs" →
        argument contract m [("expected_artifacts", expected), ("staged_inputs", staged),
            ("resources", resources)] f =
          argument contract (m.set "staged_inputs" (.arr (declared m ++ extra)))
            [("expected_artifacts", expected), ("staged_inputs", some (.records read)),
              ("resources", resources)] f := by
      intro f _ hf
      exact argument_congr (find?_other [_] [_] hf)
        (get?_set_of_ne hf).symm
    obtain ⟨fields', hfields'⟩ : Returns (instantiate contract
        (m.set "staged_inputs" (.arr (declared m ++ extra)))
        [("expected_artifacts", expected), ("staged_inputs", some (.records read)),
          ("resources", resources)]) := by
      refine Except.returns_mapM.mpr fun f hf ↦ ?_
      by_cases hname : f.name = "staged_inputs"
      · exact ⟨_, argument_eq_ok "staged_inputs" (by rw [hname]; rfl)⟩
      · rw [← hsame f hf hname]
        exact Except.returns_mapM.mp ⟨fields, hfields⟩ f hf
    refine ⟨fields', fromDict_eq_ok.mpr ⟨knownPayload_set hknown _, expected, _, resources, ?_, ?_,
      ?_, hfields', ?_⟩⟩
    · rwa [get?_set_of_ne (by decide)]
    · rwa [get?_set_self]
    · rwa [get?_set_of_ne (by decide)]
    · have hrecords' := records_instantiate hfields' (by simp) rfl
      obtain ⟨hmap, hchecked⟩ := InputFile.of_mapM hitems
      refine validate_eq_ok.mpr ⟨?_, ?_, ?_⟩
      · rw [← hrest]
        refine validateRest_congr fun name hname ↦ (value?_congr hfields hfields' ?_).symm
        rintro f hf rfl
        exact hsame f hf hname
      · rw [hrecords']
        exact Except.forM_eq_ok.mpr hchecked
      · rw [hrecords', hmap]
        exact hnodup

end Staged

end TaskSpec

end ChipEvolve.Payload
