import ChipEvolve.Contracts.Task
import ChipEvolve.Outcome
import Mathlib.Data.List.Sort

/-!
# Payloads and the records they are read into

`known_payload`, `instantiate` and `primitive` (`contracts/version.py`), and the
conversions the `from_dict` methods make of their own, for a class given by the
table of its fields.  A value of a class is typed by that table: a field without a
conversion holds whatever JSON gave it.
-/

namespace ChipEvolve.Payload

open Builtins (Failure)

/-! ## Objects -/

section Objects

variable {m : JsonObject} {key : String} {j : Json}

theorem mem_of_get? (h : m.get? key = some j) : (key, j) ∈ m := by
  obtain ⟨member, hfind, rfl⟩ := Option.map_eq_some_iff.mp h
  have hmem := List.mem_reverse.mp (List.mem_of_find?_eq_some hfind)
  have hkey : member.1 = key := by simpa using List.find?_some hfind
  rw [← hkey]
  exact hmem

theorem get?_of_mem (hm : (m.map Prod.fst).Nodup) (h : (key, j) ∈ m) : m.get? key = some j := by
  have hsome : (m.reverse.find? fun member ↦ member.1 = key).isSome = true :=
    List.find?_isSome.mpr ⟨(key, j), List.mem_reverse.mpr h, by simp⟩
  obtain ⟨member, hfind⟩ := Option.isSome_iff_exists.mp hsome
  have hget : m.get? key = some member.2 := by simp [JsonObject.get?, hfind]
  have hsame : (key, member.2) = (key, j) :=
    List.inj_on_of_nodup_map hm (mem_of_get? hget) h rfl
  rw [hget, congrArg Prod.snd hsame]

theorem get?_filter {p : String → Bool} (hp : p key = true) :
    JsonObject.get? (m.filter fun member ↦ p member.1) key = m.get? key := by
  unfold JsonObject.get?
  rw [← List.filter_reverse, List.find?_filter]
  congr 2
  funext member
  by_cases hkey : member.1 = key <;> simp [hkey, hp]

end Objects

/-! ## The values of fields -/

/-- What a field holds: a JSON value, a tuple of them, a member of an enumeration, or one or
more values of a nested contract. -/
inductive Value where
  | plain (j : Json)
  | tuple (items : List Json)
  | member (value : String)
  | record (fields : JsonObject)
  | records (items : List JsonObject)

/-- `primitive` -/
def Value.primitive : Value → Json
  | plain j => j
  | tuple items => .arr items
  | member value => .str value
  | record fields => .obj fields
  | records items => .arr (items.map .obj)

/-- `tuple(value)` -/
def tupleOf (j : Json) : Except String (List Json) := (Builtins.iterate j).mapError Failure.message

/-- `dict(value)` with texts for its keys. -/
def dictOf (j : Json) : Except String JsonObject :=
  match Builtins.dict j with
  | .ok (some members) => .ok members
  | .ok none => .error "keywords must be strings"
  | .error e => .error e.message

/-- `set(payload) - allowed` of something that need not be an object, and then `dict(payload)`. -/
def openObject : Json → Except String JsonObject
  | .obj members => .ok members
  | .arr [] | .str "" => .ok []
  | _ => .error "TypeError: not an object"

/-! ## Nested contracts -/

/-- Refuse the keys that are no fields. -/
def refuseUnknown (name : String) (allowed : List String) (p : JsonObject) : Validated :=
  let unknown := (p.map Prod.fst).filter fun key ↦ key ∉ allowed
  refuseIf (unknown ≠ []) ("unknown " ++ name ++ " fields: " ++
    ", ".intercalate (unknown.insertionSort (· ≤ ·)))

/-- A contract without conversions: its fields with their defaults, the keys that `from_dict`
drops, how it takes a payload, and its `validate`. -/
structure Flat where
  name : String
  fields : List (String × Option Json)
  nodup : (fields.map Prod.fst).Nodup
  dropped : List String := []
  opens : Json → Except String JsonObject := openObject
  opens_obj : ∀ members, opens (.obj members) = .ok members
  missing : String → String
  validate : JsonObject → Validated

namespace Flat

variable (F : Flat)

def names : List String := F.fields.map Prod.fst

def read (p : JsonObject) (field : String × Option Json) : Except String (String × Json) :=
  match p.get? field.1, field.2 with
  | some j, _ => .ok (field.1, j)
  | none, some j => .ok (field.1, j)
  | none, none => .error (F.missing field.1)

def fromDict (payload : Json) : Except String JsonObject := do
  let p ← F.opens payload
  let p := p.filter fun m ↦ m.1 ∉ F.dropped
  refuseUnknown F.name F.names p
  let fields ← F.fields.mapM (F.read p)
  F.validate fields
  return fields

/-- The fields are those of the class, and they pass its checks. -/
structure Valid (fields : JsonObject) : Prop where
  names : fields.map Prod.fst = F.names
  valid : F.validate fields = .ok ()

end Flat

/-! ## Conversions -/

/-- How `from_dict` converts a field.  A nested contract given as null is `None`, or the value
that stands in for it. -/
inductive Kind where
  | plain
  | mapping
  | tuple
  | member (values : List String) (invalid : String)
  | memberOrNone (values : List String) (invalid : String)
  | nested (F : Flat) (orNull : Option {fields : JsonObject // F.Valid fields})
  | nestedTuple (F : Flat)

namespace Kind

def toMember (values : List String) (invalid : String) : Json → Except String Value
  | .str s => if s ∈ values then .ok (.member s) else .error invalid
  | _ => .error invalid

def coerce : Kind → Json → Except String Value
  | plain, j => .ok (.plain j)
  | mapping, j =>
      if j.truthy then (dictOf j).map fun m ↦ .plain (.obj m) else .ok (.plain (.obj []))
  | tuple, j => (tupleOf j).map .tuple
  | member values invalid, j => toMember values invalid j
  | memberOrNone _ _, .null => .ok (.plain .null)
  | memberOrNone values invalid, j => toMember values invalid j
  | nested _ none, .null => .ok (.plain .null)
  | nested _ (some fields), .null => .ok (.record fields)
  | nested F _, j => (F.fromDict j).map .record
  | nestedTuple F, j => do
      let items ← tupleOf j
      return .records (← items.mapM F.fromDict)

/-- The values a field of this kind may have. -/
def Shaped : Kind → Value → Prop
  | plain, v => ∃ j, v = .plain j
  | mapping, v => ∃ m, v = .plain (.obj m)
  | tuple, v => ∃ items, v = .tuple items
  | member values _, v => ∃ s ∈ values, v = .member s
  | memberOrNone values _, v => v = .plain .null ∨ ∃ s ∈ values, v = .member s
  | nested F orNull, v =>
      (orNull.isNone = true ∧ v = .plain .null) ∨ ∃ fields, F.Valid fields ∧ v = .record fields
  | nestedTuple F, v => ∃ items, (∀ fields ∈ items, F.Valid fields) ∧ v = .records items

end Kind

/-! ## Contracts -/

/-- A field, and what it holds when the payload does not have it. -/
structure Field where
  name : String
  kind : Kind
  absent : Option {v : Value // kind.Shaped v} := none

/-- A class derived from `Contract`. -/
structure Contract where
  name : String
  fields : List Field
  nodup : (fields.map Field.name).Nodup
  versioned : "schema_version" ∈ fields.map Field.name
  validate : List (String × Value) → Validated

namespace Contract

/-- A value of the class. -/
structure Instance (C : Contract) where
  values : List Value
  shaped : List.Forall₂ (fun f v ↦ f.kind.Shaped v) C.fields values

variable {C : Contract}

/-- The fields by name. -/
def Instance.named (v : C.Instance) : List (String × Value) :=
  (C.fields.zip v.values).map fun (f, value) ↦ (f.name, value)

def Instance.validate (v : C.Instance) : Validated := C.validate v.named

def Instance.toDict (v : C.Instance) : Except String JsonObject := do
  v.validate
  return v.named.map fun (name, value) ↦ (name, value.primitive)

end Contract

/-! ## Reading -/

open Except (bind_eq_ok map_eq_ok)

section Flat

variable {F : Flat} {payload : Json} {p fields : JsonObject}

theorem refuseUnknown_eq_ok {name : String} {allowed : List String} :
    refuseUnknown name allowed p = .ok () ↔ ∀ key ∈ p.map Prod.fst, key ∈ allowed := by
  have hnone : ((p.map Prod.fst).filter fun key ↦ key ∉ allowed) = [] ↔
      ∀ key ∈ p.map Prod.fst, key ∈ allowed := by
    simp [List.filter_eq_nil_iff]
  rw [← hnone]
  unfold refuseUnknown refuseIf
  simp

theorem Flat.names_of_read {known : List (String × Option Json)}
    (h : known.mapM (F.read p) = .ok fields) : fields.map Prod.fst = known.map Prod.fst := by
  induction Except.forall₂_of_mapM h with
  | nil => rfl
  | cons hread hrest ih =>
      rw [List.map_cons, List.map_cons, ih (Except.mapM_of_forall₂ hrest)]
      unfold read at hread
      split at hread
      · obtain rfl := Except.ok.inj hread
        rfl
      · obtain rfl := Except.ok.inj hread
        rfl
      · cases hread

/-- A payload with all the fields is read as it is. -/
theorem Flat.read_all {known : List (String × Option Json)}
    (hnames : fields.map Prod.fst = known.map Prod.fst)
    (hfields : ∀ member ∈ fields, p.get? member.1 = some member.2) :
    known.mapM (F.read p) = .ok fields := by
  refine Except.mapM_of_forall₂ ?_
  induction known generalizing fields with
  | nil =>
      obtain rfl : fields = [] := List.map_eq_nil_iff.mp hnames
      exact .nil
  | cons field known ih =>
      cases fields with
      | nil => cases hnames
      | cons member fields =>
          rw [List.map_cons, List.map_cons, List.cons.injEq] at hnames
          rw [List.forall_mem_cons] at hfields
          refine .cons ?_ (ih hnames.2 hfields.2)
          unfold read
          rw [← hnames.1, hfields.1]

theorem Flat.fromDict_eq_ok (h : F.fromDict payload = .ok fields) :
    F.Valid fields ∧ ∃ p, F.opens payload = .ok p ∧
      (∀ key ∈ p.map Prod.fst, key ∉ F.dropped → key ∈ F.names) ∧
      F.fields.mapM (F.read (p.filter fun m ↦ m.1 ∉ F.dropped)) = .ok fields := by
  obtain ⟨p, hopens, h⟩ := bind_eq_ok.mp h
  obtain ⟨_, hknown, h⟩ := bind_eq_ok.mp h
  obtain ⟨read, hread, h⟩ := bind_eq_ok.mp h
  obtain ⟨_, hvalid, h⟩ := bind_eq_ok.mp h
  obtain rfl := Except.ok.inj h
  refine ⟨⟨Flat.names_of_read hread, hvalid⟩, p, hopens, fun key hkey hkept ↦ ?_, hread⟩
  obtain ⟨member, hmember, rfl⟩ := List.mem_map.mp hkey
  refine refuseUnknown_eq_ok.mp hknown _ (List.mem_map_of_mem ?_)
  exact List.mem_filter.mpr ⟨hmember, by simpa using hkept⟩

/-- Reading back what a valid value was written to. -/
theorem Flat.fromDict_obj (hdropped : ∀ key ∈ F.names, key ∉ F.dropped) (h : F.Valid fields) :
    F.fromDict (.obj fields) = .ok fields := by
  have hnodup : (fields.map Prod.fst).Nodup := h.names ▸ F.nodup
  have hall : ∀ member ∈ fields, member.1 ∉ F.dropped := fun member hmember ↦
    hdropped _ (h.names ▸ List.mem_map_of_mem hmember)
  have hkept : (fields.filter fun m ↦ m.1 ∉ F.dropped) = fields :=
    List.filter_eq_self.mpr fun member hmember ↦ by simpa using hall member hmember
  have hread : F.fields.mapM (F.read fields) = .ok fields :=
    Flat.read_all h.names fun member hmember ↦ get?_of_mem hnodup hmember
  have hknown : refuseUnknown F.name F.names fields = .ok () :=
    refuseUnknown_eq_ok.mpr fun key hkey ↦ h.names ▸ hkey
  unfold Flat.fromDict
  simp only [F.opens_obj, bind, Except.bind, hkept, hknown, hread, h.valid]
  rfl

end Flat

/-! ## Conversions there and back -/

section Kind

variable {kind : Kind} {F : Flat} {j : Json} {v : Value}

theorem toMember_eq_ok {values : List String} {invalid : String}
    (h : Kind.toMember values invalid j = .ok v) : ∃ s ∈ values, v = .member s ∧ j = .str s := by
  cases j with
  | str s =>
      by_cases hs : s ∈ values
      · simp only [Kind.toMember, if_pos hs, Except.ok.injEq] at h
        exact ⟨s, hs, h.symm, rfl⟩
      · simp [Kind.toMember, hs] at h
  | _ => cases h

theorem coerce_nested (orNull : Option {fields : JsonObject // F.Valid fields})
    (hj : j.isNull = false) : (Kind.nested F orNull).coerce j = (F.fromDict j).map .record := by
  cases j with
  | null => cases hj
  | _ => cases orNull <;> rfl

/-- A conversion that succeeds gives a value of the field. -/
theorem shaped_of_coerce (h : kind.coerce j = .ok v) : kind.Shaped v := by
  cases kind with
  | plain =>
      obtain rfl := Except.ok.inj h
      exact ⟨j, rfl⟩
  | mapping =>
      simp only [Kind.coerce] at h
      split at h
      · obtain ⟨m, _, rfl⟩ := map_eq_ok.mp h
        exact ⟨m, rfl⟩
      · obtain rfl := Except.ok.inj h
        exact ⟨[], rfl⟩
  | tuple =>
      obtain ⟨items, _, rfl⟩ := map_eq_ok.mp h
      exact ⟨items, rfl⟩
  | member values invalid =>
      obtain ⟨s, hs, rfl, _⟩ := toMember_eq_ok h
      exact ⟨s, hs, rfl⟩
  | memberOrNone values invalid =>
      cases hj : j.isNull with
      | true =>
          obtain rfl : j = .null := by cases j <;> simp_all [Json.isNull]
          exact .inl (Except.ok.inj h).symm
      | false =>
          have htoMember : Kind.toMember values invalid j = .ok v := by
            cases j <;> first | exact h | cases hj
          obtain ⟨s, hs, rfl, _⟩ := toMember_eq_ok htoMember
          exact .inr ⟨s, hs, rfl⟩
  | nested F orNull =>
      cases hj : j.isNull with
      | true =>
          obtain rfl : j = .null := by cases j <;> simp_all [Json.isNull]
          cases orNull with
          | none => exact .inl ⟨rfl, (Except.ok.inj h).symm⟩
          | some fields => exact .inr ⟨fields, fields.2, (Except.ok.inj h).symm⟩
      | false =>
          rw [coerce_nested orNull hj] at h
          obtain ⟨fields, hfields, rfl⟩ := map_eq_ok.mp h
          exact .inr ⟨fields, (Flat.fromDict_eq_ok hfields).1, rfl⟩
  | nestedTuple F =>
      obtain ⟨items, _, h⟩ := bind_eq_ok.mp h
      obtain ⟨records, hrecords, h⟩ := bind_eq_ok.mp h
      obtain rfl := Except.ok.inj h
      refine ⟨records, fun fields hfields ↦ ?_, rfl⟩
      obtain ⟨item, _, hitem⟩ := (Except.mem_of_mapM hrecords).2 fields hfields
      exact (Flat.fromDict_eq_ok hitem).1

/-- `coerce` with the shape of its value. -/
def Kind.convert (kind : Kind) (j : Json) : Except String {v : Value // kind.Shaped v} :=
  match h : kind.coerce j with
  | .ok v => .ok ⟨v, shaped_of_coerce h⟩
  | .error message => .error message

theorem convert_eq_ok {v : {v : Value // kind.Shaped v}} :
    kind.convert j = .ok v ↔ kind.coerce j = .ok v.1 := by
  unfold Kind.convert
  split
  · next v' h => simp [h, Subtype.ext_iff]
  · next h => simp [h]

/-- The nested contracts of a field do not drop fields of their own. -/
def Kind.Keeps : Kind → Prop
  | nested F _ | nestedTuple F => ∀ key ∈ F.names, key ∉ F.dropped
  | _ => True

instance : DecidablePred Kind.Keeps
  | .nested F _ | .nestedTuple F => inferInstanceAs (Decidable (∀ key ∈ F.names, key ∉ F.dropped))
  | .plain | .mapping | .tuple | .member _ _ | .memberOrNone _ _ => isTrue trivial

/-- Converting what a value was written to gives the value. -/
theorem coerce_primitive (hkeeps : kind.Keeps) (h : kind.Shaped v) :
    kind.coerce v.primitive = .ok v := by
  cases kind with
  | plain =>
      obtain ⟨j, rfl⟩ := h
      rfl
  | mapping =>
      obtain ⟨m, rfl⟩ := h
      cases m <;> rfl
  | tuple =>
      obtain ⟨items, rfl⟩ := h
      rfl
  | member values invalid =>
      obtain ⟨s, hs, rfl⟩ := h
      simp [Kind.coerce, Kind.toMember, Value.primitive, hs]
  | memberOrNone values invalid =>
      rcases h with rfl | ⟨s, hs, rfl⟩
      · rfl
      · simp [Kind.coerce, Kind.toMember, Value.primitive, hs]
  | nested F orNull =>
      rcases h with ⟨hnone, rfl⟩ | ⟨fields, hvalid, rfl⟩
      · obtain rfl := Option.isNone_iff_eq_none.mp hnone
        rfl
      · rw [Value.primitive, coerce_nested orNull rfl, Flat.fromDict_obj hkeeps hvalid]
        rfl
  | nestedTuple F =>
      obtain ⟨records, hvalid, rfl⟩ := h
      have hitems : (records.map Json.obj).mapM F.fromDict = .ok records := by
        refine Except.mapM_of_forall₂ (List.forall₂_map_left_iff.mpr ?_)
        exact List.forall₂_same.mpr fun fields hfields ↦
          Flat.fromDict_obj hkeeps (hvalid fields hfields)
      change (records.map Json.obj).mapM F.fromDict >>= (fun records ↦ pure (Value.records records)) = _
      rw [hitems]
      rfl

/-- What becomes of an object that is read as a nested contract: its members keep their values,
those that the class drops are gone, and the fields that were not given have their defaults. -/
structure Flat.Completed (F : Flat) (m fields : JsonObject) : Prop where
  names : fields.map Prod.fst = F.names
  kept : ∀ key x, m.get? key = some x → key ∉ F.dropped → fields.get? key = some x
  dropped : ∀ key ∈ F.dropped, fields.get? key = none
  completed : ∀ field ∈ F.fields, m.get? field.1 = none → ∃ x, field.2 = some x ∧
    fields.get? field.1 = some x

def Flat.Completes (F : Flat) (j j' : Json) : Prop :=
  ∃ m fields, j = .obj m ∧ j' = .obj fields ∧ F.Completed m fields

/-- The JSON values a field is declared for. -/
def Kind.Proper : Kind → Json → Prop
  | tuple, j => ∃ items, j = .arr items
  | mapping, j | nested _ _, j => j = .null ∨ ∃ m, j = .obj m
  | nestedTuple _, j => ∃ items, j = .arr items ∧ ∀ item ∈ items, ∃ m, item = .obj m
  | _, _ => True

/-- What the value of a field is written to when it was read from `j`. -/
def Kind.Kept : Kind → Json → Json → Prop
  | mapping, j, j' => j' = if j.isNull then .obj [] else j
  | nested F orNull, j, j' =>
      (j = .null ∧ j' = (orNull.map fun fields ↦ .obj fields.1).getD .null) ∨ F.Completes j j'
  | nestedTuple F, j, j' =>
      ∃ items items', j = .arr items ∧ j' = .arr items' ∧ List.Forall₂ F.Completes items items'
  | _, j, j' => j' = j

theorem Flat.completes_of_fromDict {m fields : JsonObject}
    (hkeeps : ∀ key ∈ F.names, key ∉ F.dropped) (h : F.fromDict (.obj m) = .ok fields) :
    F.Completes (.obj m) (.obj fields) := by
  obtain ⟨hvalid, p, hopens, hknown, hread⟩ := Flat.fromDict_eq_ok h
  obtain rfl : m = p := Except.ok.inj ((F.opens_obj m).symm.trans hopens)
  have hnodup : (fields.map Prod.fst).Nodup := hvalid.names ▸ F.nodup
  -- What the loop over the fields finds is what the payload has.
  have hfound : ∀ field ∈ F.fields,
      JsonObject.get? (m.filter fun member ↦ member.1 ∉ F.dropped) field.1 = m.get? field.1 :=
    fun field hfield ↦ get?_filter (p := fun key ↦ key ∉ F.dropped)
      (by simpa using hkeeps _ (List.mem_map_of_mem hfield))
  refine ⟨m, fields, rfl, rfl, hvalid.names, fun key x hget hkept ↦ ?_, fun key hkey ↦ ?_,
    fun field hfield habsent ↦ ?_⟩
  · have hname : key ∈ F.names := hknown key (List.mem_map_of_mem (mem_of_get? hget)) hkept
    obtain ⟨field, hfield, rfl⟩ := List.mem_map.mp hname
    obtain ⟨member, hmember, hread⟩ := (Except.mem_of_mapM hread).1 field hfield
    rw [Flat.read, hfound field hfield, hget] at hread
    obtain rfl := Except.ok.inj hread
    exact get?_of_mem hnodup hmember
  · cases hget : fields.get? key with
    | none => rfl
    | some x =>
        have hname : key ∈ F.names := hvalid.names ▸ List.mem_map_of_mem (mem_of_get? hget)
        exact absurd hkey (hkeeps key hname)
  · obtain ⟨member, hmember, hread⟩ := (Except.mem_of_mapM hread).1 field hfield
    rw [Flat.read, hfound field hfield, habsent] at hread
    cases hdefault : field.2 with
    | none =>
        rw [hdefault] at hread
        cases hread
    | some x =>
        rw [hdefault] at hread
        obtain rfl := Except.ok.inj hread
        exact ⟨x, rfl, get?_of_mem hnodup hmember⟩

/-- A value that a field is declared for is kept, up to the completion of nested contracts. -/
theorem kept_of_coerce (hkeeps : kind.Keeps) (h : kind.coerce j = .ok v)
    (hproper : kind.Proper j) : kind.Kept j v.primitive := by
  cases kind with
  | plain =>
      obtain rfl := Except.ok.inj h
      rfl
  | mapping =>
      rcases hproper with rfl | ⟨m, rfl⟩
      · obtain rfl := Except.ok.inj h
        rfl
      · cases m with
        | nil =>
            obtain rfl := Except.ok.inj h
            rfl
        | cons member m =>
            obtain rfl := Except.ok.inj h
            rfl
  | tuple =>
      obtain ⟨items, rfl⟩ := hproper
      obtain rfl := Except.ok.inj h
      rfl
  | member values invalid =>
      obtain ⟨s, _, rfl, rfl⟩ := toMember_eq_ok h
      rfl
  | memberOrNone values invalid =>
      cases hj : j.isNull with
      | true =>
          obtain rfl : j = .null := by cases j <;> simp_all [Json.isNull]
          obtain rfl := Except.ok.inj h
          rfl
      | false =>
          have htoMember : Kind.toMember values invalid j = .ok v := by
            cases j <;> first | exact h | cases hj
          obtain ⟨s, _, rfl, rfl⟩ := toMember_eq_ok htoMember
          rfl
  | nested F orNull =>
      rcases hproper with rfl | ⟨m, rfl⟩
      · cases orNull with
        | none =>
            obtain rfl := Except.ok.inj h
            exact .inl ⟨rfl, rfl⟩
        | some fields =>
            obtain rfl := Except.ok.inj h
            exact .inl ⟨rfl, rfl⟩
      · rw [coerce_nested orNull rfl] at h
        obtain ⟨fields, hfields, rfl⟩ := map_eq_ok.mp h
        exact .inr (Flat.completes_of_fromDict hkeeps hfields)
  | nestedTuple F =>
      obtain ⟨items, rfl, hobjects⟩ := hproper
      obtain ⟨_, hiterate, h⟩ := bind_eq_ok.mp h
      obtain rfl := Except.ok.inj hiterate
      obtain ⟨records, hrecords, h⟩ := bind_eq_ok.mp h
      obtain rfl := Except.ok.inj h
      refine ⟨items, _, rfl, rfl, List.forall₂_map_right_iff.mpr ?_⟩
      refine ((List.forall₂_and_left items records).mpr
        ⟨hobjects, Except.forall₂_of_mapM hrecords⟩).imp ?_
      rintro item fields ⟨⟨m, rfl⟩, hitem⟩
      exact Flat.completes_of_fromDict hkeeps hitem

end Kind

/-! ## The two directions -/

namespace Contract

/-- What is raised when a field without a default is missing. -/
def missing (name : String) (f : Field) : String :=
  match f.kind with
  | .member _ invalid => invalid
  | _ => name ++ " payload does not match its fields: missing " ++ quoted f.name

/-- One of the constructor's arguments. -/
def read (name : String) (p : JsonObject) (f : Field) :
    Except String {v : Value // f.kind.Shaped v} :=
  match p.get? f.name with
  | some j => f.kind.convert j
  | none =>
      match f.absent with
      | some v => .ok v
      | none => .error (missing name f)

def readAll (name : String) (p : JsonObject) : (fields : List Field) →
    Except String {values : List Value // List.Forall₂ (fun f v ↦ f.kind.Shaped v) fields values}
  | [] => .ok ⟨[], .nil⟩
  | f :: fields => do
      let v ← read name p f
      let values ← readAll name p fields
      return ⟨v.1 :: values.1, .cons v.2 values.2⟩

variable (C : Contract)

/-- `known_payload` -/
def knownPayload (p : JsonObject) : Validated := do
  refuseIf ("schema_version" ∉ p.map Prod.fst) (C.name ++ " requires schema_version")
  refuseUnknown C.name (C.fields.map Field.name) p

def fromDict (p : JsonObject) : Except String C.Instance := do
  C.knownPayload p
  let values ← readAll C.name p C.fields
  let v : C.Instance := ⟨values.1, values.2⟩
  v.validate
  return v

variable {C} {v : C.Instance} {p d : JsonObject} {name : String}

theorem knownPayload_eq_ok : C.knownPayload p = .ok () ↔
    "schema_version" ∈ p.map Prod.fst ∧ ∀ key ∈ p.map Prod.fst, key ∈ C.fields.map Field.name := by
  have hunknown : refuseUnknown C.name (C.fields.map Field.name) p = .ok () ↔
      ∀ key ∈ p.map Prod.fst, key ∈ C.fields.map Field.name := refuseUnknown_eq_ok
  unfold knownPayload
  rw [bind_eq_ok, ← hunknown]
  by_cases hversion : "schema_version" ∈ p.map Prod.fst <;> simp [refuseIf, hversion]

theorem toDict_eq_ok : v.toDict = .ok d ↔
    v.validate = .ok () ∧ v.named.map (fun (name, value) ↦ (name, value.primitive)) = d := by
  unfold Instance.toDict
  cases v.validate <;> simp [bind, Except.bind, pure, Except.pure]

/-- A payload that gives every field what a value was written to is read as the value. -/
theorem readAll_eq_ok {fields : List Field} {values : List Value}
    (hkeeps : ∀ f ∈ fields, f.kind.Keeps)
    (hshaped : List.Forall₂ (fun f v ↦ f.kind.Shaped v) fields values)
    (hgiven : List.Forall₂ (fun f v ↦ p.get? f.name = some v.primitive) fields values) :
    readAll name p fields = .ok ⟨values, hshaped⟩ := by
  induction fields generalizing values with
  | nil =>
      cases hshaped
      rfl
  | cons f fields ih =>
      cases hgiven with
      | @cons _ v _ values hget hrest =>
          rw [List.forall_mem_cons] at hkeeps
          cases hshaped with
          | cons hv hvs =>
              have hread : read name p f = .ok ⟨v, hv⟩ := by
                rw [read, hget]
                exact convert_eq_ok.mpr (coerce_primitive hkeeps.1 hv)
              simp only [readAll, hread, ih hkeeps.2 hvs hrest, bind, Except.bind]
              rfl

/-- The value of a field of a payload that was read. -/
theorem coerce_of_readAll {fields : List Field} {values}
    (h : readAll name p fields = .ok values) :
    List.Forall₂ (fun f v ↦ ∀ j, p.get? f.name = some j → f.kind.coerce j = .ok v)
      fields values.1 := by
  induction fields with
  | nil =>
      obtain rfl := Except.ok.inj h
      exact .nil
  | cons f fields ih =>
      obtain ⟨v, hv, h⟩ := bind_eq_ok.mp h
      obtain ⟨rest, hrest, h⟩ := bind_eq_ok.mp h
      obtain rfl := Except.ok.inj h
      refine .cons (fun j hj ↦ ?_) (ih hrest)
      rw [read, hj] at hv
      exact convert_eq_ok.mp hv

theorem fromDict_eq_ok (h : C.fromDict p = .ok v) :
    C.knownPayload p = .ok () ∧ v.validate = .ok () ∧
      List.Forall₂ (fun f v ↦ ∀ j, p.get? f.name = some j → f.kind.coerce j = .ok v)
        C.fields v.values := by
  obtain ⟨_, hknown, h⟩ := bind_eq_ok.mp h
  obtain ⟨values, hvalues, h⟩ := bind_eq_ok.mp h
  obtain ⟨_, hvalid, h⟩ := bind_eq_ok.mp h
  obtain rfl := Except.ok.inj h
  exact ⟨hknown, hvalid, coerce_of_readAll hvalues⟩

theorem names_named (v : C.Instance) : v.named.map Prod.fst = C.fields.map Field.name := by
  have hlength := v.shaped.length_eq
  unfold Instance.named
  rw [List.map_map]
  have hfst : (Prod.fst ∘ fun (x : Field × Value) ↦ (x.1.name, x.2)) = Field.name ∘ Prod.fst := rfl
  rw [show (fun x : Field × Value ↦ match x with | (f, value) => (f.name, value)) =
    fun x ↦ (x.1.name, x.2) from rfl, hfst, ← List.map_map, List.map_fst_zip hlength.le]

/-- Every field is written under its name. -/
theorem given_of_toDict (h : v.toDict = .ok d) :
    d.map Prod.fst = C.fields.map Field.name ∧
      List.Forall₂ (fun f v ↦ d.get? f.name = some v.primitive) C.fields v.values := by
  obtain ⟨_, rfl⟩ := toDict_eq_ok.mp h
  have hnames : (v.named.map fun (name, value) ↦ (name, value.primitive)).map Prod.fst =
      C.fields.map Field.name := by
    rw [← names_named v, List.map_map]
    rfl
  refine ⟨hnames, List.forall₂_iff_zip.mpr ⟨v.shaped.length_eq, fun {f value} hmem ↦ ?_⟩⟩
  refine get?_of_mem (hnames ▸ C.nodup) (List.mem_map.mpr ⟨(f.name, value), ?_, rfl⟩)
  exact List.mem_map.mpr ⟨(f, value), hmem, rfl⟩

/-- Reading what a valid value was written to gives the value. -/
theorem fromDict_toDict (hkeeps : ∀ f ∈ C.fields, f.kind.Keeps) (h : v.validate = .ok ()) :
    v.toDict >>= C.fromDict = .ok v := by
  obtain ⟨d, hd⟩ : ∃ d, v.toDict = .ok d := ⟨_, toDict_eq_ok.mpr ⟨h, rfl⟩⟩
  obtain ⟨hnames, hgiven⟩ := given_of_toDict hd
  have hknown : C.knownPayload d = .ok () := by
    rw [knownPayload_eq_ok, hnames]
    exact ⟨C.versioned, fun key hkey ↦ hkey⟩
  have hread : readAll C.name d C.fields = .ok ⟨v.values, v.shaped⟩ :=
    readAll_eq_ok hkeeps v.shaped hgiven
  rw [hd]
  change C.fromDict d = .ok v
  unfold fromDict
  simp only [hknown, hread, bind, Except.bind, h]
  rfl

/-- Writing what was read from a payload keeps its members. -/
theorem toDict_fromDict (hkeeps : ∀ f ∈ C.fields, f.kind.Keeps) (h : C.fromDict p = .ok v)
    (hproper : ∀ f ∈ C.fields, ∀ j, p.get? f.name = some j → f.kind.Proper j) :
    ∃ d, v.toDict = .ok d ∧ ∀ key j, p.get? key = some j →
      ∃ f ∈ C.fields, f.name = key ∧ ∃ j', d.get? key = some j' ∧ f.kind.Kept j j' := by
  obtain ⟨hknown, hvalid, hcoerce⟩ := fromDict_eq_ok h
  obtain ⟨d, hd⟩ : ∃ d, v.toDict = .ok d := ⟨_, toDict_eq_ok.mpr ⟨hvalid, rfl⟩⟩
  obtain ⟨_, hgiven⟩ := given_of_toDict hd
  refine ⟨d, hd, fun key j hget ↦ ?_⟩
  have hname := (knownPayload_eq_ok.mp hknown).2 key (List.mem_map_of_mem (mem_of_get? hget))
  obtain ⟨f, hf, rfl⟩ := List.mem_map.mp hname
  obtain ⟨value, hcoerced, hwritten⟩ : ∃ value, f.kind.coerce j = .ok value ∧
      d.get? f.name = some value.primitive := by
    obtain ⟨i, hi, rfl⟩ := List.getElem_of_mem hf
    have hi' : i < v.values.length := by
      rw [← v.shaped.length_eq]
      exact hi
    exact ⟨v.values[i], (List.forall₂_iff_get.mp hcoerce).2 i hi hi' j hget,
      (List.forall₂_iff_get.mp hgiven).2 i hi hi'⟩
  exact ⟨f, hf, rfl, _, hwritten, kept_of_coerce (hkeeps f hf) hcoerced (hproper f hf j hget)⟩

end Contract

end ChipEvolve.Payload
