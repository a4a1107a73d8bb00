import ChipEvolve.Outcome

/-!
# Builtins on values without a static type

`tuple`, `set` and `dict` of a dynamically typed language.  A type of values has to tell texts,
lists and string-keyed mappings apart from its other values, which are scalars here.  A builtin
returns, or raises an exception of one of two classes.
-/

namespace ChipEvolve.Builtins

open Except (Raises Returns)

/-! ## Values -/

inductive Shape (V : Type) where
  | scalar
  | text (s : String)
  | list (items : List V)
  | mapping (members : List (String × V))

class Untyped (V : Type) where
  shape : V → Shape V
  ofText : String → V
  shape_ofText (s : String) : shape (ofText s) = .text s

open Untyped

attribute [simp] shape_ofText

inductive Failure where
  | typeError (message : String)
  | valueError (message : String)

def Failure.message : Failure → String
  | typeError message | valueError message => message

section Values

variable {V : Type} [Untyped V]

def text? (v : V) : Option String :=
  match shape v with
  | .text s => some s
  | _ => none

def hashable (v : V) : Bool :=
  match shape v with
  | .scalar | .text _ => true
  | _ => false

/-- The items of a value, as a loop or `tuple(…)` takes them. -/
def iterate (v : V) : Except Failure (List V) :=
  match shape v with
  | .scalar => .error (.typeError "object is not iterable")
  | .text s => .ok (s.toList.map fun c ↦ ofText (String.singleton c))
  | .list items => .ok items
  | .mapping members => .ok (members.map fun m ↦ ofText m.1)

/-- `set(value)` -/
def asSet (v : V) : Except Failure (List V) := do
  let items ← iterate v
  if items.all hashable then .ok items else .error (.typeError "unhashable type")

/-- `members[key] = value` -/
def assign (members : List (String × V)) (key : String) (value : V) : List (String × V) :=
  if members.any fun m ↦ m.1 = key then
    members.map fun m ↦ if m.1 = key then (key, value) else m
  else members ++ [(key, value)]

/-- What `dict(…)` takes from one element; a key that is no text is kept apart. -/
def dictPair (element : V) : Except Failure (Option (String × V)) :=
  match iterate element with
  | .error _ => .error (.typeError "cannot convert dictionary update sequence element")
  | .ok [key, value] =>
      match text? key with
      | some key => .ok (some (key, value))
      | none => if hashable key then .ok none else .error (.typeError "unhashable type")
  | .ok _ => .error (.valueError "dictionary update sequence element; length 2 is required")

/-- The dictionary of the pairs, or nothing when one of its keys is no text. -/
def gather (pairs : List (Option (String × V))) : Option (List (String × V)) :=
  if pairs.all Option.isSome then
    some ((pairs.filterMap id).foldl (fun members p ↦ assign members p.1 p.2) [])
  else none

/-- `dict(value)` -/
def dict (v : V) : Except Failure (Option (List (String × V))) :=
  match shape v with
  | .mapping members => .ok (some members)
  | _ => do
      let items ← iterate v
      return gather (← items.mapM dictPair)

/-! ## What the builtins take -/

def iterable (v : V) : Bool :=
  match shape v with
  | .scalar => false
  | _ => true

/-- An element that `dict(…)` takes. -/
def pairable (element : V) : Bool :=
  match iterate element with
  | .ok [key, _] => hashable key
  | _ => false

/-- An element that `dict(…)` takes under a text. -/
def textPairable (element : V) : Bool :=
  match iterate element with
  | .ok [key, _] => (text? key).isSome
  | _ => false

/-- What `dict(…)` takes. -/
def dictable (v : V) : Bool :=
  match shape v with
  | .scalar => false
  | .text s => s = ""
  | .list items => items.all pairable
  | .mapping _ => true

variable {v : V} {items : List V}

theorem hashable_of_text (h : (text? v).isSome) : hashable v = true := by
  unfold text? at h
  unfold hashable
  split at h
  · next hshape => rw [hshape]
  · cases h

@[simp] theorem text?_ofText (s : String) : text? (ofText s : V) = some s := by
  simp [text?]

theorem iterable_iff : iterable v = true ↔ Returns (iterate v) := by
  unfold iterable iterate
  cases shape v <;> simp

theorem asSet_eq_ok {keys : List V} :
    asSet v = .ok keys ↔ iterate v = .ok keys ∧ keys.all hashable = true := by
  unfold asSet
  rw [Except.bind_eq_ok]
  constructor
  · rintro ⟨items, hitems, h⟩
    split at h
    · next hall =>
        obtain rfl := Except.ok.inj h
        exact ⟨hitems, hall⟩
    · cases h
  · rintro ⟨hitems, hall⟩
    exact ⟨keys, hitems, if_pos hall⟩

theorem returns_asSet : Returns (asSet v) ↔
    ∃ keys, iterate v = .ok keys ∧ keys.all hashable = true := by
  simp only [Returns, asSet_eq_ok]

theorem returns_dictPair : Returns (dictPair v) ↔ pairable v = true := by
  unfold dictPair pairable
  split
  · next hitems => simp [hitems]
  · next key value hitems =>
      rw [hitems]
      dsimp only
      cases htext : text? key with
      | some s => simp [hashable_of_text (Option.isSome_of_eq_some htext)]
      | none => cases hashable key <;> simp
  · next items htwo hitems =>
      rw [hitems]
      split
      · next key value heq => exact absurd (Except.ok.inj heq) (htwo key value)
      · simp

theorem isSome_dictPair {pair : Option (String × V)} (h : dictPair v = .ok pair) :
    pair.isSome = textPairable v := by
  unfold dictPair at h
  unfold textPairable
  split at h
  · cases h
  · next key value hitems =>
      rw [hitems]
      dsimp only
      cases htext : text? key with
      | some s =>
          rw [htext] at h
          obtain rfl := Except.ok.inj h
          rfl
      | none =>
          rw [htext] at h
          dsimp only at h
          split at h
          · obtain rfl := Except.ok.inj h
            rfl
          · cases h
  · cases h

theorem pairable_of_text (h : textPairable v = true) : pairable v = true := by
  unfold textPairable at h
  unfold pairable
  split at h
  · exact hashable_of_text h
  · cases h

/-- A text of another length than two is no pair. -/
theorem not_pairable_text {s : String} (hv : shape v = .text s) (h : s.toList.length ≠ 2) :
    pairable v = false := by
  unfold pairable iterate
  rw [hv]
  dsimp only
  split
  · next key value hitems =>
      have hlength : s.toList.length = 2 := by
        simpa using congrArg List.length (Except.ok.inj hitems)
      exact absurd hlength h
  · rfl

/-- Making a dictionary of what is none goes by its items. -/
theorem dict_of_iterate (hv : ∀ members, shape v ≠ .mapping members)
    (hitems : iterate v = .ok items) : dict v = (items.mapM dictPair).map gather := by
  have hdict : dict v = do
      let items ← iterate v
      return gather (← items.mapM dictPair) := by
    unfold dict
    split
    · next members hshape => exact absurd hshape (hv members)
    · rfl
  rw [hdict, hitems]
  change (items.mapM dictPair).bind _ = _
  cases items.mapM dictPair <;> rfl

theorem returns_dict : Returns (dict v) ↔ dictable v = true := by
  have hpairs : ∀ items : List V,
      Returns ((items.mapM dictPair).map gather) ↔ items.all pairable = true := by
    intro items
    rw [Except.returns_map, Except.returns_mapM]
    simp [returns_dictPair]
  cases hshape : shape v with
  | mapping members => simp [dict, dictable, hshape]
  | scalar => simp [dict, dictable, iterate, hshape, bind, Except.bind]
  | list items =>
      have hitems : iterate v = .ok items := by simp [iterate, hshape]
      rw [dict_of_iterate (by simp [hshape]) hitems, hpairs]
      simp [dictable, hshape]
  | text s =>
      have hitems : iterate v = .ok (s.toList.map fun c ↦ ofText (String.singleton c)) := by
        simp [iterate, hshape]
      rw [dict_of_iterate (by simp [hshape]) hitems, hpairs]
      cases hs : s.toList with
      | nil => simp [dictable, hshape, String.toList_eq_nil_iff.mp hs]
      | cons c cs =>
          have hnonempty : s ≠ "" := fun h ↦ by simp [h] at hs
          have hchar : pairable (ofText (String.singleton c) : V) = false :=
            not_pairable_text (shape_ofText _) (by simp)
          simp [dictable, hshape, hnonempty, hchar]

theorem dictable_of_iterate_nil (h : iterate v = .ok []) : dictable v = true := by
  rw [← returns_dict]
  by_cases hmapping : ∃ members, shape v = .mapping members
  · obtain ⟨members, hshape⟩ := hmapping
    exact ⟨some members, by simp [dict, hshape]⟩
  · push Not at hmapping
    exact ⟨some [], by rw [dict_of_iterate hmapping h]; rfl⟩

/-- The pairs make a dictionary of texts exactly when each has one for its key. -/
theorem isSome_gather {pairs : List (Option (String × V))}
    (h : items.mapM dictPair = .ok pairs) :
    (gather pairs).isSome = true ↔ items.all textPairable = true := by
  obtain ⟨hitems, hpairs⟩ := Except.mem_of_mapM h
  have hall : (gather pairs).isSome = true ↔ pairs.all Option.isSome = true := by
    unfold gather
    split <;> simp_all
  rw [hall, List.all_eq_true, List.all_eq_true]
  constructor
  · intro hsome item hitem
    obtain ⟨pair, hpair, hread⟩ := hitems item hitem
    exact isSome_dictPair hread ▸ hsome pair hpair
  · intro htext pair hpair
    obtain ⟨item, hitem, hread⟩ := hpairs pair hpair
    exact (isSome_dictPair hread).trans (htext item hitem)

/-- Of a list, a string-keyed dictionary is made when each item is a pair under a text. -/
theorem dict_list (hv : shape v = .list items) :
    (∃ members, dict v = .ok (some members)) ↔ items.all textPairable = true := by
  have hitems : iterate v = .ok items := by simp [iterate, hv]
  rw [dict_of_iterate (by simp [hv]) hitems]
  constructor
  · rintro ⟨members, h⟩
    obtain ⟨pairs, hpairs, hgather⟩ := Except.map_eq_ok.mp h
    exact (isSome_gather hpairs).mp (Option.isSome_of_eq_some hgather)
  · intro h
    obtain ⟨pairs, hpairs⟩ := Except.returns_mapM.mpr fun item hitem ↦
      returns_dictPair.mpr (pairable_of_text (List.all_eq_true.mp h item hitem))
    obtain ⟨members, hmembers⟩ := Option.isSome_iff_exists.mp ((isSome_gather hpairs).mpr h)
    exact ⟨members, by rw [hpairs, ← hmembers]; rfl⟩

/-- Only a list of pairs makes a dictionary with a key that is no text. -/
theorem dict_eq_none : dict v = .ok none ↔
    dictable v = true ∧ ∃ items, shape v = .list items ∧ items.all textPairable = false := by
  constructor
  · intro h
    have hdictable : dictable v = true := returns_dict.mp ⟨_, h⟩
    refine ⟨hdictable, ?_⟩
    cases hshape : shape v with
    | mapping members => simp [dict, hshape] at h
    | scalar => simp [dictable, hshape] at hdictable
    | text s =>
        obtain rfl : s = "" := by simpa [dictable, hshape] using hdictable
        have hitems : iterate v = .ok [] := by simp [iterate, hshape]
        rw [dict_of_iterate (by simp [hshape]) hitems] at h
        cases h
    | list items =>
        refine ⟨items, rfl, Bool.eq_false_iff.mpr fun htext ↦ ?_⟩
        obtain ⟨members, hmembers⟩ := (dict_list hshape).mpr htext
        rw [h] at hmembers
        cases hmembers
  · rintro ⟨hdictable, items, hshape, htext⟩
    obtain ⟨members, hmembers⟩ := returns_dict.mpr hdictable
    cases members with
    | none => exact hmembers
    | some members =>
        rw [(dict_list hshape).mp ⟨members, hmembers⟩] at htext
        cases htext

end Values

end ChipEvolve.Builtins
