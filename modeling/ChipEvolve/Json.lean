import ChipEvolve.Builtins
import Mathlib.Data.Rat.Defs
import Mathlib.Tactic.Common

/-!
# JSON values with the reading language's truth and equality

Finite JSON values as the reading program sees them: integers and floating
numbers are told apart, a float stands for the rational it denotes, and an
object is the list of its members in order, with distinct keys.
-/

inductive Json where
  | null
  | bool (b : Bool)
  | int (n : Int)
  | float (q : Rat)
  | str (s : String)
  | arr (items : List Json)
  | obj (members : List (String × Json))

/-- A string-keyed object. -/
abbrev JsonObject := List (String × Json)

namespace JsonObject

/-- `mapping.get(key)`, the last member of that name. -/
def get? (members : JsonObject) (key : String) : Option Json :=
  (members.reverse.find? fun m ↦ m.1 = key).map Prod.snd

/-- `mapping[key] = value` -/
def set (members : JsonObject) (key : String) (value : Json) : JsonObject :=
  ChipEvolve.Builtins.assign members key value

theorem get?_set (members : JsonObject) (key key' : String) (value : Json) :
    (set members key value).get? key' = if key = key' then some value else members.get? key' := by
  unfold set ChipEvolve.Builtins.assign get?
  by_cases hany : (members.any fun m ↦ m.1 = key) = true
  · have hkeys : ((fun m : String × Json ↦ (decide (m.1 = key') : Bool)) ∘
        fun m ↦ if m.1 = key then (key, value) else m) = fun m ↦ decide (m.1 = key') := by
      funext m
      by_cases hm : m.1 = key <;> simp [hm]
    rw [if_pos hany, ← List.map_reverse, List.find?_map, hkeys]
    cases hfound : members.reverse.find? fun m ↦ decide (m.1 = key') with
    | some found =>
        have hkey := List.find?_some hfound
        simp only [decide_eq_true_eq] at hkey
        by_cases hsame : key = key'
        · simp [hkey, hsame]
        · simp [hkey, hsame, Ne.symm hsame]
    | none =>
        have hne : key ≠ key' := by
          rintro rfl
          obtain ⟨m, hm, hkey⟩ := List.any_eq_true.mp hany
          exact List.find?_eq_none.mp hfound m (List.mem_reverse.mpr hm) hkey
        simp [hne]
  · rw [if_neg hany, List.reverse_append, List.reverse_singleton, List.singleton_append,
      List.find?_cons]
    by_cases hsame : key = key' <;> simp [hsame]

end JsonObject

namespace Json

/-! ## Builtins -/

section Builtins

open ChipEvolve.Builtins (Untyped text?)

instance : Untyped Json where
  shape
    | null | bool _ | int _ | float _ => .scalar
    | str s => .text s
    | arr items => .list items
    | obj members => .mapping members
  ofText := str
  shape_ofText _ := rfl

@[simp] theorem ofText_eq (s : String) : Untyped.ofText s = str s := rfl

@[simp] theorem shape_null : Untyped.shape null = .scalar := rfl

@[simp] theorem shape_bool (b : Bool) : Untyped.shape (bool b) = .scalar := rfl

@[simp] theorem shape_int (n : Int) : Untyped.shape (int n) = .scalar := rfl

@[simp] theorem shape_float (q : Rat) : Untyped.shape (float q) = .scalar := rfl

@[simp] theorem shape_str (s : String) : Untyped.shape (str s) = .text s := rfl

@[simp] theorem shape_arr (items : List Json) : Untyped.shape (arr items) = .list items := rfl

@[simp] theorem shape_obj (members : List (String × Json)) :
    Untyped.shape (obj members) = .mapping members := rfl

theorem shape_eq_list {j : Json} {items : List Json} :
    Untyped.shape j = .list items ↔ j = arr items := by
  cases j <;> simp

theorem text?_eq_some {j : Json} {s : String} : text? j = some s ↔ j = str s := by
  cases j <;> simp [text?]

end Builtins

/-! ## Truth and equality -/

/-- `bool(value)` -/
def truthy : Json → Bool
  | null => false
  | bool b => b
  | int n => n ≠ 0
  | float q => q ≠ 0
  | str s => s ≠ ""
  | arr items => !items.isEmpty
  | obj members => !members.isEmpty

/-- `value is None` -/
def isNull : Json → Bool
  | null => true
  | _ => false

/-- The number a value compares as; a boolean is one of the integers 0 and 1. -/
def number? : Json → Option Rat
  | bool b => some (if b then 1 else 0)
  | int n => some n
  | float q => some q
  | _ => none

mutual

/-- `left == right`: numbers by value, objects without regard to order. -/
def pyEq : Json → Json → Bool
  | null, null => true
  | str s, str s' => s = s'
  | arr xs, arr ys => pyEqItems xs ys
  | obj ms, obj ms' => ms.length = ms'.length && pyEqMembers ms ms'
  | x, y =>
      match number? x, number? y with
      | some a, some b => a = b
      | _, _ => false

def pyEqItems : List Json → List Json → Bool
  | [], [] => true
  | x :: xs, y :: ys => pyEq x y && pyEqItems xs ys
  | _, _ => false

def pyEqMembers : List (String × Json) → List (String × Json) → Bool
  | [], _ => true
  | (k, x) :: ms, ms' =>
      (match JsonObject.get? ms' k with
        | some y => pyEq x y
        | none => false) && pyEqMembers ms ms'

end

end Json

/-- `left == right` on two objects. -/
def JsonObject.pyEq (left right : JsonObject) : Bool :=
  left.length = right.length && Json.pyEqMembers left right
