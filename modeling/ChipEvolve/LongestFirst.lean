import Mathlib.Data.List.Sort
import Mathlib.Tactic.Common

/-!
# Searching the longest first

A list is sorted by a size, the largest first and equal ones in their order, and
searched.  What is found is the item that leads the others that could be found.
-/

namespace LongestFirst

variable {α β : Type*}

def sort (size : α → Nat) (items : List α) : List α :=
  items.insertionSort fun a b ↦ size b ≤ size a

/-- Before `x` in the list everything that passes is smaller, and after it nothing is larger. -/
def Leads (size : α → Nat) (passes : α → Prop) (pre : List α) (x : α) (post : List α) : Prop :=
  (∀ z ∈ pre, passes z → size z < size x) ∧ ∀ z ∈ post, passes z → size z ≤ size x

variable {size : α → Nat} {f : α → Option β} {items pre post : List α} {a x : α} {y : β}

theorem findSome?_insert_of_none (h : f a = none) (items : List α) :
    (items.orderedInsert (fun a b ↦ size b ≤ size a) a).findSome? f = items.findSome? f := by
  induction items with
  | nil => simp [h]
  | cons b items ih =>
      rw [List.orderedInsert_cons]
      split_ifs with hle
      · rw [List.findSome?_cons, h]
      · rw [List.findSome?_cons, List.findSome?_cons, ih]

/-- An item goes before what is not larger. -/
theorem findSome?_insert_of_some (h : f a = some y)
    (hle : ∀ z ∈ items, (f z).isSome = true → size z ≤ size a) :
    (items.orderedInsert (fun a b ↦ size b ≤ size a) a).findSome? f = some y := by
  induction items with
  | nil => simp [h]
  | cons b items ih =>
      rw [List.forall_mem_cons] at hle
      rw [List.orderedInsert_cons]
      split_ifs with hba
      · rw [List.findSome?_cons, h]
      · cases hb : f b with
        | none => rw [List.findSome?_cons, hb, ih hle.2]
        | some v => exact absurd (hle.1 (by simp [hb])) hba

/-- And after what is larger. -/
theorem findSome?_insert_of_lt {z : α} (hz : z ∈ items) (hf : (f z).isSome = true)
    (hlt : size a < size z) (hsorted : items.Pairwise fun a b ↦ size b ≤ size a) :
    (items.orderedInsert (fun a b ↦ size b ≤ size a) a).findSome? f = items.findSome? f := by
  induction items with
  | nil => cases hz
  | cons b items ih =>
      rw [List.pairwise_cons] at hsorted
      have hab : ¬size b ≤ size a := by
        rcases List.mem_cons.mp hz with rfl | hz
        · omega
        · have hzb := hsorted.1 z hz
          omega
      rw [List.orderedInsert_cons, if_neg hab, List.findSome?_cons, List.findSome?_cons]
      cases hb : f b with
      | some v => rfl
      | none =>
          rcases List.mem_cons.mp hz with rfl | hz
          · simp [hb] at hf
          · exact ih hz hsorted.2

theorem sort_pairwise (items : List α) :
    (sort size items).Pairwise fun a b ↦ size b ≤ size a := by
  have htotal : Std.Total fun a b : α ↦ size b ≤ size a := ⟨fun a b ↦ Nat.le_total _ _⟩
  have htrans : IsTrans α fun a b ↦ size b ≤ size a := ⟨fun a b c hab hbc ↦ hbc.trans hab⟩
  exact List.pairwise_insertionSort _ items

theorem mem_sort : a ∈ sort size items ↔ a ∈ items := List.mem_insertionSort _

theorem exists_leads (h : (sort size items).findSome? f = some y) :
    ∃ pre x post, items = pre ++ x :: post ∧ f x = some y ∧
      Leads size (fun z ↦ (f z).isSome = true) pre x post := by
  induction items with
  | nil => cases h
  | cons a items ih =>
      have hsort : sort size (a :: items) =
          (sort size items).orderedInsert (fun a b ↦ size b ≤ size a) a := rfl
      rw [hsort] at h
      cases ha : f a with
      | none =>
          rw [findSome?_insert_of_none ha] at h
          obtain ⟨pre, x, post, rfl, hx, hpre, hpost⟩ := ih h
          refine ⟨a :: pre, x, post, rfl, hx, ?_, hpost⟩
          rw [List.forall_mem_cons]
          exact ⟨fun hsome ↦ by simp [ha] at hsome, hpre⟩
      | some v =>
          by_cases hlarger : ∃ z ∈ items, (f z).isSome = true ∧ size a < size z
          · obtain ⟨z, hz, hf, hlt⟩ := hlarger
            rw [findSome?_insert_of_lt (mem_sort.mpr hz) hf hlt (sort_pairwise items)] at h
            obtain ⟨pre, x, post, rfl, hx, hpre, hpost⟩ := ih h
            refine ⟨a :: pre, x, post, rfl, hx, ?_, hpost⟩
            rw [List.forall_mem_cons]
            refine ⟨fun _ ↦ ?_, hpre⟩
            have hxs : (f x).isSome = true := by simp [hx]
            rcases List.mem_append.mp hz with hz | hz
            · exact hlt.trans (hpre z hz hf)
            · rcases List.mem_cons.mp hz with rfl | hz
              · exact hlt
              · exact hlt.trans_le (hpost z hz hf)
          · have hle : ∀ z ∈ items, (f z).isSome = true → size z ≤ size a := by
              intro z hz hf
              by_contra hlt
              exact hlarger ⟨z, hz, hf, by omega⟩
            rw [findSome?_insert_of_some ha fun z hz ↦ hle z (mem_sort.mp hz)] at h
            obtain rfl := Option.some.inj h
            exact ⟨[], a, items, rfl, ha, by simp, hle⟩

/-- Only one position leads. -/
theorem Leads.eq {passes : α → Prop} {pre' post' : List α} {x' : α}
    (h : Leads size passes pre x post) (h' : Leads size passes pre' x' post') (hx : passes x)
    (hx' : passes x') (heq : pre ++ x :: post = pre' ++ x' :: post') :
    pre = pre' ∧ x = x' ∧ post = post' := by
  rcases List.append_eq_append_iff.mp heq with ⟨mid, rfl, hmid⟩ | ⟨mid, rfl, hmid⟩
  · rcases List.cons_eq_append_iff.mp hmid with ⟨rfl, hsame⟩ | ⟨rest, rfl, rfl⟩
    · obtain ⟨rfl, rfl⟩ := List.cons.inj hsame
      exact ⟨by simp, rfl, rfl⟩
    · have hlt := h'.1 x (by simp) hx
      have hle := h.2 x' (by simp) hx'
      omega
  · rcases List.cons_eq_append_iff.mp hmid with ⟨rfl, hsame⟩ | ⟨rest, rfl, rfl⟩
    · obtain ⟨rfl, rfl⟩ := List.cons.inj hsame
      exact ⟨by simp, rfl, rfl⟩
    · have hlt := h.1 x' (by simp) hx'
      have hle := h'.2 x (by simp) hx
      omega

/-- The search finds what leads. -/
theorem findSome?_of_leads (hx : f x = some y)
    (h : Leads size (fun z ↦ (f z).isSome = true) pre x post) :
    (sort size (pre ++ x :: post)).findSome? f = some y := by
  have hsome : ((sort size (pre ++ x :: post)).findSome? f).isSome = true := by
    rw [List.isSome_findSome?, List.any_eq_true]
    exact ⟨x, mem_sort.mpr (by simp), by simp [hx]⟩
  obtain ⟨v, hv⟩ := Option.isSome_iff_exists.mp hsome
  obtain ⟨pre', x', post', heq, hx', h'⟩ := exists_leads hv
  obtain ⟨_, rfl, _⟩ := h.eq h' (by simp [hx]) (by simp [hx']) heq
  rw [hv, ← hx', hx]

end LongestFirst
