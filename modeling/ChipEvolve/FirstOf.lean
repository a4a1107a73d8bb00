import Mathlib.Data.List.Basic
import Mathlib.Tactic.Common

/-!
# The first of each key

A log that keeps the first item of each key and forgets the later ones, as it is
written while the items arrive: what has been seen is a test on keys.
-/

namespace FirstOf

variable {α κ : Type*} [DecidableEq κ]

/-- Of the items whose keys are new, the first of each key, in order. -/
def fresh (key : α → κ) (seen : κ → Bool) (items : List α) : List α :=
  (items.filter fun item ↦ !seen (key item)).eraseDupsBy fun later first ↦ key later = key first

variable {key : α → κ} {seen seen' : κ → Bool} {item : α} {items : List α}

@[simp] theorem fresh_nil : fresh key seen [] = [] := rfl

theorem fresh_none : fresh key (fun _ ↦ false) items =
    items.eraseDupsBy fun later first ↦ key later = key first := by
  simp [fresh]

theorem fresh_cons_of_seen (h : seen (key item) = true) :
    fresh key seen (item :: items) = fresh key seen items := by
  simp [fresh, h]

/-- A new item is kept, and from then on its key is seen. -/
theorem fresh_cons_of_new (h : seen (key item) = false)
    (hseen : ∀ k, seen' k = (decide (k = key item) || seen k)) :
    fresh key seen (item :: items) = item :: fresh key seen' items := by
  unfold fresh
  rw [List.filter_cons_of_pos (by simp [h]), List.eraseDupsBy_cons, List.filter_filter]
  congr 2
  refine List.filter_congr fun later _ ↦ ?_
  rw [hseen]
  by_cases hkey : key later = key item <;> simp [hkey]

/-- A count of fewer things that comes out the same counts the same things. -/
theorem of_countP_eq {p q : α → Bool} (hpq : ∀ x ∈ items, p x = true → q x = true)
    (h : items.countP p = items.countP q) : ∀ x ∈ items, q x = true → p x = true := by
  induction items with
  | nil => simp
  | cons x xs ih =>
      rw [List.forall_mem_cons] at hpq ⊢
      have hle : xs.countP p ≤ xs.countP q := List.countP_mono_left hpq.2
      rw [List.countP_cons, List.countP_cons] at h
      cases hp : p x with
      | true =>
          have hq := hpq.1 hp
          simp only [hp, hq, if_true] at h
          exact ⟨fun _ ↦ rfl, ih hpq.2 (by omega)⟩
      | false =>
          cases hq : q x with
          | true =>
              simp only [hp, hq, if_true, Bool.false_eq_true, if_false] at h
              omega
          | false =>
              simp only [hp, hq, Bool.false_eq_true, if_false] at h
              exact ⟨by simp, ih hpq.2 (by omega)⟩

end FirstOf
