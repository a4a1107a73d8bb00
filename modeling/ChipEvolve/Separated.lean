import Mathlib.Data.List.TakeWhile
import Mathlib.Tactic.Common

/-!
# Texts with separators

A list up to the first occurrence of an item, what follows it, and the parts between
all of its occurrences.
-/

namespace Separated

variable {α : Type*} [DecidableEq α] {c d : α} {xs ys part : List α}

/-- A list up to the first `c`. -/
theorem exists_split (c : α) (xs : List α) : ∃ v t, xs = v ++ t ∧ c ∉ v ∧
    (t = [] ∨ ∃ t', t = c :: t') ∧ xs.takeWhile (· ≠ c) = v := by
  induction xs with
  | nil => exact ⟨[], [], rfl, by simp, .inl rfl, rfl⟩
  | cons d xs ih =>
      by_cases hd : d = c
      · subst hd
        exact ⟨[], d :: xs, rfl, by simp, .inr ⟨xs, rfl⟩, by simp⟩
      · obtain ⟨v, t, rfl, hv, ht, htake⟩ := ih
        refine ⟨d :: v, t, rfl, ?_, ht, ?_⟩
        · simp [hv, Ne.symm hd]
        · rw [List.takeWhile_cons_of_pos (by simpa using hd), htake]

/-- A list without `c`, or one with a part before its first `c`. -/
@[elab_as_elim]
theorem split_induction {motive : List α → Prop} (c : α)
    (last : ∀ part, c ∉ part → motive part)
    (first : ∀ part rest, c ∉ part → motive rest → motive (part ++ c :: rest)) (xs : List α) :
    motive xs := by
  induction hn : xs.length using Nat.strongRecOn generalizing xs with
  | ind n ih =>
      obtain ⟨v, t, rfl, hv, rfl | ⟨t', rfl⟩, _⟩ := exists_split c xs
      · rw [List.append_nil]
        exact last v hv
      · refine first v t' hv (ih t'.length ?_ t' rfl)
        rw [← hn, List.length_append, List.length_cons]
        omega

theorem not_mem_of_mem_splitOn (h : part ∈ xs.splitOn c) : c ∉ part := by
  induction xs using split_induction c with
  | last xs hxs =>
      rw [List.splitOn_eq_singleton hxs, List.mem_singleton] at h
      rwa [h]
  | first v rest hv ih =>
      rw [List.splitOn_append_cons_self_of_not_mem hv] at h
      rcases List.mem_cons.mp h with rfl | h
      · exact hv
      · exact ih h

theorem length_splitOn (c : α) (xs : List α) : (xs.splitOn c).length = xs.count c + 1 := by
  induction xs using split_induction c with
  | last xs hxs => rw [List.splitOn_eq_singleton hxs, List.count_eq_zero_of_not_mem hxs]; rfl
  | first v rest hv ih =>
      rw [List.splitOn_append_cons_self_of_not_mem hv, List.length_cons, ih, List.count_append,
        List.count_eq_zero_of_not_mem hv, List.count_cons_self]
      omega

/-! ## Only the first -/

/-- What is before the first `c`, and what is after it. -/
def splitFirst (c : α) (xs : List α) : List α × List α :=
  (xs.takeWhile (· ≠ c), (xs.dropWhile (· ≠ c)).drop 1)

theorem splitFirst_append (h : c ∉ xs) (ys : List α) :
    splitFirst c (xs ++ c :: ys) = (xs, ys) := by
  have hpos : ∀ x ∈ xs, decide (x ≠ c) = true := fun x hx ↦
    decide_eq_true fun heq ↦ h (heq ▸ hx)
  rw [splitFirst, List.takeWhile_append_of_pos hpos, List.dropWhile_append_of_pos hpos,
    List.takeWhile_cons_of_neg (by simp), List.dropWhile_cons_of_neg (by simp), List.append_nil]
  rfl

theorem splitFirst_of_not_mem (h : c ∉ xs) : splitFirst c xs = (xs, []) := by
  have hpos : ∀ x ∈ xs, decide (x ≠ c) = true := fun x hx ↦
    decide_eq_true fun heq ↦ h (heq ▸ hx)
  rw [splitFirst, List.takeWhile_eq_self_iff.mpr hpos, List.dropWhile_eq_nil_iff.mpr hpos]
  rfl

theorem splitFirst_append_left (h : c ∉ xs) (ys : List α) :
    splitFirst c (xs ++ ys) = (xs ++ (splitFirst c ys).1, (splitFirst c ys).2) := by
  have hpos : ∀ x ∈ xs, decide (x ≠ c) = true := fun x hx ↦
    decide_eq_true fun heq ↦ h (heq ▸ hx)
  rw [splitFirst, List.takeWhile_append_of_pos hpos, List.dropWhile_append_of_pos hpos]
  rfl

theorem splitFirst_isPrefix (c : α) (xs : List α) : (splitFirst c xs).1 <+: xs :=
  List.takeWhile_prefix _

theorem not_mem_splitFirst (c : α) (xs : List α) : c ∉ (splitFirst c xs).1 := by
  obtain ⟨v, t, _, hv, _, htake⟩ := exists_split c xs
  rwa [splitFirst, htake]

/-- The items up to the first `c` that no `stop` follows. -/
def cutAt (c stop : α) : List α → List α
  | [] => []
  | d :: xs => if d = c ∧ stop ∉ xs then [] else d :: cutAt c stop xs

theorem cutAt_isPrefix (c stop : α) (xs : List α) : cutAt c stop xs <+: xs := by
  induction xs with
  | nil => exact List.prefix_refl _
  | cons d xs ih =>
      unfold cutAt
      split_ifs with h
      · exact List.nil_prefix
      · exact List.cons_prefix_cons.mpr ⟨rfl, ih⟩

theorem cutAt_append (stop : α) (h : c ∉ xs) (ys : List α) :
    cutAt c stop (xs ++ ys) = xs ++ cutAt c stop ys := by
  induction xs with
  | nil => rfl
  | cons d xs ih =>
      rw [List.mem_cons, not_or] at h
      rw [List.cons_append, cutAt, if_neg (fun hd ↦ h.1 hd.1.symm), ih h.2]
      rfl

theorem cutAt_append_cons {stop : α} (hne : c ≠ stop) (xs ys : List α) :
    cutAt c stop (xs ++ stop :: ys) = xs ++ stop :: cutAt c stop ys := by
  induction xs with
  | nil => rw [List.nil_append, cutAt, if_neg fun h ↦ hne h.1.symm]; rfl
  | cons d xs ih =>
      rw [List.cons_append, cutAt, if_neg (fun h ↦ h.2 (by simp)), ih]
      rfl

theorem cutAt_of_not_mem (stop : α) (h : c ∉ xs) : cutAt c stop xs = xs := by
  have happend := cutAt_append stop h []
  rwa [List.append_nil, cutAt, List.append_nil] at happend

end Separated
