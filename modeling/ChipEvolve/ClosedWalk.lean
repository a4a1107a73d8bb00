import Mathlib.Data.List.Chain
import Mathlib.Logic.Relation
import Mathlib.Tactic.Common

/-!
# Closed walks of a relation

A simple closed walk is a list `[v₀, …, vₖ, v₀]` of related neighbours whose
`v₀, …, vₖ` are distinct.  A walk that meets itself contains one, and a relation
all of whose elements are accessible against its arrows has none.
-/

namespace ClosedWalk

open Relation

variable {α : Type*} {r : α → α → Prop}

/-- No walk comes back to where it started. -/
def Acyclic (r : α → α → Prop) : Prop := ∀ v, ¬TransGen r v v

/-- The list `[v₀, …, vₖ, v₀]`. -/
def IsSimple (r : α → α → Prop) (walk : List α) : Prop :=
  ∃ v vs, walk = v :: vs ++ [v] ∧ (v :: vs).Nodup ∧ walk.IsChain r

theorem transGen_of_isChain {v w : α} {vs : List α} (h : (v :: vs ++ [w]).IsChain r) :
    TransGen r v w := by
  induction vs generalizing v with
  | nil => exact .single (List.isChain_pair.mp h)
  | cons u vs ih =>
      obtain ⟨hvu, hrest⟩ := List.isChain_cons_cons.mp h
      exact .head hvu (ih hrest)

theorem IsSimple.not_acyclic {walk : List α} (h : IsSimple r walk) : ¬Acyclic r := by
  obtain ⟨v, vs, rfl, _, hchain⟩ := h
  exact fun hacyclic ↦ hacyclic v (transGen_of_isChain hchain)

theorem not_rel_self_of_acc {v : α} (h : Acc r v) : ¬r v v := by
  induction h with
  | intro v _ ih => exact fun hv ↦ ih v hv hv

theorem acyclic_of_acc (h : ∀ v w, r v w → Acc (flip r) v) : Acyclic r := by
  intro v hv
  obtain ⟨w, hvw, _⟩ := TransGen.head'_iff.mp hv
  have hacc : Acc (TransGen (flip r)) v := (h v w hvw).transGen
  have hloop : TransGen (flip r) v v := transGen_swap.mpr hv
  exact not_rel_self_of_acc hacc hloop

section Trail

variable [DecidableEq α] {path : List α} {node target : α}

/-- A walk whose end is related to one of its elements closes there. -/
theorem isSimple_of_trail (hchain : path.IsChain r) (hnodup : path.Nodup)
    (hlast : path.getLast? = some node) (hedge : r node target) (htarget : target ∈ path) :
    IsSimple r (path.drop (path.idxOf target) ++ [target]) := by
  have hindex : path.idxOf target < path.length := List.idxOf_lt_length_iff.mpr htarget
  have hdrop : path.drop (path.idxOf target) =
      target :: path.drop (path.idxOf target + 1) := by
    rw [List.drop_eq_getElem_cons hindex, List.getElem_idxOf hindex]
  have hlast' : (path.drop (path.idxOf target)).getLast? = some node := by
    rw [List.getLast?_drop, if_neg (by omega), hlast]
  refine ⟨target, path.drop (path.idxOf target + 1), by rw [hdrop], ?_, ?_⟩
  · rw [← hdrop]
    exact hnodup.sublist (List.drop_sublist _ _)
  · refine List.isChain_append.mpr ⟨hchain.drop _, List.isChain_singleton _, ?_⟩
    intro x hx y hy
    obtain rfl : node = x := Option.some_inj.mp (hlast'.symm.trans hx)
    obtain rfl : target = y := by simpa using hy
    exact hedge

end Trail

end ClosedWalk
