import Mathlib.Data.List.Perm.Basic
import Mathlib.Data.List.Nodup
import Mathlib.Logic.Function.Basic
import Mathlib.Tactic.Common

/-!
# A crew and the items in its hands

Items are submitted one by one, a member of a crew takes the oldest, and discards it when it
has done with it.  An item is active from its submission until it is discarded.  If nobody
submits an active item, no two members ever hold the same one.
-/

/-- The active items, those nobody has taken, and what each member holds. -/
structure Crew (τ κ : Type*) where
  active : List κ := []
  submitted : List κ := []
  held : τ → Option κ := fun _ ↦ none

namespace Crew

variable {τ κ : Type*} [DecidableEq τ]

def submit (k : κ) (c : Crew τ κ) : Crew τ κ :=
  { c with active := c.active ++ [k], submitted := c.submitted ++ [k] }

/-- The member takes the oldest item. -/
def take (m : τ) (c : Crew τ κ) : Option (κ × Crew τ κ) :=
  match c.held m, c.submitted with
  | none, k :: rest =>
      some (k, { c with submitted := rest, held := Function.update c.held m (some k) })
  | _, _ => none

/-- The member discards what it holds. -/
def discard [DecidableEq κ] (m : τ) (c : Crew τ κ) : Option (Crew τ κ) :=
  (c.held m).map fun k ↦
    { c with active := c.active.erase k, held := Function.update c.held m none }

/-- Every active item is waiting or in the hands of one member. -/
structure Accounted (members : List τ) (limit : Nat) (c : Crew τ κ) : Prop where
  nodup : c.active.Nodup
  bounded : c.active.length ≤ limit
  flight : (c.submitted ++ members.filterMap c.held).Perm c.active

theorem active_of_take {c c' : Crew τ κ} {m : τ} {k : κ} (h : c.take m = some (k, c')) :
    c'.active = c.active := by
  unfold take at h
  split at h
  · obtain ⟨_, rfl⟩ := Prod.mk.inj (Option.some.inj h)
    rfl
  · cases h

theorem active_of_discard [DecidableEq κ] {c c' : Crew τ κ} {m : τ} (h : c.discard m = some c') :
    c'.active ⊆ c.active := by
  obtain ⟨k, _, rfl⟩ := Option.map_eq_some_iff.mp h
  exact List.erase_subset

/-! ## Filtering an updated function -/

theorem filterMap_update_of_not_mem {members : List τ} {f : τ → Option κ} {m : τ} {x : Option κ}
    (hm : m ∉ members) : members.filterMap (Function.update f m x) = members.filterMap f := by
  refine List.filterMap_congr fun m' hm' ↦ Function.update_of_ne (fun heq ↦ hm ?_) _ _
  exact heq ▸ hm'

theorem filterMap_update_perm {members : List τ} (hnodup : members.Nodup) {f : τ → Option κ}
    {m : τ} (hm : m ∈ members) (k : κ) :
    (members.filterMap (Function.update f m (some k))).Perm
      (k :: members.filterMap (Function.update f m none)) := by
  induction members with
  | nil => cases hm
  | cons m' members ih =>
      rw [List.nodup_cons] at hnodup
      rcases List.mem_cons.mp hm with rfl | hm
      · rw [List.filterMap_cons_some (Function.update_self ..),
          List.filterMap_cons_none (Function.update_self ..),
          filterMap_update_of_not_mem hnodup.1, filterMap_update_of_not_mem hnodup.1]
      · have hne : m' ≠ m := fun heq ↦ hnodup.1 (heq ▸ hm)
        have hsame : ∀ x, Function.update f m x m' = f m' := fun x ↦ Function.update_of_ne hne x f
        cases hf : f m' with
        | none =>
            rw [List.filterMap_cons_none ((hsame _).trans hf),
              List.filterMap_cons_none ((hsame _).trans hf)]
            exact ih hnodup.2 hm
        | some k' =>
            rw [List.filterMap_cons_some ((hsame _).trans hf),
              List.filterMap_cons_some ((hsame _).trans hf)]
            exact ((ih hnodup.2 hm).cons k').trans (.swap k k' _)

/-! ## What every operation keeps -/

namespace Accounted

variable {members : List τ} {limit : Nat} {c c' : Crew τ κ} {m : τ} {k : κ}

omit [DecidableEq τ] in
theorem empty : ({} : Crew τ κ).Accounted members limit where
  nodup := List.nodup_nil
  bounded := Nat.zero_le _
  flight := by simp

omit [DecidableEq τ] in
theorem submit (h : c.Accounted members limit) (hroom : c.active.length < limit)
    (hnew : k ∉ c.active) : (c.submit k).Accounted members limit where
  nodup := h.nodup.append (List.nodup_singleton k) (List.disjoint_singleton.mpr hnew)
  bounded := by
    change (c.active ++ [k]).length ≤ limit
    rw [List.length_append, List.length_singleton]
    exact hroom
  flight := by
    change ((c.submitted ++ [k]) ++ members.filterMap c.held).Perm (c.active ++ [k])
    have hmove : ((c.submitted ++ [k]) ++ members.filterMap c.held).Perm
        ((c.submitted ++ members.filterMap c.held) ++ [k]) := by
      rw [List.append_assoc, List.append_assoc]
      exact List.perm_append_comm.append_left _
    exact hmove.trans (h.flight.append_right _)

theorem held_eq_update (hheld : c.held m = none) : Function.update c.held m none = c.held := by
  rw [← hheld, Function.update_eq_self]

theorem take (h : c.Accounted members limit) (hnodup : members.Nodup) (hm : m ∈ members)
    (htake : c.take m = some (k, c')) : c'.Accounted members limit := by
  unfold Crew.take at htake
  split at htake
  · next k' rest hheld hsubmitted =>
      obtain ⟨rfl, rfl⟩ := Prod.mk.inj (Option.some.inj htake)
      refine ⟨h.nodup, h.bounded, ?_⟩
      have hflight := h.flight
      rw [hsubmitted] at hflight
      have hperm := filterMap_update_perm hnodup (f := c.held) hm k'
      rw [held_eq_update hheld] at hperm
      exact ((hperm.append_left rest).trans List.perm_middle).trans hflight
  · cases htake

theorem discard [DecidableEq κ] (h : c.Accounted members limit) (hnodup : members.Nodup)
    (hm : m ∈ members) (hdiscard : c.discard m = some c') : c'.Accounted members limit := by
  obtain ⟨k, hk, rfl⟩ := Option.map_eq_some_iff.mp hdiscard
  have hheld : Function.update c.held m (some k) = c.held := by
    rw [← hk, Function.update_eq_self]
  have hperm := filterMap_update_perm hnodup (f := c.held) hm k
  rw [hheld] at hperm
  have hflight : (k :: (c.submitted ++ members.filterMap (Function.update c.held m none))).Perm
      c.active := (List.perm_middle.symm.trans (hperm.symm.append_left _)).trans h.flight
  refine ⟨h.nodup.erase k, Nat.le_trans List.length_erase_le h.bounded, ?_⟩
  simpa using hflight.erase k

/-! ## What it says -/

omit [DecidableEq τ] in
theorem mem_active (h : c.Accounted members limit) (hm : m ∈ members) (hk : c.held m = some k) :
    k ∈ c.active :=
  h.flight.subset (List.mem_append_right _ (List.mem_filterMap.mpr ⟨m, hm, hk⟩))

/-- No two members hold the same item. -/
theorem holder_unique (h : c.Accounted members limit) (hnodup : members.Nodup) {m' : τ}
    (hm : m ∈ members) (hm' : m' ∈ members) (hk : c.held m = some k) (hk' : c.held m' = some k) :
    m' = m := by
  by_contra hne
  have hheld : Function.update c.held m (some k) = c.held := by
    rw [← hk, Function.update_eq_self]
  have hperm := filterMap_update_perm hnodup (f := c.held) hm k
  rw [hheld] at hperm
  have hitems : (members.filterMap c.held).Nodup :=
    (List.nodup_append.mp (h.flight.nodup_iff.mpr h.nodup)).2.1
  refine (List.nodup_cons.mp (hperm.nodup_iff.mp hitems)).1 (List.mem_filterMap.mpr ⟨m', hm', ?_⟩)
  rw [Function.update_of_ne hne, hk']

end Accounted

end Crew
