import Mathlib.Data.List.Nodup
import Mathlib.Data.List.Perm.Basic
import Mathlib.Tactic.Common

/-!
# Tables as lists of rows

A table is the list of its rows in insertion order.  The statements a store
issues are few: look a row up by its key, update the rows that satisfy a
predicate, delete such rows, and append rows.  Rewriting rows one by one keeps
the columns it does not write, and most lemmas ask for exactly that.
-/

namespace Table

variable {α β κ : Type*} [DecidableEq κ]

/-- The first row with the given key. -/
def get? (key : α → κ) (k : κ) (rows : List α) : Option α :=
  rows.find? fun r ↦ key r = k

/-- Change the rows that satisfy `p`, and no other. -/
def update (p : α → Bool) (f : α → α) (rows : List α) : List α :=
  rows.map fun r ↦ if p r then f r else r

/-- Remove the rows that satisfy `p`. -/
def delete (p : α → Bool) (rows : List α) : List α :=
  rows.filter fun r ↦ !p r

/-- No two rows share a key. -/
def Unique (key : α → κ) (rows : List α) : Prop :=
  (rows.map key).Nodup

variable {key : α → κ} {p q : α → Bool} {f : α → α} {rows : List α} {k : κ} {r : α}

theorem mem_of_get? (h : get? key k rows = some r) : r ∈ rows :=
  List.mem_of_find?_eq_some h

theorem key_of_get? (h : get? key k rows = some r) : key r = k := by
  simpa using List.find?_some h

theorem get?_eq_none_iff : get? key k rows = none ↔ ∀ r ∈ rows, key r ≠ k := by
  simp [get?]

theorem get?_isSome_iff : (get? key k rows).isSome ↔ k ∈ rows.map key := by
  simp [get?]

theorem Unique.get? (hu : Unique key rows) (hr : r ∈ rows) : get? key (key r) rows = some r := by
  induction rows with
  | nil => simp at hr
  | cons a rows ih =>
      simp only [Unique, List.map_cons, List.nodup_cons] at hu
      rcases List.mem_cons.mp hr with rfl | hr
      · simp [Table.get?]
      · have hne : key a ≠ key r := fun heq ↦ hu.1 (heq ▸ List.mem_map_of_mem hr)
        simpa [Table.get?, hne] using ih hu.2 hr

theorem Unique.get?_iff (hu : Unique key rows) :
    Table.get? key k rows = some r ↔ r ∈ rows ∧ key r = k := by
  constructor
  · intro h
    exact ⟨mem_of_get? h, key_of_get? h⟩
  · rintro ⟨hr, rfl⟩
    exact hu.get? hr

omit [DecidableEq κ] in
theorem Unique.eq_of_key (hu : Unique key rows) {a b : α} (ha : a ∈ rows) (hb : b ∈ rows)
    (hkey : key a = key b) : a = b :=
  List.inj_on_of_nodup_map hu ha hb hkey

/-! ## Rewritten rows -/

/-- Rewriting rows without their key rewrites what a lookup finds. -/
theorem get?_map (hkey : ∀ r, key (f r) = key r) :
    get? key k (rows.map f) = (get? key k rows).map f := by
  simp only [get?, List.find?_map]
  congr 2
  funext r
  simp [hkey]

omit [DecidableEq κ] in
/-- A column that `f` does not write keeps its values, in order. -/
theorem map_map_of_keeps {g : α → β} (hg : ∀ r, g (f r) = g r) :
    (rows.map f).map g = rows.map g := by
  rw [List.map_map]
  exact List.map_congr_left fun r _ ↦ hg r

omit [DecidableEq κ] in
theorem Unique.map (hu : Unique key rows) (hkey : ∀ r, key (f r) = key r) :
    Unique key (rows.map f) := by
  unfold Unique
  rw [map_map_of_keeps hkey]
  exact hu

/-! ## Appended and deleted rows -/

theorem get?_append {new : List α} :
    get? key k (rows ++ new) = (get? key k rows).or (get? key k new) := by
  simp only [get?, List.find?_append]

theorem get?_append_of_some {new : List α} {a : α} (h : get? key k rows = some a) :
    get? key k (rows ++ new) = some a := by
  simp [get?_append, h]

omit [DecidableEq κ] in
theorem Unique.append (hu : Unique key rows) (hr : ∀ a ∈ rows, key a ≠ key r) :
    Unique key (rows ++ [r]) := by
  simp only [Unique, List.map_append, List.map_cons, List.map_nil]
  refine List.Nodup.append hu (List.nodup_singleton _) ?_
  simpa [List.disjoint_singleton] using hr

omit [DecidableEq κ] in
/-- At most one row meets `p` when any two that do have the same key. -/
theorem Unique.countP_le_one (hu : Unique key rows)
    (h : ∀ a ∈ rows, ∀ b ∈ rows, p a = true → p b = true → key a = key b) :
    rows.countP p ≤ 1 := by
  induction rows with
  | nil => simp
  | cons r rows ih =>
      obtain ⟨hnew, hrest⟩ := List.nodup_cons.mp (show ((r :: rows).map key).Nodup from hu)
      have htail := ih hrest fun a ha b hb ↦
        h a (List.mem_cons_of_mem _ ha) b (List.mem_cons_of_mem _ hb)
      by_cases hp : p r = true
      · have hnone : rows.countP p = 0 := by
          refine List.countP_eq_zero.mpr fun a ha hpa ↦ hnew ?_
          rw [h r List.mem_cons_self a (List.mem_cons_of_mem _ ha) hp hpa]
          exact List.mem_map_of_mem ha
        rw [List.countP_cons_of_pos hp]
        omega
      · rwa [List.countP_cons_of_neg hp]

omit [DecidableEq κ] in
/-- The rows of different owners, one owner after the other. -/
theorem Unique.flatMap_filter {ι : Type*} [DecidableEq ι] {owner : α → ι} {owners : List ι}
    (hu : Unique key rows) (howners : owners.Nodup) :
    Unique key (owners.flatMap fun i ↦ rows.filter fun r ↦ owner r = i) := by
  unfold Unique
  rw [List.map_flatMap, List.nodup_flatMap]
  refine ⟨fun i _ ↦ (List.filter_sublist.map key).nodup hu, howners.imp fun hne ↦ ?_⟩
  refine List.disjoint_left.mpr fun k hk hk' ↦ ?_
  obtain ⟨r, hr, rfl⟩ := List.mem_map.mp hk
  obtain ⟨r', hr', hkey⟩ := List.mem_map.mp hk'
  obtain ⟨hmem, howner⟩ := List.mem_filter.mp hr
  obtain ⟨hmem', howner'⟩ := List.mem_filter.mp hr'
  obtain rfl := hu.eq_of_key hmem' hmem hkey
  exact hne ((of_decide_eq_true howner).symm.trans (of_decide_eq_true howner'))

omit [DecidableEq κ] in
/-- The same where the rows of each owner come in an order of their own. -/
theorem Unique.flatMap {ι : Type*} [DecidableEq ι] {owner : α → ι} {owners : List ι}
    {rowsOf : ι → List α} (hu : Unique key rows) (howners : owners.Nodup)
    (hrows : ∀ i ∈ owners, (rowsOf i).Perm (rows.filter fun r ↦ owner r = i)) :
    Unique key (owners.flatMap rowsOf) :=
  ((List.Perm.flatMap_left owners hrows).map key).nodup_iff.mpr
    (hu.flatMap_filter howners)

theorem mem_delete : r ∈ delete p rows ↔ r ∈ rows ∧ p r = false := by
  simp [delete]

/-! ## Keys of several parts -/

/-- Two texts that are split at their first `c` are equal only part by part. -/
theorem append_cons_inj {α : Type*} {c : α} {x y z u : List α} (hx : c ∉ x) (hy : c ∉ y)
    (h : x ++ c :: z = y ++ c :: u) : x = y ∧ z = u := by
  induction x generalizing y with
  | nil =>
      cases y with
      | nil => exact ⟨rfl, by simpa using h⟩
      | cons b y => exact absurd (by simpa using congrArg List.head? h) (List.ne_of_not_mem_cons hy)
  | cons a x ih =>
      cases y with
      | nil =>
          exact absurd (by simpa using (congrArg List.head? h).symm) (List.ne_of_not_mem_cons hx)
      | cons b y =>
          obtain ⟨rfl, htail⟩ := List.cons.inj h
          obtain ⟨rfl, rfl⟩ :=
            ih (List.not_mem_of_not_mem_cons hx) (List.not_mem_of_not_mem_cons hy) htail
          exact ⟨rfl, rfl⟩

end Table
