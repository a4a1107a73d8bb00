import ChipEvolve.Table

/-!
# Grants and their ends

A list of entries says, newest first, what happened to keys: a key was granted a
value, or what it had came to an end.  What stands for a key is the value of its
newest entry, if that is a grant.  A table follows the entries if each key has the
row of what stands for it.
-/

namespace Grants

/-- What can happen to a key. -/
inductive Entry (κ ν : Type*) where
  | granted (key : κ) (value : ν)
  | ended (key : κ)

variable {κ ν α β : Type*}

def Entry.key : Entry κ ν → κ
  | .granted k _ => k
  | .ended k => k

/-- The key was granted the value, and nothing has happened to it since. -/
def Stands (k : κ) (v : ν) (entries : List (Entry κ ν)) : Prop :=
  ∃ later earlier, entries = later ++ .granted k v :: earlier ∧ ∀ e ∈ later, e.key ≠ k

section Standing

variable {entries : List (Entry κ ν)} {k : κ} {v : ν}

/-- An entry about another key does not change what stands for this one. -/
theorem Stands.cons {e : Entry κ ν} (h : Stands k v entries) (hne : e.key ≠ k) :
    Stands k v (e :: entries) := by
  obtain ⟨later, earlier, rfl, hlater⟩ := h
  exact ⟨e :: later, earlier, rfl, List.forall_mem_cons.mpr ⟨hne, hlater⟩⟩

theorem Stands.mem (h : Stands k v entries) : .granted k v ∈ entries := by
  obtain ⟨later, earlier, rfl, _⟩ := h
  simp

variable [DecidableEq κ]

/-- What stands for a key. -/
def standing? (k : κ) : List (Entry κ ν) → Option ν
  | [] => none
  | .granted k' v :: entries => if k' = k then some v else standing? k entries
  | .ended k' :: entries => if k' = k then none else standing? k entries

theorem standing?_cons_of_ne {e : Entry κ ν} (h : e.key ≠ k) :
    standing? k (e :: entries) = standing? k entries := by
  cases e with
  | granted k' v => exact if_neg h
  | ended k' => exact if_neg h

theorem standing?_append {later : List (Entry κ ν)} (h : ∀ e ∈ later, e.key ≠ k) :
    standing? k (later ++ entries) = standing? k entries := by
  induction later with
  | nil => rfl
  | cons e later ih =>
      rw [List.cons_append, standing?_cons_of_ne (h e List.mem_cons_self)]
      exact ih fun e' he' ↦ h e' (List.mem_cons_of_mem _ he')

theorem standing?_eq_some_iff : standing? k entries = some v ↔ Stands k v entries := by
  constructor
  · intro h
    induction entries with
    | nil => cases h
    | cons e entries ih =>
        by_cases hkey : e.key = k
        · cases e with
          | granted k' v' =>
              obtain rfl : k' = k := hkey
              obtain rfl : v' = v := by simpa [standing?] using h
              exact ⟨[], entries, rfl, by simp⟩
          | ended k' =>
              obtain rfl : k' = k := hkey
              simp [standing?] at h
        · rw [standing?_cons_of_ne hkey] at h
          exact (ih h).cons hkey
  · rintro ⟨later, earlier, rfl, hlater⟩
    rw [standing?_append hlater]
    exact if_pos rfl

end Standing

/-! ## Tables that follow the entries -/

/-- Each key has the row of what stands for it, as far as `shows` and `means` can tell. -/
def Follows [DecidableEq κ] (key : α → κ) (shows : α → β) (means : ν → β)
    (rows : List α) (entries : List (Entry κ ν)) : Prop :=
  ∀ k, (Table.get? key k rows).map shows = (standing? k entries).map means

namespace Follows

variable [DecidableEq κ] {key : α → κ} {shows : α → β} {means : ν → β} {rows : List α}
  {entries : List (Entry κ ν)} {r : α} {v : ν} {k : κ}

theorem empty : Follows key shows means [] ([] : List (Entry κ ν)) := fun _ ↦ rfl

/-- A row for a free key is a grant. -/
theorem append (h : Follows key shows means rows entries)
    (hfree : ∀ a ∈ rows, key a ≠ key r) (hv : means v = shows r) :
    Follows key shows means (rows ++ [r]) (.granted (key r) v :: entries) := by
  intro k
  rw [Table.get?_append]
  by_cases hk : key r = k
  · have hnone : Table.get? key k rows = none := Table.get?_eq_none_iff.mpr (hk ▸ hfree)
    rw [hnone]
    simp [Table.get?, standing?, hk, hv]
  · have hne : (Entry.granted (key r) v).key ≠ k := hk
    rw [standing?_cons_of_ne hne, ← h k]
    simp [Table.get?, hk]

/-- The rows of a key go when what stands for it ends. -/
theorem delete (h : Follows key shows means rows entries) :
    Follows key shows means (Table.delete (fun a ↦ key a = k) rows) (.ended k :: entries) := by
  intro k'
  by_cases hk : k = k'
  · have hnone : Table.get? key k' (Table.delete (fun a ↦ key a = k) rows) = none := by
      rw [Table.get?_eq_none_iff]
      intro a ha heq
      have hkept := (Table.mem_delete.mp ha).2
      simp [heq, hk] at hkept
    rw [hnone]
    simp [standing?, hk]
  · have hne : (Entry.ended k : Entry κ ν).key ≠ k' := hk
    rw [standing?_cons_of_ne hne, ← h k']
    congr 1
    simp only [Table.get?, Table.delete, List.find?_filter]
    congr 1
    funext a
    by_cases ha : key a = k'
    · simp [ha, Ne.symm hk]
    · simp [ha]

/-- Rewriting rows does not matter where `shows` does not look. -/
theorem update (h : Follows key shows means rows entries) {p : α → Bool} {f : α → α}
    (hkey : ∀ a, key (f a) = key a) (hshows : ∀ a, shows (f a) = shows a) :
    Follows key shows means (Table.update p f rows) entries := by
  intro k
  have hkey' : ∀ a, key (if p a then f a else a) = key a := by
    intro a
    split
    · exact hkey a
    · rfl
  rw [← h k, Table.update, Table.get?_map hkey', Option.map_map]
  congr 1
  funext a
  simp only [Function.comp_apply]
  split
  · exact hshows a
  · rfl

/-- A row shows what stands for its key. -/
theorem stands_of_get? (h : Follows key shows means rows entries)
    (hr : Table.get? key k rows = some r) : ∃ v, Stands k v entries ∧ means v = shows r := by
  have hk := h k
  rw [hr, Option.map_some] at hk
  obtain ⟨v, hv, heq⟩ := Option.map_eq_some_iff.mp hk.symm
  exact ⟨v, standing?_eq_some_iff.mp hv, heq⟩

theorem get?_of_stands (h : Follows key shows means rows entries) (hv : Stands k v entries) :
    ∃ r, Table.get? key k rows = some r ∧ shows r = means v := by
  have hk := h k
  rw [standing?_eq_some_iff.mpr hv, Option.map_some] at hk
  exact Option.map_eq_some_iff.mp hk

end Follows

end Grants
